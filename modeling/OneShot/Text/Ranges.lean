/-
# OneShot.Text.Ranges -- sets of characters as ranges of code points

`Ranges` are closed ranges of code points, in order: each ends before the next one starts.
-/

namespace OneShot.Text

set_option autoImplicit false

/-- Each range is in order, and ends before the next one starts. -/
def ascending : List (Nat × Nat) → Bool
  | [] => true
  | [r] => r.1 ≤ r.2
  | r :: s :: rest => r.1 ≤ r.2 && r.2 < s.1 && ascending (s :: rest)

structure Ranges where
  table : List (Nat × Nat)
  ordered : ascending table = true

def Ranges.holds (ranges : Ranges) (c : Char) : Bool :=
  ranges.table.any fun r => r.1 ≤ c.toNat && c.toNat ≤ r.2

end OneShot.Text
