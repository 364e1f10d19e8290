/-
# OneShot.Text.Numeral -- numbers written in a base

`Numeral.chars base n` are the digits of `n`, most significant first, without a
leading zero (zero itself is one digit); digits above nine are small letters.
`Numeral.value` reads decimal digits back: `value_chars`.
-/

namespace OneShot.Text.Numeral

set_option autoImplicit false

def digitChar (d : Nat) : Char :=
  if d < 10 then Char.ofNat (48 + d) else Char.ofNat (87 + d)

/-- Digits, least significant first.  The first argument bounds their number. -/
def reversed (base : Nat) : Nat → Nat → List Char
  | 0, _ => []
  | bound + 1, n =>
      if n < base then [digitChar n]
      else digitChar (n % base) :: reversed base bound (n / base)

def chars (base n : Nat) : List Char := (reversed base (n + 1) n).reverse

/-- Decimal text. -/
def decimal (n : Nat) : String := String.ofList (chars 10 n)

/-- At least `width` digits, filled with zeros on the left. -/
def padded (base width n : Nat) : List Char :=
  let cs := chars base n
  List.replicate (width - cs.length) '0' ++ cs

def digitValue (c : Char) : Nat := c.toNat - 48

/-- The number that a list of decimal digits stands for. -/
def value (cs : List Char) : Nat := cs.foldl (fun n c => 10 * n + digitValue c) 0

theorem digitValue_digitChar {d : Nat} (small : d < 10) : digitValue (digitChar d) = d := by
  have : ∀ d : Fin 10, digitValue (digitChar d.val) = d.val := by decide
  exact this ⟨d, small⟩

theorem foldr_reversed (bound n : Nat) (fits : n < bound) :
    (reversed 10 bound n).foldr (fun c m => 10 * m + digitValue c) 0 = n := by
  induction bound generalizing n with
  | zero => omega
  | succ bound ih =>
    unfold reversed
    split
    · rename_i small; simp [digitValue_digitChar small]
    · rename_i large
      have smaller : n / 10 < bound := by omega
      have digit := digitValue_digitChar (Nat.mod_lt n (by decide : 0 < 10))
      simp only [List.foldr_cons, ih _ smaller, digit]
      omega

theorem value_chars (n : Nat) : value (chars 10 n) = n := by
  rw [value, chars, List.foldl_reverse]
  exact foldr_reversed _ _ (Nat.lt_succ_self n)

end OneShot.Text.Numeral
