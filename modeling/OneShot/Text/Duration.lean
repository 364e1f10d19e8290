/-
# OneShot.Text.Duration -- spans of time and how they are written

A span is a whole number of nanoseconds.  It is written in the largest of
seconds, milliseconds, microseconds and nanoseconds of which it holds at least
one, with the fraction in full and no zero at its end.
-/
import OneShot.Text.Numeral

namespace OneShot

set_option autoImplicit false

structure Duration where
  nanoseconds : Nat
  deriving DecidableEq, Repr

namespace Duration

/-- Whole seconds and nanoseconds; the nanoseconds may exceed a second. -/
def ofParts (seconds nanoseconds : Nat) : Duration :=
  ⟨seconds * 1000000000 + nanoseconds⟩

/-- The decimal text of `n / 10 ^ places`: no point if nothing follows it. -/
def scaled (n places : Nat) : List Char :=
  let fraction := (Text.Numeral.padded 10 places (n % Nat.pow 10 places)).reverse.dropWhile (· == '0')
  let whole := Text.Numeral.chars 10 (n / Nat.pow 10 places)
  if fraction.isEmpty then whole else whole ++ '.' :: fraction.reverse

def text (d : Duration) : String :=
  let n := d.nanoseconds
  if 1000000000 ≤ n then String.ofList (scaled n 9 ++ "s".toList)
  else if 1000000 ≤ n then String.ofList (scaled n 6 ++ "ms".toList)
  else if 1000 ≤ n then String.ofList (scaled n 3 ++ "µs".toList)
  else String.ofList (Text.Numeral.chars 10 n ++ "ns".toList)

end Duration

end OneShot
