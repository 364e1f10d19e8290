/-
# OneShot.Text.Shortest -- binary fractions in decimal

A finite floating-point number is `m * 2 ^ q`.  All reals between the midpoints to
its two neighbours read back as it, the midpoints themselves exactly if `m` is
even.  `Shortest.digits` are the fewest decimal digits of a number in that range,
and of those the ones nearest to it.

`Shortest.chars` lays them out: positionally from 10⁻⁵ up to below 10¹⁶, with a
fraction even if it is zero; otherwise with the point after the first digit and an
exponent with its sign, and without a point if there is only that digit.
-/
import OneShot.Text.Numeral

namespace OneShot.Text

set_option autoImplicit false

/-- A positive number `m * 2 ^ q`; `narrow` if its lower neighbour is at half the
distance of the upper one. -/
structure Binary where
  m : Nat
  q : Int
  narrow : Bool

/-- A decimal number `digits * 10 ^ exponent`. -/
structure Decimal where
  digits : Nat
  exponent : Int

namespace Binary

/-- The magnitude that the bits of a finite number stand for. -/
def ofBits (bits : UInt64) : Binary :=
  let exponent := ((bits >>> 52) &&& 0x7FF).toNat
  let fraction := (bits &&& 0xFFFFFFFFFFFFF).toNat
  if exponent == 0 then { m := fraction, q := -1074, narrow := false }
  else
    { m := 4503599627370496 + fraction, q := (exponent : Int) - 1075,
      narrow := fraction == 0 && 1 < exponent }

/-- Compares `a * 10 ^ i` with `n * 2 ^ j`. -/
def compareScaled (a : Nat) (i : Int) (n : Nat) (j : Int) : Ordering :=
  compare (a * Nat.pow 10 i.toNat * Nat.pow 2 (-j).toNat)
    (n * Nat.pow 2 j.toNat * Nat.pow 10 (-i).toNat)

/-- Whether a decimal number reads back as the binary one. -/
def readsBack (x : Binary) (d : Decimal) : Bool :=
  let low := if x.narrow then 4 * x.m - 1 else 4 * x.m - 2
  let high := 4 * x.m + 2
  let closed := x.m % 2 == 0
  let atLow := compareScaled d.digits d.exponent low (x.q - 2)
  let atHigh := compareScaled d.digits d.exponent high (x.q - 2)
  (atLow == .gt || (closed && atLow == .eq)) && (atHigh == .lt || (closed && atHigh == .eq))

/-- The multiple of `10 ^ e` next below the number, or at it. -/
def floorAt (x : Binary) (e : Int) : Nat :=
  (x.m * Nat.pow 2 x.q.toNat * Nat.pow 10 (-e).toNat)
    / (Nat.pow 2 (-x.q).toNat * Nat.pow 10 e.toNat)

/-- Of the two multiples of `10 ^ e` around the number, the nearest that reads back; a
tie goes to the even one. -/
def nearest? (x : Binary) (e : Int) : Option Decimal :=
  let below := x.floorAt e
  let low : Decimal := { digits := below, exponent := e }
  let high : Decimal := { digits := below + 1, exponent := e }
  match x.readsBack low, x.readsBack high with
  | true, true =>
      match compareScaled (2 * below + 1) e (2 * x.m) x.q with
      | .gt => some low
      | .lt => some high
      | .eq => some (if below % 2 == 0 then low else high)
  | true, false => some low
  | false, true => some high
  | false, false => none

/-- The least `k` from `k` on, within `bound` trials, such that the number is below `10 ^ k`. -/
def scaleFrom (x : Binary) : Nat → Int → Int
  | 0, k => k
  | bound + 1, k =>
      if compareScaled 1 k x.m x.q == .gt then k else scaleFrom x bound (k + 1)

/-- Tries ever finer grids. -/
def search (x : Binary) : Nat → Int → Option Decimal
  | 0, _ => none
  | bound + 1, e => match x.nearest? e with
    | some d => some d
    | none => search x bound (e - 1)

end Binary

namespace Shortest

/-- The fewest digits that read back, without zeros at their end, and the place of the
point: the number is `0.digits * 10 ^ point`. -/
def digits (x : Binary) : List Char × Int :=
  let guess : Int := (((x.m.log2 : Int) + x.q) * 30103).fdiv 100000
  let scale := x.scaleFrom 4 guess
  let d := (x.search 18 (scale - 1)).getD
    { digits := x.floorAt (scale - 18), exponent := scale - 18 }
  let written := Numeral.chars 10 d.digits
  ((written.reverse.dropWhile (· == '0')).reverse, d.exponent + written.length)

def exponentText (e : Int) : List Char :=
  (if e < 0 then '-' else '+') :: Numeral.chars 10 e.natAbs

/-- Lays out digits with the point at its place. -/
def layout (ds : List Char) (point : Int) : List Char :=
  if 0 < point ∧ point ≤ 16 then
    let places := point.toNat
    if ds.length ≤ places then ds ++ List.replicate (places - ds.length) '0' ++ ['.', '0']
    else ds.take places ++ '.' :: ds.drop places
  else if -5 < point ∧ point ≤ 0 then
    '0' :: '.' :: List.replicate (-point).toNat '0' ++ ds
  else
    match ds with
    | [d] => d :: 'e' :: exponentText (point - 1)
    | d :: rest => d :: '.' :: rest ++ 'e' :: exponentText (point - 1)
    | [] => ['0', '.', '0']

/-- The text of a finite floating-point number. -/
def chars (bits : UInt64) : List Char :=
  let magnitude : List Char :=
    if bits &&& 0x7FFFFFFFFFFFFFFF == 0 then ['0', '.', '0']
    else
      let (ds, point) := digits (.ofBits bits)
      layout ds point
  if bits >>> 63 == 1 then '-' :: magnitude else magnitude

end Shortest

end OneShot.Text
