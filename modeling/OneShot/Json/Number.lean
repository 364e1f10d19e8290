/-
# OneShot.Json.Number -- reading numbers

A number is an optional sign, digits without a leading zero, an optional fraction
and an optional exponent.  Without fraction and exponent it is an integer if it
lies between -2⁶³ and 2⁶⁴-1, and is not minus zero.  Every other number is a
floating-point number: the digits that fit 64 bits, scaled by a power of ten in one
multiplication or division, or in several divisions if the power is far below
10⁻³⁰⁸.  A number too large for that is malformed.

`Number.scan` finds the parts; `Parts.value` is the number they make.
-/
import OneShot.Json.Draft
import OneShot.Text.Numeral

namespace OneShot.Json.Number

set_option autoImplicit false

open Text

structure Parts where
  negative : Bool
  whole : List Char
  fraction : List Char
  exponent : Int
  isInteger : Bool

/-- The first number that 64 bits do not hold. -/
def wordBound : Nat := 18446744073709551616

/-- The digits as far as they fit 64 bits, read on from `n`, and how many are left. -/
def fitting (n : Nat) : List Char → Nat × Nat
  | [] => (n, 0)
  | c :: rest =>
      let next := 10 * n + Numeral.digitValue c
      if next < wordBound then fitting next rest else (n, rest.length + 1)

/-- `f * 10 ^ e`; nothing if it is too large. -/
def scale (f : Float) : Nat → Int → Option Float
  | 0, _ => some f
  | bound + 1, e =>
      if e.natAbs ≤ 308 then
        if 0 ≤ e then
          let scaled := f * Float.ofScientific 1 false e.natAbs
          if scaled.isInf then none else some scaled
        else some (f / Float.ofScientific 1 false e.natAbs)
      else if f == 0.0 then some f
      else if 0 ≤ e then none
      else scale (f / Float.ofScientific 1 false 308) bound (e + 308)

/-- The floating-point number of the parts.  Digits that no longer fit are dropped; in
the whole part they still count as places.  An exponent beyond 32 bits makes zero,
or a number that is too large. -/
def Parts.float? (p : Parts) : Option Float :=
  let (whole, dropped) := fitting 0 p.whole
  let (significand, left) := fitting whole p.fraction
  let kept := p.fraction.length - left
  let magnitude : Option Float :=
    if 2147483648 ≤ p.exponent.natAbs then
      if significand ≠ 0 ∧ 0 < p.exponent then none else some 0.0
    else
      let e := p.exponent + dropped - kept
      scale (UInt64.ofNat significand).toFloat (e.natAbs / 308 + 2) e
  magnitude.map fun f => if p.negative then -f else f

def Parts.value (p : Parts) : Except Break Json :=
  let n := Numeral.value p.whole
  if p.isInteger ∧ p.negative ∧ n ≠ 0 ∧ n ≤ 9223372036854775808 then .ok (.int (-n))
  else if p.isInteger ∧ ¬ p.negative ∧ n < wordBound then .ok (.int n)
  else
    match p.float? with
    | some f => .ok (.float f.toBits)
    | none => .error .malformed

/-- Why a number ends too early.  Where the document ends, a reader that only skips
holds it for malformed all the same. -/
def short (rest : List Char) : Found Json :=
  if rest.isEmpty then { strict := .error .cutShort, loose := some .malformed }
  else .broken .malformed

/-- The exponent, if there is one: its value and what follows. -/
def scanExponent (cs : List Char) : Except (Found Json) (Option Int × List Char) :=
  match cs with
  | c :: rest =>
      if c = 'e' ∨ c = 'E' then
        let (negative, digits) :=
          match rest with
          | '-' :: r => (true, r)
          | '+' :: r => (false, r)
          | r => (false, r)
        let run := digits.takeWhile Char.isDigit
        let left := digits.dropWhile Char.isDigit
        if run.isEmpty then .error (short left)
        else
          let n : Int := (Numeral.value run : Nat)
          .ok (some (if negative then -n else n), left)
      else .ok (none, cs)
  | [] => .ok (none, cs)

/-- The fraction, if there is one: its digits and what follows. -/
def scanFraction (cs : List Char) : Except (Found Json) (Option (List Char) × List Char) :=
  match cs with
  | '.' :: rest =>
      let run := rest.takeWhile Char.isDigit
      let left := rest.dropWhile Char.isDigit
      if run.isEmpty then .error (short left) else .ok (some run, left)
  | _ => .ok (none, cs)

/-- The digits before the point. -/
def scanWhole (cs : List Char) : Except (Found Json) (List Char × List Char) :=
  let run := cs.takeWhile Char.isDigit
  let left := cs.dropWhile Char.isDigit
  match run with
  | [] => .error (short left)
  | '0' :: _ :: _ => .error (.broken .malformed)
  | _ => .ok (run, left)

def scanUnsigned (negative : Bool) (cs : List Char) :
    Except (Found Json) (Parts × List Char) := do
  let (whole, afterWhole) ← scanWhole cs
  let (fraction, afterFraction) ← scanFraction afterWhole
  let (exponent, rest) ← scanExponent afterFraction
  return ({ negative, whole, fraction := fraction.getD [], exponent := exponent.getD 0,
            isInteger := fraction.isNone && exponent.isNone }, rest)

/-- The number at the head of the text: what is found, and what follows it. -/
def scan (cs : List Char) : Found Json × Option (List Char) :=
  let parts :=
    match cs with
    | '-' :: rest => scanUnsigned true rest
    | _ => scanUnsigned false cs
  match parts with
  | .ok (p, rest) => ({ strict := p.value, loose := none }, some rest)
  | .error found => (found, none)

end OneShot.Json.Number
