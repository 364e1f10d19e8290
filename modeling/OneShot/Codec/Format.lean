/-
# OneShot.Codec.Format -- types and their JSON form

A `Format` is the JSON form of a type: how a value is encoded, how one is decoded
from a draft, and the value that an absent field stands for, if there is one.
`Format.ofJson` decodes a value, `Format.ofText` a document, which may hold nothing
but blanks behind the value.

The formats here are those of scalars, lists, optional values and arbitrary JSON.
-/
import OneShot.Codec.Fault
import OneShot.Json.Parser
import OneShot.Json.Printer

namespace OneShot

set_option autoImplicit false

open Json (Draft Items Members Origin)

structure Format (α : Type) where
  encode : α → Json
  decode : Origin → Draft → Except Fault α
  absent : Option α

namespace Format

variable {α : Type}

def ofJson (f : Format α) (v : Json) : Except Fault α := f.decode .tree (Draft.ofJson v.normal)

def ofText (f : Format α) (text : String) : Except Fault α :=
  let doc := Json.Document.ofString text
  match f.decode .document doc.value with
  | .ok a => if doc.trailing then .error (.broken .malformed) else .ok a
  | .error fault => .error fault

def toText (f : Format α) (a : α) : String := (f.encode a).compact

/-! ## Scalars -/

/-- An integer between two bounds. -/
def decodeInt (expected : String) (low high : Int) : Draft → Except Fault Int
  | .scalar { strict := .ok (.int n), loose := _ } =>
      if low ≤ n ∧ n ≤ high then .ok n
      else .error (.data (.invalidValue (.int n) expected))
  | d => .error (.mismatch expected d)

def uint8 : Format UInt8 where
  encode n := .int n.toNat
  decode _ d := (decodeInt "u8" 0 255 d).map fun n => UInt8.ofNat n.toNat
  absent := none

/-- A 64-bit number; `expected` is what a mismatch calls it. -/
def uint64 (expected : String) : Format UInt64 where
  encode n := .int n.toNat
  decode _ d := (decodeInt expected 0 18446744073709551615 d).map fun n => UInt64.ofNat n.toNat
  absent := none

def int64 : Format Int64 where
  encode n := .int n.toInt
  decode _ d :=
    (decodeInt "i64" (-9223372036854775808) 9223372036854775807 d).map Int64.ofInt
  absent := none

def bool : Format Bool where
  encode := .bool
  decode _ d :=
    match d with
    | .scalar { strict := .ok (.bool b), loose := _ } => .ok b
    | d => .error (.mismatch "a boolean" d)
  absent := none

/-- The text of a string in a draft. -/
def decodeString (expected : String) : Draft → Except Fault String
  | .string found => Fault.reading found.strict
  | d => .error (.mismatch expected d)

def string : Format String where
  encode := .string
  decode _ d := decodeString "a string" d
  absent := none

/-- Any value. -/
def json : Format Json where
  encode v := v
  decode o d := Fault.reading (d.read o)
  absent := none

/-! ## Combinations -/

/-- A value or null; an absent field is no value. -/
def optional (f : Format α) : Format (Option α) where
  encode
    | some a => f.encode a
    | none => .null
  decode o d :=
    match d with
    | .scalar { strict := .ok .null, loose := _ } => .ok none
    | d => (f.decode o d).map some
  absent := some none

def decodeItems (f : Format α) (o : Origin) : Items → Except Fault (List α)
  | .closed => .ok []
  | .broken b => .error (.broken b)
  | .item d rest => do
      let a ← f.decode o d
      return a :: (← decodeItems f o rest)

def list (f : Format α) : Format (List α) where
  encode as := .array (as.map f.encode)
  decode o d :=
    match d with
    | .array items => do
        let inside ← Fault.reading o.enter
        decodeItems f inside items
    | d => .error (.mismatch "a sequence" d)
  absent := none

end Format

end OneShot
