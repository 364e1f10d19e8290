/-
# OneShot.Codec.Fault -- why something cannot be decoded

Either the document breaks off before the fault (`broken`), or what can be read does
not fit (`data`).  A `Mismatch` names what was found and what was expected.
-/
import OneShot.Json.Draft
import OneShot.Text.Shortest
import OneShot.Text.Quoted

namespace OneShot

set_option autoImplicit false

open Text

/-- What stands where something else was expected. -/
inductive Unexpected
  | null
  | bool (b : Bool)
  | int (n : Int)
  | float (bits : UInt64)
  | string (s : String)
  | sequence
  | map
  deriving DecidableEq, Repr

namespace Unexpected

def ofJson : Json → Unexpected
  | .null => null
  | .bool b => bool b
  | .int n => int n
  | .float bits => float bits
  | .string s => string s
  | .array _ => sequence
  | .object _ => map

def decimal (n : Int) : String :=
  (if n < 0 then "-" else "") ++ Numeral.decimal n.natAbs

def text : Unexpected → String
  | null => "null"
  | bool b => "boolean `" ++ (if b then "true" else "false") ++ "`"
  | int n => "integer `" ++ decimal n ++ "`"
  | float bits => "floating point `" ++ String.ofList (Shortest.chars bits) ++ "`"
  | string s => "string " ++ quoted s
  | sequence => "sequence"
  | map => "map"

end Unexpected

inductive Mismatch
  | invalidType (found : Unexpected) (expected : String)
  | invalidValue (found : Unexpected) (expected : String)
  | invalidLength (length : Nat) (expected : String)
  | missingField (field : String)
  | duplicateField (field : String)
  | unknownVariant (variant : String) (known : List String)
  deriving DecidableEq, Repr

/-- Words in backquotes, with commas between them. -/
def Mismatch.listed (words : List String) : String :=
  ", ".intercalate (words.map fun w => "`" ++ w ++ "`")

def Mismatch.message : Mismatch → String
  | invalidType found expected => "invalid type: " ++ found.text ++ ", expected " ++ expected
  | invalidValue found expected => "invalid value: " ++ found.text ++ ", expected " ++ expected
  | invalidLength length expected =>
      "invalid length " ++ Numeral.decimal length ++ ", expected " ++ expected
  | missingField field => "missing field `" ++ field ++ "`"
  | duplicateField field => "duplicate field `" ++ field ++ "`"
  | unknownVariant variant known =>
      "unknown variant `" ++ variant ++ "`, expected one of " ++ listed known

inductive Fault
  | data (mismatch : Mismatch)
  | broken (b : Json.Break)
  deriving DecidableEq, Repr

namespace Fault

/-- The part of a decoding that only reads. -/
def reading {β : Type} : Except Json.Break β → Except Fault β
  | .ok b => .ok b
  | .error b => .error (broken b)

/-- What stands in the way, before anything else. -/
def guard {β : Type} (b : Option Json.Break) (next : Except Fault β) : Except Fault β :=
  match b with
  | some b => .error (broken b)
  | none => next

/-- Something of the wrong kind.  A scalar is read before it is judged, a container is
judged by its bracket. -/
def mismatch (expected : String) : Json.Draft → Fault
  | .missing b => broken b
  | .scalar found =>
      match found.strict with
      | .ok v => data (.invalidType (.ofJson v) expected)
      | .error b => broken b
  | .string found =>
      match found.strict with
      | .ok s => data (.invalidType (.string s) expected)
      | .error b => broken b
  | .array _ => data (.invalidType .sequence expected)
  | .object _ => data (.invalidType .map expected)

end Fault

end OneShot
