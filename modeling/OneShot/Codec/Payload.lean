/-
# OneShot.Codec.Payload -- the types of payloads

A `Payload` is a type that outcomes and signals are decoded with: its format, its
equality, and its outline unless it is arbitrary JSON, which has none.
-/
import OneShot.Codec.Stats
import OneShot.Outline

namespace OneShot

set_option autoImplicit false

open Text

structure Payload where
  Carrier : Type
  format : Format Carrier
  shape : Option (Carrier → Shape)
  same : DecidableEq Carrier

namespace Payload

def json : Payload := ⟨Json, .json, none, inferInstance⟩
def uint8 : Payload := ⟨UInt8, .uint8, some fun n => .nat n.toNat, inferInstance⟩
def bool : Payload := ⟨Bool, .bool, some .bool, inferInstance⟩
def string : Payload := ⟨String, .string, some .string, inferInstance⟩

def optionalUInt8 : Payload :=
  ⟨Option UInt8, .optional .uint8, some fun n => .option (n.map fun n => .nat n.toNat),
    inferInstance⟩

def int64List : Payload :=
  ⟨List Int64, .list .int64,
    some fun ns => .list (ns.map fun n => .atom (Unexpected.decimal n.toInt)), inferInstance⟩

end Payload

end OneShot
