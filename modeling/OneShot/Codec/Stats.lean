/-
# OneShot.Codec.Stats -- terminations, handle numbers and summaries

A termination is the name of a variant, a handle number is a number.  A summary is an
object with its three fields under their names, in any order and among other keys, or
an array of the three in order.
-/
import OneShot.Codec.Tagged

namespace OneShot

set_option autoImplicit false

open Json (Draft Items Members Origin)

namespace Format

def terminationVariants : Variants Termination :=
  [.pending, .succeeded, .failed].map fun t => (t.key, t)

def termination : Format Termination where
  encode t := .string t.key
  decode o d := terminationVariants.decode o d
  absent := none

def handleId : Format HandleId where
  encode id := (uint64 "u64").encode id.number
  decode o d := ((uint64 "u64").decode o d).map HandleId.mk
  absent := none

end Format

namespace Stats

def what : String := "struct SinkStats"
def lengthWhat : String := "struct SinkStats with 3 elements"

/-- The fields that have been met so far. -/
structure Partial where
  label : Option String
  termination : Option Termination
  subscribers : Option UInt64

def Partial.none : Partial := { label := .none, termination := .none, subscribers := .none }

/-- The first missing field is the one that is reported. -/
def Partial.complete (p : Partial) : Except Fault Stats :=
  match p.label, p.termination, p.subscribers with
  | some label, some termination, some subscribers => .ok { label, termination, subscribers }
  | .none, _, _ => .error (.data (.missingField "label"))
  | _, .none, _ => .error (.data (.missingField "termination"))
  | _, _, .none => .error (.data (.missingField "subscribers"))

/-- A field that may not have been met before. -/
def fresh {β : Type} (name : String) (met : Option β) (next : Except Fault β) : Except Fault β :=
  match met with
  | some _ => .error (.data (.duplicateField name))
  | none => next

def decodeMembers (o : Origin) (p : Partial) : Members → Except Fault Stats
  | .closed => p.complete
  | .broken b | .dangling b => .error (.broken b)
  | .member key colon value rest => do
      let name ← Fault.reading key.strict
      if name = "label" then
        let label ← fresh name p.label (Fault.guard colon (Format.string.decode o value))
        decodeMembers o { p with label := some label } rest
      else if name = "termination" then
        let termination ← fresh name p.termination
          (Fault.guard colon (Format.termination.decode o value))
        decodeMembers o { p with termination := some termination } rest
      else if name = "subscribers" then
        let subscribers ← fresh name p.subscribers
          (Fault.guard colon ((Format.uint64 "usize").decode o value))
        decodeMembers o { p with subscribers := some subscribers } rest
      else Fault.guard (colon <|> value.skip) (decodeMembers o p rest)

def decodeItems (o : Origin) (items : Items) : Except Fault Stats := do
  let (d, rest) ← Tagged.item lengthWhat 0 items
  let label ← Format.string.decode o d
  let (d, rest) ← Tagged.item lengthWhat 1 rest
  let termination ← Format.termination.decode o d
  let (d, rest) ← Tagged.item lengthWhat 2 rest
  let subscribers ← (Format.uint64 "usize").decode o d
  Tagged.finished o 3 { label, termination, subscribers } rest

def decode (o : Origin) : Draft → Except Fault Stats
  | .object members => do
      let inside ← Fault.reading o.enter
      decodeMembers inside Partial.none members
  | .array items => do
      let inside ← Fault.reading o.enter
      decodeItems inside items
  | d => .error (.mismatch what d)

end Stats

def Format.stats : Format Stats where
  encode s :=
    .object
      [("label", .string s.label),
       ("termination", Format.termination.encode s.termination),
       ("subscribers", .int s.subscribers.toNat)]
  decode := Stats.decode
  absent := none

end OneShot
