/-
# OneShot.Codec.Tagged -- variants with a tag and a payload

A tagged value is an object with the name of its variant under `type` and the
variant's payload under `payload`, or an array of the two.  Other keys are skipped.
A payload that comes before its tag is read as it stands and decoded when the tag is
known.  A variant without payload may have a null one.

Under its key the name of a variant is a string, or an object whose only key is the name
and whose value is null; in an array it is a string.
-/
import OneShot.Codec.Format
import OneShot.Outcome

namespace OneShot

set_option autoImplicit false

open Json (Draft Items Members Origin Break)

/-- What a variant holds: nothing, or something in a format of its own.  `what` is what
a mismatch calls a variant that holds nothing. -/
inductive Body (α : Type)
  | bare (a : α) (what : String)
  | holding (decode : Origin → Draft → Except Fault α) (absent : Option α)

namespace Body

variable {α β : Type}

/-- A variant that holds a value of a format. -/
def wrapping (f : Format β) (make : β → α) : Body α :=
  holding (fun o d => (f.decode o d).map make) (f.absent.map make)

def decode (o : Origin) (d : Draft) : Body α → Except Fault α
  | bare a what =>
      match d with
      | .scalar { strict := .ok .null, loose := _ } => .ok a
      | d => .error (.mismatch what d)
  | holding decode _ => decode o d

/-- What a variant is without a payload. -/
def withoutPayload : Body α → Except Fault α
  | bare a _ => .ok a
  | holding _ (some a) => .ok a
  | holding _ none => .error (.data (.missingField "payload"))

end Body

/-- The variants of a type, by name. -/
abbrev Variants (β : Type) := List (String × β)

namespace Variants

variable {β : Type}

def named (vs : Variants β) (name : String) : Except Fault β :=
  match vs.find? (·.1 == name) with
  | some v => .ok v.2
  | none => .error (.data (.unknownVariant name (vs.map (·.1))))

/-- The variant whose name a string spells. -/
def ofName (vs : Variants β) : Draft → Except Fault β
  | .string found => do vs.named (← Fault.reading found.strict)
  | d => .error (.mismatch "variant identifier" d)

/-- The null behind the only key of an object that is a variant's name. -/
def decodeNothing : Draft → Except Fault Unit
  | .scalar { strict := .ok .null, loose := _ } => .ok ()
  | d => .error (.mismatch "unit" d)

/-- In text the first key is taken for the name, and the object has to end behind it. -/
def ofMembers (vs : Variants β) : Members → Except Fault β
  | .closed => .error (.broken .malformed)
  | .broken b | .dangling b => .error (.broken b)
  | .member key colon value rest => do
      let v ← vs.named (← Fault.reading key.strict)
      Fault.guard colon (decodeNothing value)
      match rest with
      | .closed => return v
      | .broken b => throw (.broken b)
      | _ => throw (.broken .malformed)

/-- In a tree an object has to have one key before that key is looked at. -/
def ofOnlyMember (vs : Variants β) : Members → Except Fault β
  | .member { strict := .ok key, loose := _ } _ value .closed => do
      let v ← vs.named key
      decodeNothing value
      return v
  | _ => .error (.data (.invalidValue .map "map with a single key"))

/-- The variant that a draft names. -/
def decode (vs : Variants β) (o : Origin) : Draft → Except Fault β
  | .string found => do vs.named (← Fault.reading found.strict)
  | .object members =>
      match o with
      | .tree => vs.ofOnlyMember members
      | .text _ => do
          let _ ← Fault.reading o.enter
          vs.ofMembers members
  | .missing b => .error (.broken b)
  | d =>
      match o with
      | .tree => .error (.mismatch "string or map" d)
      | .text _ => .error (.broken .malformed)

end Variants

namespace Tagged

variable {α : Type}

/-- The two keys of a tagged value. -/
inductive Key
  | tag
  | payload
  deriving DecidableEq, Repr

def Key.name : Key → String
  | tag => "type"
  | payload => "payload"

def Key.ofName? (name : String) : Option Key :=
  if name = Key.tag.name then some .tag
  else if name = Key.payload.name then some .payload
  else none

/-- A member under one of the two keys, and the members behind it. -/
structure Hit where
  key : Key
  colon : Option Break
  value : Draft
  rest : Members

/-- The next member that matters. -/
def next? : Members → Except Fault (Option Hit)
  | .closed => .ok none
  | .broken b | .dangling b => .error (.broken b)
  | .member key colon value rest => do
      let name ← Fault.reading key.strict
      match Key.ofName? name with
      | some key => return some { key, colon, value, rest }
      | none => Fault.guard (colon <|> value.skip) (next? rest)

/-- Behind tag and payload neither may come again. -/
def settled (a : α) (rest : Members) : Except Fault α := do
  match ← next? rest with
  | some hit => throw (.data (.duplicateField hit.key.name))
  | none => return a

def decodeMembers (vs : Variants (Body α)) (o : Origin) (members : Members) : Except Fault α := do
  match ← next? members with
  | none => throw (.data (.missingField Key.tag.name))
  | some { key := .tag, colon, value, rest } =>
      let body ← Fault.guard colon (vs.decode o value)
      match ← next? rest with
      | none => body.withoutPayload
      | some { key := .tag, .. } => throw (.data (.duplicateField Key.tag.name))
      | some { key := .payload, colon, value, rest } =>
          let a ← Fault.guard colon (body.decode o value)
          settled a rest
  | some { key := .payload, colon, value, rest } =>
      let held ← Fault.guard colon (Fault.reading (value.read o))
      match ← next? rest with
      | none => throw (.data (.missingField Key.tag.name))
      | some { key := .payload, .. } => throw (.data (.duplicateField Key.payload.name))
      | some { key := .tag, colon, value, rest } =>
          let body ← Fault.guard colon (vs.decode o value)
          let a ← body.decode .tree (Draft.ofJson held)
          settled a rest

/-- How many items a list of items has. -/
def length : Items → Nat
  | .item _ rest => length rest + 1
  | _ => 0

/-- What follows the last item that is used: nothing, in a well-formed array.  `taken`
items have been used. -/
def finished (o : Origin) (taken : Nat) (a : α) : Items → Except Fault α
  | .closed => .ok a
  | .broken b => .error (.broken b)
  | .item d rest =>
      match o with
      | .tree =>
          .error (.data (.invalidLength (taken + length (.item d rest)) "fewer elements in array"))
      | .text _ => .error (.broken .malformed)

/-- The next item of an array that has to have one; `taken` items have been used. -/
def item (what : String) (taken : Nat) : Items → Except Fault (Draft × Items)
  | .closed => .error (.data (.invalidLength taken what))
  | .broken b => .error (.broken b)
  | .item d rest => .ok (d, rest)

def decodeItems (what : String) (vs : Variants (Body α)) (o : Origin) (items : Items) :
    Except Fault α := do
  let (tag, rest) ← item what 0 items
  let body ← vs.ofName tag
  let (payload, rest) ← item what 1 rest
  let a ← body.decode o payload
  finished o 2 a rest

/-- A tagged value; `what` is what a mismatch calls it. -/
def decode (what : String) (vs : Variants (Body α)) (o : Origin) : Draft → Except Fault α
  | .object members => do
      let inside ← Fault.reading o.enter
      decodeMembers vs inside members
  | .array items => do
      let inside ← Fault.reading o.enter
      decodeItems what vs inside items
  | d => .error (.mismatch what d)

/-- The object of a variant: its name, and its payload if it has one. -/
def encode (name : String) (payload : Option Json) : Json :=
  .object ((Key.tag.name, .string name) ::
    match payload with
    | some v => [(Key.payload.name, v)]
    | none => [])

end Tagged

namespace Format

variable {α ε : Type}

def outcomeVariants (f : Format α) (g : Format ε) : Variants (Body (Outcome α ε)) :=
  [("value", .wrapping f .value),
   ("empty", .bare .empty "unit variant Outcome::Empty"),
   ("error", .wrapping g .error)]

def outcome (f : Format α) (g : Format ε) : Format (Outcome α ε) where
  encode
    | .value v => Tagged.encode "value" (some (f.encode v))
    | .empty => Tagged.encode "empty" none
    | .error e => Tagged.encode "error" (some (g.encode e))
  decode := Tagged.decode "adjacently tagged enum Outcome" (outcomeVariants f g)
  absent := none

def signalVariants (f : Format α) (g : Format ε) : Variants (Body (Signal α ε)) :=
  [("subscribed", .bare .subscribed "unit variant Signal::Subscribed"),
   ("next", .wrapping f .next),
   ("complete", .bare .complete "unit variant Signal::Complete"),
   ("error", .wrapping g .error)]

def signal (f : Format α) (g : Format ε) : Format (Signal α ε) where
  encode
    | .subscribed => Tagged.encode "subscribed" none
    | .next v => Tagged.encode "next" (some (f.encode v))
    | .complete => Tagged.encode "complete" none
    | .error e => Tagged.encode "error" (some (g.encode e))
  decode := Tagged.decode "adjacently tagged enum Signal" (signalVariants f g)
  absent := none

end Format

end OneShot
