/-
# OneShot.Json.Draft -- a document as far as it can be read

A reader of a document stops at the first thing it cannot read, and what it cannot
read depends on what it is after: a value that is skipped is held to less than one
that is used.  A `Draft` therefore keeps the whole document together with every
place where a reader has to stop.

* `Break.malformed` is a character that cannot stand there, `Break.cutShort` the
  end of the document where something is missing.
* A scalar, and a string, has the value that a *strict* reader finds, and what a *loose* one, which
  only skips it, stumbles over.
* The items of an array and the members of an object end with their bracket, or
  with a break.

`Draft.read` reads strictly, `Draft.skip` loosely.  A reader of text goes at most 127
containers deep; skipping has no limit.
-/
import OneShot.Json.Basic

namespace OneShot.Json

set_option autoImplicit false

inductive Break
  | malformed
  | cutShort
  deriving DecidableEq, Repr

/-- What a strict and a loose reader find. -/
structure Found (β : Type) where
  strict : Except Break β
  loose : Option Break

def Found.ok {β : Type} (b : β) : Found β := { strict := .ok b, loose := none }

def Found.broken {β : Type} (b : Break) : Found β := { strict := .error b, loose := some b }

mutual

inductive Draft
  /-- No value starts here. -/
  | missing (b : Break)
  | scalar (found : Found Json)
  | string (found : Found String)
  | array (items : Items)
  | object (members : Members)

inductive Items
  | closed
  | broken (b : Break)
  | item (d : Draft) (rest : Items)

inductive Members
  | closed
  | broken (b : Break)
  /-- A comma stands there, and no key behind it. -/
  | dangling (b : Break)
  /-- `colon` is what stands in the way between key and value. -/
  | member (key : Found String) (colon : Option Break) (value : Draft) (rest : Members)

end

/-- Where a value comes from: a tree that exists already, or text, of which a reader
may enter `left` more containers. -/
inductive Origin
  | tree
  | text (left : Nat)
  deriving DecidableEq, Repr

/-- The most containers that a reader of text enters, one inside the other. -/
def Origin.depth : Nat := 127

def Origin.document : Origin := .text Origin.depth

/-- Entering a container. -/
def Origin.enter : Origin → Except Break Origin
  | .tree => .ok .tree
  | .text 0 => .error .malformed
  | .text (left + 1) => .ok (.text left)

/-- A break, if there is one, before anything else. -/
def Break.guard {β : Type} (b : Option Break) (next : Except Break β) : Except Break β :=
  match b with
  | some b => .error b
  | none => next

mutual

def Draft.read (o : Origin) : Draft → Except Break Json
  | .missing b => .error b
  | .scalar found => found.strict
  | .string found => found.strict.map .string
  | .array items => do
      let inside ← o.enter
      return .array (← items.read inside)
  | .object members => do
      let inside ← o.enter
      return ofMembers (← members.read inside)

def Items.read (o : Origin) : Items → Except Break (List Json)
  | .closed => .ok []
  | .broken b => .error b
  | .item d rest => do
      let v ← d.read o
      return v :: (← rest.read o)

def Members.read (o : Origin) : Members → Except Break (List (String × Json))
  | .closed => .ok []
  | .broken b | .dangling b => .error b
  | .member key colon value rest => do
      let k ← key.strict
      let v ← Break.guard colon (value.read o)
      return (k, v) :: (← rest.read o)

end

mutual

def Draft.skip : Draft → Option Break
  | .missing b => some b
  | .scalar found => found.loose
  | .string found => found.loose
  | .array items => items.skip
  | .object members => members.skip

def Items.skip : Items → Option Break
  | .closed => none
  | .broken b => some b
  | .item d rest => d.skip <|> rest.skip

def Members.skip : Members → Option Break
  | .closed => none
  | .broken b | .dangling b => some b
  | .member key colon value rest => key.loose <|> colon <|> value.skip <|> rest.skip

end

mutual

/-- The draft of a value, which has no breaks. -/
def Draft.ofJson : Json → Draft
  | .array items => .array (Items.ofList items)
  | .object members => .object (Members.ofList members)
  | .string s => .string (.ok s)
  | v => .scalar (.ok v)

def Items.ofList : List Json → Items
  | [] => .closed
  | v :: rest => .item (Draft.ofJson v) (Items.ofList rest)

def Members.ofList : List (String × Json) → Members
  | [] => .closed
  | m :: rest => Members.ofMember (Members.ofList rest) m

def Members.ofMember (rest : Members) : String × Json → Members
  | (key, v) => .member (.ok key) none (Draft.ofJson v) rest

end

end OneShot.Json
