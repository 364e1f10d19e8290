/-
# OneShot.Store -- sinks, handles, channels and gates

A `Sink` has a registry: the handles that wait for its end, in the order in which
they were enrolled, or, once it has ended, its outcome.  Beside the registry it
has a flag that says whether some call has already won the right to end it.

A `Handle` is one subscription.  `Phase` is what it knows of demand, value and
cancellation.  A value that arrives before any demand is *parked*: the handle
keeps it and keeps itself alive until it is asked for or cancelled.

A `Channel` holds at most three signals for its receiver.  A gate is one bit.

Handles, sinks, channels and gates are found by their position in the store and
are never removed from it.  A handle that nothing owns any more is marked
`released`; it keeps its place, and nothing is ever called on it again.
-/
import OneShot.Step

namespace OneShot

set_option autoImplicit false

abbrev SinkRef := Nat
abbrev HandleRef := Nat
abbrev ChannelRef := Nat
abbrev GateRef := Nat

/-- The handles that wait, or the outcome that ended the sink. -/
inductive Registry (α ε : Type)
  | live (handles : List HandleRef)
  | frozen (outcome : Outcome α ε)
  deriving DecidableEq, Repr

namespace Registry

variable {α ε : Type}

def handles : Registry α ε → List HandleRef
  | live handles => handles
  | frozen _ => []

def outcome? : Registry α ε → Option (Outcome α ε)
  | live _ => none
  | frozen outcome => some outcome

def termination : Registry α ε → Termination
  | live _ => .pending
  | frozen outcome => outcome.termination

/-- Takes one handle out and keeps the order of the rest. -/
def erase (h : HandleRef) : Registry α ε → Registry α ε
  | live handles => live (handles.erase h)
  | frozen outcome => frozen outcome

end Registry

structure Sink (α ε : Type) where
  label : String
  registry : Registry α ε
  flag : Termination
  nextId : UInt64

namespace Sink

variable {α ε : Type}

def standardLabel : String := "sink"

def ofLabel (label : String) : Sink α ε :=
  { label, registry := .live [], flag := .pending, nextId := 1 }

end Sink

/-- What a handle knows.

* `idle`: neither demand nor value
* `requested`: demand, no value yet
* `parked`: a value waits for demand
* `served`: demand and value have met
* `cancelled`: nothing more is wanted -/
inductive Phase
  | idle
  | requested
  | parked
  | served
  | cancelled
  deriving DecidableEq, Repr

namespace Phase

def hasDemand : Phase → Bool
  | requested | served => true
  | _ => false

def hasValue : Phase → Bool
  | parked | served => true
  | _ => false

end Phase

/-- Who hears the signals of a handle: a script with steps for each callback, a
script that cares for the value only, the sending end of a channel, or a gate. -/
inductive Consumer (α ε : Type)
  | scripted (slot : Nat) (hooks : Hooks α ε)
  | valueOnly (slot : Nat) (onNext : List (Step α ε))
  | channel (c : ChannelRef)
  | gate (g : GateRef)

/-- The slot under which a scripted consumer is reported. -/
def Consumer.slot? {α ε : Type} : Consumer α ε → Option Nat
  | scripted slot _ | valueOnly slot _ => some slot
  | channel _ | gate _ => none

def Consumer.sendsTo {α ε : Type} (c : ChannelRef) : Consumer α ε → Bool
  | channel c' => c == c'
  | _ => false

structure Handle (α ε : Type) where
  sink : SinkRef
  id : HandleId
  consumer : Consumer α ε
  phase : Phase
  parked : Option (Outcome α ε)
  keepAlive : Bool
  released : Bool

/-- A handle as `subscribe` makes it. -/
def Handle.new {α ε : Type} (sink : SinkRef) (id : HandleId) (consumer : Consumer α ε) :
    Handle α ε :=
  { sink, id, consumer, phase := .idle, parked := none, keepAlive := false, released := false }

namespace Channel

/-- The most signals that one subscription produces: acknowledgment, value, completion. -/
def capacity : Nat := 3

/-- A channel asks for everything unless told otherwise. -/
def standardDemand : UInt64 := 18446744073709551615

end Channel

structure Channel (α ε : Type) where
  initial : UInt64
  queue : List (Signal α ε)
  receiving : Bool

/-- The receiving end of a channel, with the subscription that it can cancel. -/
structure Receiver where
  channel : ChannelRef
  subscription : Option HandleRef
  deriving DecidableEq, Repr

inductive Seed
  | existing (s : SinkRef)
  | fresh (label : String)
  deriving DecidableEq, Repr

/-- What the steps of a script can name. -/
structure Slots where
  sinks : List (Option SinkRef)
  seeds : List (Option Seed)
  subs : List (Option HandleRef)
  receivers : List (Option Receiver)
  channels : List (Option ChannelRef)
  gates : List (Option GateRef)

structure Store (α ε : Type) where
  sinks : List (Sink α ε)
  handles : List (Handle α ε)
  channels : List (Channel α ε)
  gates : List Bool
  slots : Slots

namespace Store

variable {α ε : Type}

def empty : Store α ε :=
  { sinks := [], handles := [], channels := [], gates := [],
    slots := { sinks := [], seeds := [], subs := [], receivers := [], channels := [], gates := [] } }

/-! ## Looking up -/

/-- A slot that is missing and a slot that is empty are alike. -/
def slot? {β : Type} (slots : List (Option β)) (k : Nat) : Option β := slots[k]?.join

def sink? (st : Store α ε) (k : Nat) : Option SinkRef := slot? st.slots.sinks k
def seed? (st : Store α ε) (k : Nat) : Option Seed := slot? st.slots.seeds k
def receiver? (st : Store α ε) (k : Nat) : Option Receiver := slot? st.slots.receivers k
def channel? (st : Store α ε) (k : Nat) : Option ChannelRef := slot? st.slots.channels k
def gate? (st : Store α ε) (k : Nat) : Option GateRef := slot? st.slots.gates k

/-- A subscription by name; `within` is the slot of the consumer whose callback runs. -/
def sub? (st : Store α ε) (within : Option Nat) : SubName → Option HandleRef
  | .slot k => slot? st.slots.subs k
  | .own => within.bind (slot? st.slots.subs)

def registry (st : Store α ε) (s : SinkRef) : Registry α ε :=
  (st.sinks[s]?.map Sink.registry).getD (.live [])

def alive (st : Store α ε) (h : HandleRef) : Bool :=
  st.handles[h]?.any (!·.released)

def phase (st : Store α ε) (h : HandleRef) : Phase :=
  (st.handles[h]?.map Handle.phase).getD .idle

/-! ## Changing one cell -/

def modifySink (st : Store α ε) (s : SinkRef) (f : Sink α ε → Sink α ε) : Store α ε :=
  { st with sinks := st.sinks.modify s f }

def modifyHandle (st : Store α ε) (h : HandleRef) (f : Handle α ε → Handle α ε) : Store α ε :=
  { st with handles := st.handles.modify h f }

def modifyChannel (st : Store α ε) (c : ChannelRef) (f : Channel α ε → Channel α ε) : Store α ε :=
  { st with channels := st.channels.modify c f }

def modifySlots (st : Store α ε) (f : Slots → Slots) : Store α ε :=
  { st with slots := f st.slots }

/-! ## Ownership of a sink from outside, and of a channel's sending end -/

/-- Some slot refers to the sink. -/
def names (st : Store α ε) (s : SinkRef) : Bool :=
  st.slots.sinks.contains (some s) || st.slots.seeds.contains (some (.existing s))

/-- The sending end stands in a slot, or is the consumer of a handle that is alive. -/
def hasSender (st : Store α ε) (c : ChannelRef) : Bool :=
  st.slots.channels.contains (some c)
    || st.handles.any fun handle => !handle.released && handle.consumer.sendsTo c

end Store

end OneShot
