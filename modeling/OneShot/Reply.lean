/-
# OneShot.Reply -- what a step answers

A `Reply` is data: what was looked at, not how it is written.  The views
(`SinkView`, `SubView`, `ReceiverView`) are what can be seen of a sink, of a
subscription and of a receiver at one moment; each has an outline for readers.

A subscription owns nothing, so its view of a released handle shows the number
and the release and nothing of what the handle last knew.
-/
import OneShot.Store
import OneShot.Failure
import OneShot.Outline

namespace OneShot

set_option autoImplicit false

open Text

structure SinkView (α ε : Type) where
  label : String
  outcome : Option (Outcome α ε)
  subscribers : Nat

namespace SinkView

variable {α ε : Type}

def termination (v : SinkView α ε) : Termination :=
  match v.outcome with
  | some o => o.termination
  | none => .pending

def stats (v : SinkView α ε) : Stats :=
  { label := v.label, termination := v.termination, subscribers := UInt64.ofNat v.subscribers }

def shape (v : SinkView α ε) : Shape :=
  .record "SinkOne"
    [("label", .string v.label),
     ("termination", v.termination.shape),
     ("subscribers", .nat v.subscribers)]

end SinkView

structure SubView where
  id : HandleId
  cancelled : Bool
  requested : Bool
  released : Bool
  deriving DecidableEq, Repr

def SubView.shape (v : SubView) : Shape :=
  .record "Subscription" [("id", v.id.shape), ("released", .bool v.released)]

structure ReceiverView where
  pending : Nat
  subscription : Option SubView
  deriving DecidableEq, Repr

def ReceiverView.shape (v : ReceiverView) : Shape :=
  .record "SignalReceiver"
    [("pending", .nat v.pending),
     ("subscription", .option (v.subscription.map SubView.shape))]

def gateShape (closed : Bool) : Shape := .record "Gate" [("closed", .bool closed)]

/-- The configuration of a sink that is still to be made. -/
def labelShape (label : String) : Shape := .record "SinkConfig" [("label", .string label)]

/-- The configuration of a channel. -/
def demandShape (initial : UInt64) : Shape :=
  .record "ChannelConfig" [("initial_request", .nat initial.toNat)]

inductive Reply (α ε : Type)
  | done
  | noSlot
  | unknownStep
  | flag (b : Bool)
  | text (shape : Shape)
  | count (n : Nat)
  | termination (t : Termination)
  | outcome (o : Option (Outcome α ε))
  | sink (slot : Nat)
  | sinkView (v : SinkView α ε)
  | seed (slot : Nat) (shape : Shape)
  | enrolled (sub : Nat) (id : HandleId) (released : Bool)
  | enrolledChannel (sub receiver : Nat) (id : HandleId) (released : Bool)
  | sub (slot : Nat)
  | subView (v : SubView)
  | channel (channel receiver : Nat)
  | received (signal : Signal α ε)
  | refused (failure : Failure)
  | blocked
  | signals (queue : List (Signal α ε))
  | receiverView (v : ReceiverView)
  | gate (slot : Nat)
  | gateView (closed : Bool)

namespace Store

variable {α ε : Type}

def sinkView (st : Store α ε) (s : SinkRef) : SinkView α ε :=
  { label := (st.sinks[s]?.map Sink.label).getD "",
    outcome := (st.registry s).outcome?,
    subscribers := (st.registry s).handles.length }

def handleId (st : Store α ε) (h : HandleRef) : HandleId :=
  (st.handles[h]?.map Handle.id).getD ⟨0⟩

def subView (st : Store α ε) (h : HandleRef) : SubView :=
  { id := st.handleId h,
    cancelled := st.alive h && st.phase h == .cancelled,
    requested := st.alive h && (st.phase h).hasDemand,
    released := !st.alive h }

def queue (st : Store α ε) (c : ChannelRef) : List (Signal α ε) :=
  (st.channels[c]?.map Channel.queue).getD []

def receiverView (st : Store α ε) (r : Receiver) : ReceiverView :=
  { pending := (st.queue r.channel).length, subscription := r.subscription.map st.subView }

def gateClosed (st : Store α ε) (g : GateRef) : Bool := st.gates[g]?.getD false

def seedShape (st : Store α ε) : Seed → Shape
  | .existing s => .tuple "Existing" [(st.sinkView s).shape]
  | .fresh label => .tuple "Fresh" [labelShape label]

end Store

end OneShot
