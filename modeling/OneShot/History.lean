/-
# OneShot.History -- everything a run does, in order

A `Notice` is one entry of the log that sinks, handles and consumers keep.  An
`Event` is anything a run does: it starts and answers steps, it enters calls that
find their object alive, it starts and finishes callbacks, it attempts deliveries, it
hands signals to receivers, it writes notices, it lets consumers go.  What a run
reports is a selection of its events; what can be said of every run is said of them.
-/
import OneShot.Reply

namespace OneShot

set_option autoImplicit false

inductive Notice
  | ignored (s : SinkRef) (attempted current : Termination)
  | terminated (s : SinkRef) (termination : Termination) (subscribers : Nat)
  | registered (s : SinkRef) (h : HandleRef)
  | removed (s : SinkRef) (h : HandleRef)
  | replaying (s : SinkRef) (h : HandleRef)
  | zeroDemand (h : HandleRef)
  | demandMet (h : HandleRef)
  | cancelled (h : HandleRef)
  | suppressed (h : HandleRef)
  | valueParked (h : HandleRef)
  | errorUnheard
  | channelFull (c : ChannelRef)
  | receiverGone (c : ChannelRef)
  | gateClosed (g : GateRef)
  deriving DecidableEq, Repr

/-- The target of a callback that a step makes directly. -/
inductive DirectTarget
  | channel (c : ChannelRef)
  | gate (g : GateRef)
  deriving DecidableEq, Repr

def DirectTarget.consumer {α ε : Type} : DirectTarget → Consumer α ε
  | channel c => .channel c
  | gate g => .gate g

inductive Event (α ε : Type)
  /-- A step starts; `within` is the slot of the consumer in whose hook it stands. -/
  | performed (within : Option Nat) (step : Step α ε)
  | answered (within : Option Nat) (step : Step α ε) (reply : Reply α ε)
  /-- A call subscribes a new handle to a sink. -/
  | subscribing (s : SinkRef) (h : HandleRef)
  /-- A call tries to end a sink; `won` is what it will answer. -/
  | terminating (s : SinkRef) (outcome : Outcome α ε) (won : Bool)
  /-- A call of `request` or `cancel` finds its handle alive. -/
  | requesting (h : HandleRef) (n : UInt64)
  | cancelling (h : HandleRef)
  /-- The outcome is offered to a handle, from the loop over a registry or as a replay. -/
  | attempted (h : HandleRef) (outcome : Outcome α ε)
  | began (h : HandleRef) (signal : Signal α ε)
  | ended (h : HandleRef) (signal : Signal α ε)
  | direct (target : DirectTarget) (signal : Signal α ε)
  /-- A receiver takes signals out of its channel, oldest first. -/
  | received (c : ChannelRef) (signals : List (Signal α ε))
  | noticed (notice : Notice)
  /-- The last owner of a handle is gone, and its consumer with it. -/
  | dropped (h : HandleRef)

end OneShot
