/-
# OneShot.Step -- what a script, and a consumer inside a callback, can do

A script is a list of steps.  A step names the things it works on by *slots*:
six lists (sinks, seeds, subscriptions, receivers, channels, gates), numbered
from zero in order of creation.  A slot can be emptied; its number is never used
again.

A scripted consumer carries a list of steps for each of its callbacks.  They run
inside the callback, so a step can start a call that starts a callback that runs
steps.  Inside a callback a subscription can also be named as `own`: whatever
stands in the consumer's own slot.

`Step.occurrences` counts the steps of a script with everything nested in them.
-/
import OneShot.Outcome
import OneShot.Text.Duration

namespace OneShot

set_option autoImplicit false

/-- How a step names a subscription. -/
inductive SubName
  | own
  | slot (k : Nat)
  deriving DecidableEq, Repr

/-- Where a seed comes from: a sink that exists, or the label of one to be made. -/
inductive SeedSource
  | existing (sink : Nat)
  | fresh (label : String)
  | standard
  deriving DecidableEq, Repr

/-- A callback that a step makes directly, past every sink. -/
inductive DirectCall (α ε : Type)
  | subscribed (sub : SubName)
  | next (v : α)
  | complete
  | error (e : ε)
  deriving DecidableEq, Repr

/-- One step.  Numbers are slots, except the amount of a `request` and the initial
demand of a channel, whose absence means the default. -/
inductive Step (α ε : Type)
  | newSink (label : Option String)
  | defaultSink
  | cloneSink (sink : Nat)
  | dropSink (sink : Nat)
  | seed (source : SeedSource)
  | growSeed (seed : Nat)
  | succeed (sink : Nat) (value : Option α)
  | complete (sink : Nat)
  | fail (sink : Nat) (error : ε)
  | inspect (sink : Nat)
  | pretty (sink : Nat)
  | outcome (sink : Nat)
  | termination (sink : Nat)
  | count (sink : Nat)
  | sameSink (sink other : Nat)
  | subscribe (sink : Nat) (onSubscribe onNext onComplete onError : List (Step α ε))
  | subscribeFn (sink : Nat) (onNext : List (Step α ε))
  | subscribeChannel (sink : Nat) (initial : Option UInt64)
  | gate (sink : Nat)
  | request (sub : SubName) (n : UInt64)
  | cancel (sub : SubName)
  | cloneSub (sub : SubName)
  | subState (sub : SubName)
  | subPretty (sub : SubName)
  | newChannel (initial : Option UInt64)
  | signalChannel (channel : Nat) (call : DirectCall α ε)
  | attachChannel (sink channel : Nat)
  | dropChannel (channel : Nat)
  | withSubscription (receiver : Nat) (sub : SubName)
  | recv (receiver : Nat)
  | tryRecv (receiver : Nat)
  | recvTimeout (receiver : Nat) (limit : Duration)
  | drain (receiver : Nat)
  | receiverCancel (receiver : Nat)
  | receiverState (receiver : Nat)
  | dropReceiver (receiver : Nat)
  | newGate
  | cloneGate (gate : Nat)
  | attachGate (sink gate : Nat)
  | signalGate (gate : Nat) (call : DirectCall α ε)
  | gateState (gate : Nat)
  | unknown (name : String)

variable {α ε : Type}

mutual

/-- A step and every step nested in its hooks, counted. -/
def Step.occurrences : Step α ε → Nat
  | .subscribe _ onSubscribe onNext onComplete onError =>
      1 + occurrencesAll onSubscribe + occurrencesAll onNext
        + occurrencesAll onComplete + occurrencesAll onError
  | .subscribeFn _ onNext => 1 + occurrencesAll onNext
  | _ => 1

def Step.occurrencesAll : List (Step α ε) → Nat
  | [] => 0
  | s :: rest => s.occurrences + occurrencesAll rest

end

/-- The steps that a scripted consumer runs inside each of its callbacks. -/
structure Hooks (α ε : Type) where
  onSubscribe : List (Step α ε)
  onNext : List (Step α ε)
  onComplete : List (Step α ε)
  onError : List (Step α ε)

def Hooks.on (hooks : Hooks α ε) : Signal α ε → List (Step α ε)
  | .subscribed => hooks.onSubscribe
  | .next _ => hooks.onNext
  | .complete => hooks.onComplete
  | .error _ => hooks.onError

end OneShot
