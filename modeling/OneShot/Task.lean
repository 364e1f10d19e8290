/-
# OneShot.Task -- what is left to do, and what one call does at once

Calls are re-entrant: a callback can run steps, and a step can be a call.  What
is left to do is therefore a list of `Task`s, the innermost first.  A call does
what it does at once and leaves the rest as tasks; `Effect` is that: the store
afterwards, the events, and the tasks to be done next.

Three kinds of task stand for the references that a call in progress holds:
`letGo hs` gives up the handles `hs` one after the other, `giveUp s` gives up a
sink, `hangUp c` the sending end of a channel on which a step makes a callback.  As
long as such a task is waiting, what it names has an owner.
-/
import OneShot.History

namespace OneShot

set_option autoImplicit false

/-- How the reply of a step is found once everything it started is over. -/
inductive Closing (α ε : Type)
  | reply (r : Reply α ε)
  /-- The subscription stands in slot `k` already. -/
  | enrolled (k : Nat) (h : HandleRef)
  /-- The subscription goes to slot `k`, reserved before the call. -/
  | fill (k : Nat) (h : HandleRef)
  /-- The subscription goes to a new slot. -/
  | attach (h : HandleRef)
  /-- The subscription and the receiver of its channel go to new slots. -/
  | receive (h : HandleRef) (c : ChannelRef)
  | keepGate (g : GateRef)

inductive Task (α ε : Type)
  | perform (within : Option Nat) (step : Step α ε)
  | answer (within : Option Nat) (step : Step α ε) (closing : Closing α ε)
  /-- Start a callback. -/
  | notify (h : HandleRef) (signal : Signal α ε)
  /-- A callback has returned. -/
  | finish (h : HandleRef) (signal : Signal α ε)
  | deliver (h : HandleRef) (outcome : Outcome α ε)
  | letGo (hs : List HandleRef)
  | giveUp (s : SinkRef)
  | hangUp (c : ChannelRef)

namespace Task

variable {α ε : Type}

def holds (h : HandleRef) : Task α ε → Bool
  | letGo hs => hs.contains h
  | _ => false

def refersTo (s : SinkRef) : Task α ε → Bool
  | giveUp s' => s == s'
  | _ => false

def sendsOn (c : ChannelRef) : Task α ε → Bool
  | hangUp c' => c == c'
  | _ => false

end Task

/-- What a call does at once, and the tasks it leaves.  Events stand oldest first. -/
structure Effect (α ε : Type) where
  store : Store α ε
  events : List (Event α ε)
  tasks : List (Task α ε)

namespace Effect

variable {α ε : Type}

def quiet (st : Store α ε) : Effect α ε := ⟨st, [], []⟩

/-- The same effect, with events before it. -/
def after (events : List (Event α ε)) (e : Effect α ε) : Effect α ε :=
  { e with events := events ++ e.events }

/-- The same effect, with tasks behind its own. -/
def followedBy (e : Effect α ε) (tasks : List (Task α ε)) : Effect α ε :=
  { e with tasks := e.tasks ++ tasks }

end Effect

end OneShot
