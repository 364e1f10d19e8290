/-
# OneShot.Outcome -- what a sink ends with, and what a consumer hears

A sink ends at most once.  `Outcome` is how it ends: with a value, with nothing,
or with an error.  `Termination` is the outcome with its payload forgotten,
together with the state before any outcome; it moves away from `pending` once.

A consumer hears `Signal`s: the acknowledgment of its subscription, at most one
value, and one terminal signal.
-/

namespace OneShot

set_option autoImplicit false

/-- How far a sink is: not ended, ended well, or ended with an error. -/
inductive Termination
  | pending
  | succeeded
  | failed
  deriving DecidableEq, Repr

namespace Termination

def isTerminated : Termination → Bool
  | pending => false
  | succeeded | failed => true

/-- The number that stands for a termination where one byte has to hold it. -/
def rank : Termination → Nat
  | pending => 0
  | succeeded => 1
  | failed => 2

/-- The name as diagnostics write it. -/
def name : Termination → String
  | pending => "Pending"
  | succeeded => "Succeeded"
  | failed => "Failed"

/-- The name as data formats write it. -/
def key : Termination → String
  | pending => "pending"
  | succeeded => "succeeded"
  | failed => "failed"

end Termination

/-- How a sink ends. -/
inductive Outcome (α ε : Type)
  | value (v : α)
  | empty
  | error (e : ε)
  deriving DecidableEq, Repr

namespace Outcome

variable {α ε : Type}

/-- A success carries a value or nothing. -/
def ofSuccess : Option α → Outcome α ε
  | some v => value v
  | none => empty

def termination : Outcome α ε → Termination
  | value _ | empty => .succeeded
  | error _ => .failed

def isError : Outcome α ε → Bool
  | error _ => true
  | _ => false

def value? : Outcome α ε → Option α
  | value v => some v
  | _ => none

def error? : Outcome α ε → Option ε
  | error e => some e
  | _ => none

def toExcept : Outcome α ε → Except ε (Option α)
  | value v => .ok (some v)
  | empty => .ok none
  | error e => .error e

theorem termination_ne_pending (o : Outcome α ε) : o.termination ≠ .pending := by
  cases o <;> simp [termination]

end Outcome

/-- One call on a consumer. -/
inductive Signal (α ε : Type)
  | subscribed
  | next (v : α)
  | complete
  | error (e : ε)
  deriving DecidableEq, Repr

def Signal.isTerminal {α ε : Type} : Signal α ε → Bool
  | .complete | .error _ => true
  | _ => false

/-- The summary of a sink at one moment. -/
structure Stats where
  label : String
  termination : Termination
  subscribers : UInt64
  deriving DecidableEq, Repr

/-- A handle's number within its sink. -/
structure HandleId where
  number : UInt64
  deriving DecidableEq, Repr

end OneShot
