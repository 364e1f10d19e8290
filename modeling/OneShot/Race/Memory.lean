/-
# OneShot.Race.Memory -- one sink shared by threads

The shared cells of one sink and its handles, as several threads see them: the flag
that the first ending call takes, the counter of handle numbers, the registry, and for
each handle its phase, the parked outcome and the mark that keeps it alive.

A registry is replaced as a whole.  A thread that wants to change it loads it, makes
the new one, and swaps it in if the one it loaded is still there.  `stamp` counts the
replacements, so two loads with one stamp loaded one and the same registry.
-/
import OneShot.Store

namespace OneShot.Race

set_option autoImplicit false

variable {α ε : Type}

/-- What a consumer does with its own subscription inside a callback. -/
inductive Own
  | request (n : UInt64)
  | cancel
  deriving DecidableEq, Repr

/-- A consumer that deals with nothing but its own subscription. -/
structure Consumer where
  onSubscribe : List Own
  onNext : List Own
  onComplete : List Own
  onError : List Own
  deriving DecidableEq, Repr

def Consumer.on (c : Consumer) : Signal α ε → List Own
  | .subscribed => c.onSubscribe
  | .next _ => c.onNext
  | .complete => c.onComplete
  | .error _ => c.onError

/-- A consumer that asks for `n` when it is acknowledged, and does nothing else. -/
def Consumer.asking (n : UInt64) : Consumer :=
  { onSubscribe := [.request n], onNext := [], onComplete := [], onError := [] }

/-- A consumer that does nothing. -/
def Consumer.silent : Consumer :=
  { onSubscribe := [], onNext := [], onComplete := [], onError := [] }

structure Handle (α ε : Type) where
  id : HandleId
  consumer : Consumer
  phase : Phase
  parked : Option (Outcome α ε)
  keepAlive : Bool

structure Memory (α ε : Type) where
  flag : Termination
  nextId : UInt64
  stamp : Nat
  registry : Registry α ε
  handles : List (Handle α ε)

namespace Memory

def fresh : Memory α ε :=
  { flag := .pending, nextId := 1, stamp := 0, registry := .live [], handles := [] }

def phase (m : Memory α ε) (h : HandleRef) : Phase :=
  (m.handles[h]?.map Handle.phase).getD .cancelled

def parked (m : Memory α ε) (h : HandleRef) : Option (Outcome α ε) :=
  m.handles[h]?.bind Handle.parked

def keepsAlive (m : Memory α ε) (h : HandleRef) : Bool :=
  m.handles[h]?.any Handle.keepAlive

def modify (m : Memory α ε) (h : HandleRef) (f : Handle α ε → Handle α ε) : Memory α ε :=
  { m with handles := m.handles.modify h f }

def setPhase (m : Memory α ε) (h : HandleRef) (p : Phase) : Memory α ε :=
  m.modify h fun x => { x with phase := p }

def setParked (m : Memory α ε) (h : HandleRef) (o : Option (Outcome α ε)) : Memory α ε :=
  m.modify h fun x => { x with parked := o }

def setKeepAlive (m : Memory α ε) (h : HandleRef) (b : Bool) : Memory α ε :=
  m.modify h fun x => { x with keepAlive := b }

/-- Puts a new registry in place of the one there. -/
def replace (m : Memory α ε) (r : Registry α ε) : Memory α ε :=
  { m with stamp := m.stamp + 1, registry := r }

/-- A new handle with the next number. -/
def make (m : Memory α ε) (c : Consumer) : Memory α ε :=
  { m with
    nextId := m.nextId + 1,
    handles := m.handles ++
      [{ id := ⟨m.nextId⟩, consumer := c, phase := .idle, parked := none, keepAlive := false }] }

end Memory

end OneShot.Race
