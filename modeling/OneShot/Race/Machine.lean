/-
# OneShot.Race.Machine -- threads that take turns

A `Thread` has calls to make and, inside a call, points to pass.  `Machine.step i` lets
thread `i` make one move; a list of thread numbers is a schedule, and every
interleaving of the threads is one.

A call reaches a handle only while something owns it: the live registry, the handle
itself while it holds a parked value, or a thread in the midst of a call.
-/
import OneShot.Race.Point

namespace OneShot.Race

set_option autoImplicit false

variable {α ε : Type}

/-- How a thread names a handle: as everyone does, or as one that it made itself. -/
inductive Target
  | shared (h : HandleRef)
  | made (k : Nat)
  deriving DecidableEq, Repr

inductive Call (α ε : Type)
  | subscribe (consumer : Consumer)
  | terminate (outcome : Outcome α ε)
  | request (target : Target) (n : UInt64)
  | cancel (target : Target)

structure Thread (α ε : Type) where
  program : List (Call α ε)
  work : List (Point α ε)
  /-- The handles that this thread made, oldest first. -/
  made : List HandleRef

def Thread.running (program : List (Call α ε)) : Thread α ε :=
  { program, work := [], made := [] }

def Thread.idle (t : Thread α ε) : Bool := t.program.isEmpty && t.work.isEmpty

structure Machine (α ε : Type) where
  memory : Memory α ε
  threads : List (Thread α ε)
  /-- Latest first. -/
  past : List (Event α ε)

namespace Machine

def owned (m : Machine α ε) (h : HandleRef) : Bool :=
  m.memory.registry.handles.contains h
    || m.memory.keepsAlive h
    || m.threads.any fun t => t.work.any fun p => p.holds.contains h

def resolve (t : Thread α ε) : Target → Option HandleRef
  | .shared h => some h
  | .made k => t.made[k]?

/-- The handle that a call reaches. -/
def reach? (m : Machine α ε) (t : Thread α ε) (target : Target) : Option HandleRef :=
  (resolve t target).filter m.owned

/-- The start of a call. -/
def enter (m : Machine α ε) (t : Thread α ε) : Call α ε → List (Event α ε) × List (Point α ε)
  | .subscribe consumer => ([], [.make consumer])
  | .terminate outcome => ([], [.claim outcome])
  | .request target n =>
      match m.reach? t target with
      | some h => ([.requested h n], callRequest h n)
      | none => ([], [])
  | .cancel target =>
      match m.reach? t target with
      | some h => ([], callCancel h)
      | none => ([], [])

/-- One move of thread `i`; nothing, if there is no such thread or it is done. -/
def step (m : Machine α ε) (i : Nat) : Machine α ε :=
  match m.threads[i]? with
  | none => m
  | some t =>
      match t.work, t.program with
      | p :: rest, _ =>
          let move := p.effect m.memory
          let t := { t with work := move.points ++ rest, made := t.made ++ move.made.toList }
          { memory := move.memory, threads := m.threads.set i t,
            past := move.events.reverse ++ m.past }
      | [], call :: rest =>
          let (events, points) := m.enter t call
          { m with
            threads := m.threads.set i { t with program := rest, work := points },
            past := events.reverse ++ m.past }
      | [], [] => m

/-- The moves of a schedule, in order. -/
def run (m : Machine α ε) (schedule : List Nat) : Machine α ε := schedule.foldl step m

def done (m : Machine α ε) : Bool := m.threads.all Thread.idle

/-- Threads that start on a memory. -/
def start (memory : Memory α ε) (programs : List (List (Call α ε))) : Machine α ε :=
  { memory, threads := programs.map Thread.running, past := [] }

/-- The threads take turns, until all are done or `bound` moves have been made. -/
def takeTurns : Nat → Nat → Machine α ε → Machine α ε
  | 0, _, m => m
  | bound + 1, i, m =>
      if m.done then m else takeTurns bound ((i + 1) % m.threads.length) (m.step i)

end Machine

end OneShot.Race
