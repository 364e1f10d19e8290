/-
# OneShot.Machine -- running a script

A `Machine` is a store, the tasks that are left to do (the innermost first), and
everything that has happened (the latest first).  `Machine.step` does the first
task.

A handle is owned by the live registry of its sink as long as something refers to
that sink, by itself while it holds a parked value, and by every call and loop in
progress that still has to let it go.  `Machine.step` lets a consumer go as soon as
the last owner of its handle is gone.

Every step of a script, also one inside a hook, leaves at most `workPerStep` tasks
in all, because a handle hears each kind of signal at most once.  `Machine.run`
therefore has work enough in hand to end every script, and shows no bound.
-/
import OneShot.Perform

namespace OneShot

set_option autoImplicit false

variable {α ε : Type}

namespace Store

/-! ## Ownership -/

/-- Something still refers to the sink: a slot, or a step in progress on it. -/
def referenced (st : Store α ε) (agenda : List (Task α ε)) (s : SinkRef) : Bool :=
  st.names s || agenda.any (Task.refersTo s)

def owned (st : Store α ε) (agenda : List (Task α ε)) (h : HandleRef) : Bool :=
  match st.handles[h]? with
  | none => false
  | some handle =>
      handle.keepAlive
        || agenda.any (Task.holds h)
        || (st.referenced agenda handle.sink && (st.registry handle.sink).handles.contains h)

/-- Lets the consumer of a handle go, unless the handle is owned or already released. -/
def release (st : Store α ε) (agenda : List (Task α ε)) (h : HandleRef) :
    Store α ε × List (Event α ε) :=
  if st.alive h && !st.owned agenda h then
    (st.modifyHandle h fun x => { x with released := true }, [.dropped h])
  else (st, [])

/-- Gives up handles one after the other. -/
def letGo (st : Store α ε) (agenda : List (Task α ε)) :
    List HandleRef → Store α ε × List (Event α ε)
  | [] => (st, [])
  | h :: rest =>
      let (first, events) := st.release agenda h
      let (last, more) := first.letGo agenda rest
      (last, events ++ more)

/-- Gives up a sink; with the last reference to it, its registry goes. -/
def giveUp (st : Store α ε) (agenda : List (Task α ε)) (s : SinkRef) :
    Store α ε × List (Event α ε) :=
  if st.referenced agenda s then (st, []) else st.letGo agenda (st.registry s).handles

end Store

/-- What the first task of an agenda does; `rest` are the others. -/
def Task.effect (st : Store α ε) (rest : List (Task α ε)) : Task α ε → Effect α ε
  | .perform within step =>
      let (e, closing) := st.perform rest within step
      (e.after [.performed within step]).followedBy [.answer within step closing]
  | .answer within step closing =>
      let (left, reply) := st.conclude closing
      ⟨left, [.answered within step reply], []⟩
  | .notify h signal => st.notify h signal
  | .finish h signal => st.finish h signal
  | .deliver h outcome => st.deliver h outcome
  | .letGo hs => let (left, events) := st.letGo rest hs; ⟨left, events, []⟩
  | .giveUp s => let (left, events) := st.giveUp rest s; ⟨left, events, []⟩
  | .hangUp _ => .quiet st

structure Machine (α ε : Type) where
  store : Store α ε
  agenda : List (Task α ε)
  past : List (Event α ε)

namespace Machine

/-- A machine with a script to run and nothing else. -/
def load (script : List (Step α ε)) : Machine α ε :=
  { store := .empty, agenda := script.map (.perform none), past := [] }

def step (m : Machine α ε) : Machine α ε :=
  match m.agenda with
  | [] => m
  | task :: rest =>
      let e := task.effect m.store rest
      { store := e.store, agenda := e.tasks ++ rest, past := e.events.reverse ++ m.past }

def steps : Nat → Machine α ε → Machine α ε
  | 0, m => m
  | n + 1, m => if m.agenda.isEmpty then m else steps n m.step

/-- The most tasks that one step of a script leaves in all, its own answer included. -/
def workPerStep : Nat := 12

/-- Runs a script to its end. -/
def run (script : List (Step α ε)) : Machine α ε :=
  steps (workPerStep * Step.occurrencesAll script) (load script)

/-- The events of a run, oldest first. -/
def history (m : Machine α ε) : List (Event α ε) := m.past.reverse

end Machine

end OneShot
