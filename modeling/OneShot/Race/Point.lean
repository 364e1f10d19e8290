/-
# OneShot.Race.Point -- calls, one atomic step at a time

A thread's next move is a `Point`: at most one load, store, exchange or conditional
exchange of one shared cell.  What a point has loaded, the points behind it carry
along.  `Point.effect` makes the move and names the points that come next.

* enrolment: `addLoad`, `addSwap`, again if another thread was faster; then `recheck`
  for a cancellation that came before the handle was registered
* removal: `removeLoad`, `removeSwap`
* ending: `claim` the flag, `freeze` the registry, `offer` the outcome to each handle
* delivery of a value: `valueLoad`, then `serveSwap` if there is demand, or
  `parkStore`, `keepStore`, `parkSwap` if there is none; if a request or a cancellation
  came in between, the parked value is taken back by `clearParked` and `clearKeep`
* demand: `requestLoad`, then `requestSwap`, or `emitSwap`, `takeKeep`, `takeParked`
  if a value is parked
* cancellation: `cancelSwap`, `clearParked`, `clearKeep`, removal
-/
import OneShot.Race.Memory

namespace OneShot.Race

set_option autoImplicit false

variable {α ε : Type}

/-- Whether an outcome is offered by the loop over a registry or as a replay. -/
inductive Source
  | loop
  | replay
  deriving DecidableEq, Repr

inductive Point (α ε : Type)
  | make (consumer : Consumer)
  | start (h : HandleRef) (signal : Signal α ε)
  | act (h : HandleRef) (own : Own)
  | finish (h : HandleRef) (signal : Signal α ε)
  | addLoad (h : HandleRef)
  | addSwap (h : HandleRef) (stamp : Nat) (waiting : List HandleRef)
  | recheck (h : HandleRef)
  | removeLoad (h : HandleRef)
  | removeSwap (h : HandleRef) (stamp : Nat) (waiting : List HandleRef)
  | claim (outcome : Outcome α ε)
  | freeze (outcome : Outcome α ε)
  | answer (won : Bool)
  | offer (h : HandleRef) (outcome : Outcome α ε) (source : Source)
  | valueLoad (h : HandleRef) (v : α)
  | serveSwap (h : HandleRef) (v : α)
  | parkStore (h : HandleRef) (v : α)
  | keepStore (h : HandleRef) (v : α)
  | parkSwap (h : HandleRef) (v : α)
  | clearParked (h : HandleRef)
  | clearKeep (h : HandleRef)
  | afterNext (h : HandleRef)
  | requestLoad (h : HandleRef)
  | requestSwap (h : HandleRef)
  | emitSwap (h : HandleRef)
  | takeKeep (h : HandleRef)
  | takeParked (h : HandleRef)
  | cancelSwap (h : HandleRef)
  /-- A call is over and gives up the handles that it held. -/
  | letGo (hs : List HandleRef)

/-- The handles that a thread at a point holds a reference to. -/
def Point.holds : Point α ε → List HandleRef
  | make _ | claim _ | freeze _ | answer _ => []
  | start h _ | act h _ | finish h _ | addLoad h | recheck h | removeLoad h | offer h _ _
  | valueLoad h _ | serveSwap h _ | parkStore h _ | keepStore h _ | parkSwap h _
  | clearParked h | clearKeep h | afterNext h | requestLoad h | requestSwap h | emitSwap h
  | takeKeep h | takeParked h | cancelSwap h => [h]
  | addSwap h _ waiting | removeSwap h _ waiting => h :: waiting
  | letGo hs => hs

inductive Event (α ε : Type)
  | subscribed (h : HandleRef)
  | requested (h : HandleRef) (n : UInt64)
  | cancelled (h : HandleRef)
  | claimed (outcome : Outcome α ε) (won : Bool)
  | answered (won : Bool)
  | registered (h : HandleRef)
  | removed (h : HandleRef)
  | offered (h : HandleRef) (outcome : Outcome α ε) (source : Source)
  | began (h : HandleRef) (signal : Signal α ε)
  | ended (h : HandleRef) (signal : Signal α ε)

/-- The memory after a move, what happened, the points that come next, and the handle
that was made, if one was. -/
structure Move (α ε : Type) where
  memory : Memory α ε
  events : List (Event α ε)
  points : List (Point α ε)
  made : Option HandleRef

def Move.to (m : Memory α ε) (points : List (Point α ε)) : Move α ε := ⟨m, [], points, none⟩

/-- A call on a handle that is alive. -/
def callRequest (h : HandleRef) (n : UInt64) : List (Point α ε) :=
  if n = 0 then [.letGo [h]] else [.requestLoad h, .letGo [h]]

def callCancel (h : HandleRef) : List (Point α ε) := [.cancelSwap h, .letGo [h]]

def Point.effect (m : Memory α ε) : Point α ε → Move α ε
  | make consumer =>
      let h := m.handles.length
      ⟨m.make consumer, [.subscribed h], [.start h .subscribed, .addLoad h, .letGo [h]], some h⟩
  | start h signal =>
      let acts := ((m.handles[h]?.map fun x => x.consumer.on signal).getD []).map (.act h)
      ⟨m, [.began h signal], acts ++ [.finish h signal], none⟩
  | act h (.request n) => ⟨m, [.requested h n], callRequest h n, none⟩
  | act h .cancel => .to m (callCancel h)
  | finish h signal => ⟨m, [.ended h signal], [], none⟩
  | addLoad h =>
      match m.registry with
      | .frozen outcome => .to m [.offer h outcome .replay]
      | .live waiting => .to m [.addSwap h m.stamp waiting]
  | addSwap h stamp waiting =>
      if m.stamp = stamp then
        ⟨m.replace (.live (waiting ++ [h])), [.registered h], [.recheck h], none⟩
      else .to m [.addLoad h]
  | recheck h => .to m (if m.phase h = .cancelled then [.removeLoad h] else [])
  | removeLoad h =>
      match m.registry with
      | .frozen _ => .to m []
      | .live waiting =>
          .to m (if waiting.contains h then [.removeSwap h m.stamp waiting] else [])
  | removeSwap h stamp waiting =>
      if m.stamp = stamp then
        ⟨m.replace (.live (waiting.erase h)), [.removed h], [], none⟩
      else .to m [.removeLoad h]
  | claim outcome =>
      if m.flag = .pending then
        ⟨{ m with flag := outcome.termination }, [.claimed outcome true], [.freeze outcome], none⟩
      else ⟨m, [.claimed outcome false], [.answer false], none⟩
  | freeze outcome =>
      let waiting := m.registry.handles
      .to (m.replace (.frozen outcome))
        (waiting.map (.offer · outcome .loop) ++ [.letGo waiting, .answer true])
  | answer won => ⟨m, [.answered won], [], none⟩
  | offer h outcome source =>
      let next : List (Point α ε) :=
        if m.phase h = .cancelled then []
        else
          match outcome with
          | .value v => [.valueLoad h v]
          | .empty => [.start h .complete]
          | .error e => [.start h (.error e)]
      ⟨m, [.offered h outcome source], next, none⟩
  | valueLoad h v =>
      match m.phase h with
      | .requested => .to m [.serveSwap h v]
      | .idle => .to m [.parkStore h v]
      | _ => .to m []
  | serveSwap h v =>
      if m.phase h = .requested then
        .to (m.setPhase h .served) [.start h (.next v), .afterNext h]
      else .to m [.valueLoad h v]
  | parkStore h v => .to (m.setParked h (some (.value v))) [.keepStore h v]
  | keepStore h v => .to (m.setKeepAlive h true) [.parkSwap h v]
  | parkSwap h v =>
      if m.phase h = .idle then .to (m.setPhase h .parked) []
      else .to m [.clearParked h, .clearKeep h, .valueLoad h v]
  | clearParked h => .to (m.setParked h none) []
  | clearKeep h => .to (m.setKeepAlive h false) []
  | afterNext h => .to m (if m.phase h = .cancelled then [] else [.start h .complete])
  | requestLoad h =>
      match m.phase h with
      | .idle => .to m [.requestSwap h]
      | .parked => .to m [.emitSwap h]
      | _ => .to m []
  | requestSwap h =>
      if m.phase h = .idle then .to (m.setPhase h .requested) []
      else .to m [.requestLoad h]
  | emitSwap h =>
      if m.phase h = .parked then .to (m.setPhase h .served) [.takeKeep h, .takeParked h]
      else .to m [.requestLoad h]
  | takeKeep h => .to (m.setKeepAlive h false) []
  | takeParked h =>
      let cleared := m.setParked h none
      match m.parked h with
      | some (.value v) => .to cleared [.start h (.next v), .afterNext h]
      | _ => .to cleared []
  | cancelSwap h =>
      if m.phase h = .cancelled then .to m []
      else
        ⟨m.setPhase h .cancelled, [.cancelled h], [.clearParked h, .clearKeep h, .removeLoad h],
          none⟩
  | letGo _ => .to m []

end OneShot.Race
