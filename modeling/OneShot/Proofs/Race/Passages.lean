/-
# OneShot.Proofs.Race.Passages -- what a point does, branch by branch

`Point.effect` looks at the memory and decides.  `Passage` lists its branches: for each, what
the point has found there, what it leaves, which points come next, and what happened.
`Point.effect_passage` is the only place where the effects of points are unfolded; whatever is
said of all points is said by cases on their passage.
-/
import OneShot.Race.Machine

namespace OneShot.Race

set_option autoImplicit false

variable {α ε : Type}

inductive Passage (m : Memory α ε) :
    Point α ε → Memory α ε → List (Point α ε) → List (Event α ε) → Prop
  | make (c : Consumer) :
      Passage m (.make c) (m.make c)
        [.start m.handles.length .subscribed, .addLoad m.handles.length,
          .letGo [m.handles.length]]
        [.subscribed m.handles.length]
  -- callbacks
  | start (h : HandleRef) (signal : Signal α ε) (acts : List Own) :
      Passage m (.start h signal) m (acts.map (.act h) ++ [.finish h signal]) [.began h signal]
  | askNothing (h : HandleRef) : Passage m (.act h (.request 0)) m [.letGo [h]] [.requested h 0]
  | ask (h : HandleRef) {n : UInt64} (positive : n ≠ 0) :
      Passage m (.act h (.request n)) m [.requestLoad h, .letGo [h]] [.requested h n]
  | renounce (h : HandleRef) : Passage m (.act h .cancel) m [.cancelSwap h, .letGo [h]] []
  | finish (h : HandleRef) (signal : Signal α ε) :
      Passage m (.finish h signal) m [] [.ended h signal]
  -- enrolment
  | addReplay (h : HandleRef) {o : Outcome α ε} (closed : m.registry = .frozen o) :
      Passage m (.addLoad h) m [.offer h o .replay] []
  | addLoad (h : HandleRef) {waiting : List HandleRef} (open_ : m.registry = .live waiting) :
      Passage m (.addLoad h) m [.addSwap h m.stamp waiting] []
  | add (h : HandleRef) (waiting : List HandleRef) :
      Passage m (.addSwap h m.stamp waiting) (m.replace (.live (waiting ++ [h]))) [.recheck h]
        [.registered h]
  | addLate (h : HandleRef) {stamp : Nat} (waiting : List HandleRef) (late : m.stamp ≠ stamp) :
      Passage m (.addSwap h stamp waiting) m [.addLoad h] []
  | recheckGone (h : HandleRef) (gone : m.phase h = .cancelled) :
      Passage m (.recheck h) m [.removeLoad h] []
  | recheck (h : HandleRef) (on : m.phase h ≠ .cancelled) : Passage m (.recheck h) m [] []
  -- removal
  | removeNothing (h : HandleRef) (out : h ∉ m.registry.handles) : Passage m (.removeLoad h) m [] []
  | removeLoad (h : HandleRef) {waiting : List HandleRef} (open_ : m.registry = .live waiting)
      (waits : h ∈ waiting) : Passage m (.removeLoad h) m [.removeSwap h m.stamp waiting] []
  | remove (h : HandleRef) (waiting : List HandleRef) :
      Passage m (.removeSwap h m.stamp waiting) (m.replace (.live (waiting.erase h))) []
        [.removed h]
  | removeLate (h : HandleRef) {stamp : Nat} (waiting : List HandleRef) (late : m.stamp ≠ stamp) :
      Passage m (.removeSwap h stamp waiting) m [.removeLoad h] []
  -- ending
  | claim (o : Outcome α ε) (pending : m.flag = .pending) :
      Passage m (.claim o) { m with flag := o.termination } [.freeze o] [.claimed o true]
  | claimLost (o : Outcome α ε) (taken : m.flag ≠ .pending) :
      Passage m (.claim o) m [.answer false] [.claimed o false]
  | freeze (o : Outcome α ε) :
      Passage m (.freeze o) (m.replace (.frozen o))
        (m.registry.handles.map (.offer · o .loop) ++ [.letGo m.registry.handles, .answer true]) []
  | answer (won : Bool) : Passage m (.answer won) m [] [.answered won]
  -- offers
  | offerGone (h : HandleRef) (o : Outcome α ε) (source : Source) (gone : m.phase h = .cancelled) :
      Passage m (.offer h o source) m [] [.offered h o source]
  | offerValue (h : HandleRef) (v : α) (source : Source) (on : m.phase h ≠ .cancelled) :
      Passage m (.offer h (.value v) source) m [.valueLoad h v] [.offered h (.value v) source]
  | offerEmpty (h : HandleRef) (source : Source) (on : m.phase h ≠ .cancelled) :
      Passage m (.offer h .empty source) m [.start h .complete] [.offered h .empty source]
  | offerError (h : HandleRef) (e : ε) (source : Source) (on : m.phase h ≠ .cancelled) :
      Passage m (.offer h (.error e) source) m [.start h (.error e)] [.offered h (.error e) source]
  -- delivery of a value
  | valueWanted (h : HandleRef) (v : α) (wanted : m.phase h = .requested) :
      Passage m (.valueLoad h v) m [.serveSwap h v] []
  | valueEarly (h : HandleRef) (v : α) (idle : m.phase h = .idle) :
      Passage m (.valueLoad h v) m [.parkStore h v] []
  | valueOver (h : HandleRef) (v : α) (early : m.phase h ≠ .idle)
      (wanted : m.phase h ≠ .requested) : Passage m (.valueLoad h v) m [] []
  | serve (h : HandleRef) (v : α) (wanted : m.phase h = .requested) :
      Passage m (.serveSwap h v) (m.setPhase h .served) [.start h (.next v), .afterNext h] []
  | serveLate (h : HandleRef) (v : α) (late : m.phase h ≠ .requested) :
      Passage m (.serveSwap h v) m [.valueLoad h v] []
  | parkStore (h : HandleRef) (v : α) :
      Passage m (.parkStore h v) (m.setParked h (some (.value v))) [.keepStore h v] []
  | keepStore (h : HandleRef) (v : α) :
      Passage m (.keepStore h v) (m.setKeepAlive h true) [.parkSwap h v] []
  | park (h : HandleRef) (v : α) (idle : m.phase h = .idle) :
      Passage m (.parkSwap h v) (m.setPhase h .parked) [] []
  | parkLate (h : HandleRef) (v : α) (late : m.phase h ≠ .idle) :
      Passage m (.parkSwap h v) m [.clearParked h, .clearKeep h, .valueLoad h v] []
  | clearParked (h : HandleRef) : Passage m (.clearParked h) (m.setParked h none) [] []
  | clearKeep (h : HandleRef) : Passage m (.clearKeep h) (m.setKeepAlive h false) [] []
  | completeNot (h : HandleRef) (gone : m.phase h = .cancelled) : Passage m (.afterNext h) m [] []
  | complete (h : HandleRef) (on : m.phase h ≠ .cancelled) :
      Passage m (.afterNext h) m [.start h .complete] []
  -- demand
  | requestEarly (h : HandleRef) (idle : m.phase h = .idle) :
      Passage m (.requestLoad h) m [.requestSwap h] []
  | requestParked (h : HandleRef) (parked : m.phase h = .parked) :
      Passage m (.requestLoad h) m [.emitSwap h] []
  | requestOver (h : HandleRef) (early : m.phase h ≠ .idle) (unparked : m.phase h ≠ .parked) :
      Passage m (.requestLoad h) m [] []
  | request (h : HandleRef) (idle : m.phase h = .idle) :
      Passage m (.requestSwap h) (m.setPhase h .requested) [] []
  | requestLate (h : HandleRef) (late : m.phase h ≠ .idle) :
      Passage m (.requestSwap h) m [.requestLoad h] []
  | emit (h : HandleRef) (parked : m.phase h = .parked) :
      Passage m (.emitSwap h) (m.setPhase h .served) [.takeKeep h, .takeParked h] []
  | emitLate (h : HandleRef) (late : m.phase h ≠ .parked) :
      Passage m (.emitSwap h) m [.requestLoad h] []
  | takeKeep (h : HandleRef) : Passage m (.takeKeep h) (m.setKeepAlive h false) [] []
  | take (h : HandleRef) {v : α} (full : m.parked h = some (.value v)) :
      Passage m (.takeParked h) (m.setParked h none) [.start h (.next v), .afterNext h] []
  | takeNothing (h : HandleRef) (lacking : ∀ v, m.parked h ≠ some (.value v)) :
      Passage m (.takeParked h) (m.setParked h none) [] []
  -- cancellation
  | cancelAgain (h : HandleRef) (gone : m.phase h = .cancelled) : Passage m (.cancelSwap h) m [] []
  | cancel (h : HandleRef) (on : m.phase h ≠ .cancelled) :
      Passage m (.cancelSwap h) (m.setPhase h .cancelled)
        [.clearParked h, .clearKeep h, .removeLoad h] [.cancelled h]
  | letGo (hs : List HandleRef) : Passage m (.letGo hs) m [] []

section Next

variable {P : Point α ε → Prop}

/-- What holds of all that comes next when a callback starts. -/
theorem forall_callback {h : HandleRef} {signal : Signal α ε} {acts : List Own}
    (act : ∀ own, P (.act h own)) (finish : P (.finish h signal)) :
    ∀ q ∈ acts.map (.act h) ++ [.finish h signal], P q := by
  intro q next
  rcases List.mem_append.1 next with first | last
  · obtain ⟨own, -, rfl⟩ := List.mem_map.1 first
    exact act own
  · rwa [List.mem_singleton.1 last]

/-- What holds of all that comes next when the registry is frozen. -/
theorem forall_loop {waiting : List HandleRef} {o : Outcome α ε}
    (offer : ∀ h ∈ waiting, P (.offer h o .loop)) (letGo : P (.letGo waiting))
    (answer : P (.answer true)) :
    ∀ q ∈ waiting.map (.offer · o .loop) ++ [.letGo waiting, .answer true], P q := by
  intro q next
  rcases List.mem_append.1 next with first | last
  · obtain ⟨h, member, rfl⟩ := List.mem_map.1 first
    exact offer h member
  · rcases List.mem_cons.1 last with rfl | last
    · exact letGo
    · rwa [List.mem_singleton.1 last]

end Next

/-- **Every move of a point is one of its passages.** -/
theorem Point.effect_passage (m : Memory α ε) (p : Point α ε) :
    Passage m p (p.effect m).memory (p.effect m).points (p.effect m).events := by
  cases p with
  | make c => exact .make c
  | start h signal => exact .start h signal _
  | act h own =>
      cases own with
      | request n =>
          by_cases zero : n = 0
          · subst zero
            exact .askNothing h
          · simpa [effect, Move.to, callRequest, zero] using Passage.ask h zero
      | cancel => exact .renounce h
  | finish h signal => exact .finish h signal
  | addLoad h =>
      cases registry : m.registry with
      | frozen o => simpa [effect, Move.to, registry] using Passage.addReplay h registry
      | live waiting => simpa [effect, Move.to, registry] using Passage.addLoad h registry
  | addSwap h stamp waiting =>
      by_cases same : m.stamp = stamp
      · subst same
        simpa [effect, Move.to] using Passage.add h waiting
      · simpa [effect, Move.to, same] using Passage.addLate h waiting same
  | recheck h =>
      by_cases gone : m.phase h = .cancelled
      · simpa [effect, Move.to, gone] using Passage.recheckGone h gone
      · simpa [effect, Move.to, gone] using Passage.recheck h gone
  | removeLoad h =>
      cases registry : m.registry with
      | frozen o =>
          have out : h ∉ m.registry.handles := by simp [registry, Registry.handles]
          simpa [effect, Move.to, registry] using Passage.removeNothing h out
      | live waiting =>
          by_cases waits : h ∈ waiting
          · simpa [effect, Move.to, registry, waits] using Passage.removeLoad h registry waits
          · have out : h ∉ m.registry.handles := by simpa [registry, Registry.handles] using waits
            simpa [effect, Move.to, registry, waits] using Passage.removeNothing h out
  | removeSwap h stamp waiting =>
      by_cases same : m.stamp = stamp
      · subst same
        simpa [effect, Move.to] using Passage.remove h waiting
      · simpa [effect, Move.to, same] using Passage.removeLate h waiting same
  | claim o =>
      by_cases pending : m.flag = .pending
      · simpa [effect, Move.to, pending] using Passage.claim o pending
      · simpa [effect, Move.to, pending] using Passage.claimLost o pending
  | freeze o => exact .freeze o
  | answer won => exact .answer won
  | offer h o source =>
      by_cases gone : m.phase h = .cancelled
      · simpa [effect, Move.to, gone] using Passage.offerGone h o source gone
      · cases o with
        | value v => simpa [effect, Move.to, gone] using Passage.offerValue h v source gone
        | empty => simpa [effect, Move.to, gone] using Passage.offerEmpty h source gone
        | error e => simpa [effect, Move.to, gone] using Passage.offerError h e source gone
  | valueLoad h v =>
      cases phase : m.phase h with
      | requested => simpa [effect, Move.to, phase] using Passage.valueWanted h v phase
      | idle => simpa [effect, Move.to, phase] using Passage.valueEarly h v phase
      | _ =>
          simpa [effect, Move.to, phase] using
            Passage.valueOver h v (by simp [phase]) (by simp [phase])
  | serveSwap h v =>
      by_cases wanted : m.phase h = .requested
      · simpa [effect, Move.to, wanted] using Passage.serve h v wanted
      · simpa [effect, Move.to, wanted] using Passage.serveLate h v wanted
  | parkStore h v => exact .parkStore h v
  | keepStore h v => exact .keepStore h v
  | parkSwap h v =>
      by_cases idle : m.phase h = .idle
      · simpa [effect, Move.to, idle] using Passage.park h v idle
      · simpa [effect, Move.to, idle] using Passage.parkLate h v idle
  | clearParked h => exact .clearParked h
  | clearKeep h => exact .clearKeep h
  | afterNext h =>
      by_cases gone : m.phase h = .cancelled
      · simpa [effect, Move.to, gone] using Passage.completeNot h gone
      · simpa [effect, Move.to, gone] using Passage.complete h gone
  | requestLoad h =>
      cases phase : m.phase h with
      | idle => simpa [effect, Move.to, phase] using Passage.requestEarly h phase
      | parked => simpa [effect, Move.to, phase] using Passage.requestParked h phase
      | _ =>
          simpa [effect, Move.to, phase] using
            Passage.requestOver h (by simp [phase]) (by simp [phase])
  | requestSwap h =>
      by_cases idle : m.phase h = .idle
      · simpa [effect, Move.to, idle] using Passage.request h idle
      · simpa [effect, Move.to, idle] using Passage.requestLate h idle
  | emitSwap h =>
      by_cases parked : m.phase h = .parked
      · simpa [effect, Move.to, parked] using Passage.emit h parked
      · simpa [effect, Move.to, parked] using Passage.emitLate h parked
  | takeKeep h => exact .takeKeep h
  | takeParked h =>
      have lacking : (∀ v, m.parked h ≠ some (.value v)) →
          Passage m (.takeParked h) (m.setParked h none) [] [] := .takeNothing h
      cases parked : m.parked h with
      | none => simpa [effect, Move.to, parked] using lacking (by simp [parked])
      | some o =>
          cases o with
          | value v => simpa [effect, Move.to, parked] using Passage.take h parked
          | _ => simpa [effect, Move.to, parked] using lacking (by simp [parked])
  | cancelSwap h =>
      by_cases gone : m.phase h = .cancelled
      · simpa [effect, Move.to, gone] using Passage.cancelAgain h gone
      · simpa [effect, Move.to, gone] using Passage.cancel h gone
  | letGo hs => exact .letGo hs

end OneShot.Race
