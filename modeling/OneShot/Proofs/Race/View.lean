/-
# OneShot.Proofs.Race.View -- the machine, seen from one handle

`Cell.of` reads the cells of one handle and counts which points deal with it, and at which
stage.  A point that deals with another handle changes nothing of this (`Passage.cell_other`);
one that deals with this handle makes one of the steps of `Cell.Step`, or none
(`Passage.cell_own`); the start of a call asks, or does nothing yet (`Entry.cell`).  A handle
that was just made is blank (`Passage.cell_made`).
-/
import OneShot.Proofs.Race.Cell
import OneShot.Proofs.Race.Grounds

namespace OneShot.Race

set_option autoImplicit false

variable {α ε : Type}

/-! ## Stages and marks -/

inductive Stage
  | reading
  | storing
  | marking
  | clearing
  | unkeeping
  | takingKeep
  | takingParked
  | asking
  | next
  | after
  | complete
  deriving DecidableEq, Repr

/-- The handle that a point deals with, and at which stage. -/
@[simp] def Point.stage? : Point α ε → Option (HandleRef × Stage)
  | valueLoad h _ | serveSwap h _ | parkStore h _ => some (h, .reading)
  | keepStore h _ => some (h, .storing)
  | parkSwap h _ => some (h, .marking)
  | clearParked h => some (h, .clearing)
  | clearKeep h => some (h, .unkeeping)
  | takeKeep h => some (h, .takingKeep)
  | takeParked h => some (h, .takingParked)
  | requestLoad h | requestSwap h | emitSwap h => some (h, .asking)
  | start h (.next _) => some (h, .next)
  | start h .complete => some (h, .complete)
  | afterNext h => some (h, .after)
  | _ => none

inductive Mark
  | asked
  | value
  | empty
  | next
  | complete
  deriving DecidableEq, Repr

/-- What an event tells of a handle: that there was demand, a value or none, and what was
heard. -/
@[simp] def Event.mark? : Event α ε → Option (HandleRef × Mark)
  | requested h n => if n = 0 then none else some (h, .asked)
  | offered h (.value _) _ => some (h, .value)
  | offered h .empty _ => some (h, .empty)
  | began h (.next _) => some (h, .next)
  | began h .complete => some (h, .complete)
  | _ => none

@[simp] def Point.isAt (h : HandleRef) (stage : Stage) (p : Point α ε) : Bool :=
  p.stage? == some (h, stage)

@[simp] def Event.marks (h : HandleRef) (mark : Mark) (event : Event α ε) : Bool :=
  event.mark? == some (h, mark)

/-- A handle as the threads deal with it. -/
def Cell.of (h : HandleRef) (m : Memory α ε) (points : List (Point α ε))
    (past : List (Event α ε)) : Cell :=
  { phase := m.phase h,
    full := (m.parked h).isSome,
    kept := m.keepsAlive h,
    reading := points.countP (Point.isAt h .reading),
    storing := points.countP (Point.isAt h .storing),
    marking := points.countP (Point.isAt h .marking),
    clearing := points.countP (Point.isAt h .clearing),
    unkeeping := points.countP (Point.isAt h .unkeeping),
    takingKeep := points.countP (Point.isAt h .takingKeep),
    takingParked := points.countP (Point.isAt h .takingParked),
    asking := points.countP (Point.isAt h .asking),
    asked := past.countP (Event.marks h .asked),
    values := past.countP (Event.marks h .value),
    empties := past.countP (Event.marks h .empty),
    nexts := points.countP (Point.isAt h .next) + past.countP (Event.marks h .next),
    afters := points.countP (Point.isAt h .after),
    completes := points.countP (Point.isAt h .complete) + past.countP (Event.marks h .complete) }

/-- The handle that a point deals with, at whatever stage. -/
def Point.target? : Point α ε → Option HandleRef
  | make _ | claim _ | freeze _ | answer _ | letGo _ => none
  | start h _ | act h _ | finish h _ | addLoad h | addSwap h _ _ | recheck h | removeLoad h
  | removeSwap h _ _ | offer h _ _ | valueLoad h _ | serveSwap h _ | parkStore h _
  | keepStore h _ | parkSwap h _ | clearParked h | clearKeep h | afterNext h | requestLoad h
  | requestSwap h | emitSwap h | takeKeep h | takeParked h | cancelSwap h => some h

/-- Cells that are read as they were. -/
theorem Cell.of_memory {m m' : Memory α ε} {h : HandleRef} (phase : m'.phase h = m.phase h)
    (parked : m'.parked h = m.parked h) (kept : m'.keepsAlive h = m.keepsAlive h)
    (points : List (Point α ε)) (past : List (Event α ε)) :
    Cell.of h m' points past = Cell.of h m points past := by
  simp only [Cell.of, phase, parked, kept]

theorem Cell.Step.between {r r' s s' : Cell} (step : Step s s') (before : r = s) (after : r' = s') :
    r' = r ∨ Step r r' := by
  subst before after
  exact .inr step

section Passages

variable {m m' : Memory α ε} {p : Point α ε} {new : List (Point α ε)} {events : List (Event α ε)}

namespace Passage

/-- What is not set is read as it was. -/
theorem cells_of_other (passage : Passage m p m' new events)
    (inside : ∀ g ∈ p.holds, g < m.handles.length) {h : HandleRef} (there : h < m.handles.length)
    (other : p.target? ≠ some h) :
    m'.phase h = m.phase h ∧ m'.parked h = m.parked h ∧ m'.keepsAlive h = m.keepsAlive h := by
  cases passage with
  | make c =>
      rw [Memory.phase_make, Memory.parked_make, Memory.keepsAlive_make,
        if_neg (Nat.ne_of_lt there)]
      exact ⟨rfl, rfl, rfl⟩
  | add | remove | claim | freeze => exact ⟨rfl, rfl, rfl⟩
  | serve g | park g | request g | emit g | cancel g =>
      have apart : h ≠ g := fun eq => other (by rw [eq]; rfl)
      rw [Memory.phase_setPhase h (inside g (by simp [Point.holds])), if_neg apart]
      exact ⟨rfl, by simp, by simp⟩
  | parkStore g | clearParked g | take g | takeNothing g =>
      have apart : h ≠ g := fun eq => other (by rw [eq]; rfl)
      rw [Memory.parked_setParked h (inside g (by simp [Point.holds])), if_neg apart]
      exact ⟨by simp, rfl, by simp⟩
  | keepStore g | clearKeep g | takeKeep g =>
      have apart : h ≠ g := fun eq => other (by rw [eq]; rfl)
      rw [Memory.keepsAlive_setKeepAlive h (inside g (by simp [Point.holds])), if_neg apart]
      exact ⟨by simp, by simp, rfl⟩
  | _ => exact ⟨rfl, rfl, rfl⟩

/-- A point that deals with another handle is not seen. -/
theorem cell_other (passage : Passage m p m' new events)
    (inside : ∀ g ∈ p.holds, g < m.handles.length) {h : HandleRef} (there : h < m.handles.length)
    (other : p.target? ≠ some h) (others : List (Point α ε)) (past : List (Event α ε)) :
    Cell.of h m' (new ++ others) (events.reverse ++ past) = Cell.of h m (p :: others) past := by
  obtain ⟨phase, parked, kept⟩ := passage.cells_of_other inside there other
  rw [Cell.of_memory phase parked kept]
  cases passage with
  | start g signal acts =>
      have apart : ¬ g = h := by simpa [Point.target?] using other
      cases signal <;> simp [Cell.of, apart, Function.comp_def]
  | make c =>
      simp [Cell.of]
  | freeze o => simp [Cell.of, Function.comp_def]
  | offerGone g o source gone =>
      have apart : ¬ g = h := by simpa [Point.target?] using other
      cases o <;> simp [Cell.of, apart]
  | _ => simp_all [Cell.of, Point.target?]

/-- A point that deals with the handle makes one of its steps, or none. -/
theorem cell_own (passage : Passage m p m' new events) {h : HandleRef}
    (there : h < m.handles.length) (target : p.target? = some h)
    (valued : ∀ o, m.parked h = some o → ∃ v, o = .value v)
    (others : List (Point α ε)) (past : List (Event α ε))
    (first : ∀ o source, p = .offer h o source →
      past.countP (Event.marks h .value) = 0 ∧ past.countP (Event.marks h .empty) = 0) :
    Cell.of h m' (new ++ others) (events.reverse ++ past) = Cell.of h m (p :: others) past ∨
      Cell.Step (Cell.of h m (p :: others) past)
        (Cell.of h m' (new ++ others) (events.reverse ++ past)) := by
  cases passage with
  | make | claim | claimLost | freeze | answer | letGo => cases target
  -- callbacks
  | start _ signal acts =>
      cases target
      cases signal <;> simp [Cell.of, Function.comp_def] <;> omega
  | ask _ positive =>
      cases target
      refine Cell.Step.between (.ask (r := Cell.of h m others past)) ?_ ?_ <;>
        simp [Cell.of, positive]
  -- offers
  | offerGone _ o source gone =>
      cases target
      obtain ⟨unvalued, unempty⟩ := first o source rfl
      cases o with
      | value v =>
          refine Cell.Step.between
            (.offerGone (r := Cell.of h m others past) gone ⟨unvalued, unempty⟩) ?_ ?_ <;>
            simp [Cell.of]
      | empty =>
          refine Cell.Step.between
            (.offerEmptyGone (r := Cell.of h m others past) gone ⟨unvalued, unempty⟩) ?_ ?_ <;>
            simp [Cell.of]
      | error e => exact .inl (by simp [Cell.of])
  | offerValue _ v source on =>
      cases target
      refine Cell.Step.between (.offer (r := Cell.of h m others past) on (first _ source rfl))
        ?_ ?_ <;> simp [Cell.of]
  | offerEmpty _ source on =>
      cases target
      refine Cell.Step.between (.offerEmpty (r := Cell.of h m others past) on (first _ source rfl))
        ?_ ?_
      · simp [Cell.of]
      · simp [Cell.of]
        omega
  -- delivery of a value
  | valueOver _ v early wanted =>
      cases target
      refine Cell.Step.between (.pass (r := Cell.of h m others past) early wanted) ?_ ?_ <;>
        simp [Cell.of]
  | serve _ v wanted =>
      cases target
      refine Cell.Step.between (.serve (r := Cell.of h m others past) wanted) ?_ ?_
      · simp [Cell.of]
      · simp [Cell.of, Memory.phase_setPhase, there]
        omega
  | parkStore _ v =>
      cases target
      refine Cell.Step.between (.store (r := Cell.of h m others past)) ?_ ?_ <;>
        simp [Cell.of, Memory.parked_setParked, there]
  | keepStore _ v =>
      cases target
      refine Cell.Step.between (.keep (r := Cell.of h m others past)) ?_ ?_ <;>
        simp [Cell.of, Memory.keepsAlive_setKeepAlive, there]
  | park _ v idle =>
      cases target
      refine Cell.Step.between (.park (r := Cell.of h m others past) idle) ?_ ?_ <;>
        simp [Cell.of, Memory.phase_setPhase, there]
  | parkLate _ v late =>
      cases target
      refine Cell.Step.between (.parkLate (r := Cell.of h m others past) late) ?_ ?_ <;>
        simp [Cell.of]
  | clearParked =>
      cases target
      refine Cell.Step.between (.clear (r := Cell.of h m others past)) ?_ ?_ <;>
        simp [Cell.of, Memory.parked_setParked, there]
  | clearKeep =>
      cases target
      refine Cell.Step.between (.unkeep (r := Cell.of h m others past)) ?_ ?_ <;>
        simp [Cell.of, Memory.keepsAlive_setKeepAlive, there]
  | completeNot _ gone =>
      cases target
      refine Cell.Step.between (.completeNot (r := Cell.of h m others past) gone) ?_ ?_ <;>
        simp [Cell.of]
  | complete _ on =>
      cases target
      refine Cell.Step.between (.complete (r := Cell.of h m others past) on) ?_ ?_
      · simp [Cell.of]
      · simp [Cell.of]
        omega
  -- demand
  | requestOver _ early unparked =>
      cases target
      refine Cell.Step.between (.askOver (r := Cell.of h m others past) early unparked) ?_ ?_ <;>
        simp [Cell.of]
  | request _ idle =>
      cases target
      refine Cell.Step.between (.request (r := Cell.of h m others past) idle) ?_ ?_ <;>
        simp [Cell.of, Memory.phase_setPhase, there]
  | emit _ parked =>
      cases target
      refine Cell.Step.between (.emit (r := Cell.of h m others past) parked) ?_ ?_ <;>
        simp [Cell.of, Memory.phase_setPhase, there]
  | takeKeep =>
      cases target
      refine Cell.Step.between (.takeKeep (r := Cell.of h m others past)) ?_ ?_ <;>
        simp [Cell.of, Memory.keepsAlive_setKeepAlive, there]
  | take _ full =>
      cases target
      refine Cell.Step.between (.take (r := Cell.of h m others past) (by simp [Cell.of, full]))
        ?_ ?_
      · simp [Cell.of]
      · simp [Cell.of, Memory.parked_setParked, there]
        omega
  | takeNothing _ lacking =>
      cases target
      have empty : m.parked h = none := by
        cases parked : m.parked h with
        | none => rfl
        | some o =>
            obtain ⟨v, rfl⟩ := valued o parked
            exact absurd parked (lacking v)
      refine Cell.Step.between
        (.takeNothing (r := Cell.of h m others past) (by simp [Cell.of, empty])) ?_ ?_ <;>
        simp [Cell.of, Memory.parked_setParked, there, empty]
  -- cancellation
  | cancel _ on =>
      cases target
      refine Cell.Step.between (.cancel (r := Cell.of h m others past) on) ?_ ?_ <;>
        simp [Cell.of, Memory.phase_setPhase, there]
  -- what is left only goes on, or deals with the registry
  | add | remove =>
      exact .inl (by simp [Cell.of, Memory.phase, Memory.parked, Memory.keepsAlive, Memory.replace])
  | _ =>
      cases target
      exact .inl (by simp [Cell.of])

end Passage

end Passages

/-! ## New handles and calls -/

/-- The order of the points does not matter. -/
theorem Cell.of_perm {points points' : List (Point α ε)} (perm : points.Perm points')
    (h : HandleRef) (m : Memory α ε) (past : List (Event α ε)) :
    Cell.of h m points past = Cell.of h m points' past := by
  simp only [Cell.of, perm.countP_eq]

theorem Point.holds_of_stage {p : Point α ε} {h : HandleRef} {stage : Stage}
    (at_ : p.isAt h stage = true) : h ∈ p.holds := by
  cases p with
  | start g signal => cases signal <;> simp_all [holds]
  | _ => simp_all [holds]

theorem Event.handle_of_mark {event : Event α ε} {h : HandleRef} {mark : Mark}
    (marks : event.marks h mark = true) : event.handle? = some h := by
  cases event with
  | requested g n => by_cases zero : n = 0 <;> simp_all [handle?]
  | offered g o source => cases o <;> simp_all [handle?]
  | began g signal => cases signal <;> simp_all [handle?]
  | _ => simp_all

/-- Nobody deals with a handle that was just made. -/
theorem Cell.of_made {h : HandleRef} {m : Memory α ε} {points : List (Point α ε)}
    {past : List (Event α ε)} (phase : m.phase h = .idle) (parked : m.parked h = none)
    (kept : m.keepsAlive h = false) (alone : ∀ p ∈ points, ∀ stage, p.isAt h stage = false)
    (unknown : ∀ event ∈ past, ∀ mark, event.marks h mark = false) :
    Cell.of h m points past = Cell.blank := by
  have points : ∀ stage, points.countP (Point.isAt h stage) = 0 := fun stage =>
    List.countP_eq_zero.2 fun p member => by rw [alone p member stage]; exact Bool.false_ne_true
  have past : ∀ mark, past.countP (Event.marks h mark) = 0 := fun mark =>
    List.countP_eq_zero.2 fun event said => by
      rw [unknown event said mark]; exact Bool.false_ne_true
  simp only [Cell.of, Cell.blank, phase, parked, kept, points, past, Option.isSome_none]

theorem Passage.cell_made {m m' : Memory α ε} {p : Point α ε} {new : List (Point α ε)}
    {events : List (Event α ε)} (passage : Passage m p m' new events) {h : HandleRef}
    (beyond : m.handles.length ≤ h) (there : h < m'.handles.length) {others : List (Point α ε)}
    {past : List (Event α ε)} (alone : ∀ q ∈ others, ∀ stage, q.isAt h stage = false)
    (unknown : ∀ event ∈ past, ∀ mark, event.marks h mark = false) :
    Cell.of h m' (new ++ others) (events.reverse ++ past) = Cell.blank := by
  cases passage with
  | make c =>
      rw [Memory.make_length] at there
      obtain rfl : h = m.handles.length := Nat.le_antisymm (Nat.le_of_lt_succ there) beyond
      apply Cell.of_made
      · rw [Memory.phase_make, if_pos rfl]
      · rw [Memory.parked_make]
        simp [Memory.parked]
      · rw [Memory.keepsAlive_make]
        simp [Memory.keepsAlive]
      · intro q member stage
        rcases List.mem_append.1 member with new | old
        · simp only [List.mem_cons, List.not_mem_nil, or_false] at new
          rcases new with rfl | rfl | rfl <;> simp
        · exact alone q old stage
      · intro event said mark
        rcases List.mem_append.1 said with new | old
        · obtain rfl : event = .subscribed m.handles.length := by simpa using new
          simp
        · exact unknown event old mark
  | _ => exact absurd there (Nat.not_lt.2 (by simpa using beyond))

theorem Machine.Entry.cell {m : Machine α ε} {call : Call α ε} {new : List (Point α ε)}
    {events : List (Event α ε)} (entry : m.Entry call new events) (h : HandleRef)
    (others : List (Point α ε)) (past : List (Event α ε)) :
    Cell.of h m.memory (new ++ others) (events.reverse ++ past) = Cell.of h m.memory others past ∨
      Cell.Step (Cell.of h m.memory others past)
        (Cell.of h m.memory (new ++ others) (events.reverse ++ past)) := by
  cases entry with
  | @request target g owned n positive =>
      by_cases own : g = h
      · subst own
        refine Cell.Step.between (.ask (r := Cell.of g m.memory others past)) ?_ ?_ <;>
          simp [Cell.of, positive]
      · exact .inl (by simp [Cell.of, own])
  | _ => exact .inl (by simp [Cell.of])

end OneShot.Race
