/-
# OneShot.Proofs.Race.Cell -- one handle, as threads deal with it

A value is published in two cells, the parked slot and the mark that keeps the handle alive,
before the phase that advertises it; whoever comes in between makes the publisher take both
back, while a request or a cancellation clears the same two cells.  What matters of all this is
the three cells of the handle and how many threads are at which stage of dealing with them.

`Cell` holds these, `Cell.Step` is what one atomic step does to them, and `Cell.Stands` says for
each phase what the cells hold and who may still be under way: in the phases `idle` and `parked`
nobody clears a slot; a value is on its way as long as it is offered and neither parked nor
served; and what is full or kept is so because it is parked, or some thread is about to clear
it.  Every step keeps this (`Cell.Sound.step`).
-/
import OneShot.Store

namespace OneShot.Race

set_option autoImplicit false

/-- The cells of one handle, and how many threads are at which stage of dealing with them. -/
structure Cell where
  phase : Phase
  /-- Something is parked. -/
  full : Bool
  /-- The mark that keeps the handle alive is set. -/
  kept : Bool
  /-- Deliveries of a value: before it is stored, before the mark is set, and before the phase
  that advertises both. -/
  reading : Nat
  storing : Nat
  marking : Nat
  /-- Threads that are about to clear the slot, and the mark. -/
  clearing : Nat
  unkeeping : Nat
  /-- Requests that have found a value parked and are about to take the mark, and the value. -/
  takingKeep : Nat
  takingParked : Nat
  /-- Requests that have not found anything yet, and all that were made. -/
  asking : Nat
  asked : Nat
  /-- Values offered, and offers that there is none. -/
  values : Nat
  empties : Nat
  /-- Values and completions heard or about to be; and threads that are about to look whether
  a completion is still wanted. -/
  nexts : Nat
  afters : Nat
  completes : Nat

namespace Cell

/-- Deliveries of a value that are under way. -/
def delivering (r : Cell) : Nat := r.reading + r.storing + r.marking

def blank : Cell :=
  { phase := .idle, full := false, kept := false, reading := 0, storing := 0, marking := 0,
    clearing := 0, unkeeping := 0, takingKeep := 0, takingParked := 0, asking := 0, asked := 0,
    values := 0, empties := 0, nexts := 0, afters := 0, completes := 0 }

/-- One atomic step. -/
inductive Step : Cell → Cell → Prop
  -- offers
  | offer {r : Cell} (on : r.phase ≠ .cancelled) (first : r.values = 0 ∧ r.empties = 0) :
      Step r { r with values := r.values + 1, reading := r.reading + 1 }
  | offerEmpty {r : Cell} (on : r.phase ≠ .cancelled) (first : r.values = 0 ∧ r.empties = 0) :
      Step r { r with empties := r.empties + 1, completes := r.completes + 1 }
  | offerGone {r : Cell} (gone : r.phase = .cancelled) (first : r.values = 0 ∧ r.empties = 0) :
      Step r { r with values := r.values + 1 }
  | offerEmptyGone {r : Cell} (gone : r.phase = .cancelled)
      (first : r.values = 0 ∧ r.empties = 0) : Step r { r with empties := r.empties + 1 }
  -- delivery
  | pass {r : Cell} (early : r.phase ≠ .idle) (wanted : r.phase ≠ .requested) :
      Step { r with reading := r.reading + 1 } r
  | serve {r : Cell} (wanted : r.phase = .requested) :
      Step { r with reading := r.reading + 1 }
        { r with phase := .served, nexts := r.nexts + 1, afters := r.afters + 1 }
  | store {r : Cell} :
      Step { r with reading := r.reading + 1 } { r with full := true, storing := r.storing + 1 }
  | keep {r : Cell} :
      Step { r with storing := r.storing + 1 } { r with kept := true, marking := r.marking + 1 }
  | park {r : Cell} (idle : r.phase = .idle) :
      Step { r with marking := r.marking + 1 } { r with phase := .parked }
  | parkLate {r : Cell} (late : r.phase ≠ .idle) :
      Step { r with marking := r.marking + 1 }
        { r with
          clearing := r.clearing + 1, unkeeping := r.unkeeping + 1, reading := r.reading + 1 }
  | clear {r : Cell} : Step { r with clearing := r.clearing + 1 } { r with full := false }
  | unkeep {r : Cell} : Step { r with unkeeping := r.unkeeping + 1 } { r with kept := false }
  | completeNot {r : Cell} (gone : r.phase = .cancelled) :
      Step { r with afters := r.afters + 1 } r
  | complete {r : Cell} (on : r.phase ≠ .cancelled) :
      Step { r with afters := r.afters + 1 } { r with completes := r.completes + 1 }
  -- demand
  | ask {r : Cell} : Step r { r with asked := r.asked + 1, asking := r.asking + 1 }
  | askOver {r : Cell} (early : r.phase ≠ .idle) (unparked : r.phase ≠ .parked) :
      Step { r with asking := r.asking + 1 } r
  | request {r : Cell} (idle : r.phase = .idle) :
      Step { r with asking := r.asking + 1 } { r with phase := .requested }
  | emit {r : Cell} (parked : r.phase = .parked) :
      Step { r with asking := r.asking + 1 }
        { r with
          phase := .served, takingKeep := r.takingKeep + 1, takingParked := r.takingParked + 1 }
  | takeKeep {r : Cell} : Step { r with takingKeep := r.takingKeep + 1 } { r with kept := false }
  | take {r : Cell} (full : r.full = true) :
      Step { r with takingParked := r.takingParked + 1 }
        { r with full := false, nexts := r.nexts + 1, afters := r.afters + 1 }
  | takeNothing {r : Cell} (lacking : r.full = false) :
      Step { r with takingParked := r.takingParked + 1 } r
  -- cancellation
  | cancel {r : Cell} (on : r.phase ≠ .cancelled) :
      Step r
        { r with
          phase := .cancelled, clearing := r.clearing + 1, unkeeping := r.unkeeping + 1 }

/-- What the cells hold in a phase, and who may still be under way. -/
def Stands (r : Cell) : Phase → Prop
  | .idle =>
      r.delivering = r.values ∧ r.clearing = 0 ∧ r.unkeeping = 0 ∧
      r.takingKeep = 0 ∧ r.takingParked = 0 ∧ r.nexts = 0 ∧
      (r.full = true ↔ 0 < r.storing + r.marking) ∧ (r.kept = true ↔ 0 < r.marking) ∧
      (0 < r.asked → 0 < r.asking)
  | .requested =>
      r.delivering = r.values ∧ r.takingKeep = 0 ∧ r.takingParked = 0 ∧ r.nexts = 0 ∧
      (r.full = true → 0 < r.storing + r.marking + r.clearing) ∧
      (r.kept = true → 0 < r.marking + r.unkeeping) ∧ 0 < r.asked
  | .parked =>
      r.values = 1 ∧ r.delivering = 0 ∧ r.clearing = 0 ∧ r.unkeeping = 0 ∧
      r.takingKeep = 0 ∧ r.takingParked = 0 ∧ r.nexts = 0 ∧
      r.full = true ∧ r.kept = true ∧ (0 < r.asked → 0 < r.asking)
  | .served =>
      r.values = 1 ∧ r.delivering = 0 ∧ r.takingParked + r.nexts = 1 ∧
      (0 < r.takingParked → r.full = true ∧ r.clearing = 0) ∧
      (r.full = true → 0 < r.clearing + r.takingParked) ∧
      (r.kept = true → 0 < r.unkeeping + r.takingKeep) ∧ 0 < r.asked
  | .cancelled =>
      r.delivering ≤ r.values ∧ r.takingParked + r.nexts ≤ 1 ∧
      (0 < r.takingParked + r.nexts → r.values = 1 ∧ r.delivering = 0) ∧
      (r.full = true → 0 < r.storing + r.marking + r.clearing + r.takingParked) ∧
      (r.kept = true → 0 < r.marking + r.unkeeping + r.takingKeep)

/-- The cells hold what their phase says, at most one outcome is offered, and completions follow
values. -/
structure Sound (r : Cell) : Prop where
  stands : r.Stands r.phase
  once : r.values + r.empties ≤ 1
  asked : 0 < r.asking → 0 < r.asked
  completes : r.afters + r.completes ≤ r.nexts + r.empties
  completed : r.phase ≠ .cancelled → r.afters + r.completes = r.nexts + r.empties

theorem sound_blank : blank.Sound := by
  refine ⟨?_, ?_, ?_, ?_, ?_⟩ <;> simp [blank, Stands, delivering]

namespace Sound

variable {r r' : Cell}

/-- **Every step leaves the cells as the phase says.** -/
theorem stands_step (sound : r.Sound) (step : Step r r') : r'.Stands r'.phase := by
  obtain ⟨stands, once, asked, -, -⟩ := sound
  cases step with
  | @park r idle =>
      -- nobody clears a slot of an idle handle, so what was stored and marked is there
      simp only [idle, Stands, delivering] at stands once ⊢
      obtain ⟨way, uncleared, unkept, keep, value, nexts, full, kept, asking⟩ := stands
      have one : r.values = 1 := by omega
      have way : r.reading + r.storing + r.marking = 0 := by omega
      exact ⟨one, way, uncleared, unkept, keep, value, nexts, full.2 (by omega),
        kept.2 (by omega), asking⟩
  | @emit r parked =>
      -- the value is there for the request that has found it, and nobody else clears it
      simp only [parked, Stands, delivering] at stands asked ⊢
      obtain ⟨one, way, uncleared, unkept, keep, value, nexts, full, kept, -⟩ := stands
      have taking : r.takingParked + 1 + r.nexts = 1 := by omega
      exact ⟨one, way, taking, fun _ => ⟨full, uncleared⟩, fun _ => by omega, fun _ => by omega,
        asked (by omega)⟩
  | @parkLate r late =>
      -- whoever has come in between, it was a request or a cancellation
      cases phase : r.phase with
      | idle => exact absurd phase late
      | parked | served =>
          simp only [phase, Stands, delivering] at stands
          omega
      | requested | cancelled =>
          simp only [phase, Stands, delivering] at stands ⊢
          omega
  | takeNothing lacking =>
      -- only after a cancellation is there nothing left for a request that takes
      cases phase : r'.phase with
      | idle | requested | parked =>
          simp only [phase, Stands] at stands
          omega
      | served =>
          simp only [phase, Stands] at stands
          have full := (stands.2.2.2.1 (Nat.succ_pos _)).1
          rw [lacking] at full
          cases full
      | cancelled =>
          simp only [phase, Stands, lacking] at stands ⊢
          obtain ⟨way, few, heard, -, kept⟩ := stands
          exact ⟨way, by omega, fun some_ => heard (by omega), nofun, kept⟩
  | _ =>
      -- the others move one thread on, or set a cell that nobody relies on in that phase
      generalize now : Cell.phase _ = phase at *
      cases phase <;> grind [Stands, delivering]

theorem step (sound : r.Sound) (step : Step r r') : r'.Sound := by
  refine ⟨sound.stands_step step, ?_, ?_, ?_, ?_⟩
  · have once := sound.once
    cases step <;> simp_all
  · have asked := sound.asked
    cases step <;> simp_all
  · have completes := sound.completes
    cases step <;> simp_all <;> omega
  · have completed := sound.completed
    cases step <;> grind

/-- What is heard was offered, for it is taken by one request or served by its delivery. -/
theorem nexts_le (sound : r.Sound) : r.nexts ≤ r.values := by
  have stands := sound.stands
  cases phase : r.phase <;> simp only [phase, Stands] at stands <;> omega

/-- A completion stands behind a value, or there is none. -/
theorem completes_le (sound : r.Sound) : r.completes ≤ r.values + r.empties := by
  have completes := sound.completes
  have nexts := sound.nexts_le
  omega

end Sound

/-- No thread deals with the handle. -/
structure Quiet (r : Cell) : Prop where
  delivering : r.delivering = 0
  clearing : r.clearing = 0
  unkeeping : r.unkeeping = 0
  takingKeep : r.takingKeep = 0
  takingParked : r.takingParked = 0
  asking : r.asking = 0
  afters : r.afters = 0

namespace Sound

variable {r : Cell}

/-- **A value that was offered, when nobody deals with the handle any more**: the slot is full,
and the mark is set, where the phase says so; and it says so if nobody has asked, and it was
not cancelled. -/
theorem parked_iff (sound : r.Sound) (quiet : r.Quiet) (offered : r.values = 1) :
    (r.full = true ↔ r.phase = .parked) ∧ (r.kept = true ↔ r.phase = .parked) ∧
      (r.phase = .parked ↔ r.asked = 0 ∧ r.phase ≠ .cancelled) := by
  have stands := sound.stands
  obtain ⟨way, clearing, unkeeping, keep, taking, asking, -⟩ := quiet
  cases phase : r.phase <;> simp only [phase, Stands] at stands
  case idle => omega
  case requested => omega
  case parked =>
    obtain ⟨-, -, -, -, -, -, -, full, kept, asked⟩ := stands
    have unasked : r.asked = 0 := by omega
    simp [full, kept, unasked]
  case served =>
    obtain ⟨-, -, -, -, full, kept, asked⟩ := stands
    have emptied : r.full ≠ true := fun some_ => by have := full some_; omega
    have unmarked : r.kept ≠ true := fun some_ => by have := kept some_; omega
    simp [emptied, unmarked]
    omega
  case cancelled =>
    obtain ⟨-, -, -, full, kept⟩ := stands
    have emptied : r.full ≠ true := fun some_ => by
      simp only [delivering] at way
      have := full some_
      omega
    have unmarked : r.kept ≠ true := fun some_ => by
      simp only [delivering] at way
      have := kept some_
      omega
    simp [emptied, unmarked]

/-- A value that was asked for is heard, and the completion behind it. -/
theorem heard (sound : r.Sound) (quiet : r.Quiet) (offered : r.values = 1) (asked : 0 < r.asked)
    (on : r.phase ≠ .cancelled) : r.nexts = 1 ∧ r.completes = 1 := by
  have stands := sound.stands
  have once := sound.once
  have completed := sound.completed on
  obtain ⟨way, clearing, unkeeping, keep, taking, asking, afters⟩ := quiet
  have nexts : r.nexts = 1 := by
    cases phase : r.phase with
    | cancelled => exact absurd phase on
    | _ =>
        simp only [phase, Stands] at stands
        omega
  omega

end Sound

end Cell

end OneShot.Race
