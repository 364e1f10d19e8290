/-
# OneShot.Proofs.Race.Delivery -- one offered value, and threads that ask and cancel

In every run the cells of every handle are sound (`Reached.sound`), for whatever a thread does is
a step of the handle it deals with, and an offer comes only once.  What the cells say when nobody
deals with the handle any more is what becomes of an offered value: it was heard, or it is parked
and its handle kept alive, or it was renounced.
-/
import OneShot.Proofs.Race.View
import OneShot.Proofs.Race.Offers

namespace OneShot.Race

set_option autoImplicit false

variable {α ε : Type}

theorem Event.offers_of_marks {event : Event α ε} {h : HandleRef}
    (marks : event.marks h .value = true ∨ event.marks h .empty = true) :
    event.offers h = true := by
  cases event with
  | requested g n => by_cases zero : n = 0 <;> simp_all
  | offered g o source => cases o <;> simp_all [offers]
  | began g signal => cases signal <;> simp_all
  | _ => simp_all

theorem asked_iff {past : List (Event α ε)} {h : HandleRef} :
    0 < past.countP (Event.marks h .asked) ↔ ∃ n, n ≠ 0 ∧ .requested h n ∈ past := by
  rw [List.countP_pos_iff]
  constructor
  · rintro ⟨event, said, marks⟩
    cases event with
    | requested g n =>
        by_cases zero : n = 0
        · simp [zero] at marks
        · obtain rfl : g = h := by simpa [zero] using marks
          exact ⟨n, zero, said⟩
    | offered g o source => cases o <;> simp at marks
    | began g signal => cases signal <;> simp at marks
    | _ => simp at marks
  · rintro ⟨n, positive, said⟩
    exact ⟨_, said, by simp [positive]⟩

namespace Machine

variable {programs : List (List (Call α ε))} {m : Machine α ε}

/-- A handle, as the threads of a machine deal with it. -/
def cell (m : Machine α ε) (h : HandleRef) : Cell := Cell.of h m.memory m.pending m.past

/-- A handle to which an outcome is about to be offered was offered none before. -/
theorem Reached.first (reached : m.Reached programs) {h : HandleRef} {o : Outcome α ε}
    {source : Source} (due : .offer h o source ∈ m.pending) :
    m.past.countP (Event.marks h .value) = 0 ∧ m.past.countP (Event.marks h .empty) = 0 := by
  have law := reached.stations_le h
  have offers : 0 < m.pending.countP (Point.offers h) :=
    List.countP_pos_iff.2 ⟨_, due, by simp [Point.offers]⟩
  have unoffered : m.past.countP (Event.offers h) = 0 := by
    simp only [stations] at law
    omega
  rw [List.countP_eq_zero] at unoffered
  constructor
  · rw [List.countP_eq_zero]
    exact fun event said marks => unoffered event said (Event.offers_of_marks (.inl marks))
  · rw [List.countP_eq_zero]
    exact fun event said marks => unoffered event said (Event.offers_of_marks (.inr marks))

/-- **In every run the cells of every handle are sound.** -/
theorem Reached.sound (reached : m.Reached programs) :
    ∀ h < m.memory.handles.length, (m.cell h).Sound := by
  refine reached.keep (P := fun m => ∀ h < m.memory.handles.length, (m.cell h).Sound) ?_ ?_
  · simp [Machine.start, Memory.fresh]
  · intro m m' reached moves sound h there
    have grounded := reached.grounded
    cases moves with
    | @enters call new events entry memory trades calls =>
        obtain ⟨others, before, after⟩ := trades.points
        rw [memory] at there
        have sound := sound h there
        rw [cell, Cell.of_perm before, List.nil_append] at sound
        rw [cell, memory, trades.past, Cell.of_perm after]
        rcases entry.cell h others m.past with same | step
        · rwa [same]
        · exact sound.step step
    | @passes p after new events passage memory trades calls =>
        subst memory
        have member : p ∈ m.pending := trades.of_old (List.mem_singleton_self p)
        have inside := grounded.points p member
        rcases Nat.lt_or_ge h m.memory.handles.length with old | beyond
        · obtain ⟨others, before, after⟩ := trades.points
          have sound := sound h old
          rw [cell, Cell.of_perm before, List.singleton_append] at sound
          rw [cell, trades.past, Cell.of_perm after]
          by_cases target : p.target? = some h
          · rcases passage.cell_own old target (fun o full => (reached.agreed.parked h o full).2)
              others m.past (fun o source offer => reached.first (offer ▸ member)) with same | step
            · rwa [same]
            · exact sound.step step
          · rwa [passage.cell_other inside old target]
        · obtain ⟨others, before, after⟩ := trades.points
          have blank : m'.cell h = Cell.blank := by
            rw [cell, trades.past, Cell.of_perm after]
            apply passage.cell_made beyond there
            · intro q member stage
              rw [Bool.eq_false_iff]
              intro at_
              have pending := before.mem_iff.2 (List.mem_append_right _ member)
              have inside := grounded.points q pending h (Point.holds_of_stage at_)
              exact Nat.not_lt.2 beyond inside
            · intro event said mark
              rw [Bool.eq_false_iff]
              intro marks
              have inside := grounded.past event said h (Event.handle_of_mark marks)
              exact Nat.not_lt.2 beyond inside
          rw [blank]
          exact Cell.sound_blank

/-- Every consumer hears one value at most, and one completion. -/
theorem Reached.heard_once (reached : m.Reached programs) (h : HandleRef) :
    m.past.countP (Event.marks h .next) ≤ 1 ∧ m.past.countP (Event.marks h .complete) ≤ 1 := by
  rcases Nat.lt_or_ge h m.memory.handles.length with inside | beyond
  · have sound := reached.sound h inside
    have once := sound.once
    have nexts := sound.nexts_le
    have completes := sound.completes_le
    have next : m.past.countP (Event.marks h .next) ≤ (m.cell h).nexts := Nat.le_add_left _ _
    have complete : m.past.countP (Event.marks h .complete) ≤ (m.cell h).completes :=
      Nat.le_add_left _ _
    omega
  · have unknown : ∀ mark, m.past.countP (Event.marks h mark) = 0 := by
      intro mark
      rw [List.countP_eq_zero]
      intro event said marks
      have inside := reached.grounded.past event said h (Event.handle_of_mark marks)
      exact Nat.not_lt.2 beyond inside
    rw [unknown, unknown]
    exact ⟨Nat.zero_le 1, Nat.zero_le 1⟩

theorem Reached.values (reached : m.Reached programs) {h : HandleRef} {v : α} {source : Source}
    (offered : .offered h (.value v) source ∈ m.past) : (m.cell h).values = 1 := by
  have inside := reached.grounded.past _ offered h rfl
  have once := (reached.sound h inside).once
  have some_ : 0 < (m.cell h).values := List.countP_pos_iff.2 ⟨_, offered, by simp⟩
  omega

/-- All that is heard or parked behind an offered value is that value. -/
theorem Reached.told (reached : m.Reached programs) {h : HandleRef} {v : α} {source : Source}
    (offered : .offered h (.value v) source ∈ m.past) :
    (∀ event ∈ m.past, ∀ o, event.tells? = some o → o = .value v) ∧
      ∀ g o, m.memory.parked g = some o → o = .value v := by
  have agreed := reached.agreed
  have closed := agreed.past _ offered _ rfl
  have same : ∀ o, m.memory.registry = .frozen o → o = .value v := by
    intro o frozen
    rw [closed] at frozen
    cases frozen
    rfl
  constructor
  · exact fun event said o tells => same o (agreed.past event said o tells)
  · exact fun g o full => same o (agreed.parked g o full).1

end Machine

end OneShot.Race
