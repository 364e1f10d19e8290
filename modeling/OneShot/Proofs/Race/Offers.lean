/-
# OneShot.Proofs.Race.Offers -- each handle is offered the winner's outcome once

Any number of threads subscribe, end, ask and cancel, and their consumers ask and cancel inside
their callbacks; the schedule is arbitrary.  One ending call wins.  Each handle is offered an
outcome at most once, whether by the loop over the registry or as a replay, and never before it
has been acknowledged.  And when all calls have returned nobody was left out: each that subscribes has
made a handle, and a handle that was never cancelled was offered the winner's outcome, or, if
there was no ending call, waits in the registry.
-/
import OneShot.Proofs.Race.Cues

namespace OneShot.Race

set_option autoImplicit false

variable {α ε : Type}

/-! ## Subscriptions -/

/-- The point makes a handle. -/
def Point.makes : Point α ε → Bool
  | make _ => true
  | _ => false

/-- A handle was made. -/
def Event.subscribes : Event α ε → Bool
  | subscribed _ => true
  | _ => false

def Call.subscribes : Call α ε → Bool
  | subscribe _ => true
  | _ => false

section Passages

variable {m m' : Memory α ε} {p : Point α ε} {new : List (Point α ε)} {events : List (Event α ε)}

theorem Passage.makes (passage : Passage m p m' new events) :
    new.countP Point.makes + events.countP Event.subscribes = [p].countP Point.makes := by
  cases passage <;> simp [Point.makes, Event.subscribes, Function.comp_def]

theorem Passage.handles_length (passage : Passage m p m' new events) :
    m'.handles.length = m.handles.length + events.countP Event.subscribes := by
  cases passage <;> simp [Event.subscribes]

end Passages

theorem Machine.Entry.makes {m : Machine α ε} {call : Call α ε} {new : List (Point α ε)}
    {events : List (Event α ε)} (entry : m.Entry call new events) :
    new.countP Point.makes + events.countP Event.subscribes = [call].countP Call.subscribes := by
  cases entry <;> simp [Point.makes, Event.subscribes, Call.subscribes]

namespace Machine

variable {programs : List (List (Call α ε))} {m : Machine α ε}

/-- Every handle that exists was made by a call of its own. -/
theorem Reached.handles_length (reached : m.Reached programs) :
    m.memory.handles.length = m.past.countP Event.subscribes := by
  refine reached.keep
    (P := fun m => m.memory.handles.length = m.past.countP Event.subscribes) rfl ?_
  intro m m' _ moves law
  cases moves with
  | passes passage memory trades calls =>
      rw [memory, passage.handles_length, trades.past_countP, law]
  | @enters call new events entry memory trades calls =>
      have none_ : events.countP Event.subscribes = 0 := by
        cases entry <;> simp [Event.subscribes]
      rw [memory, trades.past_countP, none_, law, Nat.add_zero]

/-- Once all calls have returned, each of those that subscribe has made the next handle. -/
theorem Reached.subscriptions (reached : m.Reached programs) (done : m.done = true) :
    m.past.countP Event.subscribes = programs.flatten.countP Call.subscribes ∧
      ∀ h, .subscribed h ∈ m.past ↔ h < programs.flatten.countP Call.subscribes := by
  have law := reached.tallied Passage.makes Entry.makes
  obtain ⟨nothing, none_⟩ := done_iff.1 done
  rw [nothing, none_, List.countP_nil, List.countP_nil, Nat.add_zero] at law
  refine ⟨law, fun h => ?_⟩
  rw [reached.renounced.made, reached.handles_length, law]

/-! ## Offers -/

theorem Reached.wins_le (reached : m.Reached programs) : m.past.countP Event.wins ≤ 1 := by
  have answers := reached.decided.verdict.answers_le
  omega

/-- The flag was taken with one outcome. -/
theorem Reached.claimed_unique (reached : m.Reached programs) {o o' : Outcome α ε}
    (won : .claimed o true ∈ m.past) (won' : .claimed o' true ∈ m.past) : o' = o :=
  reached.decided.verdict.claims_unique (mem_claims.2 won) (mem_claims.2 won')

theorem Reached.offers_le (reached : m.Reached programs) (h : HandleRef) :
    m.past.countP (Event.offers h) ≤ 1 := by
  have law := reached.stations_le h
  simp only [stations] at law
  omega

/-- Once all calls have returned, a handle that was never cancelled waits in the registry or has
been offered an outcome. -/
theorem Reached.at_rest (reached : m.Reached programs) (done : m.done = true) {h : HandleRef}
    (made : .subscribed h ∈ m.past) (kept : .cancelled h ∉ m.past) :
    m.memory.registry.handles.count h + m.past.countP (Event.offers h) = 1 := by
  have renounced := reached.renounced
  have inside := (renounced.made h).1 made
  have unremoved : m.past.countP (Event.removes h) = 0 := by
    rw [List.countP_eq_zero]
    intro event said removes
    cases event with
    | removed g =>
        obtain rfl : g = h := by simpa [Event.removes] using removes
        exact kept ((renounced.phase g inside).1 (renounced.removed g said))
    | _ => cases removes
  have law := reached.accounted h
  simp only [stations, (done_iff.1 done).1, unremoved, List.countP_nil, Memory.due,
    if_pos inside] at law
  omega

/-- Once all calls have returned, nothing cancelled is left in the registry. -/
theorem Reached.cleared (reached : m.Reached programs) (done : m.done = true) {h : HandleRef}
    (gone : .cancelled h ∈ m.past) : m.memory.registry.handles.count h = 0 := by
  rw [List.count_eq_zero]
  intro waits
  have inside := reached.grounded.past _ gone h rfl
  have cancelled := (reached.renounced.phase h inside).2 gone
  obtain ⟨p, member, -⟩ := reached.attended h cancelled waits
  rw [(done_iff.1 done).1] at member
  cases member

/-- Who was offered an outcome was offered that of the frozen registry. -/
theorem Reached.offered (reached : m.Reached programs) {o : Outcome α ε}
    (closed : m.memory.registry = .frozen o) {h : HandleRef}
    (once : m.past.countP (Event.offers h) = 1) : ∃ source, .offered h o source ∈ m.past := by
  have some_ : 0 < m.past.countP (Event.offers h) := by omega
  obtain ⟨event, said, offers⟩ := List.countP_pos_iff.1 some_
  cases event with
  | offered g o' source =>
      obtain rfl : g = h := by simpa [Event.offers] using offers
      have told := reached.agreed.past _ said o' rfl
      rw [closed] at told
      cases told
      exact ⟨source, said⟩
  | _ => cases offers

end Machine

/-- **Under every schedule each handle is offered the winner's outcome once**: at most one ending
call answers `true`; a handle is offered an outcome at most once, by the loop or as a replay, not
before its acknowledgment is over, and only the outcome with which an ending call has won.  When
all calls have returned, each that subscribes has made a handle.  If one of them was an ending
call, one has won, and each handle that was never cancelled has been offered its outcome; if none
was, the registry is open and holds such a handle once, and no cancelled one. -/
theorem offered_exactly_once (programs : List (List (Call α ε))) (schedule : List Nat) :
    let m := (Machine.start .fresh programs).run schedule
    m.past.countP Event.wins ≤ 1 ∧
    (∀ h, m.past.countP (Event.offers h) ≤ 1) ∧
    (∀ h o source before after, m.history = before ++ .offered h o source :: after →
      .ended h .subscribed ∈ before) ∧
    (∀ h o source, .offered h o source ∈ m.past →
      .claimed o true ∈ m.past ∧ .terminate o ∈ programs.flatten) ∧
    (m.done = true →
      m.past.countP Event.subscribes = programs.flatten.countP Call.subscribes ∧
      (∀ h, .subscribed h ∈ m.past ↔ h < programs.flatten.countP Call.subscribes) ∧
      ((∃ call ∈ programs.flatten, call.ends = true) →
        m.past.countP Event.wins = 1 ∧
        ∃ o, (∀ o', .claimed o' true ∈ m.past ↔ o' = o) ∧
          ∀ h, .subscribed h ∈ m.past → .cancelled h ∉ m.past →
            m.past.countP (Event.offers h) = 1 ∧ ∃ source, .offered h o source ∈ m.past) ∧
      ((∀ call ∈ programs.flatten, call.ends = false) →
        ∃ waiting, m.memory.registry = .live waiting ∧
          ∀ h, .subscribed h ∈ m.past →
            (.cancelled h ∉ m.past → waiting.count h = 1) ∧
            (.cancelled h ∈ m.past → waiting.count h = 0))) := by
  intro m
  have reached : m.Reached programs := Machine.reached_run programs schedule
  refine ⟨reached.wins_le, reached.offers_le, ?_, ?_, ?_⟩
  · intro h o source before after parts
    obtain ⟨cue, said, gives⟩ := reached.cued.before parts _ rfl
    exact cue.welcomes gives ▸ said
  · intro h o source offered
    have claimed := reached.agreed.claimed reached.decided offered
    exact ⟨claimed, reached.called claimed⟩
  · intro done
    obtain ⟨made, handles⟩ := reached.subscriptions done
    refine ⟨made, handles, ?_, ?_⟩
    · rintro ⟨call, made, ends⟩
      obtain ⟨one, o, claimed, closed⟩ := reached.ended done made ends
      refine ⟨one, o, ?_, ?_⟩
      · intro o'
        constructor
        · exact reached.claimed_unique claimed
        · rintro rfl
          exact claimed
      · intro h subscribed kept
        have rest := reached.at_rest done subscribed kept
        rw [closed, handles_frozen, List.count_nil, Nat.zero_add] at rest
        exact ⟨rest, reached.offered closed rest⟩
    · intro unended
      obtain ⟨waiting, live⟩ := reached.open_ unended
      refine ⟨waiting, live, ?_⟩
      intro h subscribed
      have unoffered : m.past.countP (Event.offers h) = 0 := by
        rw [List.countP_eq_zero]
        intro event said offers
        cases event with
        | offered g o source =>
            have frozen := reached.agreed.past _ said o rfl
            rw [live] at frozen
            cases frozen
        | _ => cases offers
      constructor
      · intro kept
        have rest := reached.at_rest done subscribed kept
        rw [live, handles_live, unoffered] at rest
        exact rest
      · intro gone
        have none_ := reached.cleared done gone
        rwa [live, handles_live] at none_

/-- The second subscription has loaded the open registry when two calls race to end the sink; the
freeze comes before its exchange, so the value comes to it as a replay, and to the first in the
loop. -/
theorem offered_exactly_once_late :
    let programs : List (List (Call Nat Nat)) :=
      [[.subscribe (.asking 1)], [.subscribe .silent], [.terminate (.value 7)], [.terminate .empty]]
    let schedule := List.replicate 12 0 ++ List.replicate 5 1 ++ [2, 2, 3, 3, 2] ++
      List.replicate 8 1 ++ List.replicate 10 2 ++ [3]
    let m := (Machine.start .fresh programs).run schedule
    m.done = true ∧ m.past.countP Event.wins = 1 ∧
      (∀ o, .claimed o true ∈ m.past ↔ o = .value 7) ∧ (∀ h, .subscribed h ∈ m.past ↔ h < 2) ∧
      ∀ h < 2, m.past.countP (Event.offers h) = 1 ∧
        ∃ source, .offered h (.value 7) source ∈ m.past := by
  intro programs schedule m
  obtain ⟨-, -, -, -, rest⟩ := offered_exactly_once programs schedule
  have done : ((Machine.start .fresh programs).run schedule).done = true := by decide +kernel
  obtain ⟨-, made, ended, -⟩ := rest done
  obtain ⟨one, o, claimed, offered⟩ := ended ⟨.terminate .empty, by simp [programs], rfl⟩
  have won : .claimed (.value 7) true ∈ ((Machine.start .fresh programs).run schedule).past :=
    mem_claims.1 (by decide +kernel)
  obtain rfl : .value 7 = o := (claimed _).1 won
  have kept : (((Machine.start .fresh programs).run schedule).past.all fun event =>
      match event with
      | .cancelled _ => false
      | _ => true) = true := by decide +kernel
  refine ⟨done, one, claimed, made, fun h lt => ?_⟩
  refine offered h ((made h).2 lt) fun gone => ?_
  cases List.all_eq_true.1 kept _ gone

end OneShot.Race
