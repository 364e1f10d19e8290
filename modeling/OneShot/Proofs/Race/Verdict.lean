/-
# OneShot.Proofs.Race.Verdict -- one call ends the sink, whatever the schedule

The flag is taken before the registry is frozen, so an end has three stages: no call has
taken the flag; one has, and has still to freeze the registry; the registry is frozen, and
that call has answered `true` or has still to.  `Verdict` says that flag, registry, the
points at which a registry is frozen, the claims that were won and the answers `true` always
agree on one of these stages, and on one outcome.

Only the points of an ending call bear on it: the claim, the freeze and the answer.  Whatever
else happens is `Neutral` to the end (`Passage.neutral`).
-/
import OneShot.Proofs.Race.Grounds

namespace OneShot.Race

set_option autoImplicit false

variable {α ε : Type}

/-! ## Stages -/

/-- The outcome with which a point is about to freeze the registry. -/
def Point.freezes? : Point α ε → Option (Outcome α ε)
  | freeze o => some o
  | _ => none

/-- A call is about to answer `true`. -/
def Point.answers : Point α ε → Bool
  | answer won => won
  | _ => false

/-- A call has answered `true`. -/
def Event.wins : Event α ε → Bool
  | answered won => won
  | _ => false

/-- The outcome with which a call has taken the flag. -/
def Event.claims? : Event α ε → Option (Outcome α ε)
  | claimed o true => some o
  | _ => none

theorem mem_claims {past : List (Event α ε)} {o : Outcome α ε} :
    o ∈ past.filterMap Event.claims? ↔ .claimed o true ∈ past := by
  rw [List.mem_filterMap]
  constructor
  · rintro ⟨event, said, claims⟩
    cases event with
    | claimed o' won =>
        cases won with
        | true =>
            cases claims
            exact said
        | false => cases claims
    | _ => cases claims
  · intro said
    exact ⟨_, said, rfl⟩

/-- The point belongs to a call that ends the sink: to the flag, the freeze or the answer. -/
def Point.ends : Point α ε → Bool
  | claim _ | freeze _ | answer _ => true
  | _ => false

theorem Point.neutral_of_ends {p : Point α ε} (other : p.ends = false) :
    p.freezes? = none ∧ p.answers = false := by
  cases p <;> simp_all [ends, freezes?, answers]

/-- How far the end of the sink is: flag, registry, points that freeze, claims won, and answers
`true`, given or due. -/
inductive Verdict :
    Termination → Registry α ε → List (Outcome α ε) → List (Outcome α ε) → Nat → Prop
  | running (waiting : List HandleRef) : Verdict .pending (.live waiting) [] [] 0
  | claimed (o : Outcome α ε) (waiting : List HandleRef) :
      Verdict o.termination (.live waiting) [o] [o] 0
  | ended (o : Outcome α ε) : Verdict o.termination (.frozen o) [] [o] 1

namespace Verdict

variable {flag : Termination} {registry : Registry α ε} {freezes claims : List (Outcome α ε)}
  {answers : Nat}

theorem of_pending (verdict : Verdict flag registry freezes claims answers)
    (pending : flag = .pending) :
    (∃ waiting, registry = .live waiting) ∧ freezes = [] ∧ claims = [] ∧ answers = 0 := by
  cases verdict with
  | running waiting => exact ⟨⟨waiting, rfl⟩, rfl, rfl, rfl⟩
  | claimed o waiting => exact absurd pending o.termination_ne_pending
  | ended o => exact absurd pending o.termination_ne_pending

/-- Only the winner of the flag ever freezes, and it finds the registry open. -/
theorem of_freeze {o : Outcome α ε} (verdict : Verdict flag registry freezes claims answers)
    (due : o ∈ freezes) :
    flag = o.termination ∧ (∃ waiting, registry = .live waiting) ∧ freezes = [o] ∧ claims = [o] ∧
      answers = 0 := by
  cases verdict with
  | claimed o' waiting =>
      obtain rfl := List.mem_singleton.1 due
      exact ⟨rfl, ⟨waiting, rfl⟩, rfl, rfl, rfl⟩
  | running waiting => cases due
  | ended o' => cases due

theorem of_frozen {o : Outcome α ε} (verdict : Verdict flag registry freezes claims answers)
    (frozen : registry = .frozen o) :
    flag = o.termination ∧ freezes = [] ∧ claims = [o] ∧ answers = 1 := by
  cases verdict with
  | ended o' =>
      cases frozen
      exact ⟨rfl, rfl, rfl, rfl⟩
  | running waiting => cases frozen
  | claimed o' waiting => cases frozen

/-- An open registry is as good as another. -/
theorem of_live {waiting : List HandleRef}
    (verdict : Verdict flag (.live waiting) freezes claims answers) (waiting' : List HandleRef) :
    Verdict flag (.live waiting') freezes claims answers := by
  cases verdict with
  | running _ => exact .running waiting'
  | claimed o _ => exact .claimed o waiting'

/-- At most one call is ever about to freeze. -/
theorem of_perm {freezes' : List (Outcome α ε)}
    (verdict : Verdict flag registry freezes claims answers) (perm : freezes'.Perm freezes) :
    Verdict flag registry freezes' claims answers := by
  cases verdict with
  | running waiting =>
      rw [perm.eq_nil]
      exact .running waiting
  | claimed o waiting =>
      rw [perm.eq_singleton]
      exact .claimed o waiting
  | ended o =>
      rw [perm.eq_nil]
      exact .ended o

/-- With no freeze due, a flag that was taken leaves the sink ended. -/
theorem of_taken (verdict : Verdict flag registry [] claims answers) (taken : flag ≠ .pending) :
    ∃ o, registry = .frozen o ∧ claims = [o] ∧ answers = 1 := by
  cases verdict with
  | running waiting => exact absurd rfl taken
  | ended o => exact ⟨o, rfl, rfl, rfl⟩

theorem of_unclaimed (verdict : Verdict flag registry freezes [] answers) :
    ∃ waiting, registry = .live waiting := by
  cases verdict with
  | running waiting => exact ⟨waiting, rfl⟩

theorem claims_unique {o o' : Outcome α ε} (verdict : Verdict flag registry freezes claims answers)
    (won : o ∈ claims) (won' : o' ∈ claims) : o' = o := by
  cases verdict with
  | running waiting => cases won
  | claimed _ waiting => rw [List.mem_singleton.1 won, List.mem_singleton.1 won']
  | ended _ => rw [List.mem_singleton.1 won, List.mem_singleton.1 won']

theorem answers_le (verdict : Verdict flag registry freezes claims answers) : answers ≤ 1 := by
  cases verdict <;> simp

end Verdict

namespace Machine

/-- The end of the sink is at one of its stages, and whoever has tried for the flag, it was
taken then. -/
structure Decided (m : Machine α ε) : Prop where
  verdict : Verdict m.memory.flag m.memory.registry (m.pending.filterMap Point.freezes?)
    (m.past.filterMap Event.claims?) (m.pending.countP Point.answers + m.past.countP Event.wins)
  tried : ∀ o won, .claimed o won ∈ m.past → m.memory.flag ≠ .pending

end Machine

/-- Neither the flag, nor whether the registry is open, nor anything that bears on the verdict is
touched. -/
structure Neutral (m m' : Memory α ε) (new : List (Point α ε)) (events : List (Event α ε)) :
    Prop where
  flag : m'.flag = m.flag
  registry : m'.registry = m.registry ∨
    ∃ waiting waiting', m.registry = .live waiting ∧ m'.registry = .live waiting'
  points : ∀ q ∈ new, q.freezes? = none ∧ q.answers = false
  events : ∀ event ∈ events, event.wins = false ∧ event.claims? = none ∧
    ∀ o won, event = .claimed o won → m.flag ≠ .pending

section Passages

variable {m m' : Memory α ε} {p : Point α ε} {new : List (Point α ε)} {events : List (Event α ε)}

namespace Passage

theorem neutral (passage : Passage m p m' new events) (borne : m.Bears p)
    (other : p.ends = false) : Neutral m m' new events := by
  have mute : ∀ {after : Memory α ε} {new : List (Point α ε)} {events : List (Event α ε)},
      after.flag = m.flag → after.registry = m.registry →
      (∀ q ∈ new, q.freezes? = none ∧ q.answers = false) →
      (∀ event ∈ events, event.wins = false ∧ event.claims? = none ∧
        ∀ o won, event = .claimed o won → m.flag ≠ .pending) →
      Neutral m after new events := fun flag registry points events =>
    ⟨flag, .inl registry, points, events⟩
  cases passage with
  | claim | claimLost | freeze | answer => cases other
  | start h signal acts =>
      refine mute rfl rfl ?_ (by simp [Event.wins, Event.claims?])
      exact forall_callback (fun _ => ⟨rfl, rfl⟩) ⟨rfl, rfl⟩
  | add h waiting =>
      refine ⟨rfl, .inr ⟨waiting, waiting ++ [h], ?_, rfl⟩, by simp [Point.freezes?, Point.answers],
        by simp [Event.wins, Event.claims?]⟩
      exact (borne _ _ rfl).2.1 rfl
  | remove h waiting =>
      refine ⟨rfl, .inr ⟨waiting, waiting.erase h, ?_, rfl⟩, by simp,
        by simp [Event.wins, Event.claims?]⟩
      exact (borne _ _ rfl).2.1 rfl
  | _ =>
      exact mute (by simp) (by simp) (by simp [Point.freezes?, Point.answers])
        (by simp [Event.wins, Event.claims?])

end Passage

end Passages

namespace Machine.Decided

variable {m m' : Machine α ε} {old new : List (Point α ε)} {events : List (Event α ε)}

/-- What is neutral to the end of the sink leaves it at its stage. -/
theorem stays (decided : m.Decided) (trades : m.Trades m' old new events)
    (passed : ∀ q ∈ old, q.freezes? = none ∧ q.answers = false)
    (neutral : Neutral m.memory m'.memory new events) : m'.Decided := by
  have none_ : ∀ {points : List (Point α ε)},
      (∀ q ∈ points, q.freezes? = none ∧ q.answers = false) →
      points.filterMap Point.freezes? = [] ∧ points.countP Point.answers = 0 := fun mute =>
    ⟨List.filterMap_eq_nil_iff.2 fun q member => (mute q member).1,
      List.countP_eq_zero.2 fun q member => by simp [(mute q member).2]⟩
  obtain ⟨unfrozen, unanswered⟩ := none_ passed
  obtain ⟨unfrozen', unanswered'⟩ := none_ neutral.points
  have freezes :
      (m'.pending.filterMap Point.freezes?).Perm (m.pending.filterMap Point.freezes?) := by
    have traded := trades.filterMap Point.freezes?
    rwa [unfrozen, unfrozen', List.append_nil, List.append_nil] at traded
  have answers : m'.pending.countP Point.answers + m'.past.countP Event.wins =
      m.pending.countP Point.answers + m.past.countP Event.wins := by
    have points := trades.countP Point.answers
    have past := trades.past_countP Event.wins
    have silent : events.countP Event.wins = 0 :=
      List.countP_eq_zero.2 fun event member => by simp [(neutral.events event member).1]
    omega
  have claims : m'.past.filterMap Event.claims? = m.past.filterMap Event.claims? := by
    have silent : events.reverse.filterMap Event.claims? = [] :=
      List.filterMap_eq_nil_iff.2 fun event member =>
        (neutral.events event (List.mem_reverse.1 member)).2.1
    rw [trades.past, List.filterMap_append, silent, List.nil_append]
  refine ⟨?_, ?_⟩
  · have verdict := decided.verdict.of_perm freezes
    rw [answers, claims, neutral.flag]
    rcases neutral.registry with same | ⟨waiting, waiting', before, after⟩
    · rw [same]
      exact verdict
    · rw [after]
      rw [before] at verdict
      exact verdict.of_live waiting'
  · intro o won said
    rw [neutral.flag]
    rcases trades.mem_past.1 said with new | old
    · exact (neutral.events _ new).2.2 o won rfl
    · exact decided.tried o won old

/-- The first call that tries takes the flag, and owes the freeze. -/
theorem claim (decided : m.Decided) {o : Outcome α ε} (pending : m.memory.flag = .pending)
    (trades : m.Trades m' [.claim o] [.freeze o] [.claimed o true])
    (memory : m'.memory = { m.memory with flag := o.termination }) : m'.Decided := by
  obtain ⟨⟨waiting, live⟩, none_, unclaimed, unanswered⟩ := decided.verdict.of_pending pending
  have freezes : (m'.pending.filterMap Point.freezes?).Perm [o] := by
    have traded := trades.filterMap Point.freezes?
    simpa [none_, List.filterMap_cons, Point.freezes?] using traded
  have claims : m'.past.filterMap Event.claims? = [o] := by
    simp [trades.past, unclaimed, Event.claims?]
  have answers : m'.pending.countP Point.answers + m'.past.countP Event.wins = 0 := by
    have points := trades.countP Point.answers
    have past := trades.past_countP Event.wins
    simp [Point.answers, Event.wins] at points past
    omega
  constructor
  · rw [freezes.eq_singleton, claims, answers, memory, live]
    exact .claimed o waiting
  · intro _ _ _
    rw [memory]
    exact o.termination_ne_pending

/-- Whoever has taken the flag finds the registry open, freezes it, and owes the answer. -/
theorem freeze (decided : m.Decided) {o : Outcome α ε} {waiting : List HandleRef}
    (trades : m.Trades m' [.freeze o]
      (waiting.map (.offer · o .loop) ++ [.letGo waiting, .answer true]) [])
    (memory : m'.memory = m.memory.replace (.frozen o)) : m'.Decided := by
  have due : o ∈ m.pending.filterMap Point.freezes? :=
    List.mem_filterMap.2 ⟨_, trades.of_old (List.mem_singleton_self _), rfl⟩
  obtain ⟨flag, -, one, claimed, unanswered⟩ := decided.verdict.of_freeze due
  have freezes : m'.pending.filterMap Point.freezes? = [] := by
    have traded := trades.filterMap Point.freezes?
    have offers : (waiting.map (.offer · o .loop)).filterMap (Point.freezes? (α := α)) = [] := by
      simp [Point.freezes?]
    have lengths := traded.length_eq
    simp only [one, offers, List.filterMap_append, List.filterMap_cons, Point.freezes?,
      List.filterMap_nil, List.length_append, List.length_singleton, List.length_nil] at lengths
    exact List.eq_nil_of_length_eq_zero (by omega)
  have claims : m'.past.filterMap Event.claims? = [o] := by
    simpa [trades.past] using claimed
  have answers : m'.pending.countP Point.answers + m'.past.countP Event.wins = 1 := by
    have points := trades.countP Point.answers
    have past := trades.past_countP Event.wins
    simp [Point.answers, Function.comp_def] at points past
    omega
  constructor
  · rw [freezes, claims, answers, memory]
    simp only [Memory.replace_handles, Memory.replace_registry, flag]
    exact .ended o
  · intro _ _ _
    rw [memory]
    simp only [Memory.replace_handles, flag]
    exact o.termination_ne_pending

/-- An answer that was due is given. -/
theorem answer (decided : m.Decided) {won : Bool}
    (trades : m.Trades m' [.answer won] [] [.answered won]) (memory : m'.memory = m.memory) :
    m'.Decided := by
  have freezes :
      (m'.pending.filterMap Point.freezes?).Perm (m.pending.filterMap Point.freezes?) := by
    have traded := trades.filterMap Point.freezes?
    simpa [Point.freezes?, List.filterMap_cons] using traded
  have claims : m'.past.filterMap Event.claims? = m.past.filterMap Event.claims? := by
    rw [trades.past]
    rfl
  have answers : m'.pending.countP Point.answers + m'.past.countP Event.wins =
      m.pending.countP Point.answers + m.past.countP Event.wins := by
    have points := trades.countP Point.answers
    have past := trades.past_countP Event.wins
    cases won <;> simp [Point.answers, Event.wins] at points past <;> omega
  constructor
  · rw [answers, claims, memory]
    exact decided.verdict.of_perm freezes
  · intro o won' said
    rw [memory]
    exact decided.tried o won' (by simpa [trades.mem_past] using said)

theorem moves (decided : m.Decided) (grounded : m.Grounded) (moves : m.Moves m') :
    m'.Decided := by
  cases moves with
  | @enters call new events entry memory trades calls =>
      refine decided.stays trades (by simp) ⟨by rw [memory], .inl (by rw [memory]), ?_, ?_⟩
      · cases entry <;> simp [Point.freezes?, Point.answers]
      · cases entry <;> simp [Event.wins, Event.claims?]
  | @passes p after new events passage memory trades calls =>
      by_cases other : p.ends = false
      · subst memory
        have member : p ∈ m.pending := trades.of_old (List.mem_singleton_self p)
        exact decided.stays trades (by simpa using Point.neutral_of_ends other)
          (passage.neutral (grounded.stamped p member) other)
      · cases passage with
        | claim o pending => exact decided.claim pending trades memory
        | claimLost o taken =>
            refine decided.stays trades (by simp [Point.freezes?, Point.answers])
              ⟨by rw [memory], .inl (by rw [memory]), ?_, ?_⟩
            · simp [Point.freezes?, Point.answers]
            · simp [Event.wins, Event.claims?, taken]
        | freeze o => exact decided.freeze trades memory
        | answer won => exact decided.answer trades memory
        | _ => exact absurd rfl other

theorem start (programs : List (List (Call α ε))) : (Machine.start .fresh programs).Decided := by
  refine ⟨?_, by simp [Machine.start]⟩
  rw [Machine.pending_start]
  exact .running []

end Machine.Decided

theorem Machine.Reached.decided {programs : List (List (Call α ε))} {m : Machine α ε}
    (reached : m.Reached programs) : m.Decided :=
  reached.keep (.start programs) fun _ _ reached moves decided =>
    decided.moves reached.grounded moves

end OneShot.Race
