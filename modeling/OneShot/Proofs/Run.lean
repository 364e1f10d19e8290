/-
# OneShot.Proofs.Run -- running a machine, one effect after the other

`Machine.undergo` is what an effect makes of a machine: its tasks go in front of what
is left to do, its events on top of what has happened.  `Machine.step` takes the
first task away and lets its effect happen (`step_cons`).

Two things follow for runs of any length:

* `steps_keep`: what every step keeps holds always;
* `steps_returns`: the agenda is a stack.  What stands behind the work in hand is
  left alone until that work is done, so if a run comes to an end at all, it comes
  back to it.
-/
import OneShot.Machine

namespace OneShot

set_option autoImplicit false

variable {α ε : Type}

namespace Machine

/-- What an effect makes of a machine. -/
def undergo (m : Machine α ε) (e : Effect α ε) : Machine α ε :=
  { store := e.store, agenda := e.tasks ++ m.agenda, past := e.events.reverse ++ m.past }

/-- The machine with its first task, which is in hand, taken away. -/
def behind (m : Machine α ε) : Machine α ε := { m with agenda := m.agenda.tail }

@[simp] theorem undergo_store (m : Machine α ε) (e : Effect α ε) :
    (m.undergo e).store = e.store := rfl

@[simp] theorem undergo_agenda (m : Machine α ε) (e : Effect α ε) :
    (m.undergo e).agenda = e.tasks ++ m.agenda := rfl

@[simp] theorem undergo_history (m : Machine α ε) (e : Effect α ε) :
    (m.undergo e).history = m.history ++ e.events := by
  simp [undergo, history]

@[simp] theorem behind_store (m : Machine α ε) : m.behind.store = m.store := rfl

@[simp] theorem behind_agenda (m : Machine α ε) : m.behind.agenda = m.agenda.tail := rfl

@[simp] theorem behind_history (m : Machine α ε) : m.behind.history = m.history := rfl

theorem undergo_after (m : Machine α ε) (e : Effect α ε) (events : List (Event α ε)) :
    m.undergo (e.after events) = { m with past := events.reverse ++ m.past }.undergo e := by
  simp [undergo, Effect.after]

theorem undergo_followedBy (m : Machine α ε) (e : Effect α ε) (tasks : List (Task α ε)) :
    m.undergo (e.followedBy tasks) = { m with agenda := tasks ++ m.agenda }.undergo e := by
  simp [undergo, Effect.followedBy]

theorem step_nil {m : Machine α ε} (closed : m.agenda = []) : m.step = m := by
  unfold step; rw [closed]

theorem step_cons {m : Machine α ε} {t : Task α ε} {rest : List (Task α ε)}
    (turn : m.agenda = t :: rest) : m.step = m.behind.undergo (t.effect m.store rest) := by
  unfold step; rw [turn]; simp [undergo, behind, turn]

/-- A step is performed: what it leaves to do stands in front of its answer. -/
theorem step_perform {m : Machine α ε} {within : Option Nat} {step : Step α ε}
    {rest : List (Task α ε)} (turn : m.agenda = .perform within step :: rest) {e : Effect α ε}
    {closing : Closing α ε} (performed : m.store.perform rest within step = (e, closing)) :
    m.step = ⟨e.store, e.tasks ++ .answer within step closing :: rest,
      e.events.reverse ++ .performed within step :: m.past⟩ := by
  simp [Machine.step, turn, Task.effect, performed, Effect.followedBy, Effect.after]

/-- The step that is performed next, and the slot of the consumer in whose hook it stands. -/
def inHand (m : Machine α ε) : Option (Option Nat × Step α ε) :=
  match m.agenda with
  | .perform within step :: _ => some (within, step)
  | _ => none

theorem inHand_eq_some {m : Machine α ε} {within : Option Nat} {step : Step α ε} :
    m.inHand = some (within, step) ↔ ∃ rest, m.agenda = .perform within step :: rest := by
  unfold inHand
  split
  · rename_i turn
    simp [turn]
  · rename_i other
    constructor
    · intro none_
      cases none_
    · rintro ⟨rest, turn⟩
      exact absurd turn (other within step rest)

/-! ## Runs -/

@[simp] theorem steps_zero (m : Machine α ε) : m.steps 0 = m := rfl

/-- A machine with nothing left to do stays as it is. -/
theorem steps_nil {m : Machine α ε} (closed : m.agenda = []) (n : Nat) : m.steps n = m := by
  cases n with
  | zero => rfl
  | succ n => rw [steps, if_pos (List.isEmpty_iff.2 closed)]

theorem steps_succ (n : Nat) (m : Machine α ε) : m.steps (n + 1) = m.step.steps n := by
  rw [steps]
  split
  · rename_i closed
    have closed := List.isEmpty_iff.1 closed
    rw [step_nil closed, steps_nil closed]
  · rfl

theorem steps_add (i j : Nat) (m : Machine α ε) : m.steps (i + j) = (m.steps i).steps j := by
  induction i generalizing m with
  | zero => simp
  | succ i ih => rw [Nat.succ_add, steps_succ, steps_succ, ih]

theorem steps_step (n : Nat) (m : Machine α ε) : m.steps (n + 1) = (m.steps n).step := by
  rw [steps_add n 1, steps_succ, steps_zero]

/-- **What every step keeps holds always.** -/
theorem steps_keep {P : Machine α ε → Prop} (keep : ∀ m, P m → P m.step) {m : Machine α ε}
    (start : P m) (n : Nat) : P (m.steps n) := by
  induction n with
  | zero => exact start
  | succ n ih => rw [steps_step]; exact keep _ ih

/-- History only grows. -/
theorem history_prefix_step (m : Machine α ε) : m.history <+: m.step.history := by
  cases turn : m.agenda with
  | nil => simp [step_nil turn]
  | cons t rest => rw [step_cons turn, undergo_history, behind_history]; exact List.prefix_append _ _

theorem history_prefix_steps (m : Machine α ε) (n : Nat) : m.history <+: (m.steps n).history :=
  steps_keep (P := fun m' => m.history <+: m'.history)
    (fun m' grown => grown.trans (history_prefix_step m')) List.prefix_rfl n

theorem history_mono (m : Machine α ε) {i j : Nat} (le : i ≤ j) :
    (m.steps i).history <+: (m.steps j).history := by
  obtain ⟨d, rfl⟩ := Nat.exists_eq_add_of_le le
  rw [steps_add]
  exact history_prefix_steps _ d

/-- What the next step will have told. -/
def news (m : Machine α ε) : List (Event α ε) := m.step.history.drop m.history.length

theorem history_step (m : Machine α ε) : m.step.history = m.history ++ m.news := by
  obtain ⟨more, grown⟩ := history_prefix_step m
  rw [news, ← grown, List.drop_left]

theorem news_nil {m : Machine α ε} (closed : m.agenda = []) : m.news = [] := by
  rw [news, step_nil closed, List.drop_length]

theorem news_cons {m : Machine α ε} {t : Task α ε} {rest : List (Task α ε)}
    (turn : m.agenda = t :: rest) : m.news = (t.effect m.store rest).events := by
  rw [news, step_cons turn, undergo_history, behind_history, List.drop_left]

/-! ## The agenda is a stack -/

/-- There is work in hand in front of `rest`. -/
def Busy (rest : List (Task α ε)) (m : Machine α ε) : Prop :=
  ∃ work, work ≠ [] ∧ m.agenda = work ++ rest

theorem busy_step {rest : List (Task α ε)} {m : Machine α ε} (busy : m.Busy rest) :
    m.step.Busy rest ∨ m.step.agenda = rest := by
  obtain ⟨work, some_, eq⟩ := busy
  cases work with
  | nil => exact absurd rfl some_
  | cons t work =>
      have turn : m.agenda = t :: (work ++ rest) := eq
      rw [step_cons turn]
      cases left : (t.effect m.store (work ++ rest)).tasks ++ work with
      | nil =>
          right
          have : m.agenda.tail = work ++ rest := by simp [eq]
          simp [this, ← List.append_assoc, left]
      | cons t' work' =>
          left
          refine ⟨t' :: work', by simp, ?_⟩
          have : m.agenda.tail = work ++ rest := by simp [eq]
          simp [this, ← List.append_assoc, left]

/-- **A run that ends comes back to what stood behind the work in hand**, and leaves
it alone until then. -/
theorem steps_returns {rest : List (Task α ε)} {m : Machine α ε} {N : Nat}
    (busy : m.Busy rest ∨ m.agenda = rest) (ends : (m.steps N).agenda = []) :
    ∃ j, (m.steps j).agenda = rest ∧ ∀ i < j, (m.steps i).Busy rest := by
  induction N generalizing m with
  | zero =>
      rcases busy with ⟨work, some_, eq⟩ | eq
      · rw [steps_zero, eq] at ends
        exact absurd (List.append_eq_nil_iff.1 ends).1 some_
      · exact ⟨0, eq, by simp⟩
  | succ N ih =>
      rcases busy with busy | eq
      · rw [steps_succ] at ends
        obtain ⟨j, back, before⟩ := ih (busy_step busy) ends
        refine ⟨j + 1, by rw [steps_succ]; exact back, ?_⟩
        intro i lt
        cases i with
        | zero => exact busy
        | succ i => rw [steps_succ]; exact before i (by omega)
      · exact ⟨0, eq, by simp⟩

end Machine

end OneShot
