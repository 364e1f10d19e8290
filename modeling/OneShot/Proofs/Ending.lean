/-
# OneShot.Proofs.Ending -- the first call that ends a sink wins

`succeed`, `complete` and `fail` are one call with three payloads (`Step.ending?`).  Of all
these calls on a sink, through whatever slots and from inside whatever callbacks, the
first one to start answers `true` and its outcome stays with the sink; every later one
answers `false` after three tasks, and has written a notice and done nothing else
(`first_ending_wins`).

The first call is still at its deliveries when others start inside them, so it is the
order of the starts that counts: the tenure of the sink.
-/
import OneShot.Proofs.Termination

namespace OneShot

set_option autoImplicit false

variable {α ε : Type}

/-! ## Calls that end a sink -/

/-- A call is about to start that ends the sink `s` with the outcome `o`. -/
structure Machine.Ends (m : Machine α ε) (s : SinkRef) (o : Outcome α ε) (within : Option Nat)
    (step : Step α ε) (rest : List (Task α ε)) : Prop where
  turn : m.agenda = .perform within step :: rest
  ends : step.Ends m.store s o

theorem Machine.ends_of_inHand {m : Machine α ε} {k : Nat} {s : SinkRef} {o : Outcome α ε}
    (ends : (m.inHand.bind fun p => p.2.ending?) = some (k, o))
    (found : m.store.sink? k = some s) : ∃ within step rest, m.Ends s o within step rest := by
  obtain ⟨⟨within, step⟩, hand, ends⟩ := Option.bind_eq_some_iff.1 ends
  obtain ⟨rest, turn⟩ := inHand_eq_some.1 hand
  exact ⟨within, step, rest, turn, k, ends, found⟩

/-- What a deed tries to end is what it may end. -/
theorem Deed.untried {st : Store α ε} {may : SinkRef → Prop} {e : Effect α ε}
    (deed : Deed st may e) {s : SinkRef} (other : ¬ may s) : attempts s e.events = [] := by
  have asides : ∀ {events : List (Event α ε)}, (∀ event ∈ events, event.isAside = true) →
      attempts s events = [] := fun aside =>
    attempts_eq_nil fun event member => Event.attempt?_of_isAside (aside event member) s
  induction deed with
  | aside _ _ _ events _ => exact asides events
  | founding => rfl
  | subscribing => rfl
  | @ending t named allowed o =>
      have ne : t ≠ s := by rintro rfl; exact other allowed
      have ends := st.terminate_ends t o
      generalize st.terminate t o = called at ends ⊢
      cases ends with
      | missed => rfl
      | won | lost => simp [attempts, Event.attempt?, ne]
  | requesting beside h n =>
      exact attempts_eq_nil fun event member =>
        Event.attempt?_of_isOf (Store.request_told _ h n event member).1 s
  | cancelling h =>
      exact attempts_eq_nil fun event member =>
        Event.attempt?_of_isOf (Store.cancel_told _ h event member).1 s
  | after aside deed ih => rw [Effect.after, attempts_append, asides aside, ih]; rfl
  | followedBy aside mute deed ih => exact ih

/-- Nothing else tries to end a sink. -/
theorem Machine.attempts_step {m : Machine α ε} {s : SinkRef}
    (none_ : ∀ o within step rest, ¬ m.Ends s o within step rest) :
    attempts s m.step.history = attempts s m.history := by
  cases turn : m.agenda with
  | nil => rw [step_nil turn]
  | cons t rest =>
      have forgets : ∀ {left : Store α ε × List (Event α ε)}, m.store.Forgets left →
          attempts s left.2 = [] := fun forgets => attempts_eq_nil (forgets.each fun _ => rfl)
      have turned : ∀ {first : Event α ε} {e : Effect α ε}, m.store.Turned first e →
          first.attempt? s = none → attempts s e.events = [] := fun turned own =>
        attempts_eq_nil (turned.each own fun event aside => Event.attempt?_of_isAside aside s)
      rw [step_cons turn, undergo_history, behind_history, attempts_append]
      apply List.append_right_eq_self.2
      cases t with
      | perform within step =>
          have other : ¬ ∃ o, step.Ends m.store s o := fun ⟨o, ends⟩ =>
            none_ o within step rest ⟨turn, ends⟩
          exact (m.store.perform_deed rest within step).untried other
      | answer within step closing => rfl
      | notify h signal =>
          cases found : m.store.handles[h]? with
          | none => simp [Task.effect, Store.notify, found, Effect.quiet, attempts]
          | some x =>
              have deed := m.store.react_deed x.consumer h signal
              rw [Task.effect, Store.notify_eq found]
              exact deed.untried id
      | finish h signal => exact turned (m.store.finish_turned h signal) rfl
      | deliver h o => exact turned (m.store.deliver_turned h o) rfl
      | letGo hs => exact forgets (m.store.letGo_forgets rest hs)
      | giveUp t => exact forgets (m.store.giveUp_forgets rest t)
      | hangUp c => rfl

namespace Store

variable {st : Store α ε} {s : SinkRef} {o : Outcome α ε}

theorem perform_ending {step : Step α ε} (ends : step.Ends st s o) (agenda : List (Task α ε))
    (within : Option Nat) :
    st.perform agenda within step =
      ((st.terminate s o).2, .reply (.flag (st.terminate s o).1)) := by
  obtain ⟨k, ends, found⟩ := ends
  have called : st.perform agenda within step = st.ending k o := by
    cases step with
    | succeed sink value =>
        cases value <;>
          simp only [Step.ending?, Option.some.injEq, Prod.mk.injEq] at ends <;>
          obtain ⟨rfl, rfl⟩ := ends <;> rfl
    | complete | fail =>
        simp only [Step.ending?, Option.some.injEq, Prod.mk.injEq] at ends
        obtain ⟨rfl, rfl⟩ := ends
        rfl
    | _ => cases ends
  rw [called, ending, found]
  rfl

theorem terminate_pending {y : Sink α ε} (found : st.sinks[s]? = some y)
    (pending : y.flag = .pending) : (st.terminate s o).1 = true ∧
      ∃ notice, (st.terminate s o).2.events = [.terminating s o true, .noticed notice] := by
  simp only [terminate, found, if_pos pending]
  exact ⟨trivial, _, rfl⟩

theorem terminate_closed {y : Sink α ε} (found : st.sinks[s]? = some y) (closed : y.flag ≠ .pending) :
    st.terminate s o =
      (false, ⟨st, [.terminating s o false, .noticed (.ignored s o.termination y.flag)],
        [.giveUp s]⟩) := by
  simp only [terminate, found, if_neg closed]

/-- A sink that some slot refers to is not given up. -/
theorem giveUp_of_names (named : st.names s = true) (agenda : List (Task α ε)) :
    st.giveUp agenda s = (st, []) := by
  simp [giveUp, referenced, named]

end Store

namespace Sound

variable {m : Machine α ε} {within : Option Nat} {step : Step α ε} {rest : List (Task α ε)}
  {s : SinkRef} {o : Outcome α ε}

theorem sink_of_ends (sound : Sound m) (starts : m.Ends s o within step rest) :
    m.store.names s = true ∧ ∃ y, m.store.sinks[s]? = some y ∧
      Tenure (m.store.registry s).outcome? y.flag (attempts s m.history) := by
  obtain ⟨k, -, found⟩ := starts.ends
  have named := Store.names_of_sink? found
  have inside := sound.coherent.named s named
  have tenure := sound.tenure s
  have at_ := List.getElem?_eq_getElem inside
  rw [m.store.flag_of_sinks at_] at tenure
  exact ⟨named, _, at_, tenure⟩

/-- The first call to start wins. -/
theorem ending_first (sound : Sound m) (starts : m.Ends s o within step rest)
    (first : attempts s m.history = []) :
    (m.store.perform rest within step).2 = .reply (.flag true) ∧
      attempts s m.step.history = [(o, true)] ∧
      ∃ notice, m.step.history =
        m.history ++ [.performed within step, .terminating s o true, .noticed notice] := by
  obtain ⟨-, y, at_, tenure⟩ := sound.sink_of_ends starts
  rw [first] at tenure
  obtain ⟨-, pending⟩ := tenure.of_nil
  obtain ⟨won, notice, events⟩ := Store.terminate_pending (o := o) at_ pending
  have performed := Store.perform_ending starts.ends rest within
  have history : m.step.history =
      m.history ++ [.performed within step, .terminating s o true, .noticed notice] := by
    rw [Machine.step_perform starts.turn performed]
    simp [Machine.history, events]
  refine ⟨by rw [performed, won], ?_, notice, history⟩
  rw [history, attempts_append, first]
  simp [attempts, List.filterMap_cons, Event.attempt?]

/-- A later call does nothing in three tasks, and answers so. -/
theorem ending_later (sound : Sound m) (starts : m.Ends s o within step rest)
    {first : Outcome α ε × Bool} {later : List (Outcome α ε × Bool)}
    (started : attempts s m.history = first :: later) :
    let told : List (Event α ε) := [.performed within step, .terminating s o false,
      .noticed (.ignored s o.termination first.1.termination)]
    m.steps 1 = ⟨m.store, .giveUp s :: .answer within step (.reply (.flag false)) :: rest,
        told.reverse ++ m.past⟩ ∧
      m.steps 2 = ⟨m.store, .answer within step (.reply (.flag false)) :: rest,
        told.reverse ++ m.past⟩ ∧
      m.steps 3 = ⟨m.store, rest,
        .answered within step (.flag false) :: told.reverse ++ m.past⟩ := by
  intro told
  obtain ⟨named, y, at_, tenure⟩ := sound.sink_of_ends starts
  rw [started] at tenure
  obtain ⟨-, -, flag⟩ := tenure.of_cons
  have closed : y.flag ≠ .pending := flag ▸ first.1.termination_ne_pending
  have one : m.steps 1 = ⟨m.store, .giveUp s :: .answer within step (.reply (.flag false)) :: rest,
      told.reverse ++ m.past⟩ := by
    have performed := Store.perform_ending starts.ends rest within
    rw [Store.terminate_closed at_ closed, flag] at performed
    rw [Machine.steps_succ, Machine.steps_zero, Machine.step_perform starts.turn performed]
    rfl
  have two : m.steps 2 = ⟨m.store, .answer within step (.reply (.flag false)) :: rest,
      told.reverse ++ m.past⟩ := by
    rw [Machine.steps_step 1, one]
    simp [Machine.step, Task.effect, Store.giveUp_of_names named]
  refine ⟨one, two, ?_⟩
  rw [Machine.steps_step 2, two]
  rfl

end Sound

/-- As long as no call has started, none has tried. -/
theorem attempts_of_none {script : List (Step α ε)} {s : SinkRef} {n : Nat}
    (none_ : ∀ i < n, ∀ o within step rest,
      ¬ ((Machine.load script).steps i).Ends s o within step rest) :
    attempts s ((Machine.load script).steps n).history = [] := by
  induction n with
  | zero => rfl
  | succ n ih =>
      rw [Machine.steps_step, Machine.attempts_step fun o within step rest =>
        none_ n (by omega) o within step rest]
      exact ih fun i lt => none_ i (by omega)

/-- **The first call to start wins, and its outcome stays.**

Of all calls of a run that end the sink `s`, the first one to start is that of step `i`.  From
then on the sink holds its outcome for good, and when its deliveries are over the call is
answered `true`.  Every other call on `s` comes later, wherever it is made.  It is answered
`false` two tasks after it has started: all of the store is as it was before, and a notice
is the only thing that was told. -/
theorem first_ending_wins (script : List (Step α ε)) {i : Nat} {s : SinkRef} {o : Outcome α ε}
    {within : Option Nat} {step : Step α ε} {rest : List (Task α ε)}
    (starts : ((Machine.load script).steps i).Ends s o within step rest)
    (first : ∀ j < i, ∀ o' within' step' rest',
      ¬ ((Machine.load script).steps j).Ends s o' within' step' rest') :
    let run := fun n => (Machine.load script).steps n
    (∀ n > i, (run n).store.registry s = .frozen o) ∧
      (∃ n > i, (run n).agenda = rest ∧ (∀ j, i ≤ j → j < n → (run j).Busy rest) ∧
        ∃ between, (run n).history =
          (run i).history ++ [.performed within step, .terminating s o true] ++ between ++
            [.answered within step (.flag true)]) ∧
      ∀ n > i, ∀ o' within' step' rest', (run n).Ends s o' within' step' rest' →
        (∀ j ≤ 3, (run (n + j)).store = (run n).store) ∧
          (∀ j < 3, (run (n + j)).Busy rest') ∧ (run (n + 3)).agenda = rest' ∧
          (run (n + 3)).history =
            (run n).history ++ [.performed within' step', .terminating s o' false,
              .noticed (.ignored s o'.termination o.termination),
              .answered within' step' (.flag false)] := by
  intro run
  have sound : ∀ n, Sound (run n) := Machine.steps_sound script
  have onward : ∀ n j, run (n + j) = (run n).steps j := fun n j => Machine.steps_add n j _
  obtain ⟨reply, won, notice, history⟩ :=
    (sound i).ending_first starts (attempts_of_none first)
  -- the attempts of every later machine start with the one that has won
  have started : ∀ n > i, ∃ later, attempts s (run n).history = (o, true) :: later := by
    intro n gt
    obtain ⟨d, rfl⟩ := Nat.exists_eq_add_of_lt gt
    obtain ⟨more, grown⟩ := Machine.history_prefix_steps (run i).step d
    have here : run (i + d + 1) = (run i).step.steps d := by
      rw [Nat.add_assoc, onward, Machine.steps_succ]
    exact ⟨attempts s more, by rw [here, ← grown, attempts_append, won]; rfl⟩
  refine ⟨?_, ?_, ?_⟩
  · intro n gt
    obtain ⟨later, started⟩ := started n gt
    rw [← (sound n).ended_iff, ← mem_attempts, started]
    exact List.mem_cons_self
  · obtain ⟨j, back, busy, between, st, told⟩ := Machine.steps_answer (sound i) starts.turn
    rw [reply, history] at told
    have some_ : 0 < j := by
      rcases Nat.eq_zero_or_pos j with rfl | some_
      · have longer := congrArg List.length told
        simp at longer
      · exact some_
    refine ⟨i + j, by omega, by rw [onward]; exact back, ?_, .noticed notice :: between, ?_⟩
    · intro k ge lt
      obtain ⟨d, rfl⟩ := Nat.exists_eq_add_of_le ge
      rw [onward]
      exact busy d (by omega)
    · rw [onward, told]
      simp [Store.conclude]
  · intro n gt o' within' step' rest' starts'
    obtain ⟨later, started⟩ := started n gt
    obtain ⟨one, two, three⟩ := (sound n).ending_later starts' started
    refine ⟨?_, ?_, by rw [onward, three], ?_⟩
    · intro j le
      rw [onward]
      have early : j = 0 ∨ j = 1 ∨ j = 2 ∨ j = 3 := by omega
      rcases early with rfl | rfl | rfl | rfl
      · rfl
      · rw [one]
      · rw [two]
      · rw [three]
    · intro j lt
      rw [onward]
      have early : j = 0 ∨ j = 1 ∨ j = 2 := by omega
      rcases early with rfl | rfl | rfl
      · exact ⟨[_], by simp, starts'.turn⟩
      · exact ⟨[_, _], by simp, by rw [one]; rfl⟩
      · exact ⟨[_], by simp, by rw [two]; rfl⟩
    · rw [onward, three]
      simp [Machine.history]

/-- Inside the delivery of the value `7`, a consumer tries to complete the sink. -/
theorem first_ending_wins_within :
    let script : List (Step Nat Nat) :=
      [.newSink none, .subscribe 0 [.request .own 1] [.complete 0] [] [], .succeed 0 (some 7)]
    let run := fun n => (Machine.load script).steps n
    (∃ within step rest, (run 11).Ends 0 (.value 7) within step rest) ∧
      (∀ n > 11, (run n).store.registry 0 = .frozen (.value 7)) ∧
      ∃ within step rest, (run 14).Ends 0 .empty within step rest ∧
        (run 17).history = (run 14).history ++
          [.performed within step, .terminating 0 .empty false,
            .noticed (.ignored 0 .succeeded .succeeded), .answered within step (.flag false)] := by
  intro script run
  have quiet : ∀ j < 11, ((run j).inHand.bind fun p => p.2.ending?) = none := by decide +kernel
  have first : ∀ j < 11, ∀ o within step rest, ¬ (run j).Ends 0 o within step rest := by
    intro j lt o within step rest starts
    obtain ⟨k, ends, -⟩ := starts.ends
    have none_ := quiet j lt
    rw [Machine.inHand_eq_some.2 ⟨rest, starts.turn⟩, Option.bind_some, ends] at none_
    cases none_
  obtain ⟨within, step, rest, starts⟩ : ∃ within step rest,
      (run 11).Ends 0 (.value 7) within step rest :=
    Machine.ends_of_inHand (k := 0) (by decide +kernel) (by decide +kernel)
  obtain ⟨within', step', rest', starts'⟩ : ∃ within step rest,
      (run 14).Ends 0 .empty within step rest :=
    Machine.ends_of_inHand (k := 0) (by decide +kernel) (by decide +kernel)
  obtain ⟨stays, -, loses⟩ := first_ending_wins script starts first
  exact ⟨⟨within, step, rest, starts⟩, stays, within', step', rest', starts',
    (loses 14 (by decide) .empty within' step' rest' starts').2.2.2⟩

end OneShot
