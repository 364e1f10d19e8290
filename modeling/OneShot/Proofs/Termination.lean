/-
# OneShot.Proofs.Termination -- every run comes to an end

The work of a machine is the work of its tasks and what may still come of its handles.
Every step lowers it (`Sound.step_work`): a task other than a turn leaves less than it
was, and a turn brings its handle one further on a course of at most three callbacks and
one offer.

So a run ends (`Machine.steps_end`), within the work that `Machine.run` has in hand
(`Machine.run_ends`), and every call returns (`Machine.steps_return`).
-/
import OneShot.Proofs.Work

namespace OneShot

set_option autoImplicit false

variable {α ε : Type}

/-! ## Events that bring no handle further -/

/-- A callback begins or ends, or an outcome is offered. -/
def Event.isTurn : Event α ε → Bool
  | began _ _ | ended _ _ | attempted _ _ => true
  | _ => false

theorem Event.isTurn_of_isAside {event : Event α ε} (aside : event.isAside = true) :
    event.isTurn = false := by
  cases event <;> simp_all [isAside, isTurn]

namespace Store

variable (st : Store α ε)

/-- What a request says, it says of its handle, which is no further for it. -/
theorem request_told (h : HandleRef) (n : UInt64) :
    ∀ event ∈ (st.request h n).events, event.isOf h = true ∧ event.isTurn = false := by
  have asks := st.request_asks h n
  generalize st.request h n = e at asks ⊢
  cases asks with
  | missed => simp [Effect.quiet]
  | refused | first | served | spoilt | empty | again => simp [Event.isOf, Event.isTurn]

theorem cancel_told (h : HandleRef) :
    ∀ event ∈ (st.cancel h).events, event.isOf h = true ∧ event.isTurn = false := by
  have cancels := st.cancel_cancels h
  generalize st.cancel h = e at cancels ⊢
  cases cancels with
  | missed => simp [Effect.quiet]
  | again => simp [Event.isOf, Event.isTurn]
  | first =>
      refine List.forall_mem_cons.2 ⟨by simp [Event.isOf, Event.isTurn],
        List.forall_mem_cons.2 ⟨⟨rfl, rfl⟩, fun event member => ?_⟩⟩
      have aside := unregister_aside _ _ h event member
      exact ⟨Event.isOf_of_isAside aside h, Event.isTurn_of_isAside aside⟩

theorem terminate_mute (s : SinkRef) (o : Outcome α ε) :
    ∀ event ∈ (st.terminate s o).2.events, event.isTurn = false := by
  have ends := st.terminate_ends s o
  generalize st.terminate s o = called at ends ⊢
  cases ends with
  | missed => simp [Effect.quiet]
  | won | lost => simp [Event.isTurn]

end Store

/-- Steps and consumers bring no handle further at once. -/
theorem Deed.mute {st : Store α ε} {may : SinkRef → Prop} {e : Effect α ε}
    (deed : Deed st may e) :
    ∀ event ∈ e.events, event.isTurn = false := by
  induction deed with
  | aside _ _ _ events _ => exact fun event member => Event.isTurn_of_isAside (events event member)
  | founding => simp [Effect.quiet]
  | subscribing => simp [Store.subscribe, Event.isTurn]
  | ending named allowed o => exact Store.terminate_mute _ _ o
  | requesting beside h n => exact fun event member => (Store.request_told _ h n event member).2
  | cancelling h => exact fun event member => (Store.cancel_told _ h event member).2
  | after aside deed ih =>
      intro event member
      rcases List.mem_append.1 member with new | old
      · exact Event.isTurn_of_isAside (aside event new)
      · exact ih event old
  | followedBy aside mute deed ih => exact ih

theorem Consumer.toCome_append (consumer : Consumer α ε) (h : HandleRef)
    (history : List (Event α ε)) {events : List (Event α ε)}
    (mute : ∀ event ∈ events, event.isTurn = false) :
    consumer.toCome (.of h (history ++ events)) = consumer.toCome (.of h history) := by
  have silent : (Ledger.of h events).callbacks = [] := by
    apply List.filter_eq_nil_iff.2
    intro event member
    have none_ := mute event member
    cases event <;> simp_all [Event.isTurn, Event.isCallback]
  have unoffered : (Ledger.of h events).offers = [] := by
    apply List.filterMap_eq_nil_iff.2
    intro event member
    have none_ := mute event member
    cases event <;> simp_all [Event.isTurn, Event.offer?]
  rw [Ledger.of_append, silent, unoffered]
  simp [toCome, left]

/-! ## The work of a machine -/

section Consumers

variable {before after : List (Event α ε)}

theorem allToCome_append (history : List (Event α ε)) (i : Nat)
    (consumers made : List (Consumer α ε)) :
    allToCome history i (consumers ++ made) =
      allToCome history i consumers + allToCome history (i + consumers.length) made := by
  induction consumers generalizing i with
  | nil => simp [allToCome]
  | cons c consumers ih =>
      have shift : i + 1 + consumers.length = i + (consumers.length + 1) := by omega
      rw [List.cons_append, allToCome, allToCome, ih, List.length_cons, shift, Nat.add_assoc]

theorem allToCome_congr {i : Nat} {consumers : List (Consumer α ε)}
    (same : ∀ (h : Nat) (c : Consumer α ε), i ≤ h →
      c.toCome (.of h after) = c.toCome (.of h before)) :
    allToCome after i consumers = allToCome before i consumers := by
  induction consumers generalizing i with
  | nil => rfl
  | cons c consumers ih =>
      rw [allToCome, allToCome, same i c (Nat.le_refl i), ih fun h c ge => same h c (by omega)]

/-- What is said of one handle is taken from its consumer. -/
theorem allToCome_at {i j d : Nat} {consumers : List (Consumer α ε)} {consumer : Consumer α ε}
    (at_ : consumers[j]? = some consumer)
    (others : ∀ (h : Nat) (c : Consumer α ε), h ≠ i + j →
      c.toCome (.of h after) = c.toCome (.of h before))
    (less : consumer.toCome (.of (i + j) after) + d ≤ consumer.toCome (.of (i + j) before)) :
    allToCome after i consumers + d ≤ allToCome before i consumers := by
  induction consumers generalizing i j with
  | nil => simp at at_
  | cons c consumers ih =>
      rw [allToCome, allToCome]
      cases j with
      | zero =>
          obtain rfl : c = consumer := by simpa using at_
          have rest : allToCome after (i + 1) consumers = allToCome before (i + 1) consumers :=
            allToCome_congr fun h c ge => others h c (by omega)
          rw [Nat.add_zero] at less
          omega
      | succ j =>
          have shift : i + 1 + j = i + (j + 1) := by omega
          have rest := ih (i := i + 1) (by simpa using at_)
            (fun h c ne => others h c (shift ▸ ne)) (by rw [shift]; exact less)
          have first := others i c (by omega)
          omega

end Consumers

namespace Machine

/-- What may still come of the handles of a machine. -/
def toCome (m : Machine α ε) : Nat := allToCome m.history 0 m.store.consumers

def work (m : Machine α ε) : Nat := tasksWork m.agenda + m.toCome

theorem work_behind {m : Machine α ε} {t : Task α ε} {rest : List (Task α ε)}
    (turn : m.agenda = t :: rest) : m.work = t.work + m.behind.work := by
  simp only [work, turn, tasksWork_cons, behind_agenda, List.tail_cons]
  exact Nat.add_assoc _ _ _

/-- Handles that are made while nothing is said add what may come of them. -/
theorem work_undergo_le {m : Machine α ε} {e : Effect α ε} {n : Nat}
    (unborn : ∀ h : HandleRef, m.store.handles[h]? = none → Ledger.of h m.history = .empty)
    (costs : m.store.Costs e n) (mute : ∀ event ∈ e.events, event.isTurn = false) :
    (m.undergo e).work ≤ m.work + n := by
  obtain ⟨made, consumers, bound⟩ := costs
  have still : ∀ i (l : List (Consumer α ε)), allToCome (m.history ++ e.events) i l =
      allToCome m.history i l := by
    intro i l
    exact allToCome_congr fun h c _ => c.toCome_append h m.history mute
  have fresh : allToCome m.history m.store.consumers.length made =
      allToCome [] m.store.consumers.length made := by
    apply allToCome_congr
    intro h c ge
    have absent : m.store.handles[h]? = none :=
      List.getElem?_eq_none (by simpa [Store.consumers] using ge)
    rw [unborn h absent, Ledger.of_nil]
  simp only [work, toCome, undergo_agenda, undergo_store, undergo_history, tasksWork_append,
    consumers, still, allToCome_append, Nat.zero_add, fresh]
  omega

/-- A turn takes from what may come of its handle. -/
theorem work_undergo_turn {m : Machine α ε} {e : Effect α ε} {h : HandleRef} {x : Handle α ε}
    {d : Nat} (found : m.store.handles[h]? = some x)
    (consumers : e.store.consumers = m.store.consumers)
    (own : ∀ event ∈ e.events, event.isOf h = true)
    (less : x.consumer.toCome (.of h (m.history ++ e.events)) + d ≤
      x.consumer.toCome (.of h m.history)) :
    (m.undergo e).work + d ≤ m.work + tasksWork e.tasks := by
  have at_ : m.store.consumers[h]? = some x.consumer := by simp [Store.consumers, found]
  have others : ∀ (g : Nat) (c : Consumer α ε), g ≠ 0 + h →
      c.toCome (.of g (m.history ++ e.events)) = c.toCome (.of g m.history) := by
    intro g c ne
    rw [Ledger.of_append_of_others _ fun event member =>
      Event.concerns_of_isOf (own event member) (by simpa using ne)]
  have sum := allToCome_at at_ others (by simpa using less)
  simp only [work, toCome, undergo_agenda, undergo_store, undergo_history, tasksWork_append,
    consumers]
  omega

end Machine

/-! ## How far a handle still is -/

section Room

variable {h : HandleRef} {place : Place α ε} {asked renounced : Bool}
  {offers : List (Outcome α ε)} {heard : List (Event α ε)} {signal : Signal α ε}

/-- A callback that is about to begin has not begun before. -/
theorem Course.unheard
    (course : Course h place asked renounced offers heard [.notify h signal]) :
    heard.length ≤ 4 ∧ heard.any (Event.starts signal.callback) = false := by
  cases course with
  | summoned => exact ⟨by simp, rfl⟩
  | due closed script begun =>
      rcases Outcome.signals_split script begun with
        ⟨v, -, rfl, rfl, -⟩ | ⟨v, -, rfl, rfl, -⟩ | ⟨-, rfl, rfl, -⟩ | ⟨e, -, rfl, rfl, -⟩ <;>
        exact ⟨by simp [inTurn], by simp [inTurn, Event.starts, Signal.callback]⟩

theorem Course.begun (course : Course h place asked renounced offers heard [.finish h signal]) :
    heard.length ≤ 5 := by
  cases course with
  | greeting => simp
  | hearing closed script begun =>
      rcases Outcome.signals_split script begun with
        ⟨v, -, rfl, -, -⟩ | ⟨v, -, rfl, -, -⟩ | ⟨-, rfl, -, -⟩ | ⟨e, -, rfl, -, -⟩ <;>
        simp [inTurn]

end Room

/-- One event less to come, and no callback that begins. -/
theorem Consumer.toCome_turn (consumer : Consumer α ε) {l l' : Ledger α ε}
    (begun : ∀ c, l'.callbacks.any (Event.starts c) = l.callbacks.any (Event.starts c))
    (fewer : 6 - l'.callbacks.length + (1 - l'.offers.length) + 1 ≤
      6 - l.callbacks.length + (1 - l.offers.length)) :
    consumer.toCome l' + 1 ≤ consumer.toCome l := by
  simp only [toCome, left, begun]
  omega

/-- A callback that begins is not to come any more, and neither is what it starts. -/
theorem Consumer.toCome_began (consumer : Consumer α ε) (l : Ledger α ε) (h : HandleRef)
    (signal : Signal α ε) (room : l.callbacks.length ≤ 4)
    (unheard : l.callbacks.any (Event.starts signal.callback) = false) :
    consumer.toCome { l with callbacks := l.callbacks ++ [.began h signal] } +
      (1 + consumer.work signal.callback) ≤ consumer.toCome l := by
  have begun : ∀ c, (l.callbacks ++ [Event.began h signal]).any (Event.starts c) =
      (l.callbacks.any (Event.starts c) || signal.callback == c) := by
    simp [Event.starts]
  simp only [toCome, left, begun, List.length_append, List.length_singleton]
  generalize signal.callback = c at unheard ⊢
  cases c <;> simp [unheard] <;> omega

/-! ## Every step lowers the work -/

namespace Store

/-- After an acknowledgment nothing is left but an offer. -/
theorem enrol_shape (st : Store α ε) (h : HandleRef) :
    (st.enrol h).store.consumers = st.consumers ∧ tasksWork (st.enrol h).tasks = 0 ∧
      ∀ event ∈ (st.enrol h).events, event.isAside = true := by
  have enrols := st.enrol_enrols h
  generalize st.enrol h = e at enrols ⊢
  cases enrols with
  | missed => exact ⟨rfl, rfl, List.forall_mem_nil _⟩
  | replayed | joined => exact ⟨rfl, rfl, List.forall_mem_singleton.2 rfl⟩
  | turnedAway =>
      refine ⟨?_, rfl, List.forall_mem_cons.2 ⟨rfl, unregister_aside _ _ h⟩⟩
      rw [unregister_consumers]
      rfl

/-- The effect is one turn, of which `first` tells: it makes no handle, and leaves at most the
next turn. -/
structure Turned (st : Store α ε) (first : Event α ε) (e : Effect α ε) : Prop where
  consumers : e.store.consumers = st.consumers
  turns : tasksWork e.tasks = 0
  events : ∃ others, e.events = first :: others ∧ ∀ event ∈ others, event.isAside = true

/-- What holds of its event, and of what bears on nothing, holds of all that a turn tells. -/
theorem Turned.each {st : Store α ε} {first : Event α ε} {e : Effect α ε}
    (turned : st.Turned first e) {P : Event α ε → Prop} (own : P first)
    (aside : ∀ event, event.isAside = true → P event) : ∀ event ∈ e.events, P event := by
  obtain ⟨others, events, asides⟩ := turned.events
  rw [events]
  exact List.forall_mem_cons.2 ⟨own, fun event member => aside event (asides event member)⟩

theorem finish_turned (st : Store α ε) (h : HandleRef) (signal : Signal α ε) :
    st.Turned (.ended h signal) (st.finish h signal) := by
  cases signal with
  | subscribed =>
      obtain ⟨consumers, turns, aside⟩ := st.enrol_shape h
      exact ⟨consumers, turns, _, rfl, aside⟩
  | next v =>
      simp only [finish]
      split
      · exact ⟨rfl, rfl, [], rfl, by simp⟩
      · exact ⟨rfl, rfl, [], rfl, by simp⟩
  | complete => exact ⟨rfl, rfl, [], rfl, by simp⟩
  | error e => exact ⟨rfl, rfl, [], rfl, by simp⟩

theorem deliver_turned (st : Store α ε) (h : HandleRef) (o : Outcome α ε) :
    st.Turned (.attempted h o) (st.deliver h o) := by
  have offers := st.deliver_offers h o
  generalize st.deliver h o = e at offers ⊢
  cases offers with
  | withheld => exact ⟨rfl, rfl, _, rfl, by simp [Event.isAside]⟩
  | told | late => exact ⟨rfl, rfl, [], rfl, by simp⟩
  | fed => exact ⟨st.modifyHandle_consumers h fun _ => rfl, rfl, [], rfl, by simp⟩
  | parked =>
      exact ⟨st.modifyHandle_consumers h fun _ => rfl, rfl, _, rfl, by simp [Event.isAside]⟩

end Store

/-- A turn leaves its handle one further. -/
theorem Machine.turn_work {m : Machine α ε} {t : Task α ε} {rest : List (Task α ε)}
    (turn : m.agenda = t :: rest) {h : HandleRef} {x : Handle α ε}
    (found : m.store.handles[h]? = some x) {first : Event α ε}
    (turned : m.store.Turned first (t.effect m.store rest)) (own : first.isOf h = true)
    (less : ∀ others : List (Event α ε), (∀ event ∈ others, event.concerns h = false) →
      x.consumer.toCome (.of h (m.history ++ first :: others)) + 1 ≤
        x.consumer.toCome (.of h m.history)) : m.step.work < m.work := by
  obtain ⟨others, events, aside⟩ := turned.events
  have lower := less others fun event member => Event.concerns_of_isAside (aside event member) h
  rw [← events] at lower
  have bound := Machine.work_undergo_turn (m := m.behind) found turned.consumers
    (turned.each own fun event aside => Event.isOf_of_isAside aside h) lower
  have none_ := turned.turns
  rw [Machine.step_cons turn, Machine.work_behind turn]
  omega

namespace Sound

variable {m : Machine α ε} {t : Task α ε} {rest : List (Task α ε)}

theorem unborn_behind (sound : Sound m) (h : HandleRef) (none_ : m.behind.store.handles[h]? = none) :
    Ledger.of h m.behind.history = .empty :=
  (sound.unborn h none_).2

/-- A task that says nothing to any consumer leaves less than it was. -/
theorem idle_work (sound : Sound m) (turn : m.agenda = t :: rest) {n : Nat}
    (costs : m.store.Costs (t.effect m.store rest) n)
    (mute : ∀ event ∈ (t.effect m.store rest).events, event.isTurn = false) (less : n < t.work) :
    m.step.work < m.work := by
  rw [Machine.step_cons turn, Machine.work_behind turn]
  have bound := Machine.work_undergo_le (m := m.behind) sound.unborn_behind costs mute
  omega

theorem notify_work {h : HandleRef} {signal : Signal α ε} (sound : Sound m)
    (turn : m.agenda = .notify h signal :: rest) : m.step.work < m.work := by
  obtain ⟨x, found, -, -, stands⟩ := sound.turn_of turn (Task.notify_concerns h signal)
  obtain ⟨room, unheard⟩ := stands.course.unheard
  have began := Machine.work_undergo_turn (m := m.behind)
    (e := ⟨m.store, [.began h signal], [.finish h signal]⟩) found rfl (by simp [Event.isOf])
    (by
      rw [Machine.behind_history, Ledger.of_began _ _ (by simp)]
      exact x.consumer.toCome_began _ h signal room unheard)
  have deed := m.store.react_deed x.consumer h signal
  have unborn : ∀ g : HandleRef, m.store.handles[g]? = none →
      Ledger.of g (m.behind.undergo ⟨m.store, [.began h signal], [.finish h signal]⟩).history =
        .empty := by
    intro g none_
    have other : g ≠ h := by
      rintro rfl
      exact absurd (found.symm.trans none_) (by simp)
    rw [Machine.undergo_history,
      Ledger.of_append_of_others _ (by simp [Event.concerns, Ne.symm other])]
    exact sound.unborn_behind g none_
  have reacts := Machine.work_undergo_le
    (m := m.behind.undergo ⟨m.store, [.began h signal], [.finish h signal]⟩) unborn
    (m.store.react_costs x.consumer h signal) deed.mute
  rw [Machine.step_cons turn, Machine.work_behind turn, Task.effect, Store.notify_eq found,
    Machine.undergo_followedBy, Machine.undergo_after]
  simp only [tasksWork_cons, tasksWork_nil, Task.work] at began ⊢
  exact Nat.lt_of_le_of_lt reacts (by omega)

theorem finish_work {h : HandleRef} {signal : Signal α ε} (sound : Sound m)
    (turn : m.agenda = .finish h signal :: rest) : m.step.work < m.work := by
  obtain ⟨x, found, -, -, stands⟩ := sound.turn_of turn (Task.finish_concerns h signal)
  have room := stands.course.begun
  apply Machine.turn_work turn found (m.store.finish_turned h signal) (by simp [Event.isOf])
  intro others aside
  rw [Ledger.of_ended _ _ aside]
  apply x.consumer.toCome_turn (by simp [Event.starts])
  simp only [List.length_append, List.length_singleton]
  omega

theorem deliver_work {h : HandleRef} {o : Outcome α ε} (sound : Sound m)
    (turn : m.agenda = .deliver h o :: rest) : m.step.work < m.work := by
  obtain ⟨x, found, -, -, stands⟩ := sound.turn_of turn (Task.deliver_concerns h o)
  have first : (Ledger.of h m.history).offers = [] := stands.course.of_deliver.2.1
  apply Machine.turn_work turn found (m.store.deliver_turned h o) (by simp [Event.isOf])
  intro others aside
  rw [Ledger.of_offer _ _ aside]
  apply x.consumer.toCome_turn (by simp)
  simp [first]

/-- **Every step lowers the work.** -/
theorem step_work (sound : Sound m) (turn : m.agenda = t :: rest) : m.step.work < m.work := by
  have forgets : ∀ {left : Store α ε × List (Event α ε)}, m.store.Forgets left →
      m.store.Costs ⟨left.1, left.2, []⟩ 0 ∧ ∀ event ∈ left.2, event.isTurn = false := by
    intro left forgets
    exact ⟨.of_tasks forgets.consumers (by simp), forgets.each fun _ => rfl⟩
  cases t with
  | perform within step =>
      have room := occurrences_pos step
      have costs := ((m.store.perform_costs rest within step).after
        [.performed within step]).followedBy
          [.answer within step (m.store.perform rest within step).2]
      have mute : ∀ event ∈ (Task.effect m.store rest (.perform within step)).events,
          event.isTurn = false :=
        List.forall_mem_cons.2 ⟨rfl, (m.store.perform_deed rest within step).mute⟩
      apply sound.idle_work turn costs mute
      simp only [Task.work, tasksWork_cons, tasksWork_nil, Machine.workPerStep]
      omega
  | answer within step closing =>
      have beside := (m.store.conclude_beside closing).handles
      exact sound.idle_work turn (.of_tasks (by simp [Task.effect, Store.consumers, beside])
        (Nat.le_refl _)) (by simp [Task.effect, Event.isTurn]) (by simp [Task.effect, Task.work])
  | notify h signal => exact sound.notify_work turn
  | finish h signal => exact sound.finish_work turn
  | deliver h o => exact sound.deliver_work turn
  | letGo hs =>
      obtain ⟨costs, mute⟩ := forgets (m.store.letGo_forgets rest hs)
      exact sound.idle_work turn costs mute (by simp [Task.work])
  | giveUp s =>
      obtain ⟨costs, mute⟩ := forgets (m.store.giveUp_forgets rest s)
      exact sound.idle_work turn costs mute (by simp [Task.work])
  | hangUp c =>
      exact sound.idle_work turn (.quiet rfl) (by simp [Task.effect, Effect.quiet])
        (by simp [Task.work])

end Sound

/-! ## Runs end -/

namespace Machine

/-- **A run ends within its work.** -/
theorem steps_end {m : Machine α ε} (sound : Sound m) {n : Nat} (enough : m.work ≤ n) :
    (m.steps n).agenda = [] := by
  induction n generalizing m with
  | zero =>
      cases turn : m.agenda with
      | nil => exact turn
      | cons t rest =>
          have lower := sound.step_work turn
          omega
  | succ n ih =>
      cases turn : m.agenda with
      | nil => rw [steps_nil turn, turn]
      | cons t rest =>
          have lower := sound.step_work turn
          rw [steps_succ]
          exact ih sound.step (by omega)

theorem load_work (script : List (Step α ε)) : (load script).work = stepsWork script := by
  simp [work, toCome, allToCome, load, Store.empty, Store.consumers, tasksWork_performs]

/-- **Every script is run to its end.** -/
theorem run_ends (script : List (Step α ε)) : (run script).agenda = [] :=
  steps_end (Sound.load script) (Nat.le_of_eq (load_work script))

/-- **Every call returns**: the work in front of `rest` comes to an end, and `rest` is left
alone until then. -/
theorem steps_return {m : Machine α ε} (sound : Sound m) {tasks rest : List (Task α ε)}
    (stack : m.agenda = tasks ++ rest) :
    ∃ j, (m.steps j).agenda = rest ∧ ∀ i < j, (m.steps i).Busy rest := by
  refine steps_returns ?_ (steps_end sound (Nat.le_refl _))
  cases tasks with
  | nil => exact .inr stack
  | cons t tasks => exact .inl ⟨t :: tasks, by simp, stack⟩

/-- **Every step is answered**, when all that it has started is over. -/
theorem steps_answer {m : Machine α ε} (sound : Sound m) {within : Option Nat} {step : Step α ε}
    {rest : List (Task α ε)} (turn : m.agenda = .perform within step :: rest) :
    ∃ j, (m.steps j).agenda = rest ∧ (∀ i < j, (m.steps i).Busy rest) ∧
      ∃ between st, (m.steps j).history = m.step.history ++ between ++
        [.answered within step (Store.conclude st (m.store.perform rest within step).2).2] := by
  obtain ⟨e, closing⟩ : ∃ e, m.store.perform rest within step =
      (e, (m.store.perform rest within step).2) := ⟨_, rfl⟩
  generalize (m.store.perform rest within step).2 = reply at closing ⊢
  have stack : m.step.agenda = e.tasks ++ (.answer within step reply :: rest) := by
    rw [step_perform turn closing]
  obtain ⟨j, back, busy⟩ := steps_return sound.step stack
  obtain ⟨between, grown⟩ := history_prefix_steps m.step j
  have last : (m.steps (j + 2)) = (m.step.steps j).step := by
    rw [steps_succ, steps_step]
  refine ⟨j + 2, ?_, ?_, between, (m.step.steps j).store, ?_⟩
  · rw [last, step_cons back, undergo_agenda, behind_agenda, back]
    rfl
  · -- the step itself, what it has started, its reply
    intro i lt
    cases i with
    | zero => exact ⟨[.perform within step], by simp, turn⟩
    | succ i =>
        rw [steps_succ]
        by_cases closed : i = j
        · rw [closed]
          exact ⟨[.answer within step reply], by simp, back⟩
        · obtain ⟨work, -, eq⟩ := busy i (by omega)
          exact ⟨work ++ [.answer within step reply], by simp, by simp [eq]⟩
  · rw [last, step_cons back, undergo_history, behind_history, ← grown]
    rfl

end Machine

end OneShot
