/-
# OneShot.Proofs.Loop -- the loop of the call that ends a sink

The call that wins takes the registry as it stands, and visits the handles in it one after
the other.  What a consumer does inside its visit stands in front of the visits that are
left, so these are neither changed nor overtaken by it (`Machine.visits_of`).

A visit is an `Attempt`: it reaches the consumer, or puts the value away until there is
demand, exactly if the handle was not cancelled before (`Sound.attempt`).  It is the only
one that its handle ever gets (`Sound.offers_of`).  A handle that is subscribed while the
loop is under way stands in no registry: its own call of `subscribe` offers it the outcome
behind its acknowledgment, and returns after that (`Sound.replays`).
-/
import OneShot.Proofs.Order
import OneShot.Proofs.Ending
import OneShot.Proofs.Grammar

namespace OneShot

set_option autoImplicit false

variable {α ε : Type}

/-! ## One attempt -/

namespace Store

variable {st : Store α ε} {h : HandleRef} {o : Outcome α ε}

/-- A cancelled handle is passed over. -/
theorem deliver_cancelled (gone : st.phase h = .cancelled) (o : Outcome α ε) :
    st.deliver h o = ⟨st, [.attempted h o, .noticed (.suppressed h)], []⟩ := by
  cases o <;> simp [deliver, gone, Effect.after]

/-- Completion and errors are told at once, and so is a value that was asked for. -/
theorem deliver_due (on : st.phase h ≠ .cancelled)
    (fed : o.isValue = true → st.phase h = .requested) :
    ∃ signal, o.signals[1]? = some signal ∧ (st.deliver h o).tasks = [.notify h signal] := by
  cases o with
  | value v => exact ⟨.next v, rfl, by simp [deliver, fed rfl, Effect.after]⟩
  | empty =>
      refine ⟨.complete, rfl, ?_⟩
      cases phase : st.phase h <;> simp_all [deliver, Effect.after]
  | error e =>
      refine ⟨.error e, rfl, ?_⟩
      cases phase : st.phase h <;> simp_all [deliver, Effect.after]

/-- A value that was not asked for is put away. -/
theorem deliver_idle {x : Handle α ε} (found : st.handles[h]? = some x)
    (here : st.phase h = .idle) (v : α) :
    (st.deliver h (.value v)).tasks = [] ∧ (st.deliver h (.value v)).store.Parks h v := by
  refine ⟨by simp [deliver, here, Effect.after],
    { x with phase := .parked, parked := some (.value v), keepAlive := true }, ?_, rfl, rfl, rfl⟩
  simp [deliver, here, Effect.after, modifyHandle_handles, found]

end Store

namespace Machine

/-- What is done next calls the consumer of `h` with what the outcome has to tell. -/
def Calls (m : Machine α ε) (h : HandleRef) (o : Outcome α ε) (behind : List (Task α ε)) : Prop :=
  ∃ signal, o.signals[1]? = some signal ∧ m.step.agenda = .notify h signal :: behind ∧
    .began h signal ∈ m.step.news

/-- What is done next puts the value away on `h` until there is demand. -/
def PutsAway (m : Machine α ε) (h : HandleRef) (o : Outcome α ε) (behind : List (Task α ε)) :
    Prop :=
  ∃ v, o = .value v ∧ m.step.agenda = behind ∧ m.step.store.Parks h v

/-- The outcome `o` is offered to `h` next; `behind` is what is left to do after that. -/
structure Attempt (m : Machine α ε) (h : HandleRef) (o : Outcome α ε)
    (behind : List (Task α ε)) : Prop where
  turn : m.agenda = .deliver h o :: behind
  told : .attempted h o ∈ m.news
  /-- The offer reaches its consumer or is put away, unless the handle was cancelled. -/
  reaches : m.Calls h o behind ∨ m.PutsAway h o behind ↔ .cancelling h ∉ m.history
  /-- It is put away if it is a value, and there was no demand yet. -/
  waits : m.PutsAway h o behind ↔ .cancelling h ∉ m.history ∧ o.isValue = true ∧
    ∀ n, .requesting h n ∈ m.history → n = 0
  /-- A cancelled handle is passed over. -/
  suppressed : .cancelling h ∈ m.history →
    m.step = ⟨m.store, behind, .noticed (.suppressed h) :: .attempted h o :: m.past⟩

/-- The consumer of `h` has heard all that `o` calls for, or the value waits for demand, or the
handle was cancelled. -/
def Informed (m : Machine α ε) (h : HandleRef) (o : Outcome α ε) : Prop :=
  .cancelling h ∈ m.history ∨
    ((o.isValue = true → ∃ n, n ≠ 0 ∧ .requesting h n ∈ m.history) ∧
      callbacks h m.history = inTurn h o.signals) ∨
    ∃ v, o = .value v ∧ (∀ n, .requesting h n ∈ m.history → n = 0) ∧
      callbacks h m.history = inTurn h [.subscribed] ∧ m.store.Parks h v

/-! An attempt ends in one of three ways. -/

variable {m : Machine α ε} {h : HandleRef} {o : Outcome α ε} {behind : List (Task α ε)}

theorem Calls.not_putsAway (called : m.Calls h o behind) : ¬ m.PutsAway h o behind := by
  obtain ⟨signal, -, agenda, -⟩ := called
  rintro ⟨v, -, passed, -⟩
  simpa using congrArg List.length (agenda.symm.trans passed)

namespace Attempt

theorem of_calls (turn : m.agenda = .deliver h o :: behind) (told : .attempted h o ∈ m.news)
    (kept : .cancelling h ∉ m.history)
    (fed : o.isValue = true → ∃ n, n ≠ 0 ∧ .requesting h n ∈ m.history)
    (called : m.Calls h o behind) : m.Attempt h o behind := by
  refine ⟨turn, told, iff_of_true (.inl called) kept, iff_of_false called.not_putsAway ?_,
    fun gone => absurd gone kept⟩
  rintro ⟨-, value, unfed⟩
  obtain ⟨n, positive, asked⟩ := fed value
  exact positive (unfed n asked)

theorem of_away (turn : m.agenda = .deliver h o :: behind) (told : .attempted h o ∈ m.news)
    (kept : .cancelling h ∉ m.history) (unfed : ∀ n, .requesting h n ∈ m.history → n = 0)
    (away : m.PutsAway h o behind) : m.Attempt h o behind := by
  refine ⟨turn, told, iff_of_true (.inr away) kept, iff_of_true away ⟨kept, ?_, unfed⟩,
    fun gone => absurd gone kept⟩
  obtain ⟨v, rfl, -⟩ := away
  rfl

theorem of_gone (turn : m.agenda = .deliver h o :: behind) (told : .attempted h o ∈ m.news)
    (gone : .cancelling h ∈ m.history) (silent : m.store.phase h = .cancelled)
    (passes : m.step = ⟨m.store, behind, .noticed (.suppressed h) :: .attempted h o :: m.past⟩) :
    m.Attempt h o behind := by
  have uncalled : ¬ m.Calls h o behind := by
    rintro ⟨signal, -, agenda, -⟩
    rw [passes] at agenda
    simpa using congrArg List.length agenda
  have unparked : ¬ m.PutsAway h o behind := by
    rintro ⟨v, -, -, x, found, parked, -⟩
    rw [passes] at found
    rw [Store.phase_of found, parked] at silent
    cases silent
  exact ⟨turn, told, iff_of_false (not_or.2 ⟨uncalled, unparked⟩) fun kept => kept gone,
    iff_of_false unparked fun waits => waits.1 gone, fun _ => passes⟩

end Attempt

end Machine

namespace Sound

variable {m : Machine α ε} {h : HandleRef} {o : Outcome α ε} {behind : List (Task α ε)}

/-- A callback that is due begins. -/
theorem begins (sound : Sound m) {signal : Signal α ε}
    (turn : m.agenda = .notify h signal :: behind) : .began h signal ∈ m.news := by
  obtain ⟨x, found, -⟩ := sound.turn_of turn (Task.notify_concerns h signal)
  rw [Machine.news_cons turn, Task.effect, Store.notify_eq found]
  exact List.mem_cons_self

/-- **An attempt reaches its consumer unless the handle was cancelled.** -/
theorem attempt (sound : Sound m) (turn : m.agenda = .deliver h o :: behind) :
    m.Attempt h o behind := by
  obtain ⟨x, found, -, -, stands⟩ := sound.turn_of turn (Task.deliver_concerns h o)
  have phase : m.store.phase h =
      .of (Ledger.of h m.history).renounced (Ledger.of h m.history).asked false := by
    rw [Store.phase_of found, stands.phase, stands.course.of_deliver.2.1]
    rfl
  have step : m.step = m.behind.undergo (m.store.deliver h o) := Machine.step_cons turn
  have told : .attempted h o ∈ m.news := by
    obtain ⟨others, events, -⟩ := (m.store.deliver_turned h o).events
    rw [Machine.news_cons turn, Task.effect, events]
    exact List.mem_cons_self
  have agenda : m.step.agenda = (m.store.deliver h o).tasks ++ behind := by
    rw [step, Machine.undergo_agenda, Machine.behind_agenda, turn]
    rfl
  by_cases gone : .cancelling h ∈ m.history
  · rw [Ledger.renounced_iff.2 gone] at phase
    refine .of_gone turn told gone phase ?_
    rw [step, Store.deliver_cancelled phase]
    simp [Machine.undergo, Machine.behind, turn]
  · have kept : (Ledger.of h m.history).renounced = false := by
      rw [Bool.eq_false_iff, Ne, Ledger.renounced_iff]
      exact gone
    rw [kept] at phase
    by_cases fed : o.isValue = true → (Ledger.of h m.history).asked = true
    · have on : m.store.phase h ≠ .cancelled := by
        rw [phase, Ne, Phase.of_eq_cancelled]
        exact Bool.false_ne_true
      obtain ⟨signal, second, tasks⟩ := Store.deliver_due on fun value => by
        rw [phase, fed value]
        rfl
      rw [tasks] at agenda
      exact .of_calls turn told gone (fun value => Ledger.asked_iff.1 (fed value))
        ⟨signal, second, agenda, sound.step.begins agenda⟩
    · obtain ⟨value, unasked⟩ := Classical.not_imp.1 fed
      obtain ⟨v, rfl⟩ := Outcome.isValue_iff.1 value
      rw [Bool.eq_false_iff.2 unasked] at phase
      obtain ⟨tasks, parks⟩ := Store.deliver_idle found phase v
      rw [tasks] at agenda
      refine .of_away turn told gone ?_ ⟨v, rfl, agenda, by rw [step]; exact parks⟩
      intro n asked
      by_cases zero : n = 0
      · exact zero
      · exact absurd (Ledger.asked_iff.2 ⟨n, zero, asked⟩) unasked

end Sound

/-! ## Along a run -/

namespace Sound

variable {m : Machine α ε} {h : HandleRef} {o : Outcome α ε} {behind : List (Task α ε)}

/-- A handle is offered one outcome at most, and at most once. -/
theorem offers_eq (sound : Sound m) (attempted : .attempted h o ∈ m.history) :
    (Ledger.of h m.history).offers = [o] := by
  have offered : o ∈ (Ledger.of h m.history).offers :=
    List.mem_filterMap.2 ⟨_, attempted, by simp [Event.offer?]⟩
  cases found : m.store.handles[h]? with
  | none =>
      rw [(sound.unborn h found).2] at offered
      cases offered
  | some x =>
      have course := (sound.standing h x (by simp) found).course
      cases offers : (Ledger.of h m.history).offers with
      | nil =>
          rw [offers] at offered
          cases offered
      | cons first later =>
          rw [offers] at offered course
          rw [course.of_offered.1] at offered ⊢
          rw [List.mem_singleton.1 offered]

/-- **The offer that is made next is the only one that its handle gets.** -/
theorem offers_of (sound : Sound m) {a : Nat} (turn : (m.steps a).agenda = .deliver h o :: behind)
    (n : Nat) : (Ledger.of h (m.steps n).history).offers = if n ≤ a then [] else [o] := by
  split
  · rename_i early
    obtain ⟨x, -, -, -, stands⟩ := (sound.steps a).turn_of turn (Task.deliver_concerns h o)
    have none_ : (Ledger.of h (m.steps a).history).offers = [] := stands.course.of_deliver.2.1
    have less : (Ledger.of h (m.steps n).history).offers <+:
        (Ledger.of h (m.steps a).history).offers := (m.history_mono early).filterMap _
    rw [none_] at less
    exact List.prefix_nil.1 less
  · rename_i late
    apply (sound.steps n).offers_eq
    apply (m.history_mono (Nat.lt_of_not_le late)).subset
    rw [Machine.steps_step, Machine.history_step]
    exact List.mem_append_right _ ((sound.steps a).attempt turn).told

/-- When nothing is pending for a handle of a sink that has ended, its consumer is informed. -/
theorem informed (sound : Sound m) {x : Handle α ε} (found : m.store.handles[h]? = some x)
    (idle : m.pending h = []) (closed : m.store.registry x.sink = .frozen o) : m.Informed h o := by
  by_cases gone : .cancelling h ∈ m.history
  · exact .inl gone
  · rcases sound.settled found idle gone with ⟨unended, -⟩ | ⟨o', frozen, heard⟩
    · exact absurd (sound.ended_iff.2 closed) (unended o)
    · obtain rfl : o = o' := Registry.frozen.inj (closed.symm.trans frozen)
      exact .inr heard

end Sound

/-! ## The loop -/

namespace Machine

/-- **The tasks of an agenda are done one after the other**: each is begun when all that those
before it have started is over. -/
theorem steps_stack {m : Machine α ε} (sound : Sound m) {tasks closing : List (Task α ε)}
    (stack : m.agenda = tasks ++ closing) :
    ∃ moment : Nat → Nat, moment 0 = 0 ∧
      (∀ k ≤ tasks.length, (m.steps (moment k)).agenda = tasks.drop k ++ closing) ∧
      ∀ k < tasks.length, moment k < moment (k + 1) ∧
        ∀ j, moment k ≤ j → j < moment (k + 1) →
          (m.steps j).Busy (tasks.drop (k + 1) ++ closing) := by
  induction tasks generalizing m with
  | nil => exact ⟨fun _ => 0, rfl, fun k le => by simpa using stack, by simp⟩
  | cons t tasks ih =>
      have first : m.agenda = [t] ++ (tasks ++ closing) := stack
      obtain ⟨first, back, busy⟩ := steps_return sound first
      obtain ⟨moment, start, agenda, gaps⟩ := ih (sound.steps first) back
      have some_ : 0 < first := by
        rcases Nat.eq_zero_or_pos first with rfl | some_
        · rw [steps_zero, stack] at back
          simpa using congrArg List.length back
        · exact some_
      refine ⟨fun | 0 => 0 | k + 1 => first + moment k, rfl, ?_, ?_⟩
      · intro k le
        cases k with
        | zero => exact stack
        | succ k =>
            rw [steps_add]
            exact agenda k (Nat.le_of_succ_le_succ le)
      · intro k lt
        cases k with
        | zero =>
            refine ⟨by simpa [start] using some_, ?_⟩
            intro j _ lt
            exact busy j (by simpa [start] using lt)
        | succ k =>
            obtain ⟨onward, busy⟩ := gaps k (Nat.lt_of_succ_lt_succ lt)
            refine ⟨Nat.add_lt_add_left onward first, ?_⟩
            intro j ge lt
            obtain ⟨d, rfl⟩ := Nat.exists_eq_add_of_le (Nat.le_trans (Nat.le_add_right ..) ge)
            rw [steps_add]
            exact busy d (Nat.le_of_add_le_add_left ge) (Nat.lt_of_add_lt_add_left lt)

/-- The loop that offers `o` to the handles `hs` in order, with `closing` behind it: it comes to
the handle in place `k` at `moment k`. -/
structure Visits (m : Machine α ε) (o : Outcome α ε) (hs : List HandleRef)
    (closing : List (Task α ε)) (moment : Nat → Nat) : Prop where
  agenda : ∀ k ≤ hs.length,
    (m.steps (moment k)).agenda = (hs.drop k).map (.deliver · o) ++ closing
  onward : ∀ k < hs.length, moment k < moment (k + 1)
  /-- Until it comes to the next one, it is at what this visit has started. -/
  busy : ∀ k < hs.length, ∀ j, moment k ≤ j → j < moment (k + 1) →
    (m.steps j).Busy ((hs.drop (k + 1)).map (.deliver · o) ++ closing)
  attempt : ∀ k (inside : k < hs.length),
    (m.steps (moment k)).Attempt hs[k] o ((hs.drop (k + 1)).map (.deliver · o) ++ closing)
  once : ∀ k (inside : k < hs.length) n,
    (Ledger.of hs[k] (m.steps n).history).offers = if n ≤ moment k then [] else [o]
  informed : ∀ k (inside : k < hs.length), (m.steps (moment (k + 1))).Informed hs[k] o

end Machine

namespace Sound

variable {m : Machine α ε} {h : HandleRef} {o : Outcome α ε}

/-- A visit informs its consumer before it is over. -/
theorem informed_of_turn (sound : Sound m) {behind : List (Task α ε)}
    (turn : m.agenda = .deliver h o :: behind) {n : Nat} (passed : (m.steps n).agenda = behind) :
    (m.steps n).Informed h o := by
  obtain ⟨x, found, -, alone, stands⟩ := sound.turn_of turn (Task.deliver_concerns h o)
  have closed := Registry.outcome?_eq_some.1
    (Registry.place_eq_closed.1 stands.course.of_deliver.1)
  obtain ⟨y, found', home⟩ := sound.found_steps found n
  refine (sound.steps n).informed found' ?_ (home ▸ sound.frozen_steps closed n)
  rw [Machine.pending, Machine.behind_agenda, turn] at alone
  rw [Machine.pending, passed]
  exact alone

/-- **The loop visits every handle, in order, and once.** -/
theorem visits (sound : Sound m) {hs : List HandleRef} {closing : List (Task α ε)}
    (stack : m.agenda = hs.map (.deliver · o) ++ closing) :
    ∃ moment : Nat → Nat, moment 0 = 0 ∧ m.Visits o hs closing moment := by
  obtain ⟨moment, start, agenda, gaps⟩ := Machine.steps_stack sound stack
  simp only [List.length_map, ← List.map_drop] at agenda gaps
  have turn : ∀ k (inside : k < hs.length), (m.steps (moment k)).agenda =
      .deliver hs[k] o :: ((hs.drop (k + 1)).map (.deliver · o) ++ closing) := by
    intro k inside
    rw [agenda k (Nat.le_of_lt inside), List.drop_eq_getElem_cons inside]
    rfl
  refine ⟨moment, start, agenda, fun k inside => (gaps k inside).1,
    fun k inside => (gaps k inside).2, fun k inside => (sound.steps _).attempt (turn k inside),
    fun k inside n => sound.offers_of (turn k inside) n, ?_⟩
  intro k inside
  obtain ⟨d, later⟩ := Nat.exists_eq_add_of_lt (gaps k inside).1
  have passed := agenda (k + 1) inside
  rw [later, Nat.add_assoc, Machine.steps_add] at passed ⊢
  exact (sound.steps _).informed_of_turn (turn k inside) passed

end Sound

/-! ## The call that wins -/

/-- **A call that wins** finds the registry open, and starts its loop over it. -/
theorem Sound.wins {m : Machine α ε} (sound : Sound m) {s : SinkRef} {o : Outcome α ε}
    (wins : .terminating s o true ∈ m.news) :
    ∃ within step rest hs, m.Ends s o within step rest ∧ m.store.registry s = .live hs ∧
      m.step.agenda = hs.map (.deliver · o) ++
        .letGo hs :: .giveUp s :: .answer within step (.reply (.flag true)) :: rest := by
  obtain ⟨o', within, step, rest, starts⟩ :
      ∃ o' within step rest, m.Ends s o' within step rest := by
    apply Classical.byContradiction
    intro none_
    have same := m.attempts_step (s := s) fun o' within step rest starts =>
      none_ ⟨o', within, step, rest, starts⟩
    rw [Machine.history_step, attempts_append, List.append_right_eq_self] at same
    have member := mem_attempts.2 wins
    rw [same] at member
    cases member
  obtain ⟨-, y, found, tenure⟩ := sound.sink_of_ends starts
  have performed := Store.perform_ending starts.ends rest within
  have told : .terminating s o true ∈ (m.store.terminate s o').2.events := by
    rw [Machine.news_cons starts.turn, Task.effect, performed] at wins
    exact (List.mem_cons.1 wins).resolve_left (by simp)
  have pending : y.flag = .pending := by
    apply Classical.byContradiction
    intro closed
    rw [Store.terminate_closed found closed] at told
    simp at told
  obtain ⟨won, notice, events⟩ := Store.terminate_pending (o := o') found pending
  obtain rfl : o = o' := by
    rw [events] at told
    simpa using told
  rw [pending] at tenure
  obtain ⟨hs, open_⟩ : ∃ hs, m.store.registry s = .live hs := by
    cases registry : m.store.registry s with
    | live hs => exact ⟨hs, rfl⟩
    | frozen o' =>
        rw [registry] at tenure
        cases tenure.of_pending.1
  have waiting : y.registry = .live hs := by rw [← m.store.registry_of_sinks found, open_]
  refine ⟨within, step, rest, hs, starts, open_, ?_⟩
  rw [Machine.step_perform starts.turn performed, won]
  simp [Store.terminate, found, pending, waiting, Registry.handles]

/-! ## Subscribing behind the end -/

namespace Machine

/-- The step that `m` performs next subscribes `h`; the call offers it `o` after `a` steps and
returns after `b`. -/
structure Replays (m : Machine α ε) (h : HandleRef) (o : Outcome α ε) (within : Option Nat)
    (step : Step α ε) (rest : List (Task α ε)) (a b : Nat) : Prop where
  turn : m.agenda = .perform within step :: rest
  busy : ∀ n < b, (m.steps n).Busy rest
  returns : (m.steps b).agenda = rest
  answers : ∃ reply, (m.steps b).history.getLast? = some (.answered within step reply)
  inside : a < b
  /-- The acknowledgment is over when the outcome is offered. -/
  greets : callbacks h (m.steps a).history = inTurn h [.subscribed]
  attempt : ∃ tasks, (m.steps a).Attempt h o (tasks ++ rest)
  once : ∀ n, (Ledger.of h (m.steps n).history).offers = if n ≤ a then [] else [o]
  informed : (m.steps b).Informed h o

end Machine

namespace Sound

variable {m : Machine α ε} {h : HandleRef} {o : Outcome α ε}

/-- Behind the end of its sink, the acknowledgment of a handle is followed by the offer. -/
theorem greeted_then_offered (sound : Sound m) {work rest : List (Task α ε)}
    (turn : m.agenda = .notify h .subscribed :: (work ++ rest)) {x : Handle α ε}
    (found : m.store.handles[h]? = some x) (closed : m.store.registry x.sink = .frozen o) :
    ∃ n m', Machine.Leads rest m m' n ∧ m'.agenda = .deliver h o :: (work ++ rest) := by
  obtain ⟨n, m', passed, returned⟩ := sound.acknowledges turn
  refine ⟨n + 1, m'.step, passed.trans (.step returned), ?_⟩
  obtain ⟨rfl, -⟩ := passed
  obtain ⟨y, found', home⟩ := sound.found_steps found n
  have closed' := sound.frozen_steps closed n
  rw [← home] at closed'
  rw [Machine.step_cons returned]
  simp [returned, Task.effect, Store.finish, Store.enrol_frozen found' closed', Effect.after]

/-- **Who subscribes to a sink that has ended hears its outcome before the call returns.** -/
theorem replays (sound : Sound m) {s : SinkRef} (closed : m.store.registry s = .frozen o)
    (made : .subscribing s h ∈ m.news) :
    ∃ within step rest a b, m.Replays h o within step rest a b := by
  obtain ⟨within, step, rest, work, closing, turn, due, unborn, x, found, home⟩ :=
    sound.summons made
  have frozen : m.step.store.registry x.sink = .frozen o := home ▸ sound.frozen_step closed
  replace due : m.step.agenda =
      .notify h .subscribed :: ((work ++ [.answer within step closing]) ++ rest) := by
    rw [due]
    simp
  obtain ⟨n, m', greeted, offer⟩ := sound.step.greeted_then_offered due found frozen
  have offered := (Machine.Leads.last turn).trans greeted
  -- the offer is over when the answer of the call is next
  have stack : m'.agenda =
      (.deliver h o :: work) ++ ([.answer within step closing] ++ rest) := by
    rw [offer]
    simp
  obtain ⟨k, m'', passed, answer⟩ := Machine.Leads.back (greeted.1 ▸ sound.step.steps n) stack
  obtain ⟨end_, busy⟩ := (offered.trans passed).trans (.last answer)
  have returns : m''.step.agenda = rest := by
    rw [Machine.step_cons answer]
    simp [answer, Task.effect]
  have answers : m''.step.history.getLast? =
      some (.answered within step (m''.store.conclude closing).2) := by
    rw [Machine.step_cons answer]
    simp [Task.effect]
  rw [← offered.1] at offer
  rw [← end_] at returns answers
  refine ⟨within, step, rest, 1 + n, 1 + n + k + 1, turn, busy, returns, ⟨_, answers⟩, by omega, ?_,
    ⟨_, (sound.steps _).attempt offer⟩, sound.offers_of offer, ?_⟩
  · obtain ⟨_, -, -, -, stands⟩ := (sound.steps _).turn_of offer (Task.deliver_concerns h o)
    exact stands.course.of_deliver.2.2
  · -- nothing was pending for the handle before it was made, and nothing is now
    have idle : (m.steps (1 + n + k + 1)).pending h = [] := by
      rw [Machine.pending, turn] at unborn
      rw [Machine.pending, returns]
      exact unborn
    obtain ⟨y, found', home'⟩ := sound.step.found_steps found (1 + n + k)
    rw [← Machine.steps_succ] at found'
    exact (sound.steps _).informed found' idle (home' ▸ home ▸ sound.frozen_steps closed _)

end Sound

/-! ## The result -/

/-- Behind its loop, a call lets go of what it held, and answers. -/
theorem Machine.winds_up {m : Machine α ε} {hs : List HandleRef} {s : SinkRef}
    {within : Option Nat} {step : Step α ε} {reply : Reply α ε} {rest : List (Task α ε)}
    (stack : m.agenda = .letGo hs :: .giveUp s :: .answer within step (.reply reply) :: rest) :
    (m.steps 3).agenda = rest ∧
      (m.steps 3).history.getLast? = some (.answered within step reply) := by
  have one : m.step.agenda = .giveUp s :: .answer within step (.reply reply) :: rest := by
    rw [step_cons stack]
    simp [stack, Task.effect]
  have two : m.step.step.agenda = .answer within step (.reply reply) :: rest := by
    rw [step_cons one]
    simp [one, Task.effect]
  show (m.steps (2 + 1)).agenda = rest ∧ _
  rw [steps_step, steps_step, steps_step, steps_zero, step_cons two]
  simp [two, Task.effect, Store.conclude]

/-- **The call that wins offers its outcome to all that wait, in order, and to nobody else.**

It finds the registry open.  The handles `hs` in it are those that were subscribed,
acknowledged and not cancelled, in the order in which their acknowledgments returned; so who
was subscribed inside the acknowledgment of another one comes before it.  The loop visits each
of them once, in this order, and comes to the next one when all that was started by the visit
is over; then the call answers `true`.  A visit reaches its consumer, or puts the value away for
want of demand, exactly if the handle was not cancelled before, whatever consumers have done
meanwhile.

A handle that is subscribed from then on is none of `hs`.  Before its call of `subscribe`
returns, it is acknowledged, is then offered the same outcome, once, and is informed of it. -/
theorem deliveries_in_order (script : List (Step α ε)) {i : Nat} {s : SinkRef} {o : Outcome α ε}
    (wins : .terminating s o true ∈ ((Machine.load script).steps i).news) :
    let run := fun n => (Machine.load script).steps n
    ∃ within step rest hs, (run i).Ends s o within step rest ∧
      (run i).store.registry s = .live hs ∧
      hs.Sublist (greeted (run i).history) ∧ (greeted (run i).history).Nodup ∧
      (∀ h, h ∈ hs ↔ .subscribing s h ∈ (run i).history ∧ h ∈ greeted (run i).history ∧
        .cancelling h ∉ (run i).history) ∧
      (∀ j < i, ∀ g h, .began h .subscribed ∈ (run j).history → h ∉ greeted (run j).history →
        .subscribing s g ∈ (run j).news → g ∈ hs → h ∈ hs → [g, h].Sublist hs) ∧
      (∃ moment : Nat → Nat, moment 0 = 0 ∧
        (run i).step.Visits o hs
          (.letGo hs :: .giveUp s :: .answer within step (.reply (.flag true)) :: rest) moment ∧
        ((run i).step.steps (moment hs.length + 3)).agenda = rest ∧
        ((run i).step.steps (moment hs.length + 3)).history.getLast? =
          some (.answered within step (.flag true))) ∧
      ∀ n > i, ∀ h, .subscribing s h ∈ (run n).news →
        h ∉ hs ∧ ∃ within' step' rest' a b, (run n).Replays h o within' step' rest' a b := by
  intro run
  have sound : ∀ n, Sound (run n) := Machine.steps_sound script
  have ranked : (run i).Ranked := Machine.ranked_steps script i
  obtain ⟨within, step, rest, hs, starts, open_, stack⟩ := (sound i).wins wins
  have order : hs.Sublist (greeted (run i).history) := by
    have order := ranked.order s
    rw [open_] at order
    exact order
  have members : ∀ h, h ∈ hs ↔ .subscribing s h ∈ (run i).history ∧
      h ∈ greeted (run i).history ∧ .cancelling h ∉ (run i).history := fun h =>
    (sound i).waiting_iff open_
  refine ⟨within, step, rest, hs, starts, open_, order, ranked.once, members, ?_, ?_, ?_⟩
  · intro j lt g h began unreturned made first second
    have returned := ((members h).1 second).2.1
    obtain ⟨d, rfl⟩ := Nat.exists_eq_add_of_le (Nat.le_of_lt lt)
    apply pair_sublist ranked.once order first second
    rw [show run (j + d) = (run j).steps d from Machine.steps_add ..] at returned ⊢
    exact (sound j).nested_first began unreturned made returned
  · obtain ⟨moment, start, visits⟩ := (sound i).step.visits stack
    have passed := visits.agenda hs.length (Nat.le_refl _)
    rw [List.drop_length] at passed
    obtain ⟨home, answered⟩ := Machine.winds_up passed
    rw [← Machine.steps_add] at home answered
    exact ⟨moment, start, visits, home, answered⟩
  · intro n gt h made
    have ended : .terminating s o true ∈ (run n).history := by
      apply ((Machine.load script).history_mono gt).subset
      rw [Machine.steps_step, Machine.history_step]
      exact List.mem_append_right _ wins
    refine ⟨?_, (sound n).replays ((sound n).ended_iff.1 ended) made⟩
    intro member
    have before : .subscribing s h ∈ (run n).history :=
      ((Machine.load script).history_mono (Nat.le_of_lt gt)).subset ((members h).1 member).1
    exact (sound n).fresh made before

/-- A consumer subscribes another one inside its acknowledgment, which then stands in front of
it.  When that one hears the value, it cancels the first and subscribes a third. -/
theorem deliveries_in_order_nested :
    let script : List (Step Nat Nat) :=
      [.newSink none,
        .subscribe 0
          [.request .own 1,
            .subscribe 0 [.request .own 1]
              [.cancel (.slot 0), .subscribe 0 [.request .own 1] [] [] []] [] []]
          [] [] [],
        .succeed 0 (some 7)]
    let run := fun n => (Machine.load script).steps n
    .terminating 0 (.value 7) true ∈ (run 20).news ∧ (run 20).store.registry 0 = .live [1, 0] ∧
      List.Sublist [1, 0] (greeted (run 20).history) ∧
      (∃ closing moment, moment 0 = 0 ∧ (run 20).step.Visits (.value 7) [1, 0] closing moment) ∧
      .subscribing 0 2 ∈ (run 26).news ∧
      ∃ within step rest a b, (run 26).Replays 2 (.value 7) within step rest a b := by
  intro script run
  have wins : .terminating 0 (.value 7) true ∈ (run 20).news := mem_attempts.1 (by decide +kernel)
  have open_ : (run 20).store.registry 0 = .live [1, 0] := by decide +kernel
  have made : .subscribing 0 2 ∈ (run 26).news := by
    have some_ : (run 26).news.any (fun event =>
        match event with | .subscribing 0 2 => true | _ => false) = true := by decide +kernel
    obtain ⟨event, member, subscribes⟩ := List.any_eq_true.1 some_
    split at subscribes
    · exact member
    · cases subscribes
  obtain ⟨within, step, rest, hs, -, live, order, -, -, -, ⟨moment, start, visits, -⟩, later⟩ :=
    deliveries_in_order script wins
  obtain rfl : hs = [1, 0] := Registry.live.inj (live.symm.trans open_)
  exact ⟨wins, open_, order, ⟨_, moment, start, visits⟩, made, (later 26 (by decide) 2 made).2⟩

end OneShot
