/-
# OneShot.Proofs.Cancellation -- a cancelled handle hears nothing more

Three facts about one step each are put together in `cancellation_is_final`.

* A callback begins only when its task is done (`Task.effect_begun`), and the task is never
  there for a handle that was cancelled: its course has no place for it.
* What a cancelled handle remembers goes with the cancellation: the phase stays
  `cancelled`, and no value is kept.
* `request` and `cancel` on a cancelled handle leave the store alone (`Effect.Spares`), also
  as steps of a script (`Store.perform_cancelled`).
-/
import OneShot.Proofs.Termination

namespace OneShot

set_option autoImplicit false

variable {α ε : Type}

/-! ## No callback begins -/

/-- A callback of this handle begins. -/
def Event.begins (h : HandleRef) : Event α ε → Bool
  | began h' _ => h' == h
  | _ => false

theorem Event.begins_of_isTurn {event : Event α ε} (mute : event.isTurn = false) (h : HandleRef) :
    event.begins h = false := by
  cases event <;> simp_all [isTurn, begins]

/-- The callbacks of a handle that have begun. -/
def begun (h : HandleRef) (history : List (Event α ε)) : List (Event α ε) :=
  history.filter (Event.begins h)

theorem begun_append {h : HandleRef} (before : List (Event α ε)) {after : List (Event α ε)}
    (none_ : ∀ event ∈ after, event.begins h = false) : begun h (before ++ after) = begun h before := by
  have silent : begun h after = [] := List.filter_eq_nil_iff.2 fun event member => by
    simp [none_ event member]
  rw [begun, List.filter_append, ← begun, ← begun, silent, List.append_nil]

/-- Only its own task begins a callback of a handle. -/
theorem Task.effect_begun (st : Store α ε) (rest : List (Task α ε)) {t : Task α ε} {h : HandleRef}
    (other : ∀ signal, t ≠ .notify h signal) :
    ∀ event ∈ (t.effect st rest).events, event.begins h = false := by
  have turned : ∀ {first : Event α ε} {e : Effect α ε}, st.Turned first e →
      first.begins h = false → ∀ event ∈ e.events, event.begins h = false := fun turned own =>
    turned.each own fun event aside => Event.begins_of_isTurn (Event.isTurn_of_isAside aside) h
  cases t with
  | perform within step =>
      have mute := (st.perform_deed rest within step).mute
      exact List.forall_mem_cons.2
        ⟨rfl, fun event member => Event.begins_of_isTurn (mute event member) h⟩
  | answer within step closing => exact List.forall_mem_singleton.2 rfl
  | notify g signal =>
      have ne : g ≠ h := by
        rintro rfl
        exact other signal rfl
      cases found : st.handles[g]? with
      | none => simp [effect, Store.notify, found, Effect.quiet]
      | some x =>
          have deed := st.react_deed x.consumer g signal
          rw [effect, Store.notify_eq found]
          refine List.forall_mem_cons.2 ⟨by simp [Event.begins, ne], ?_⟩
          intro event member
          exact Event.begins_of_isTurn (deed.mute event member) h
  | finish g signal => exact turned (st.finish_turned g signal) rfl
  | deliver g o => exact turned (st.deliver_turned g o) rfl
  | letGo hs => exact (st.letGo_forgets rest hs).each fun _ => rfl
  | giveUp s => exact (st.giveUp_forgets rest s).each fun _ => rfl
  | hangUp c => exact List.forall_mem_nil _

theorem Machine.begun_step {m : Machine α ε} {t : Task α ε} {rest : List (Task α ε)}
    (turn : m.agenda = t :: rest) {h : HandleRef} (other : ∀ signal, t ≠ .notify h signal) :
    begun h m.step.history = begun h m.history := by
  rw [Machine.step_cons turn, Machine.undergo_history, Machine.behind_history]
  exact begun_append _ (Task.effect_begun m.store rest other)

namespace Sound

variable {m : Machine α ε} {h : HandleRef}

/-- The callbacks of a cancelled handle are over. -/
theorem begun_step (sound : Sound m) (gone : .cancelling h ∈ m.history) :
    begun h m.step.history = begun h m.history := by
  cases turn : m.agenda with
  | nil => rw [Machine.step_nil turn]
  | cons t rest =>
      apply Machine.begun_step turn
      rintro signal rfl
      obtain ⟨x, -, -, -, stands⟩ := sound.turn_of turn (Task.notify_concerns h signal)
      have kept := stands.course.begins.1
      rw [Ledger.renounced_iff.2 gone] at kept
      cases kept

theorem begun_steps (sound : Sound m) (gone : .cancelling h ∈ m.history) (k : Nat) :
    begun h (m.steps k).history = begun h m.history := by
  induction k with
  | zero => rfl
  | succ k ih =>
      rw [Machine.steps_step, ← ih]
      exact (sound.steps k).begun_step ((Machine.history_prefix_steps m k).subset gone)

/-- What a cancelled handle remembers. -/
theorem of_cancelled (sound : Sound m) (gone : .cancelling h ∈ m.history) :
    ∃ x, m.store.handles[h]? = some x ∧ x.phase = .cancelled ∧ x.parked = none ∧
      x.keepAlive = false := by
  have renounced := Ledger.renounced_iff.2 gone
  cases found : m.store.handles[h]? with
  | none =>
      rw [(sound.unborn h found).2] at renounced
      cases renounced
  | some x =>
      have stands := sound.standing h x (by simp) found
      have phase := stands.renounced_iff.1 renounced
      obtain ⟨parked, keepAlive⟩ := stands.unparked (by simp [phase])
      exact ⟨x, rfl, phase, parked, keepAlive⟩

end Sound

/-! ## Calls on a handle -/

namespace Store

/-- The handle that a step cancels: through a subscription, or through the receiver that it
is attached to. -/
def cancels? (st : Store α ε) (within : Option Nat) : Step α ε → Option HandleRef
  | .cancel sub => st.sub? within sub
  | .receiverCancel receiver => (st.receiver? receiver).bind Receiver.subscription
  | _ => none

/-- The handle that a step asks on, or cancels. -/
def reaches? (st : Store α ε) (within : Option Nat) : Step α ε → Option HandleRef
  | .request sub _ => st.sub? within sub
  | step => st.cancels? within step

variable {st : Store α ε} {h : HandleRef} {x : Handle α ε} {within : Option Nat} {step : Step α ε}

theorem perform_cancel (cancels : st.cancels? within step = some h) (agenda : List (Task α ε)) :
    st.perform agenda within step = (st.cancel h, .reply .done) := by
  cases step with
  | cancel sub =>
      rw [cancels?] at cancels
      simp [perform, cancels, with?]
  | receiverCancel receiver =>
      obtain ⟨r, found, attached⟩ := Option.bind_eq_some_iff.1 cancels
      simp [perform, found, attached, with?]
  | _ => cases cancels

/-- A step that reaches a handle asks on it or cancels it, and its reply is known at once. -/
theorem perform_reaches (reaches : st.reaches? within step = some h) (agenda : List (Task α ε)) :
    ∃ e, st.perform agenda within step = (e, .reply .done) ∧
      ((st.cancels? within step = none ∧ ∃ n, e = st.request h n) ∨
        (st.cancels? within step = some h ∧ e = st.cancel h)) := by
  have cancels : st.cancels? within step = some h →
      ∃ e, st.perform agenda within step = (e, .reply .done) ∧
        ((st.cancels? within step = none ∧ ∃ n, e = st.request h n) ∨
          (st.cancels? within step = some h ∧ e = st.cancel h)) := fun cancels =>
    ⟨_, perform_cancel cancels agenda, .inr ⟨cancels, rfl⟩⟩
  cases step with
  | request sub n =>
      rw [reaches?] at reaches
      refine ⟨st.request h n, ?_, .inl ⟨rfl, n, rfl⟩⟩
      simp [perform, reaches, with?]
  | _ => exact cancels reaches

/-- A cancellation that finds its handle alive is told, and lets go of the handle. -/
theorem cancel_alive (alive : st.alive h = true) :
    .cancelling h ∈ (st.cancel h).events ∧ (st.cancel h).tasks = [.letGo [h]] := by
  have cancels := st.cancel_cancels h
  generalize st.cancel h = e at cancels ⊢
  cases cancels with
  | missed gone =>
      rw [alive] at gone
      cases gone
  | again | first => exact ⟨List.mem_cons_self, rfl⟩

end Store

/-- The effect leaves the store as it is, and at most lets go of the handle; no callback begins
or ends. -/
structure Effect.Spares (e : Effect α ε) (st : Store α ε) (h : HandleRef) : Prop where
  store : e.store = st
  tasks : e.tasks = [] ∨ e.tasks = [.letGo [h]]
  events : ∀ event ∈ e.events, event.isTurn = false

namespace Store

variable {st : Store α ε} {h : HandleRef} {x : Handle α ε} {within : Option Nat} {step : Step α ε}

theorem request_cancelled (found : st.handles[h]? = some x) (gone : x.phase = .cancelled)
    (n : UInt64) : (st.request h n).Spares st h := by
  have told := st.request_told h n
  have asks := st.request_asks h n
  generalize st.request h n = e at told asks ⊢
  have mute := fun event member => (told event member).2
  cases asks with
  | missed => exact ⟨rfl, .inl rfl, mute⟩
  | refused | again => exact ⟨rfl, .inr rfl, mute⟩
  | first found' _ _ on | served found' _ _ on | spoilt found' _ _ on | empty found' _ _ on =>
      obtain rfl : x = _ := Option.some.inj (found.symm.trans found')
      rw [gone] at on
      cases on

theorem cancel_cancelled (found : st.handles[h]? = some x) (gone : x.phase = .cancelled) :
    (st.cancel h).Spares st h := by
  have told := st.cancel_told h
  have cancels := st.cancel_cancels h
  generalize st.cancel h = e at told cancels ⊢
  have mute := fun event member => (told event member).2
  cases cancels with
  | missed => exact ⟨rfl, .inl rfl, mute⟩
  | again => exact ⟨rfl, .inr rfl, mute⟩
  | first found' _ kept =>
      obtain rfl : x = _ := Option.some.inj (found.symm.trans found')
      exact absurd gone kept

/-- The steps that ask on a cancelled handle, or cancel it again, spare the store. -/
theorem perform_cancelled (reaches : st.reaches? within step = some h)
    (found : st.handles[h]? = some x) (gone : x.phase = .cancelled) (agenda : List (Task α ε)) :
    ∃ e reply, st.perform agenda within step = (e, .reply reply) ∧ e.Spares st h := by
  obtain ⟨e, performs, ⟨_, n, rfl⟩ | ⟨_, rfl⟩⟩ := perform_reaches reaches agenda
  · exact ⟨_, _, performs, request_cancelled found gone n⟩
  · exact ⟨_, _, performs, cancel_cancelled found gone⟩

end Store

namespace Machine

variable {m : Machine α ε} {within : Option Nat} {step : Step α ε} {rest : List (Task α ε)}
  {h : HandleRef} {e : Effect α ε} {reply : Reply α ε}

/-- Letting go of a handle changes nothing but the mark of its release. -/
theorem letGo_one (st : Store α ε) (agenda : List (Task α ε)) (h : HandleRef) :
    (st.letGo agenda [h]).1 = st ∨
      (st.letGo agenda [h]).1 = st.modifyHandle h fun x => { x with released := true } := by
  simp only [Store.letGo, Store.release]
  split
  · exact .inr rfl
  · exact .inl rfl

section Answer

variable (turn : m.agenda = .perform within step :: rest)
  (performed : m.store.perform rest within step = (e, .reply reply))
include turn performed

theorem steps_of_none (none_ : e.tasks = []) :
    m.steps 2 = ⟨e.store, rest,
      .answered within step reply :: (e.events.reverse ++ .performed within step :: m.past)⟩ := by
  rw [steps_step 1, steps_succ, steps_zero, step_perform turn performed, none_]
  rfl

theorem steps_of_one (one : e.tasks = [.letGo [h]]) {left : Store α ε × List (Event α ε)}
    (lets : e.store.letGo (.answer within step (.reply reply) :: rest) [h] = left) :
    m.steps 2 = ⟨left.1, .answer within step (.reply reply) :: rest,
        left.2.reverse ++ (e.events.reverse ++ .performed within step :: m.past)⟩ ∧
      m.steps 3 = ⟨left.1, rest, .answered within step reply ::
        (left.2.reverse ++ (e.events.reverse ++ .performed within step :: m.past))⟩ := by
  have two : m.steps 2 = ⟨left.1, .answer within step (.reply reply) :: rest,
      left.2.reverse ++ (e.events.reverse ++ .performed within step :: m.past)⟩ := by
    rw [steps_step 1, steps_succ, steps_zero, step_perform turn performed, one, ← lets]
    rfl
  refine ⟨two, ?_⟩
  rw [steps_step 2, two]
  rfl

/-- A call that leaves at most its handle to be let go is soon answered. -/
theorem steps_of_letGo (few : e.tasks = [] ∨ e.tasks = [.letGo [h]]) :
    ∃ j ≤ 3, (m.steps j).agenda = rest ∧ (∀ i < j, (m.steps i).Busy rest) ∧
      ((m.steps j).store = e.store ∨
        (m.steps j).store = e.store.modifyHandle h fun x => { x with released := true }) ∧
      ∃ dropped : List (Event α ε), (∀ event ∈ dropped, ∃ g, event = .dropped g) ∧
        (m.steps j).history = m.history ++ .performed within step :: e.events ++ dropped ++
          [.answered within step reply] := by
  have first : (m.steps 0).Busy rest := ⟨[_], by simp, turn⟩
  have second : (m.steps 1).Busy rest := by
    refine ⟨e.tasks ++ [.answer within step (.reply reply)], by simp, ?_⟩
    rw [steps_succ, steps_zero, step_perform turn performed]
    simp
  rcases few with none_ | one
  · have two := steps_of_none turn performed none_
    refine ⟨2, by omega, by rw [two], ?_, .inl (by rw [two]), [], by simp, ?_⟩
    · intro i lt
      have early : i = 0 ∨ i = 1 := by omega
      rcases early with rfl | rfl
      · exact first
      · exact second
    · rw [two]
      simp [history]
  · have lets := letGo_one e.store (.answer within step (.reply reply) :: rest) h
    have forgets := e.store.letGo_forgets (.answer within step (.reply reply) :: rest) [h]
    generalize gone : e.store.letGo (.answer within step (.reply reply) :: rest) [h] = left
      at lets forgets
    obtain ⟨two, three⟩ := steps_of_one turn performed one gone
    refine ⟨3, by omega, by rw [three], ?_, by rw [three]; exact lets, left.2,
      forgets.events, ?_⟩
    · intro i lt
      have early : i = 0 ∨ i = 1 ∨ i = 2 := by omega
      rcases early with rfl | rfl | rfl
      · exact first
      · exact second
      · exact ⟨[_], by simp, by rw [two]; rfl⟩
    · rw [three]
      simp [history]

end Answer

end Machine

/-- **Cancellation is final.**

A step is about to cancel a handle that is alive.  The call returns, and from the moment on
at which it is made, no callback of the handle begins; the handle is cancelled, holds no
value and does not keep itself alive; and any later `request` or `cancel` that reaches it
begins no callback at all and changes nothing in the store, except that the handle may be
released.  That holds of the steps of a script, and of what a consumer of the library asks for
by itself. -/
theorem cancellation_is_final {script : List (Step α ε)} {n : Nat} {m : Machine α ε}
    (run : (Machine.load script).steps n = m) {within : Option Nat} {step : Step α ε}
    {rest : List (Task α ε)} (turn : m.agenda = .perform within step :: rest) {h : HandleRef}
    (cancels : m.store.cancels? within step = some h) (alive : m.store.alive h = true) :
    (∃ j ≤ 3, (m.steps j).agenda = rest ∧ ∀ i < j, (m.steps i).Busy rest) ∧
      ∀ k,
        let after := m.steps (k + 1)
        begun h after.history = begun h m.history ∧
          (∃ x, after.store.handles[h]? = some x ∧ x.phase = .cancelled ∧ x.parked = none ∧
            x.keepAlive = false) ∧
          (after.store.cancel h).Spares after.store h ∧
          (∀ n, (after.store.request h n).Spares after.store h) ∧
          ∀ within' step' rest', after.agenda = .perform within' step' :: rest' →
            after.store.reaches? within' step' = some h →
            ∃ j ≤ 3, (after.steps j).agenda = rest' ∧ (∀ i < j, (after.steps i).Busy rest') ∧
              ((after.steps j).store = after.store ∨ (after.steps j).store =
                after.store.modifyHandle h fun x => { x with released := true }) ∧
              ∃ told, (after.steps j).history = after.history ++ told ∧
                ∀ g, ∀ event ∈ told, event.begins g = false := by
  have sound : Sound m := run ▸ Machine.steps_sound script n
  have performed := Store.perform_cancel cancels rest
  obtain ⟨told, lets⟩ := m.store.cancel_alive alive
  have gone : .cancelling h ∈ m.step.history := by
    rw [Machine.step_cons turn, Machine.undergo_history]
    apply List.mem_append_right
    simp [Task.effect, performed, Effect.followedBy, Effect.after, told]
  constructor
  · obtain ⟨j, le, back, busy, -⟩ := Machine.steps_of_letGo turn performed (.inr lets)
    exact ⟨j, le, back, busy⟩
  · intro k after
    have later : after = m.step.steps k := Machine.steps_succ k m
    have sound' : Sound after := sound.steps (k + 1)
    have gone' : .cancelling h ∈ after.history := by
      rw [later]
      exact (Machine.history_prefix_steps m.step k).subset gone
    obtain ⟨x, found, phase, parked, keepAlive⟩ := sound'.of_cancelled gone'
    refine ⟨?_, ⟨x, found, phase, parked, keepAlive⟩, Store.cancel_cancelled found phase,
      Store.request_cancelled found phase, ?_⟩
    · rw [later, sound.step.begun_steps gone k]
      exact Machine.begun_step turn fun signal => by simp
    · intro within' step' rest' turn' reaches
      obtain ⟨e, reply, performed', spares⟩ := Store.perform_cancelled reaches found phase rest'
      obtain ⟨j, le, back, busy, store, dropped, gives, history⟩ :=
        Machine.steps_of_letGo turn' performed' spares.tasks
      rw [spares.store] at store
      refine ⟨j, le, back, busy, store, .performed within' step' :: e.events ++ dropped ++
        [.answered within' step' reply], by rw [history]; simp, ?_⟩
      intro g event member
      simp only [List.mem_append, List.mem_cons, List.not_mem_nil, or_false] at member
      rcases member with ((rfl | said) | dropped') | rfl
      · rfl
      · exact Event.begins_of_isTurn (spares.events event said) g
      · obtain ⟨_, rfl⟩ := gives event dropped'
        rfl
      · rfl

/-- A consumer that cancels inside `next` is never told of the completion. -/
theorem cancellation_is_final_in_next :
    let script : List (Step Nat Nat) :=
      [.newSink none, .subscribe 0 [.request .own 1] [.cancel .own] [] [], .succeed 0 (some 7)]
    let m := (Machine.load script).steps 14
    (∃ within step rest, m.agenda = .perform within step :: rest ∧
        m.store.cancels? within step = some 0) ∧
      m.store.alive 0 = true ∧
      ∀ k, begun 0 (m.steps (k + 1)).history = begun 0 m.history := by
  intro script m
  have run : (Machine.load script).steps 14 = m := rfl
  have target : (m.inHand.bind fun p => m.store.cancels? p.1 p.2) = some 0 := by decide +kernel
  obtain ⟨⟨within, step⟩, hand, cancels⟩ := Option.bind_eq_some_iff.1 target
  obtain ⟨rest, turn⟩ := Machine.inHand_eq_some.1 hand
  have alive : m.store.alive 0 = true := by decide +kernel
  exact ⟨⟨within, step, rest, turn, cancels⟩, alive, fun k =>
    ((cancellation_is_final run turn cancels alive).2 k).1⟩

end OneShot
