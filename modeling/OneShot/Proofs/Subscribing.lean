/-
# OneShot.Proofs.Subscribing -- from the call of `subscribe` to the acknowledgment

Only a step of a script subscribes (`Machine.subscribes`), and what it makes is the next
handle (`Deed.subscribes`).  The step is answered behind the acknowledgment of that handle
(`Sound.summons`), and the acknowledgment comes to its end behind all that it has started
(`Sound.acknowledges`).

`Machine.Leads` says of a piece of a run that it has not come back to what stands behind
it; pieces are put together by `Leads.trans`.
-/
import OneShot.Proofs.Termination
import OneShot.Proofs.Outlets.Errand

namespace OneShot

set_option autoImplicit false

variable {α ε : Type}

/-! ## Pieces of runs -/

namespace Machine

/-- After `n` steps `m` is `m'`, and has not come to `rest` before that. -/
def Leads (rest : List (Task α ε)) (m m' : Machine α ε) (n : Nat) : Prop :=
  m.steps n = m' ∧ ∀ i < n, (m.steps i).Busy rest

namespace Leads

variable {m m' m'' : Machine α ε} {rest : List (Task α ε)} {n k : Nat}

theorem trans (first : Leads rest m m' n) (second : Leads rest m' m'' k) :
    Leads rest m m'' (n + k) := by
  obtain ⟨rfl, busy⟩ := first
  obtain ⟨rfl, later⟩ := second
  refine ⟨steps_add n k m, ?_⟩
  intro i lt
  rcases Nat.lt_or_ge i n with early | late
  · exact busy i early
  · obtain ⟨d, rfl⟩ := Nat.exists_eq_add_of_le late
    rw [steps_add]
    exact later d (Nat.lt_of_add_lt_add_left lt)

theorem step {t : Task α ε} {work : List (Task α ε)} (turn : m.agenda = t :: (work ++ rest)) :
    Leads rest m m.step 1 := by
  refine ⟨steps_step 0 m, ?_⟩
  intro i lt
  obtain rfl : i = 0 := by omega
  exact ⟨t :: work, by simp, turn⟩

theorem last {t : Task α ε} (turn : m.agenda = t :: rest) : Leads rest m m.step 1 := by
  have alone : m.agenda = t :: ([] ++ rest) := turn
  exact .step alone

theorem back (sound : Sound m) {tasks work : List (Task α ε)}
    (stack : m.agenda = tasks ++ (work ++ rest)) :
    ∃ n m', Leads rest m m' n ∧ m'.agenda = work ++ rest := by
  obtain ⟨n, passed, busy⟩ := steps_return sound stack
  refine ⟨n, _, ⟨rfl, ?_⟩, passed⟩
  intro i lt
  obtain ⟨front, some_, agenda⟩ := busy i lt
  exact ⟨front ++ work, by simp [some_], by rw [agenda, List.append_assoc]⟩

end Leads

end Machine

namespace Sound

variable {m : Machine α ε} {h : HandleRef} {o : Outcome α ε}

/-- A sink that has ended stays so. -/
theorem frozen_step (sound : Sound m) {s : SinkRef} (frozen : m.store.registry s = .frozen o) :
    m.step.store.registry s = .frozen o :=
  sound.step.ended_iff.1 (m.history_prefix_step.subset (sound.ended_iff.2 frozen))

theorem frozen_steps (sound : Sound m) {s : SinkRef} (frozen : m.store.registry s = .frozen o)
    (n : Nat) : (m.steps n).store.registry s = .frozen o := by
  induction n with
  | zero => exact frozen
  | succ n ih =>
      rw [Machine.steps_step]
      exact (sound.steps n).frozen_step ih

/-- A handle belongs to its sink for good. -/
theorem found_steps (sound : Sound m) {x : Handle α ε} (found : m.store.handles[h]? = some x)
    (n : Nat) : ∃ y, (m.steps n).store.handles[h]? = some y ∧ y.sink = x.sink := by
  have made : .subscribing x.sink h ∈ m.history := (sound.made _ _).2 (by rw [found]; rfl)
  exact Option.map_eq_some_iff.1
    (((sound.steps n).made _ _).1 ((Machine.history_prefix_steps m n).subset made))

end Sound

/-! ## Who subscribes -/

namespace Store

/-- What a consumer does with a signal bears on no handle but its own. -/
theorem react_own (st : Store α ε) (consumer : Consumer α ε) (h : HandleRef)
    (signal : Signal α ε) :
    ∀ event ∈ (st.react consumer h signal).events, event.isOf h = true := by
  have asides : ∀ {events : List (Event α ε)}, (∀ event ∈ events, event.isAside = true) →
      ∀ event ∈ events, event.isOf h = true := fun aside event member =>
    Event.isOf_of_isAside (aside event member) h
  have asked : ∀ (st : Store α ε) n, ∀ event ∈ (st.request h n).events, event.isOf h = true :=
    fun st n event member => (st.request_told h n event member).1
  have reacts := st.react_reacts consumer h signal
  generalize st.react consumer h signal = e at reacts ⊢
  cases reacts with
  | greeting | running | valued | completed => exact List.forall_mem_nil _
  | asking | askingOnce => exact asked st _
  | unheard => exact List.forall_mem_singleton.2 rfl
  | sending c => exact asides (st.forward_aside c signal)
  | sendingAsking c n =>
      exact List.forall_mem_append.2 ⟨asides (st.forward_aside c _), asked _ n⟩
  | closing g => exact asides (st.close_aside g)

end Store

/-- The step subscribes to this sink: it names it, and what is to be attached there exists. -/
def Step.Subscribes (step : Step α ε) (st : Store α ε) (s : SinkRef) : Prop :=
  match step with
  | subscribe k _ _ _ _ | subscribeFn k _ | subscribeChannel k _ | gate k => st.sink? k = some s
  | attachChannel k j => st.sink? k = some s ∧ ∃ c, st.channel? j = some c
  | attachGate k j => st.sink? k = some s ∧ ∃ g, st.gate? j = some g
  | _ => False

/-- The step in hand subscribes the next handle. -/
structure Machine.Subscribes (m : Machine α ε) (s : SinkRef) (h : HandleRef)
    (within : Option Nat) (step : Step α ε) (rest : List (Task α ε)) : Prop where
  turn : m.agenda = .perform within step :: rest
  subscribes : step.Subscribes m.store s
  next : m.store.handles.length = h

namespace Store

variable {st : Store α ε} {step : Step α ε} {s : SinkRef}

theorem Readies.subscribes {st' : Store α ε} {k : Nat} {consumer : Consumer α ε}
    {closing : Closing α ε} (readies : st.Readies k step st' consumer closing)
    (found : st.sink? k = some s) : step.Subscribes st s := by
  cases readies with
  | attachChannel taken | attachGate taken => exact ⟨found, _, taken⟩
  | _ => exact found

/-- **A step subscribes to the sink that it says**, the next handle, and to no other. -/
theorem perform_subscribing (rest : List (Task α ε)) (within : Option Nat) {h : HandleRef} :
    .subscribing s h ∈ (st.perform rest within step).1.events ↔
      step.Subscribes st s ∧ st.handles.length = h := by
  constructor
  · have performs := st.perform_performs rest within step
    generalize st.perform rest within step = performed at performs ⊢
    intro made
    cases performs with
    | subscribing found readies =>
        obtain ⟨rfl, rfl⟩ : s = _ ∧ h = _ := by simpa [subscribe] using made
        exact ⟨readies.subscribes found, congrArg List.length readies.beside.handles.symm⟩
    | @ending step k t o ends found =>
        have ends := st.terminate_ends t o
        generalize st.terminate t o = called at ends made
        cases ends with
        | missed => cases made
        | won | lost => simp at made
    | requesting found n =>
        exact absurd rfl (Event.ne_subscribing_of_isOf (request_told _ _ n _ made).1 s h)
    | cancelling | cancellingAttached =>
        exact absurd rfl (Event.ne_subscribing_of_isOf (cancel_told _ _ _ made).1 s h)
    | signalling found call g signal | signallingGate found call g signal =>
        exact absurd rfl (Event.ne_subscribing_of_isOf
          (st.react_own _ g signal _ ((List.mem_cons.1 made).resolve_left (by simp))) s h)
    | taking => simp at made
    | _ => cases made
  · rintro ⟨subscribes, rfl⟩
    cases step with
    | subscribe | subscribeFn | subscribeChannel | gate =>
        simp [perform, with?, show st.sink? _ = some s from subscribes, subscribe, addSub,
          modifySlots, newChannel, newGate]
    | attachChannel | attachGate =>
        obtain ⟨found, _, taken⟩ := subscribes
        simp [perform, with?, found, taken, subscribe, modifySlots]
    | _ => cases subscribes

end Store

/-- A deed that subscribes makes the next handle, and acknowledges it first of all. -/
theorem Deed.subscribes {st : Store α ε} {may : SinkRef → Prop} {e : Effect α ε}
    (deed : Deed st may e) {s : SinkRef} {h : HandleRef} (made : .subscribing s h ∈ e.events) :
    h = st.handles.length ∧ ∃ more, e.tasks = .notify h .subscribed :: more := by
  induction deed with
  | aside _ _ _ events _ => exact absurd (events _ made) (by simp [Event.isAside])
  | founding => cases made
  | subscribing beside named consumer =>
      obtain ⟨rfl, rfl⟩ : s = _ ∧ h = _ := by simpa [Store.subscribe] using made
      exact ⟨congrArg List.length beside.handles, _, rfl⟩
  | @ending t named allowed o =>
      have ends := st.terminate_ends t o
      generalize st.terminate t o = called at ends made
      cases ends with
      | missed => cases made
      | won | lost => simp at made
  | requesting beside g n =>
      exact absurd rfl (Event.ne_subscribing_of_isOf (Store.request_told _ g n _ made).1 s h)
  | cancelling g =>
      exact absurd rfl (Event.ne_subscribing_of_isOf (Store.cancel_told _ g _ made).1 s h)
  | after aside deed ih =>
      rcases List.mem_append.1 made with new | old
      · exact absurd (aside _ new) (by simp [Event.isAside])
      · exact ih old
  | followedBy aside mute deed ih =>
      obtain ⟨last, more, tasks⟩ := ih made
      exact ⟨last, more ++ _, by rw [Effect.followedBy, tasks]; rfl⟩

namespace Machine

variable {m : Machine α ε} {s : SinkRef} {h : HandleRef}

/-- Only a step of a script subscribes. -/
theorem subscribes (made : .subscribing s h ∈ m.news) :
    ∃ within step rest, m.agenda = .perform within step :: rest ∧
      .subscribing s h ∈ (m.store.perform rest within step).1.events := by
  have none_ : ∀ {g : HandleRef} {events : List (Event α ε)},
      (∀ event ∈ events, event.isOf g = true) → .subscribing s h ∉ events := fun own member =>
    Event.ne_subscribing_of_isOf (own _ member) s h rfl
  have turned : ∀ {g : HandleRef} {first : Event α ε} {e : Effect α ε}, m.store.Turned first e →
      first.isOf g = true → .subscribing s h ∉ e.events := fun turned own =>
    none_ (turned.each own fun event aside => Event.isOf_of_isAside aside _)
  have forgets : ∀ {left : Store α ε × List (Event α ε)}, m.store.Forgets left →
      .subscribing s h ∉ left.2 := fun forgets =>
    none_ (g := h) (forgets.each fun _ => rfl)
  cases turn : m.agenda with
  | nil =>
      rw [news_nil turn] at made
      cases made
  | cons t rest =>
      rw [news_cons turn] at made
      cases t with
      | perform within step =>
          exact ⟨within, step, rest, rfl, (List.mem_cons.1 made).resolve_left (by simp)⟩
      | answer within step closing => simp [Task.effect] at made
      | notify g signal =>
          cases found : m.store.handles[g]? with
          | none =>
              rw [Task.effect, Store.notify, found] at made
              cases made
          | some x =>
              rw [Task.effect, Store.notify_eq found] at made
              exact absurd ((List.mem_cons.1 made).resolve_left (by simp))
                (none_ (m.store.react_own x.consumer g signal))
      | finish g signal =>
          exact absurd made
            (turned (m.store.finish_turned g signal) (g := g) (by simp [Event.isOf]))
      | deliver g o =>
          exact absurd made (turned (m.store.deliver_turned g o) (g := g) (by simp [Event.isOf]))
      | letGo hs => exact absurd made (forgets (m.store.letGo_forgets rest hs))
      | giveUp t => exact absurd made (forgets (m.store.giveUp_forgets rest t))
      | hangUp c => cases made

/-- What is new is that a handle is subscribed, exactly when a step in hand subscribes it. -/
theorem subscribing_iff :
    .subscribing s h ∈ m.news ↔ ∃ within step rest, m.Subscribes s h within step rest := by
  constructor
  · intro made
    obtain ⟨within, step, rest, turn, told⟩ := subscribes made
    obtain ⟨subscribes, next⟩ := (Store.perform_subscribing rest within).1 told
    exact ⟨within, step, rest, turn, subscribes, next⟩
  · rintro ⟨within, step, rest, turn, subscribes, next⟩
    rw [news_cons turn]
    exact List.mem_cons_of_mem _ ((Store.perform_subscribing rest within).2 ⟨subscribes, next⟩)

end Machine

/-! ## The call -/

namespace Sound

variable {m : Machine α ε} {s : SinkRef} {h : HandleRef}

/-- A handle is subscribed once. -/
theorem fresh (sound : Sound m) (made : .subscribing s h ∈ m.news) :
    .subscribing s h ∉ m.history := by
  obtain ⟨within, step, rest, -, told⟩ := Machine.subscribes made
  obtain ⟨last, -⟩ := (m.store.perform_deed rest within step).subscribes told
  rw [sound.made, last, List.getElem?_eq_none (Nat.le_refl _)]
  simp

/-- The step that subscribes a handle goes on with its acknowledgment, and is answered behind
that. -/
theorem summons (sound : Sound m) (made : .subscribing s h ∈ m.news) :
    ∃ within step rest work closing, m.agenda = .perform within step :: rest ∧
      m.step.agenda = .notify h .subscribed :: (work ++ .answer within step closing :: rest) ∧
      m.pending h = [] ∧ ∃ x, m.step.store.handles[h]? = some x ∧ x.sink = s := by
  obtain ⟨within, step, rest, turn, told⟩ := Machine.subscribes made
  have deed := m.store.perform_deed rest within step
  obtain ⟨⟨e, closing⟩, performed⟩ : ∃ p, m.store.perform rest within step = p := ⟨_, rfl⟩
  rw [performed] at told deed
  obtain ⟨last, work, tasks⟩ := deed.subscribes told
  refine ⟨within, step, rest, work, closing, turn, ?_, ?_, ?_⟩
  · rw [Machine.step_perform turn performed]
    show e.tasks ++ _ = _
    rw [tasks]
    rfl
  · exact (sound.unborn h (by rw [last]; exact List.getElem?_eq_none (Nat.le_refl _))).1
  · apply Option.map_eq_some_iff.1
    rw [← sound.step.made, Machine.history_step]
    exact List.mem_append_right _ made

/-- An acknowledgment ends, when all that it has started is over. -/
theorem acknowledges (sound : Sound m) {work rest : List (Task α ε)}
    (turn : m.agenda = .notify h .subscribed :: (work ++ rest)) :
    ∃ n m', Machine.Leads rest m m' n ∧ m'.agenda = .finish h .subscribed :: (work ++ rest) := by
  obtain ⟨x, found, -⟩ := sound.turn_of turn (Task.notify_concerns h .subscribed)
  have called : m.step.agenda = (m.store.react x.consumer h .subscribed).tasks ++
      (.finish h .subscribed :: work ++ rest) := by
    rw [Machine.step_cons turn]
    simp [turn, Task.effect, Store.notify_eq found, Effect.followedBy, Effect.after]
  obtain ⟨n, m', passed, returned⟩ := Machine.Leads.back sound.step called
  exact ⟨1 + n, m', (Machine.Leads.step turn).trans passed, returned⟩

end Sound

end OneShot
