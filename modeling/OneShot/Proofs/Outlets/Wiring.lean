/-
# OneShot.Proofs.Outlets.Wiring -- who refers to handles, channels and gates

Slots refer to handles, channels and gates; consumers refer to the outlets that they are; and
a reply that is still to be given refers to what it will make a slot for.  `Machine.Cites`
gathers these places.  A step adds to them what it has just made, and an acknowledgment the
handle of a script; it adds nothing else (`Machine.cites_step`).

So what is referred to exists, in every run (`Wired`).  And what is made without a slot and
without a script, as the subscription of `gate` is, is never referred to at all.
-/
import Mathlib.Data.List.Basic
import OneShot.Proofs.Outlets.Errand
import OneShot.Proofs.Termination

namespace OneShot

set_option autoImplicit false

variable {α ε : Type}

/-! ## References -/

/-- What slots, consumers and replies refer to. -/
inductive Ref
  | sub (h : HandleRef)
  | outlet (target : DirectTarget)
  deriving DecidableEq, Repr

namespace Store

/-- It has been made. -/
def Has (st : Store α ε) : Ref → Prop
  | .sub h => h < st.handles.length
  | .outlet (.channel c) => c < st.channels.length
  | .outlet (.gate g) => g < st.gates.length

/-- A slot refers to it, or a consumer is it. -/
def Cites (st : Store α ε) : Ref → Prop
  | .sub h => some h ∈ st.slots.subs ∨
      ∃ r : Receiver, some r ∈ st.slots.receivers ∧ r.subscription = some h
  | .outlet target => st.Slotted target ∨ ∃ h, st.target? h = some target

/-- It is made on the way from the first store to the second. -/
def Makes (st st' : Store α ε) (r : Ref) : Prop := ¬ st.Has r ∧ st'.Has r

end Store

/-- What a reply makes a slot for. -/
def Closing.ref? : Closing α ε → Option Ref
  | reply _ => none
  | enrolled _ h | fill _ h | attach h | receive h _ => some (.sub h)
  | keepGate g => some (.outlet (.gate g))

/-- What a reply that is still to be given makes a slot for. -/
def Task.ref? : Task α ε → Option Ref
  | answer _ _ closing => closing.ref?
  | _ => none

/-- A slot, a consumer, or a reply to come refers to it. -/
def Machine.Cites (m : Machine α ε) (r : Ref) : Prop :=
  m.store.Cites r ∨ ∃ t ∈ m.agenda, t.ref? = some r

/-! ## Consumers stay -/

namespace Store

variable {st st' : Store α ε}

theorem target?_eq (st : Store α ε) (h : HandleRef) :
    st.target? h = st.consumers[h]?.bind Consumer.target? := by
  rw [target?, consumers, List.getElem?_map]
  cases st.handles[h]? <;> rfl

theorem target?_of_map {outlets : List (Option DirectTarget)}
    (hear : st.consumers.map Consumer.target? = outlets) (h : HandleRef) :
    st.target? h = outlets[h]?.join := by
  rw [target?_eq, ← hear, List.getElem?_map]
  cases st.consumers[h]? <;> rfl

theorem consumers_length (st : Store α ε) : st.consumers.length = st.handles.length :=
  List.length_map _

/-- New consumers come behind the old ones. -/
theorem target?_keep {made : List (Consumer α ε)} (grown : st'.consumers = st.consumers ++ made)
    {h : HandleRef} (inside : h < st.handles.length) : st'.target? h = st.target? h := by
  rw [← consumers_length] at inside
  rw [target?_eq, target?_eq, grown, List.getElem?_append_left inside]

theorem target?_inside {h : HandleRef} {target : DirectTarget}
    (hears : st.target? h = some target) : h < st.handles.length := by
  obtain ⟨x, found, -⟩ := Option.bind_eq_some_iff.1 hears
  exact (List.getElem?_eq_some_iff.1 found).1

theorem target?_mono {made : List (Consumer α ε)} (grown : st'.consumers = st.consumers ++ made)
    {h : HandleRef} {target : DirectTarget} (hears : st.target? h = some target) :
    st'.target? h = some target := by
  rw [target?_keep grown (target?_inside hears), hears]

end Store

/-- **Consumers are added and never taken away or changed.** -/
theorem Task.effect_consumers (st : Store α ε) (rest : List (Task α ε)) (t : Task α ε) :
    ∃ made, (t.effect st rest).store.consumers = st.consumers ++ made := by
  have kept : ∀ {st' : Store α ε}, st'.consumers = st.consumers →
      ∃ made, st'.consumers = st.consumers ++ made := fun same =>
    ⟨[], by rw [same, List.append_nil]⟩
  cases t with
  | perform within step =>
      obtain ⟨made, grown, -⟩ := st.perform_costs rest within step
      exact ⟨made, grown⟩
  | answer within step closing =>
      exact kept (congrArg (List.map Handle.consumer) (st.conclude_beside closing).handles)
  | notify h signal =>
      cases found : st.handles[h]? with
      | none => exact kept (by simp [effect, Store.notify, found, Effect.quiet])
      | some x =>
          obtain ⟨made, grown, -⟩ := st.react_costs x.consumer h signal
          rw [effect, Store.notify_eq found]
          exact ⟨made, grown⟩
  | finish h signal => exact kept (st.finish_turned h signal).consumers
  | deliver h o => exact kept (st.deliver_turned h o).consumers
  | letGo hs => exact kept (st.letGo_forgets rest hs).consumers
  | giveUp s => exact kept (st.giveUp_forgets rest s).consumers
  | hangUp c => exact kept rfl

/-- Nothing that has been made is lost. -/
theorem Task.effect_has (st : Store α ε) (rest : List (Task α ε)) (t : Task α ε) {r : Ref}
    (has : st.Has r) : (t.effect st rest).store.Has r := by
  have told : ∀ (target : DirectTarget) (signal : Signal α ε),
      (st.tell target signal).1.channels.length = st.channels.length ∧
        (st.tell target signal).1.gates.length = st.gates.length := by
    intro target signal
    cases target with
    | channel c =>
        have sends := st.forward_sends c signal
        simp only [Store.tell]
        generalize st.forward c signal = left at sends ⊢
        cases sends with
        | missed | gone | full => exact ⟨rfl, rfl⟩
        | kept => exact ⟨List.length_modify .., rfl⟩
    | gate g =>
        have shut : (st.close g).1.channels.length = st.channels.length ∧
            (st.close g).1.gates.length = st.gates.length := by
          unfold Store.close
          split <;> simp
        cases signal <;> first | exact ⟨rfl, rfl⟩ | exact shut
  -- outlets are added, one at most
  have outlets : st.channels.length ≤ (t.effect st rest).store.channels.length ∧
      st.gates.length ≤ (t.effect st rest).store.gates.length := by
    cases Task.effect_errand st rest t with
    | idle channels gates | opening channels gates | speaking _ _ channels gates =>
        simp [channels, gates]
    | founding _ channels gates => simp [channels, gates]
    | telling _ channels gates =>
        rw [channels, gates, (told _ _).1, (told _ _).2]
        exact ⟨Nat.le_refl _, Nat.le_refl _⟩
    | handing _ channels gates | hangingUp channels gates =>
        simp [channels, gates, Store.modifyChannel]
  cases r with
  | sub h =>
      obtain ⟨made, grown⟩ := Task.effect_consumers st rest t
      have longer := congrArg List.length grown
      rw [List.length_append, Store.consumers_length, Store.consumers_length] at longer
      exact Nat.lt_of_lt_of_le (m := st.handles.length) has (by omega)
  | outlet target =>
      cases target with
      | channel c => exact Nat.lt_of_lt_of_le has outlets.1
      | gate g => exact Nat.lt_of_lt_of_le has outlets.2

/-! ## What steps do to references -/

namespace Store

variable {st st' : Store α ε}

theorem cites_sub? {within : Option Nat} {name : SubName} {h : HandleRef}
    (found : st.sub? within name = some h) : st.Cites (.sub h) := by
  cases name with
  | slot k => exact .inl (mem_of_slot? found)
  | own =>
      obtain ⟨k, -, at_⟩ := Option.bind_eq_some_iff.1 found
      exact .inl (mem_of_slot? at_)

theorem cites_receiver {r : Receiver} {k : Nat} {h : HandleRef} (found : st.receiver? k = some r)
    (attached : r.subscription = some h) : st.Cites (.sub h) :=
  .inr ⟨r, mem_of_slot? found, attached⟩

/-- The second store refers to nothing that the first does not refer to. -/
structure Narrows (st st' : Store α ε) : Prop where
  subs : ∀ h, some h ∈ st'.slots.subs → st.Cites (.sub h)
  receivers : ∀ (r : Receiver) (h : HandleRef), some r ∈ st'.slots.receivers →
    r.subscription = some h → st.Cites (.sub h)
  outlets : ∀ target, st'.Slotted target → st.Cites (.outlet target)
  consumers : st'.consumers = st.consumers

namespace Narrows

/-- Slots of sinks and seeds do not count here. -/
theorem same (subs : st'.slots.subs = st.slots.subs)
    (receivers : st'.slots.receivers = st.slots.receivers)
    (channels : st'.slots.channels = st.slots.channels) (gates : st'.slots.gates = st.slots.gates)
    (consumers : st'.consumers = st.consumers) : st.Narrows st' := by
  refine ⟨?_, ?_, ?_, consumers⟩
  · intro h member
    exact .inl (subs ▸ member)
  · intro r h member attached
    exact .inr ⟨r, receivers ▸ member, attached⟩
  · intro target slotted
    cases target with
    | channel c =>
        left
        show some c ∈ st.slots.channels
        rw [← channels]
        exact slotted
    | gate g =>
        left
        show some g ∈ st.slots.gates
        rw [← gates]
        exact slotted

theorem of_slots (slots : st'.slots = st.slots) (consumers : st'.consumers = st.consumers) :
    st.Narrows st' :=
  .same (by rw [slots]) (by rw [slots]) (by rw [slots]) (by rw [slots]) consumers

theorem cites (narrows : st.Narrows st') {r : Ref} (cites : st'.Cites r) : st.Cites r := by
  match r, cites with
  | .sub h, .inl slotted => exact narrows.subs h slotted
  | .sub h, .inr ⟨r, slotted, attached⟩ => exact narrows.receivers r h slotted attached
  | .outlet target, .inl slotted => exact narrows.outlets target slotted
  | .outlet target, .inr ⟨h, hears⟩ =>
      rw [target?_eq, narrows.consumers, ← target?_eq] at hears
      exact .inr ⟨h, hears⟩

end Narrows

/-- What a step does to references: it adds only what it makes, and cancels only what is
referred to. -/
structure Rewires (st : Store α ε) (e : Effect α ε) (closing : Closing α ε) : Prop where
  cites : ∀ r, e.store.Cites r → st.Cites r ∨ st.Makes e.store r
  reply : ∀ r, closing.ref? = some r → st.Makes e.store r
  tasks : ∀ t ∈ e.tasks, t.ref? = none
  cancels : ∀ h, .cancelling h ∈ e.events → st.Cites (.sub h)

namespace Rewires

theorem narrow {e : Effect α ε} (narrows : st.Narrows e.store)
    (tasks : ∀ t ∈ e.tasks, t.ref? = none)
    (cancels : ∀ h, .cancelling h ∈ e.events → st.Cites (.sub h)) (reply : Reply α ε) :
    st.Rewires e (.reply reply) := by
  refine ⟨fun _ cites => .inl (narrows.cites cites), ?_, tasks, cancels⟩
  intro r none_
  cases none_

theorem quiet (narrows : st.Narrows st') (reply : Reply α ε) :
    st.Rewires (.quiet st') (.reply reply) := by
  refine narrow narrows (List.forall_mem_nil _) ?_ reply
  intro h none_
  cases none_

theorem still (reply : Reply α ε) : st.Rewires (.quiet st) (.reply reply) :=
  quiet (.of_slots rfl rfl) reply

/-- Subscribing makes a handle, whose consumer is something that is there or made with it. -/
theorem subscribe (narrows : st.Narrows st') (handles : st'.handles = st.handles) (s : SinkRef)
    (consumer : Consumer α ε)
    (outlet : ∀ target, consumer.target? = some target →
      st.Cites (.outlet target) ∨ st.Makes st' (.outlet target))
    {closing : Closing α ε}
    (reply : ∀ r, closing.ref? = some r → r = .sub st.handles.length ∨ st.Makes st' r) :
    st.Rewires (st'.subscribe s consumer).2 closing := by
  have consumers : (st'.subscribe s consumer).2.store.consumers = st.consumers ++ [consumer] := by
    rw [subscribe_consumers, narrows.consumers]
  have grown : ∀ r, st.Makes st' r → st.Makes (st'.subscribe s consumer).2.store r := by
    rintro r ⟨fresh, has⟩
    refine ⟨fresh, ?_⟩
    cases r with
    | sub h => exact absurd (handles ▸ has : h < st.handles.length) fresh
    | outlet target => cases target <;> exact has
  refine ⟨?_, ?_, by simp [Store.subscribe, Task.ref?], by simp [Store.subscribe]⟩
  · rintro (h | target) cites
    · exact .inl (narrows.cites cites)
    · rcases cites with slotted | ⟨h, hears⟩
      · exact .inl (narrows.outlets target slotted)
      · by_cases old : h < st.handles.length
        · rw [target?_keep consumers old] at hears
          exact .inl (.inr ⟨h, hears⟩)
        · -- the handle that is made
          have own : consumer.target? = some target := by
            rw [target?_eq, consumers] at hears
            obtain ⟨other, at_, outlet⟩ := Option.bind_eq_some_iff.1 hears
            have beyond : st.consumers.length ≤ h := by
              rw [consumers_length]
              exact Nat.le_of_not_lt old
            rw [List.getElem?_append_right beyond] at at_
            rw [← List.mem_singleton.1 (List.mem_of_getElem? at_)]
            exact outlet
          exact (outlet target own).imp_right (grown _)
  · intro r named
    rcases reply r named with rfl | made
    · refine ⟨Nat.lt_irrefl _, ?_⟩
      show st.handles.length < (st'.handles ++ [_]).length
      simp [handles]
    · exact grown r made

end Rewires

/-! ### Calls -/

section Calls

variable (st : Store α ε)

/-- A call leaves slots and consumers alone, and no reply, and cancels nothing. -/
structure Rests (st : Store α ε) (e : Effect α ε) : Prop where
  slots : e.store.slots = st.slots
  consumers : e.store.consumers = st.consumers
  tasks : ∀ t ∈ e.tasks, t.ref? = none
  calm : ∀ h, .cancelling h ∉ e.events

theorem Rests.quiet {st : Store α ε} : st.Rests (.quiet st) :=
  ⟨rfl, rfl, List.forall_mem_nil _, fun _ => List.not_mem_nil⟩

theorem Rests.narrows {st : Store α ε} {e : Effect α ε} (rests : st.Rests e) :
    st.Narrows e.store :=
  .of_slots rests.slots rests.consumers

theorem Rests.rewires {st : Store α ε} {e : Effect α ε} (rests : st.Rests e) (reply : Reply α ε) :
    st.Rewires e (.reply reply) :=
  .narrow rests.narrows rests.tasks (fun h cancelled => absurd cancelled (rests.calm h)) reply

theorem request_rests (h : HandleRef) (n : UInt64) : st.Rests (st.request h n) := by
  have kept : ∀ {f : Handle α ε → Handle α ε}, (∀ x, (f x).consumer = x.consumer) →
      (st.modifyHandle h f).consumers = st.consumers := fun keep =>
    st.modifyHandle_consumers h keep
  have asks := st.request_asks h n
  generalize st.request h n = e at asks ⊢
  cases asks with
  | missed => exact .quiet
  | refused | again => exact ⟨rfl, rfl, by simp [Task.ref?], by simp⟩
  | first | served | spoilt | empty =>
      exact ⟨rfl, kept fun _ => rfl, by simp [Task.ref?], by simp⟩

theorem unregister_slots (s : SinkRef) (h : HandleRef) :
    (st.unregister s h).1.slots = st.slots := by
  unfold unregister
  split <;> rfl

theorem cancel_slots (h : HandleRef) : (st.cancel h).store.slots = st.slots := by
  have cancels := st.cancel_cancels h
  generalize st.cancel h = e at cancels ⊢
  cases cancels with
  | missed | again => rfl
  | first => exact unregister_slots _ _ h

/-- A cancellation, of what is referred to. -/
theorem cancel_rewires {h : HandleRef} (cited : st.Cites (.sub h)) :
    st.Rewires (st.cancel h) (.reply .done) := by
  refine .narrow (.of_slots (st.cancel_slots h) (st.cancel_consumers h)) ?_ ?_ .done
  · have cancels := st.cancel_cancels h
    generalize st.cancel h = e at cancels ⊢
    cases cancels with
    | missed => simp [Effect.quiet]
    | again | first => simp [Task.ref?]
  · intro g cancelled
    have own := (st.cancel_told h _ cancelled).1
    have same : g = h := by simpa [Event.isOf] using own
    exact same ▸ cited

theorem terminate_rests (s : SinkRef) (o : Outcome α ε) : st.Rests (st.terminate s o).2 := by
  have ends := st.terminate_ends s o
  generalize st.terminate s o = called at ends ⊢
  cases ends with
  | missed => exact .quiet
  | lost => exact ⟨rfl, rfl, by simp [Task.ref?], by simp⟩
  | won =>
      refine ⟨rfl, rfl, ?_, by simp⟩
      exact List.forall_mem_append.2 ⟨List.forall_mem_map.2 fun _ _ => rfl, by simp [Task.ref?]⟩

theorem enrol_slots (h : HandleRef) : (st.enrol h).store.slots = st.slots := by
  have enrols := st.enrol_enrols h
  generalize st.enrol h = e at enrols ⊢
  cases enrols with
  | missed | replayed | joined => rfl
  | @turnedAway x waiting => exact (st.join h x.sink waiting).unregister_slots x.sink h

/-- A turn leaves no reply. -/
theorem Turned.rests {st : Store α ε} {first : Event α ε} {e : Effect α ε}
    (turned : st.Turned first e) (slots : e.store.slots = st.slots)
    (other : ∀ h, .cancelling h ≠ first) : st.Rests e := by
  have calm : ∀ h, .cancelling h ∉ e.events := by
    intro h cancelled
    have own := turned.each (P := fun event => event ≠ .cancelling h) (other h).symm
      (by rintro event aside rfl; cases aside)
    exact own _ cancelled rfl
  refine ⟨slots, turned.consumers, ?_, calm⟩
  have idle : ∀ tasks : List (Task α ε), tasksWork tasks = 0 → ∀ t ∈ tasks, t.ref? = none := by
    intro tasks none_
    induction tasks with
    | nil => simp
    | cons t tasks ih =>
        rw [tasksWork_cons] at none_
        refine List.forall_mem_cons.2 ⟨?_, ih (by omega)⟩
        cases t with
        | answer => simp [Task.work] at none_
        | _ => rfl
  exact idle e.tasks turned.turns

theorem finish_rests (h : HandleRef) (signal : Signal α ε) : st.Rests (st.finish h signal) := by
  refine (st.finish_turned h signal).rests ?_ (by simp)
  cases signal with
  | subscribed => exact st.enrol_slots h
  | next v =>
      simp only [finish]
      split <;> rfl
  | complete | error => rfl

theorem deliver_rests (h : HandleRef) (o : Outcome α ε) : st.Rests (st.deliver h o) := by
  refine (st.deliver_turned h o).rests ?_ (by simp)
  have offers := st.deliver_offers h o
  generalize st.deliver h o = e at offers ⊢
  cases offers <;> rfl

theorem Forgets.rests {st : Store α ε} {left : Store α ε × List (Event α ε)}
    (forgets : st.Forgets left) : st.Rests ⟨left.1, left.2, []⟩ :=
  ⟨forgets.slots, forgets.consumers, by simp, fun h cancelled => by
    obtain ⟨g, dropped⟩ := forgets.events _ cancelled
    cases dropped⟩

/-! ### Consumers -/

theorem not_cancelling_of_aside {events : List (Event α ε)}
    (aside : ∀ event ∈ events, event.isAside = true) (h : HandleRef) :
    .cancelling h ∉ events := fun cancelled => by
  cases aside _ cancelled

theorem forward_slots (c : ChannelRef) (signal : Signal α ε) :
    (st.forward c signal).1.slots = st.slots := by
  have sends := st.forward_sends c signal
  generalize st.forward c signal = left at sends ⊢
  cases sends <;> rfl

theorem close_slots (g : GateRef) : (st.close g).1.slots = st.slots := by
  unfold close
  split <;> rfl

theorem runHook_rests (slot : Nat) (steps : List (Step α ε)) :
    ∀ t ∈ runHook slot steps, t.ref? = none := by
  simp [runHook, Task.ref?]

/-- A callback leaves slots alone, except that a script is handed its subscription. -/
theorem react_rests (consumer : Consumer α ε) (h : HandleRef) (signal : Signal α ε) :
    st.Rests (st.react consumer h signal) ∨
      ∃ slot hooks, consumer = .scripted slot hooks ∧ signal = .subscribed := by
  -- what outlets do with a signal
  have told : ∀ {left : Store α ε × List (Event α ε)}, left.1.slots = st.slots →
      st.Beside left.1 → (∀ event ∈ left.2, event.isAside = true) →
      st.Rests ⟨left.1, left.2, []⟩ := fun slots beside aside =>
    ⟨slots, congrArg (List.map Handle.consumer) beside.handles, List.forall_mem_nil _,
      not_cancelling_of_aside aside⟩
  have reacts := st.react_reacts consumer h signal
  generalize st.react consumer h signal = e at reacts ⊢
  cases reacts with
  | greeting slot hooks => exact .inr ⟨slot, hooks, rfl, rfl⟩
  | running slot | valued slot => exact .inl ⟨rfl, rfl, runHook_rests slot _, by simp⟩
  | asking | askingOnce => exact .inl (st.request_rests h _)
  | completed => exact .inl .quiet
  | unheard => exact .inl ⟨rfl, rfl, by simp, by simp⟩
  | sending c =>
      exact .inl (told (st.forward_slots c signal) (st.forward_beside c signal)
        (st.forward_aside c signal))
  | sendingAsking c n =>
      have first := told (st.forward_slots c .subscribed) (st.forward_beside c .subscribed)
        (st.forward_aside c .subscribed)
      have rests := (st.forward c (.subscribed : Signal α ε)).1.request_rests h n
      refine .inl ⟨rests.slots.trans first.slots, rests.consumers.trans first.consumers,
        rests.tasks, ?_⟩
      intro g cancelled
      rcases List.mem_append.1 cancelled with told | asked
      · exact first.calm g told
      · exact rests.calm g asked
  | closing g => exact .inl (told (st.close_slots g) (st.close_beside g) (st.close_aside g))

theorem outlet_rests (target : DirectTarget) (h : HandleRef) (signal : Signal α ε) :
    st.Rests (st.react target.consumer h signal) := by
  rcases st.react_rests target.consumer h signal with rests | ⟨slot, hooks, scripted, -⟩
  · exact rests
  · cases target <;> cases scripted

/-- A callback refers to what was referred to before, and a script to its own handle. -/
theorem react_cites {consumer : Consumer α ε} {h : HandleRef} {signal : Signal α ε} {r : Ref}
    (cites : (st.react consumer h signal).store.Cites r) :
    st.Cites r ∨ (r = .sub h ∧ consumer.target? = none) := by
  rcases st.react_rests consumer h signal with rests | ⟨slot, hooks, rfl, rfl⟩
  · exact .inl (rests.narrows.cites cites)
  · match r, cites with
    | .outlet target, cites => exact .inl cites
    | .sub g, .inr attached => exact .inl (.inr attached)
    | .sub g, .inl slotted =>
        rcases List.mem_or_eq_of_mem_set slotted with old | new
        · exact .inl (.inl old)
        · exact .inr ⟨congrArg Ref.sub (Option.some.inj new), rfl⟩

/-- A callback leaves no reply, and cancels nothing by itself. -/
theorem react_mute (consumer : Consumer α ε) (h : HandleRef) (signal : Signal α ε) :
    (∀ t ∈ (st.react consumer h signal).tasks, t.ref? = none) ∧
      ∀ g, .cancelling g ∉ (st.react consumer h signal).events := by
  rcases st.react_rests consumer h signal with rests | ⟨slot, hooks, rfl, rfl⟩
  · exact ⟨rests.tasks, rests.calm⟩
  · exact ⟨runHook_rests slot hooks.onSubscribe, by simp [react, acknowledge]⟩

/-! ### Steps -/

/-- A callback that a step makes of an outlet, with the reference that it holds meanwhile. -/
theorem direct_rewires (target : DirectTarget) (h : HandleRef) (signal : Signal α ε)
    {held : List (Task α ε)} (mute : ∀ t ∈ held, t.ref? = none) :
    st.Rewires (((st.react target.consumer h signal).after [.direct target signal]).followedBy held)
      (.reply .done) := by
  have rests := st.outlet_rests target h signal
  apply Rests.rewires
  refine ⟨rests.slots, rests.consumers, List.forall_mem_append.2 ⟨rests.tasks, mute⟩, ?_⟩
  intro g cancelled
  rcases List.mem_cons.1 cancelled with direct | reacted
  · cases direct
  · exact rests.calm g reacted

theorem newChannel_makes (initial : Option UInt64) :
    st.Makes (st.newChannel initial).2 (.outlet (.channel st.channels.length)) :=
  ⟨Nat.lt_irrefl _, by simp [Has, newChannel]⟩

theorem newGate_makes : st.Makes st.newGate.2 (.outlet (.gate st.gates.length)) :=
  ⟨Nat.lt_irrefl _, by simp [Has, newGate]⟩

theorem newChannel_narrows (initial : Option UInt64) : st.Narrows (st.newChannel initial).2 :=
  .same rfl rfl rfl rfl rfl

theorem newGate_narrows : st.Narrows st.newGate.2 := .same rfl rfl rfl rfl rfl

/-- A slot that is reserved for a subscription refers to nothing yet. -/
theorem reserve_narrows : st.Narrows (st.addSub none) := by
  refine ⟨?_, fun r h member attached => .inr ⟨r, member, attached⟩, fun _ slotted => .inl slotted,
    rfl⟩
  intro h member
  rcases List.mem_append.1 member with old | new
  · exact .inl old
  · cases List.mem_singleton.1 new

theorem dropChannel_narrows (channel : Nat) :
    st.Narrows (st.modifySlots fun x => { x with channels := x.channels.set channel none }) := by
  refine ⟨fun _ member => .inl member, fun r h member attached => .inr ⟨r, member, attached⟩, ?_,
    rfl⟩
  intro target slotted
  cases target with
  | gate g => exact .inl slotted
  | channel d =>
      left
      rcases List.mem_or_eq_of_mem_set slotted with old | new
      · exact old
      · cases new

theorem newChannel_rewires (initial : Option UInt64) (agenda : List (Task α ε))
    (within : Option Nat) :
    st.Rewires (st.perform agenda within (.newChannel initial)).1
      (st.perform agenda within (.newChannel initial)).2 := by
  refine ⟨?_, ?_, List.forall_mem_nil _, by simp [perform, settle, Effect.quiet]⟩
  · intro r cites
    cases r with
    | sub h =>
        rcases cites with slotted | ⟨r, slotted, attached⟩
        · exact .inl (.inl slotted)
        · rcases List.mem_append.1 slotted with old | new
          · exact .inl (.inr ⟨r, old, attached⟩)
          · cases List.mem_singleton.1 new
            cases attached
    | outlet target =>
        rcases cites with slotted | hears
        · cases target with
          | gate g => exact .inl (.inl slotted)
          | channel c =>
              rcases List.mem_append.1 slotted with old | new
              · exact .inl (.inl old)
              · cases List.mem_singleton.1 new
                exact .inr (st.newChannel_makes initial)
        · exact .inl (.inr hears)
  · intro r none_
    cases none_

theorem newGate_rewires (agenda : List (Task α ε)) (within : Option Nat) :
    st.Rewires (st.perform agenda within .newGate).1 (st.perform agenda within .newGate).2 := by
  refine ⟨?_, ?_, List.forall_mem_nil _, by simp [perform, settle, Effect.quiet]⟩
  · intro r cites
    cases r with
    | sub h => exact .inl cites
    | outlet target =>
        rcases cites with slotted | hears
        · cases target with
          | channel c => exact .inl (.inl slotted)
          | gate g =>
              rcases List.mem_append.1 slotted with old | new
              · exact .inl (.inl old)
              · cases List.mem_singleton.1 new
                exact .inr st.newGate_makes
        · exact .inl (.inr hears)
  · intro r none_
    cases none_

/-- Steps on slots refer to nothing that was not referred to. -/
theorem Reslots.narrows {st : Store α ε} {within : Option Nat} {step : Step α ε} {slots : Slots}
    {tasks : List (Task α ε)} (reslots : st.Reslots within step slots tasks) :
    st.Narrows { st with slots } := by
  -- each of the lists of slots that count here is left, or one slot of it is set or added
  have receivers : ∀ (r : Receiver) (h : HandleRef), some r ∈ st.slots.receivers →
      r.subscription = some h → st.Cites (.sub h) := fun r h member attached =>
    .inr ⟨r, member, attached⟩
  cases reslots with
  | cloneSink | dropSink | seed | growSeed => exact .same rfl rfl rfl rfl rfl
  | cloneSub found =>
      refine ⟨?_, receivers, fun _ slotted => .inl slotted, rfl⟩
      intro g member
      rcases List.mem_append.1 member with old | new
      · exact .inl old
      · cases List.mem_singleton.1 new
        exact cites_sub? found
  | @dropChannel k => exact st.dropChannel_narrows k
  | withSubscription found named =>
      refine ⟨fun _ member => .inl member, ?_, fun _ slotted => .inl slotted, rfl⟩
      intro r g member attached
      rcases List.mem_or_eq_of_mem_set member with old | new
      · exact receivers r g old attached
      · cases new
        cases attached
        exact cites_sub? named
  | cloneGate found =>
      refine ⟨fun _ member => .inl member, receivers, ?_, rfl⟩
      intro target slotted
      cases target with
      | channel c => exact .inl slotted
      | gate g =>
          rcases List.mem_append.1 slotted with old | new
          · exact .inl old
          · cases List.mem_singleton.1 new
            exact .inl (mem_of_slot? found)

theorem Reslots.ref? {st : Store α ε} {within : Option Nat} {step : Step α ε} {slots : Slots}
    {tasks : List (Task α ε)} (reslots : st.Reslots within step slots tasks) :
    ∀ t ∈ tasks, t.ref? = none := by
  cases reslots with
  | dropSink => exact List.forall_mem_singleton.2 rfl
  | _ => exact List.forall_mem_nil _

/-- Who is subscribed is there or made with the handle, and so is what the reply refers to. -/
theorem Readies.rewires {st st' : Store α ε} {k : Nat} {step : Step α ε} {consumer : Consumer α ε}
    {closing : Closing α ε} (readies : st.Readies k step st' consumer closing) (s : SinkRef) :
    st.Rewires (st'.subscribe s consumer).2 closing := by
  -- the reply of a subscription makes a slot for its own handle
  have own : ∀ {st' : Store α ε} (r : Ref), some (.sub st.handles.length) = some r →
      r = .sub st.handles.length ∨ st.Makes st' r := by
    intro st' r named
    cases named
    exact .inl rfl
  cases readies with
  | scripted | valueOnly =>
      refine .subscribe st.reserve_narrows rfl s _ ?_ own
      intro target none_
      cases none_
  | newChannel initial =>
      refine .subscribe (st.newChannel_narrows initial) rfl s _ ?_ own
      intro target outlet
      cases outlet
      exact .inr (st.newChannel_makes initial)
  | newGate =>
      refine .subscribe st.newGate_narrows rfl s _ ?_ ?_
      · intro target outlet
        cases outlet
        exact .inr st.newGate_makes
      · intro r named
        cases named
        exact .inr st.newGate_makes
  | @attachChannel j c found =>
      refine .subscribe (st.dropChannel_narrows j) rfl s _ ?_ own
      intro target outlet
      cases outlet
      exact .inl (.inl (mem_of_slot? found))
  | @attachGate j g found =>
      refine .subscribe (.of_slots rfl rfl) rfl s _ ?_ own
      intro target outlet
      cases outlet
      exact .inl (.inl (mem_of_slot? found))

/-- **What every step of a script does to references.** -/
theorem perform_rewires (agenda : List (Task α ε)) (within : Option Nat) (step : Step α ε) :
    st.Rewires (st.perform agenda within step).1 (st.perform agenda within step).2 := by
  have performs := st.perform_performs agenda within step
  generalize st.perform agenda within step = performed at performs ⊢
  cases performs with
  | still => exact .still _
  | founding | foundingStandard | sprouting =>
      refine .quiet ?_ _
      exact .same rfl rfl rfl rfl rfl
  | reslotting reslots => exact .narrow reslots.narrows reslots.ref? (by simp) _
  | @ending step k s o => exact (st.terminate_rests s o).rewires _
  | subscribing found readies => exact readies.rewires _
  | requesting found n => exact (st.request_rests _ n).rewires _
  | cancelling found => exact st.cancel_rewires (cites_sub? found)
  | cancellingAttached found attached => exact st.cancel_rewires (cites_receiver found attached)
  | opening initial => exact st.newChannel_rewires initial agenda within
  | openingGate => exact st.newGate_rewires agenda within
  | @signalling k c found call h signal =>
      exact st.direct_rewires (.channel c) h signal (by simp [Task.ref?])
  | @signallingGate k g found call h signal =>
      exact st.direct_rewires (.gate g) h signal (by simp)
  | taking =>
      -- signals that are handed out are no references
      refine .narrow ?_ ?_ ?_ _
      · exact .of_slots rfl rfl
      · exact List.forall_mem_nil _
      · intro h cancelled
        cases List.mem_singleton.1 cancelled
  | hangingUp =>
      refine .quiet ?_ _
      refine ⟨fun _ member => .inl member, ?_, fun _ slotted => .inl slotted, rfl⟩
      intro r h member attached
      rcases List.mem_or_eq_of_mem_set member with old | new
      · exact .inr ⟨r, old, attached⟩
      · cases new

/-- A reply makes slots for what it refers to. -/
theorem conclude_cites {closing : Closing α ε} {r : Ref}
    (cites : (st.conclude closing).1.Cites r) : st.Cites r ∨ closing.ref? = some r := by
  -- the slots of subscriptions are added to, or one of them is set
  have sub : ∀ {h g : HandleRef} {slots : List (Option HandleRef)}, some g ∈ slots →
      (∀ k, k ∈ slots → k ∈ st.slots.subs ∨ k = some h) →
      st.Cites (.sub g) ∨ some (Ref.sub h) = some (Ref.sub g) := by
    intro h g slots slotted known
    rcases known _ slotted with old | new
    · exact .inl (.inl old)
    · exact .inr (congrArg (fun g => some (Ref.sub g)) (Option.some.inj new).symm)
  have added : ∀ {h : HandleRef} (k : Option HandleRef), k ∈ st.slots.subs ++ [some h] →
      k ∈ st.slots.subs ∨ k = some h := fun k member => by simpa using member
  cases closing with
  | reply reply => exact .inl cites
  | enrolled k h => exact .inl cites
  | fill k h =>
      match r, cites with
      | .sub g, .inl slotted => exact sub slotted fun _ => List.mem_or_eq_of_mem_set
      | .sub g, .inr attached => exact .inl (.inr attached)
      | .outlet target, cites => exact .inl cites
  | attach h =>
      match r, cites with
      | .sub g, .inl slotted => exact sub slotted added
      | .sub g, .inr attached => exact .inl (.inr attached)
      | .outlet target, cites => exact .inl cites
  | receive h c =>
      match r, cites with
      | .sub g, .inl slotted => exact sub slotted added
      | .sub g, .inr ⟨r, slotted, attached⟩ =>
          rcases List.mem_append.1 slotted with old | new
          · exact .inl (.inr ⟨r, old, attached⟩)
          · cases List.mem_singleton.1 new
            cases attached
            exact .inr rfl
      | .outlet target, cites => exact .inl cites
  | keepGate g =>
      match r, cites with
      | .sub h, cites => exact .inl cites
      | .outlet target, .inr hears => exact .inl (.inr hears)
      | .outlet (.channel c), .inl slotted => exact .inl (.inl slotted)
      | .outlet (.gate g'), .inl slotted =>
          rcases List.mem_append.1 slotted with old | new
          · exact .inl (.inl old)
          · cases List.mem_singleton.1 new
            exact .inr rfl

end Calls

end Store

/-! ## Every step, every run -/

/-- Only a step leaves a reply to be given. -/
theorem Task.effect_refs (st : Store α ε) (rest : List (Task α ε)) (t : Task α ε) :
    ∀ t' ∈ (t.effect st rest).tasks, t'.ref? = none ∨
      ∃ within step, t = .perform within step ∧
        t' = .answer within step (st.perform rest within step).2 := by
  intro t' member
  cases t with
  | perform within step =>
      rcases List.mem_append.1 member with own | reply
      · exact .inl ((st.perform_rewires rest within step).tasks t' own)
      · exact .inr ⟨within, step, rfl, List.mem_singleton.1 reply⟩
  | notify h signal =>
      cases found : st.handles[h]? with
      | none =>
          rw [effect, Store.notify, found] at member
          cases member
      | some x =>
          rw [effect, Store.notify_eq found] at member
          rcases List.mem_append.1 member with own | last
          · exact .inl ((st.react_mute x.consumer h signal).1 t' own)
          · rw [List.mem_singleton.1 last]
            exact .inl rfl
  | finish h signal => exact .inl ((st.finish_rests h signal).tasks t' member)
  | deliver h o => exact .inl ((st.deliver_rests h o).tasks t' member)
  | answer | letGo | giveUp | hangUp => cases member

/-- A task adds to what is referred to only what it makes, and an acknowledgment the handle of a
script. -/
theorem Task.effect_cites (st : Store α ε) (rest : List (Task α ε)) (t : Task α ε) {r : Ref}
    (cites : (t.effect st rest).store.Cites r) :
    st.Cites r ∨ t.ref? = some r ∨ st.Makes (t.effect st rest).store r ∨
      ∃ h x, r = .sub h ∧ st.handles[h]? = some x ∧ x.consumer.target? = none := by
  have rests : st.Rests (t.effect st rest) → st.Cites r := fun rests => rests.narrows.cites cites
  cases t with
  | perform within step =>
      exact ((st.perform_rewires rest within step).cites r cites).imp_right (.inr ∘ .inl)
  | answer within step closing => exact (st.conclude_cites cites).imp_right .inl
  | notify h signal =>
      cases found : st.handles[h]? with
      | none =>
          rw [effect, Store.notify, found] at cites
          exact .inl cites
      | some x =>
          rw [effect, Store.notify_eq found] at cites
          rcases st.react_cites cites with old | ⟨own, script⟩
          · exact .inl old
          · exact .inr (.inr (.inr ⟨h, x, own, found, script⟩))
  | finish h signal => exact .inl (rests (st.finish_rests h signal))
  | deliver h o => exact .inl (rests (st.deliver_rests h o))
  | letGo hs => exact .inl (rests (st.letGo_forgets rest hs).rests)
  | giveUp s => exact .inl (rests (st.giveUp_forgets rest s).rests)
  | hangUp c => exact .inl (rests .quiet)

namespace Machine

variable {m : Machine α ε}

/-- **A step adds to what is referred to only what it makes**, and an acknowledgment the handle
of a script. -/
theorem cites_step {r : Ref} (cites : m.step.Cites r) :
    m.Cites r ∨ m.store.Makes m.step.store r ∨
      ∃ h x, r = .sub h ∧ m.store.handles[h]? = some x ∧ x.consumer.target? = none := by
  cases turn : m.agenda with
  | nil =>
      rw [step_nil turn] at cites
      exact .inl cites
  | cons t rest =>
      have named_here : ∀ {t'}, t' ∈ t :: rest → t'.ref? = some r → m.Cites r :=
        fun member named => .inr ⟨_, turn ▸ member, named⟩
      rw [step_cons turn] at cites ⊢
      rw [undergo_store]
      rcases cites with kept | ⟨t', member, named⟩
      · rcases Task.effect_cites m.store rest t kept with old | own | made | script
        · exact .inl (.inl old)
        · exact .inl (named_here List.mem_cons_self own)
        · exact .inr (.inl made)
        · exact .inr (.inr script)
      · rw [undergo_agenda, behind_agenda, turn] at member
        rcases List.mem_append.1 member with new | old
        · rcases Task.effect_refs m.store rest t t' new with none_ | ⟨within, step, rfl, rfl⟩
          · rw [none_] at named
            cases named
          · exact .inr (.inl ((m.store.perform_rewires rest within step).reply r named))
        · exact .inl (named_here (List.mem_cons_of_mem _ old) named)

/-- **Only what is referred to is cancelled.** -/
theorem cancelled_cited {h : HandleRef} (cancelled : .cancelling h ∈ m.news) :
    m.Cites (.sub h) := by
  cases turn : m.agenda with
  | nil =>
      rw [news_nil turn] at cancelled
      cases cancelled
  | cons t rest =>
      rw [news_cons turn] at cancelled
      cases t with
      | perform within step =>
          rcases List.mem_cons.1 cancelled with performed | told
          · cases performed
          · exact .inl ((m.store.perform_rewires rest within step).cancels h told)
      | answer within step closing => cases List.mem_singleton.1 cancelled
      | notify g signal =>
          cases found : m.store.handles[g]? with
          | none => simp [Task.effect, Store.notify, found, Effect.quiet] at cancelled
          | some x =>
              rw [Task.effect, Store.notify_eq found] at cancelled
              rcases List.mem_cons.1 cancelled with began | told
              · cases began
              · exact absurd told ((m.store.react_mute x.consumer g signal).2 h)
      | finish g signal => exact absurd cancelled ((m.store.finish_rests g signal).calm h)
      | deliver g o => exact absurd cancelled ((m.store.deliver_rests g o).calm h)
      | letGo hs => exact absurd cancelled ((m.store.letGo_forgets rest hs).rests.calm h)
      | giveUp s => exact absurd cancelled ((m.store.giveUp_forgets rest s).rests.calm h)
      | hangUp c => cases cancelled

theorem step_consumers (m : Machine α ε) :
    ∃ made, m.step.store.consumers = m.store.consumers ++ made := by
  cases turn : m.agenda with
  | nil => exact ⟨[], by rw [step_nil turn, List.append_nil]⟩
  | cons t rest =>
      rw [step_cons turn]
      exact Task.effect_consumers m.store rest t

theorem step_has {r : Ref} (has : m.store.Has r) : m.step.store.Has r := by
  cases turn : m.agenda with
  | nil => rwa [step_nil turn]
  | cons t rest =>
      rw [step_cons turn]
      exact Task.effect_has m.store rest t has

/-- **What is referred to exists.** -/
def Wired (m : Machine α ε) : Prop := ∀ r, m.Cites r → m.store.Has r

theorem Wired.step (wired : m.Wired) : m.step.Wired := by
  intro r cites
  rcases cites_step cites with kept | ⟨-, has⟩ | ⟨h, x, rfl, found, -⟩
  · exact step_has (wired r kept)
  · exact has
  · exact step_has (r := .sub h) (List.getElem?_eq_some_iff.1 found).1

theorem Wired.load (script : List (Step α ε)) : (Machine.load script).Wired := by
  intro r cites
  rcases cites with slotted | ⟨t, member, named⟩
  · match r, slotted with
    | .sub h, .inl slotted => cases slotted
    | .sub h, .inr ⟨_, slotted, _⟩ => cases slotted
    | .outlet (.channel c), .inl slotted => cases slotted
    | .outlet (.gate g), .inl slotted => cases slotted
    | .outlet target, .inr ⟨h, hears⟩ => simp [Machine.load, Store.empty, Store.target?] at hears
  · obtain ⟨step, -, rfl⟩ := List.mem_map.1 member
    cases named

theorem steps_wired (script : List (Step α ε)) (n : Nat) : ((load script).steps n).Wired :=
  steps_keep (fun _ wired => wired.step) (.load script) n

end Machine

/-! ## What outlets are told, over a run -/

namespace Sound

variable {m : Machine α ε}

/-- Only handles that are there have been called back. -/
theorem began_inside (sound : Sound m) {h : HandleRef} {signal : Signal α ε}
    (began : .began h signal ∈ m.history) : h < m.store.handles.length := by
  apply Nat.lt_of_not_le
  intro beyond
  obtain ⟨-, silent⟩ := sound.unborn h (List.getElem?_eq_none beyond)
  have member : .began h signal ∈ callbacks h m.history :=
    List.mem_filter.2 ⟨began, by simp [Event.isCallback]⟩
  have none_ : callbacks h m.history = [] := congrArg Ledger.callbacks silent
  rw [none_] at member
  cases member

/-- Handles that are made say nothing of what has been told before. -/
theorem told_later (sound : Sound m) (target : DirectTarget) :
    m.step.store.told target m.history = m.store.told target m.history ∧
      m.step.store.told target m.news = m.store.told target m.news := by
  obtain ⟨made, grown⟩ := m.step_consumers
  have agree : ∀ events : List (Event α ε),
      (∀ h signal, .began h signal ∈ events → h < m.store.handles.length) →
      m.step.store.told target events = m.store.told target events := by
    intro events inside
    apply List.filterMap_congr
    intro event member
    cases event with
    | began h signal =>
        simp only [Store.tells?, Store.target?_keep grown (inside h signal member)]
    | _ => rfl
  exact ⟨agree _ fun h signal began => sound.began_inside began,
    agree _ fun h signal began => m.step_errand.began_inside began⟩

/-- What an outlet is told comes behind what it has been told. -/
theorem told_step (sound : Sound m) (target : DirectTarget) :
    m.step.store.told target m.step.history =
      m.store.told target m.history ++ m.store.told target m.news := by
  obtain ⟨before, after⟩ := sound.told_later target
  rw [Machine.history_step, Store.told, List.filterMap_append]
  exact congr (congrArg _ before) after

end Sound

end OneShot
