/-
# OneShot.Proofs.Deed -- what a step of a script can do to sinks and handles

Of all that steps and consumers come to (`Store.Performs`, `Store.Reacts`), six things bear on
sinks and handles: nothing, founding a sink, subscribing to one, ending one, asking on a handle,
and cancelling a handle.  `Deed` lists these.  Around them stand events and tasks that bear on
nothing (`Event.isAside`, `Task.isAside`), and channels, gates and slots may change beside them
(`Store.Beside`).

What a deed keeps, a step and a callback keep (`perform_deed`, `react_deed`).  Which sinks a deed
may end goes with it: those of the step, and none for a consumer.
-/
import OneShot.Proofs.Ledger
import OneShot.Proofs.Performing

namespace OneShot

set_option autoImplicit false

variable {α ε : Type}

/-- The step is a call that ends the sink `s` with the outcome `o`. -/
def Step.Ends (step : Step α ε) (st : Store α ε) (s : SinkRef) (o : Outcome α ε) : Prop :=
  ∃ k, step.ending? = some (k, o) ∧ st.sink? k = some s

namespace Task

/-- The task is a turn of this handle: a callback to start or to end, or an offer. -/
def concerns (h : HandleRef) : Task α ε → Bool
  | notify h' _ | finish h' _ | deliver h' _ => h' == h
  | _ => false

@[simp] theorem notify_concerns (h : HandleRef) (signal : Signal α ε) :
    (notify h signal).concerns h = true := by
  simp [concerns]

@[simp] theorem finish_concerns (h : HandleRef) (signal : Signal α ε) :
    (finish h signal).concerns h = true := by
  simp [concerns]

@[simp] theorem deliver_concerns (h : HandleRef) (o : Outcome α ε) :
    (deliver h o).concerns h = true := by
  simp [concerns]

/-- The task starts a callback. -/
def isNotify : Task α ε → Bool
  | notify _ _ => true
  | _ => false

/-- The task belongs to a call of the library that is in progress. -/
def inCall : Task α ε → Bool
  | notify _ _ | finish _ _ | deliver _ _ | letGo _ => true
  | perform _ _ | answer _ _ _ | giveUp _ | hangUp _ => false

/-- Steps, replies, and references that a step itself gives up. -/
def isAside (t : Task α ε) : Bool := !t.inCall

theorem concerns_of_isAside {t : Task α ε} (aside : t.isAside = true) (h : HandleRef) :
    t.concerns h = false := by
  cases t <;> simp_all [isAside, inCall, concerns]

theorem isNotify_of_isAside {t : Task α ε} (aside : t.isAside = true) : t.isNotify = false := by
  cases t <;> simp_all [isAside, inCall, isNotify]

theorem isNotify_of_concerns {t : Task α ε} (none_ : ∀ h, t.concerns h = false) :
    t.isNotify = false := by
  cases t with
  | notify h signal => simpa [concerns] using none_ h
  | _ => rfl

end Task

namespace Store

/-- The second store differs from the first in channels, gates and slots at most, and
refers to the same sinks. -/
structure Beside (st st' : Store α ε) : Prop where
  sinks : st'.sinks = st.sinks
  handles : st'.handles = st.handles
  names : ∀ s, st'.names s = st.names s

theorem Beside.refl (st : Store α ε) : st.Beside st := ⟨rfl, rfl, fun _ => rfl⟩

theorem modifyChannel_beside (st : Store α ε) (c : ChannelRef) (f : Channel α ε → Channel α ε) :
    st.Beside (st.modifyChannel c f) := ⟨rfl, rfl, fun _ => rfl⟩

end Store

open Store

/-- What a step of a script, or a consumer's answer to a signal, does to sinks and handles;
`may` are the sinks that it may end. -/
inductive Deed (st : Store α ε) (may : SinkRef → Prop) : Effect α ε → Prop
  | aside {e : Effect α ε} (sinks : e.store.sinks = st.sinks)
      (handles : e.store.handles = st.handles)
      (names : ∀ s, (e.store.names s || e.tasks.any (Task.refersTo s)) = st.names s)
      (events : ∀ event ∈ e.events, event.isAside = true)
      (tasks : ∀ t ∈ e.tasks, t.isAside = true) : Deed st may e
  | founding {st' : Store α ε} (label : String)
      (sinks : st'.sinks = st.sinks ++ [Sink.ofLabel label]) (handles : st'.handles = st.handles)
      (names : ∀ s, st'.names s = (st.names s || s == st.sinks.length)) : Deed st may (.quiet st')
  | subscribing {st' : Store α ε} (beside : st.Beside st') {s : SinkRef}
      (named : st.names s = true) (consumer : Consumer α ε) :
      Deed st may (st'.subscribe s consumer).2
  | ending {s : SinkRef} (named : st.names s = true) (allowed : may s) (o : Outcome α ε) :
      Deed st may (st.terminate s o).2
  | requesting {st' : Store α ε} (beside : st.Beside st') (h : HandleRef) (n : UInt64) :
      Deed st may (st'.request h n)
  | cancelling (h : HandleRef) : Deed st may (st.cancel h)
  | after {e : Effect α ε} {events : List (Event α ε)}
      (aside : ∀ event ∈ events, event.isAside = true) (deed : Deed st may e) :
      Deed st may (e.after events)
  | followedBy {e : Effect α ε} {tasks : List (Task α ε)}
      (aside : ∀ t ∈ tasks, t.isAside = true)
      (mute : ∀ s, tasks.any (Task.refersTo s) = false) (deed : Deed st may e) :
      Deed st may (e.followedBy tasks)

namespace Deed

variable {st : Store α ε} {may : SinkRef → Prop}

theorem told {st' : Store α ε} (beside : st.Beside st') (events : List (Event α ε))
    (aside : ∀ event ∈ events, event.isAside = true) : Deed st may ⟨st', events, []⟩ :=
  .aside beside.sinks beside.handles (by simp [beside.names]) aside (by simp)

theorem quiet {st' : Store α ε} (beside : st.Beside st') : Deed st may (.quiet st') :=
  told beside [] (by simp)

end Deed

/-! ## Consumers -/

namespace Store

variable {may : SinkRef → Prop}

theorem forward_beside (st : Store α ε) (c : ChannelRef) (signal : Signal α ε) :
    st.Beside (st.forward c signal).1 := by
  have sends := st.forward_sends c signal
  generalize st.forward c signal = left at sends ⊢
  cases sends with
  | missed | gone | full => exact .refl st
  | kept => exact modifyChannel_beside st c _

theorem forward_aside (st : Store α ε) (c : ChannelRef) (signal : Signal α ε) :
    ∀ event ∈ (st.forward c signal).2, event.isAside = true := by
  have sends := st.forward_sends c signal
  generalize st.forward c signal = left at sends ⊢
  cases sends with
  | missed | kept => exact List.forall_mem_nil _
  | gone | full => exact List.forall_mem_singleton.2 rfl

theorem close_beside (st : Store α ε) (g : GateRef) : st.Beside (st.close g).1 := by
  unfold close
  split
  · exact .refl st
  · exact ⟨rfl, rfl, fun _ => rfl⟩

theorem close_aside (st : Store α ε) (g : GateRef) :
    ∀ event ∈ (st.close g).2, event.isAside = true := by
  unfold close
  split <;> simp [Event.isAside]

theorem runHook_aside (slot : Nat) (steps : List (Step α ε)) :
    ∀ t ∈ runHook slot steps, t.isAside = true := by
  simp [runHook, Task.isAside, Task.inCall]

theorem runHook_mute (slot : Nat) (steps : List (Step α ε)) (s : SinkRef) :
    (runHook slot steps).any (Task.refersTo s) = false := by
  simp [runHook, Task.refersTo]

theorem Reacts.deed {st : Store α ε} {h : HandleRef} {consumer : Consumer α ε}
    {signal : Signal α ε} {e : Effect α ε} (reacts : st.Reacts h consumer signal e) :
    Deed st may e := by
  -- the steps in a hook are left to be performed
  have hook : ∀ {st' : Store α ε}, st.Beside st' → ∀ slot steps,
      Deed st may ⟨st', [], runHook slot steps⟩ := by
    intro st' beside slot steps
    refine .aside beside.sinks beside.handles ?_ (List.forall_mem_nil _) (runHook_aside slot steps)
    intro s
    rw [runHook_mute, Bool.or_false, beside.names]
  cases reacts with
  | greeting slot hooks =>
      refine hook ?_ slot _
      exact ⟨rfl, rfl, fun _ => rfl⟩
  | running slot | valued slot => exact hook (.refl st) slot _
  | asking | askingOnce => exact .requesting (.refl st) h _
  | completed => exact .quiet (.refl st)
  | unheard => exact .told (.refl st) _ (by simp [Event.isAside])
  | sending c signal => exact .told (forward_beside st c signal) _ (forward_aside st c signal)
  | sendingAsking c n =>
      exact .after (forward_aside st c _) (.requesting (forward_beside st c _) h n)
  | closing g => exact .told (close_beside st g) _ (close_aside st g)

/-- **A consumer's answer is a deed that ends no sink.** -/
theorem react_deed (st : Store α ε) (consumer : Consumer α ε) (h : HandleRef)
    (signal : Signal α ε) : Deed st (fun _ => False) (st.react consumer h signal) :=
  (st.react_reacts consumer h signal).deed

/-! ## Steps -/

theorem names_of_sink? {st : Store α ε} {k : Nat} {s : SinkRef} (found : st.sink? k = some s) :
    st.names s = true := by
  have member : some s ∈ st.slots.sinks := List.mem_of_getElem? (Option.join_eq_some_iff.1 found)
  simp [names, member]

/-- Emptying a slot takes away one reference to what stood there. -/
theorem contains_set_none {β : Type} [BEq β] [LawfulBEq β] {slots : List (Option β)} {k : Nat}
    {b : β} (found : slot? slots k = some b) (a : β) :
    ((slots.set k none).contains (some a) || a == b) = slots.contains (some a) := by
  have at_ : slots[k]? = some (some b) := Option.join_eq_some_iff.1 found
  rw [Bool.eq_iff_iff]
  simp only [Bool.or_eq_true, List.contains_iff_mem, beq_iff_eq]
  constructor
  · rintro (member | rfl)
    · rcases List.mem_or_eq_of_mem_set member with old | none_
      · exact old
      · simp at none_
    · exact List.mem_of_getElem? at_
  · intro member
    obtain ⟨i, at_i⟩ := List.mem_iff_getElem?.1 member
    by_cases same : i = k
    · subst same
      right
      simpa [at_] using at_i.symm
    · left
      exact List.mem_iff_getElem?.2 ⟨i, by rw [List.getElem?_set_ne (Ne.symm same)]; exact at_i⟩

/-! What the steps on slots do to the sinks that are referred to. -/

theorem names_addSink (st : Store α ε) (s t : SinkRef) :
    (st.addSink s).names t = (st.names t || t == s) := by
  rw [Bool.eq_iff_iff]
  simp [addSink, modifySlots, names, or_right_comm]

theorem names_addNewSink (st : Store α ε) (label : String) (t : SinkRef) :
    (st.addNewSink label).names t = (st.names t || t == st.sinks.length) :=
  names_addSink { st with sinks := st.sinks ++ [Sink.ofLabel label] } st.sinks.length t

theorem names_addSeed (st : Store α ε) (seed : Seed) (t : SinkRef) :
    (st.modifySlots fun x => { x with seeds := x.seeds ++ [some seed] }).names t =
      (st.names t || .existing t == seed) := by
  rw [Bool.eq_iff_iff]
  simp [modifySlots, names, or_assoc]

theorem names_dropSink {st : Store α ε} {k : Nat} {s : SinkRef} (found : st.sink? k = some s)
    (t : SinkRef) :
    ((st.modifySlots fun x => { x with sinks := x.sinks.set k none }).names t || t == s) =
      st.names t := by
  simp only [modifySlots, names]
  rw [Bool.or_right_comm, contains_set_none found]

theorem names_dropSeed {st : Store α ε} {k : Nat} {seed : Seed} (found : st.seed? k = some seed)
    (t : SinkRef) :
    ((st.modifySlots fun x => { x with seeds := x.seeds.set k none }).names t ||
      .existing t == seed) = st.names t := by
  simp only [modifySlots, names]
  rw [Bool.or_assoc, contains_set_none found]

theorem names_or_of_names {st : Store α ε} {s : SinkRef} (named : st.names s = true)
    (t : SinkRef) : (st.names t || t == s) = st.names t := by
  by_cases same : t = s
  · rw [same, named, Bool.true_or]
  · simp [same]

/-- The slots and what is given up refer to the same sinks as the slots did before. -/
theorem Reslots.names {st : Store α ε} {within : Option Nat} {step : Step α ε} {slots : Slots}
    {tasks : List (Task α ε)} (reslots : st.Reslots within step slots tasks) (t : SinkRef) :
    ({ st with slots }.names t || tasks.any (Task.refersTo t)) = st.names t := by
  cases reslots with
  | @cloneSink k s found =>
      show ((st.addSink s).names t || false) = _
      rw [Bool.or_false, names_addSink, names_or_of_names (names_of_sink? found)]
  | @dropSink k s found =>
      rw [← names_dropSink found t]
      simp [modifySlots, Task.refersTo]
  | @seed source seed held =>
      show ((st.modifySlots fun x => { x with seeds := x.seeds ++ [some seed] }).names t ||
        false) = _
      rw [Bool.or_false, names_addSeed]
      by_cases same : seed = .existing t
      · obtain ⟨k, found⟩ := held t same
        rw [names_of_sink? found, Bool.true_or]
      · simp [Ne.symm same]
  | @growSeed k s found =>
      -- the seed hands its reference on to a slot
      have same : (Seed.existing t == .existing s) = (t == s) := by
        rw [Bool.eq_iff_iff]
        simp
      show (((st.modifySlots fun x => { x with seeds := x.seeds.set k none }).addSink s).names t ||
        false) = _
      rw [Bool.or_false, names_addSink, ← names_dropSeed found t, same]
  | cloneSub | dropChannel | withSubscription | cloneGate => exact Bool.or_false _

theorem Reslots.aside {st : Store α ε} {within : Option Nat} {step : Step α ε} {slots : Slots}
    {tasks : List (Task α ε)} (reslots : st.Reslots within step slots tasks) :
    ∀ t ∈ tasks, t.isAside = true := by
  cases reslots with
  | dropSink => exact List.forall_mem_singleton.2 rfl
  | _ => exact List.forall_mem_nil _

/-- What a step makes before it subscribes is no sink and no handle. -/
theorem Readies.beside {st st' : Store α ε} {k : Nat} {step : Step α ε} {consumer : Consumer α ε}
    {closing : Closing α ε} (readies : st.Readies k step st' consumer closing) :
    st.Beside st' := by
  cases readies <;> exact ⟨rfl, rfl, fun _ => rfl⟩

/-- A seed that is to become a new sink refers to none. -/
theorem sprout_names {st : Store α ε} {k : Nat} {label : String}
    (found : st.seed? k = some (.fresh label)) (t : SinkRef) :
    ((st.modifySlots fun x => { x with seeds := x.seeds.set k none }).addNewSink label).names t =
      (st.names t || t == st.sinks.length) := by
  have other : (Seed.existing t == .fresh label) = false := by simp
  rw [names_addNewSink, ← names_dropSeed found t, other, Bool.or_false]
  rfl

/-- **Every step of a script is a deed**, and ends the sink that it says if any. -/
theorem perform_deed (st : Store α ε) (agenda : List (Task α ε)) (within : Option Nat)
    (step : Step α ε) :
    Deed st (fun s => ∃ o, step.Ends st s o) (st.perform agenda within step).1 := by
  have performs := st.perform_performs agenda within step
  generalize st.perform agenda within step = performed at performs ⊢
  cases performs with
  | still => exact .quiet (.refl st)
  | founding | foundingStandard => exact .founding _ rfl rfl (st.names_addNewSink _)
  | sprouting found => exact .founding _ rfl rfl (sprout_names found)
  | reslotting reslots =>
      exact .aside rfl rfl reslots.names (List.forall_mem_nil _) reslots.aside
  | @ending step k s o ends found =>
      exact .ending (names_of_sink? found) ⟨o, k, ends, found⟩ o
  | subscribing found readies => exact .subscribing readies.beside (names_of_sink? found) _
  | requesting found n => exact .requesting (.refl st) _ n
  | cancelling | cancellingAttached => exact .cancelling _
  | opening | openingGate | hangingUp => exact .quiet ⟨rfl, rfl, fun _ => rfl⟩
  | signalling found call h signal =>
      exact .followedBy (by simp [Task.isAside, Task.inCall]) (by simp [Task.refersTo])
        (.after (by simp [Event.isAside]) (st.react_reacts _ h signal).deed)
  | signallingGate found call h signal =>
      exact .followedBy (by simp) (by simp)
        (.after (by simp [Event.isAside]) (st.react_reacts _ h signal).deed)
  | @taking step k x =>
      exact .told (modifyChannel_beside st x.channel _) _ (by simp [Event.isAside])

/-- A reply makes slots, but none for a sink. -/
theorem conclude_beside (st : Store α ε) (closing : Closing α ε) :
    st.Beside (st.conclude closing).1 := by
  cases closing <;> exact ⟨rfl, rfl, fun _ => rfl⟩

end Store

/-! ## Tasks of a script -/

theorem Task.effect_perform_deed (st : Store α ε) (rest : List (Task α ε)) (within : Option Nat)
    (step : Step α ε) :
    Deed st (fun s => ∃ o, step.Ends st s o) ((Task.perform within step).effect st rest) := by
  refine .followedBy ?_ (by simp [refersTo])
    (.after (by simp [Event.isAside]) (st.perform_deed rest within step))
  simp [isAside, inCall]

theorem Task.effect_answer_deed (st : Store α ε) (rest : List (Task α ε)) (within : Option Nat)
    (step : Step α ε) (closing : Closing α ε) :
    Deed st (fun _ => False) ((Task.answer within step closing).effect st rest) :=
  .told (st.conclude_beside closing) _ (by simp [Event.isAside])

end OneShot
