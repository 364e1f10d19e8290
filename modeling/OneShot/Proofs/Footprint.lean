/-
# OneShot.Proofs.Footprint -- how far a call reaches

Handles, sinks and outlets are found by what they are, never by their numbers or labels.  So a
call on one sink stays within that sink: `Store.Keeps own s` says that at most the registry of
`s`, the handles in `own` and the outlets of these handles have changed, and `Effect.Stays` that
an effect keeps to that, in what it says and in the tasks that it leaves as well.

* `Task.effect_stays`: every task that is `Within` stays within, but for steps of scripts.
* `Store.perform_stays`: the steps that call on a sink stay within that sink.
-/
import OneShot.Proofs.Cancellation
import OneShot.Proofs.Outlets.Channel

namespace OneShot

set_option autoImplicit false

variable {α ε : Type}

/-! ## What may change -/

/-- What stands at an outlet. -/
def Store.outlet? (st : Store α ε) : DirectTarget → Option (Channel α ε ⊕ Bool)
  | .channel c => st.channels[c]?.map .inl
  | .gate g => st.gates[g]?.map .inr

/-- The second store differs from the first at most in the sink `s`, in the handles in `own`, in
the outlets of these handles, in slots, and in what is new. -/
structure Store.Keeps (own : HandleRef → Prop) (s : SinkRef) (st st' : Store α ε) : Prop where
  sinks : ∀ t, t ≠ s → st'.sinks[t]? = st.sinks[t]?
  handles : ∀ (h : HandleRef) (x : Handle α ε), ¬ own h → st.handles[h]? = some x →
    st'.handles[h]? = some x
  consumers : ∃ made, st'.consumers = st.consumers ++ made
  outlets : ∀ target y, (∀ h, own h → st'.target? h ≠ some target) →
    st.outlet? target = some y → st'.outlet? target = some y

/-- The task bears at most on the sink `s` and on handles in `own`. -/
def Task.Within (own : HandleRef → Prop) (s : SinkRef) : Task α ε → Prop
  | .notify h _ | .finish h _ | .deliver h _ => own h
  | .letGo hs => ∀ h ∈ hs, own h
  | .giveUp t => t = s
  | .perform _ _ | .answer _ _ _ | .hangUp _ => True

/-- What an effect makes of the store, what it says and what it leaves to do bears at most on the
sink `s` and on handles in `own`. -/
structure Effect.Stays (own : HandleRef → Prop) (s : SinkRef) (st : Store α ε) (e : Effect α ε) :
    Prop where
  store : st.Keeps own s e.store
  said : ∀ event ∈ e.events, ∀ h, ¬ own h → event.concerns h = false
  left : ∀ t ∈ e.tasks, t.Within own s

section Footprints

variable {own : HandleRef → Prop} {s : SinkRef} {st st' st'' : Store α ε} {h : HandleRef}

namespace Store

namespace Keeps

theorem of_cells (sinks : ∀ t, t ≠ s → st'.sinks[t]? = st.sinks[t]?)
    (handles : st'.handles = st.handles) (channels : st'.channels = st.channels)
    (gates : st'.gates = st.gates) : st.Keeps own s st' where
  sinks := sinks
  handles h x _ found := by rw [handles, found]
  consumers := ⟨[], by simp [Store.consumers, handles]⟩
  outlets target y _ found := by
    cases target <;> simpa [outlet?, channels, gates] using found

theorem refl (st : Store α ε) : st.Keeps own s st :=
  .of_cells (fun _ _ => rfl) rfl rfl rfl

/-- The consumer of a handle stays the same. -/
theorem targets (keeps : st.Keeps own s st') {target : DirectTarget}
    (hears : st.target? h = some target) : st'.target? h = some target := by
  obtain ⟨made, grown⟩ := keeps.consumers
  exact target?_mono grown hears

theorem trans (first : st.Keeps own s st') (second : st'.Keeps own s st'') :
    st.Keeps own s st'' where
  sinks t ne := (second.sinks t ne).trans (first.sinks t ne)
  handles h x other found := second.handles h x other (first.handles h x other found)
  consumers := by
    obtain ⟨made, grown⟩ := first.consumers
    obtain ⟨more, grown'⟩ := second.consumers
    exact ⟨made ++ more, by rw [grown', grown, List.append_assoc]⟩
  outlets target y unheard found :=
    -- what is no outlet of these handles at the end was none before
    second.outlets target y unheard
      (first.outlets target y (fun h mine hears => unheard h mine (second.targets hears))
        found)

theorem modifySink (f : Sink α ε → Sink α ε) : st.Keeps own s (st.modifySink s f) :=
  .of_cells (fun t ne => by rw [modifySink_sinks, if_neg ne]) rfl rfl rfl

theorem modifyHandle (mine : own h) {f : Handle α ε → Handle α ε}
    (keep : ∀ x, (f x).consumer = x.consumer) : st.Keeps own s (st.modifyHandle h f) where
  sinks _ _ := rfl
  handles g x other found := by
    have ne : g ≠ h := by rintro rfl; exact other mine
    rw [modifyHandle_handles, if_neg ne, found]
  consumers := ⟨[], by rw [st.modifyHandle_consumers h keep, List.append_nil]⟩
  outlets _ _ _ found := found

theorem unregister : st.Keeps own s (st.unregister s h).1 := by
  unfold Store.unregister
  split
  · exact .modifySink _
  · exact .refl st

/-- A signal changes at most the channel that it goes to. -/
theorem forward (mine : own h) {c : ChannelRef} (hears : st.target? h = some (.channel c))
    (signal : Signal α ε) : st.Keeps own s (st.forward c signal).1 := by
  have beside := st.forward_beside c signal
  refine ⟨fun t _ => by rw [beside.sinks], fun g x _ found => by rw [beside.handles, found],
    ⟨[], by simp [Store.consumers, beside.handles]⟩, ?_⟩
  intro target y unheard found
  cases target with
  | channel d =>
      have ne : c ≠ d := by
        rintro rfl
        exact unheard h mine (by rwa [target?, beside.handles])
      rw [outlet?, (forward_other ne signal).1]
      exact found
  | gate g =>
      rw [outlet?, (st.forward_posts c signal).2]
      exact found

/-- Closing a gate changes no other. -/
theorem close (mine : own h) {g : GateRef} (hears : st.target? h = some (.gate g)) :
    st.Keeps own s (st.close g).1 := by
  unfold Store.close
  split
  · exact .refl st
  · refine ⟨fun _ _ => rfl, fun _ _ _ found => found, ⟨[], (List.append_nil _).symm⟩, ?_⟩
    intro target y unheard found
    cases target with
    | channel c => exact found
    | gate g' =>
        have ne : g ≠ g' := by
          rintro rfl
          exact unheard h mine hears
        simpa [outlet?, List.getElem?_set_ne ne] using found

theorem letGo (agenda : List (Task α ε)) {hs : List HandleRef} (mine : ∀ h ∈ hs, own h) :
    st.Keeps own s (st.letGo agenda hs).1 := by
  induction hs generalizing st with
  | nil => exact .refl st
  | cons h hs ih =>
      have first : st.Keeps own s (st.release agenda h).1 := by
        unfold release
        split
        · exact .modifyHandle (mine h List.mem_cons_self) fun _ => rfl
        · exact .refl st
      exact first.trans (ih fun g member => mine g (List.mem_cons_of_mem h member))

theorem giveUp (agenda : List (Task α ε)) (mine : ∀ h ∈ (st.registry s).handles, own h) :
    st.Keeps own s (st.giveUp agenda s).1 := by
  unfold Store.giveUp
  split
  · exact .refl st
  · exact .letGo agenda mine

end Keeps

end Store

namespace Effect.Stays

open Store

/-- Of what bears on one handle, other handles hear nothing. -/
theorem of_own (mine : own h) {event : Event α ε} (told : event.isOf h = true) :
    ∀ g, ¬ own g → event.concerns g = false := by
  intro g other
  refine Event.concerns_of_isOf told ?_
  rintro rfl
  exact other mine

theorem of_aside {events : List (Event α ε)} (aside : ∀ event ∈ events, event.isAside = true) :
    ∀ event ∈ events, ∀ g, ¬ own g → event.concerns g = false := fun event member g _ =>
  Event.concerns_of_isAside (aside event member) g

theorem quiet (keeps : st.Keeps own s st') : (Effect.quiet st').Stays own s st :=
  ⟨keeps, by simp [Effect.quiet], by simp [Effect.quiet]⟩

theorem after {e : Effect α ε} (stays : e.Stays own s st') (keeps : st.Keeps own s st')
    {events : List (Event α ε)} (said : ∀ event ∈ events, ∀ h, ¬ own h → event.concerns h = false) :
    (e.after events).Stays own s st :=
  ⟨keeps.trans stays.store, List.forall_mem_append.2 ⟨said, stays.said⟩, stays.left⟩

theorem followedBy {e : Effect α ε} (stays : e.Stays own s st) {tasks : List (Task α ε)}
    (left : ∀ t ∈ tasks, t.Within own s) : (e.followedBy tasks).Stays own s st :=
  ⟨stays.store, stays.said, List.forall_mem_append.2 ⟨stays.left, left⟩⟩

theorem request (mine : own h) (n : UInt64) : (st.request h n).Stays own s st := by
  have asks := st.request_asks h n
  have said := st.request_told h n
  generalize st.request h n = e at asks said ⊢
  have others : ∀ event ∈ e.events, ∀ g, ¬ own g → event.concerns g = false :=
    fun event member => of_own mine (said event member).1
  cases asks with
  | missed => exact quiet (.refl st)
  | refused | again => exact ⟨.refl st, others, by simp [Task.Within, mine]⟩
  | first | served | spoilt | empty =>
      exact ⟨.modifyHandle mine fun _ => rfl, others, by simp [Task.Within, mine]⟩

theorem cancel (mine : own h)
    (home : ∀ x : Handle α ε, st.handles[h]? = some x → x.sink = s) :
    (st.cancel h).Stays own s st := by
  have cancels := st.cancel_cancels h
  have said := st.cancel_told h
  generalize st.cancel h = e at cancels said ⊢
  have others : ∀ event ∈ e.events, ∀ g, ¬ own g → event.concerns g = false :=
    fun event member => of_own mine (said event member).1
  cases cancels with
  | missed => exact quiet (.refl st)
  | again => exact ⟨.refl st, others, by simp [Task.Within, mine]⟩
  | @first x found =>
      have silenced : st.Keeps own s (st.modifyHandle h Handle.silence) :=
        .modifyHandle mine fun _ => rfl
      obtain rfl := home x found
      exact ⟨silenced.trans .unregister, others, by simp [Task.Within, mine]⟩

theorem react (mine : own h) {consumer : Consumer α ε}
    (hears : ∀ target, consumer.target? = some target → st.target? h = some target)
    (signal : Signal α ε) : (st.react consumer h signal).Stays own s st := by
  have hook : ∀ (slot : Nat) (steps : List (Step α ε)),
      ∀ t ∈ Store.runHook slot steps, t.Within own s := by
    intro slot steps
    simp [Store.runHook, Task.Within]
  have reacts := st.react_reacts consumer h signal
  generalize st.react consumer h signal = e at reacts ⊢
  cases reacts with
  | greeting slot => exact ⟨.of_cells (fun _ _ => rfl) rfl rfl rfl, by simp, hook slot _⟩
  | running slot | valued slot => exact ⟨.refl st, by simp, hook slot _⟩
  | asking | askingOnce => exact request mine _
  | completed => exact quiet (.refl st)
  | unheard => exact ⟨.refl st, by simp [Event.concerns], List.forall_mem_nil _⟩
  | sending c =>
      exact ⟨.forward mine (hears _ rfl) signal, of_aside (st.forward_aside c signal),
        List.forall_mem_nil _⟩
  | sendingAsking c n =>
      exact (request mine n).after (.forward mine (hears _ rfl) _)
        (of_aside (st.forward_aside c .subscribed))
  | closing g =>
      exact ⟨.close mine (hears _ rfl), of_aside (st.close_aside g), List.forall_mem_nil _⟩

theorem notify (mine : own h) (signal : Signal α ε) : (st.notify h signal).Stays own s st := by
  cases found : st.handles[h]? with
  | none =>
      rw [Store.notify, found]
      exact quiet (.refl st)
  | some x =>
      have hears : ∀ target, x.consumer.target? = some target → st.target? h = some target := by
        intro target outlet
        simp [target?, found, outlet]
      rw [Store.notify_eq found]
      exact ((react mine hears signal).after (.refl st) (by simpa using of_own mine (by simp [Event.isOf]))).followedBy
        (by simpa [Task.Within] using mine)

theorem enrol (mine : own h)
    (home : ∀ x : Handle α ε, st.handles[h]? = some x → x.sink = s) :
    (st.enrol h).Stays own s st := by
  have enrols := st.enrol_enrols h
  generalize st.enrol h = e at enrols ⊢
  cases enrols with
  | missed => exact quiet (.refl st)
  | replayed => exact ⟨.refl st, by simp [Event.concerns], by simpa [Task.Within] using mine⟩
  | @turnedAway x waiting found =>
      obtain rfl := home x found
      have joined : st.Keeps own x.sink (st.join h x.sink waiting) := .modifySink _
      refine ⟨joined.trans .unregister, ?_, List.forall_mem_nil _⟩
      exact of_aside (List.forall_mem_cons.2 ⟨rfl, unregister_aside _ _ h⟩)
  | joined found =>
      obtain rfl := home _ found
      exact ⟨.modifySink _, by simp [Event.concerns], List.forall_mem_nil _⟩

theorem finish (mine : own h)
    (home : ∀ x : Handle α ε, st.handles[h]? = some x → x.sink = s) (signal : Signal α ε) :
    (st.finish h signal).Stays own s st := by
  have said : ∀ event ∈ [(.ended h signal : Event α ε)], ∀ g, ¬ own g → event.concerns g = false := by
    simpa using of_own mine (by simp [Event.isOf])
  refine Stays.after ?_ (.refl st) said
  cases signal with
  | subscribed => exact enrol mine home
  | next v =>
      simp only
      split
      · exact quiet (.refl st)
      · exact ⟨.refl st, by simp, by simpa [Task.Within] using mine⟩
  | complete | error => exact quiet (.refl st)

theorem deliver (mine : own h) (o : Outcome α ε) : (st.deliver h o).Stays own s st := by
  have offers := st.deliver_offers h o
  generalize st.deliver h o = e at offers ⊢
  have said : ∀ g, ¬ own g → (.attempted h o : Event α ε).concerns g = false :=
    of_own mine (by simp [Event.isOf])
  have offered : ∀ (signal : Signal α ε), ∀ t ∈ [Task.notify h signal], t.Within own s := by
    simpa [Task.Within] using fun _ => mine
  cases offers with
  | withheld => exact ⟨.refl st, by simpa [Event.concerns] using said, List.forall_mem_nil _⟩
  | told => exact ⟨.refl st, by simpa using said, offered _⟩
  | fed => exact ⟨.modifyHandle mine fun _ => rfl, by simpa using said, offered _⟩
  | parked =>
      exact ⟨.modifyHandle mine fun _ => rfl, by simpa [Event.concerns] using said,
        List.forall_mem_nil _⟩
  | late => exact ⟨.refl st, by simpa using said, List.forall_mem_nil _⟩

/-- Ending a sink bears on what stands in its registry. -/
theorem terminate (mine : ∀ h ∈ (st.registry s).handles, own h) (o : Outcome α ε) :
    (st.terminate s o).2.Stays own s st := by
  have ends := st.terminate_ends s o
  generalize st.terminate s o = called at ends ⊢
  cases ends with
  | missed => exact quiet (.refl st)
  | lost => exact ⟨.refl st, by simp [Event.concerns], by simp [Task.Within]⟩
  | @won y found =>
      have waiting : ∀ h ∈ y.registry.handles, own h := by
        rwa [registry_of_sinks st found] at mine
      refine ⟨.modifySink _, by simp [Event.concerns], ?_⟩
      refine List.forall_mem_append.2 ⟨List.forall_mem_map.2 waiting, ?_⟩
      simpa [Task.Within] using waiting

/-- A subscription makes a handle, and gives it to the sink. -/
theorem subscribe (keeps : st.Keeps own s st') (handles : st'.handles = st.handles)
    (mine : own st.handles.length) (consumer : Consumer α ε) :
    (st'.subscribe s consumer).2.Stays own s st := by
  have grown : st'.Keeps own s (st'.subscribe s consumer).2.store := by
    refine ⟨?_, ?_, ?_, ?_⟩
    · intro t ne
      exact (st'.modifySink_sinks s _ t).trans (if_neg ne)
    · intro h x _ found
      exact (List.getElem?_append_left (List.getElem?_eq_some_iff.1 found).1).trans found
    · exact ⟨[consumer], by simp [Store.subscribe, Store.consumers, Store.modifySink, Handle.new]⟩
    · intro target y _ found
      cases target <;> exact found
  refine ⟨keeps.trans grown, by simp [Store.subscribe, Event.concerns], ?_⟩
  simpa [Store.subscribe, Task.Within, handles] using mine

end Effect.Stays

/-- **A task that is within stays within.** -/
theorem Task.effect_stays {t : Task α ε} (rest : List (Task α ε)) (within : t.Within own s)
    (idle : ∀ slot step, t ≠ .perform slot step)
    (home : ∀ (h : HandleRef) (x : Handle α ε), own h → st.handles[h]? = some x → x.sink = s)
    (housed : t = .giveUp s → ∀ h ∈ (st.registry s).handles, own h) :
    (t.effect st rest).Stays own s st := by
  have dropped : ∀ {left : Store α ε × List (Event α ε)}, st.Forgets left →
      ∀ event ∈ left.2, ∀ h, ¬ own h → event.concerns h = false := fun forgets =>
    forgets.each fun _ _ _ => rfl
  cases t with
  | perform slot step => exact absurd rfl (idle slot step)
  | answer slot step closing =>
      refine ⟨?_, by simp [effect, Event.concerns], List.forall_mem_nil _⟩
      cases closing <;> exact .of_cells (fun _ _ => rfl) rfl rfl rfl
  | notify h signal => exact .notify within signal
  | finish h signal => exact .finish within (home h · within) signal
  | deliver h o => exact .deliver within o
  | letGo hs => exact ⟨.letGo rest within, dropped (st.letGo_forgets rest hs), List.forall_mem_nil _⟩
  | giveUp t =>
      obtain rfl : t = s := within
      exact ⟨.giveUp rest (housed rfl), dropped (st.giveUp_forgets rest t), List.forall_mem_nil _⟩
  | hangUp c => exact .quiet (.refl st)

end Footprints

/-! ## Calls on a sink -/

namespace Store

/-- The sink that a step calls on: it subscribes to the sink, ends it or drops it, or reaches one
of its handles. -/
def site? (st : Store α ε) (slot : Option Nat) : Step α ε → Option SinkRef
  | .subscribe sink _ _ _ _ | .subscribeFn sink _ | .subscribeChannel sink _ | .gate sink
  | .attachChannel sink _ | .attachGate sink _ | .succeed sink _ | .complete sink | .fail sink _
  | .dropSink sink => st.sink? sink
  | step => (st.reaches? slot step).bind fun h => st.handles[h]?.map Handle.sink

variable {st : Store α ε} {slot : Option Nat} {step : Step α ε} {s : SinkRef} {h : HandleRef}

/-- A step that reaches a handle calls on the sink of that handle. -/
theorem site_of_reaches (reaches : st.reaches? slot step = some h) :
    st.site? slot step = st.handles[h]?.map Handle.sink := by
  cases step with
  | request | cancel | receiverCancel =>
      simp only [reaches?] at reaches
      simp [site?, reaches?, reaches]
  | _ => cases reaches

/-- A step that ends a sink calls on it. -/
theorem site_of_ending {k : Nat} {o : Outcome α ε} (ends : step.ending? = some (k, o)) :
    st.site? slot step = st.sink? k := by
  cases step with
  | succeed sink value => cases value <;> cases ends <;> rfl
  | complete | fail =>
      cases ends
      rfl
  | _ => cases ends

section Readies

variable {st' : Store α ε} {k : Nat} {consumer : Consumer α ε} {closing : Closing α ε}

/-- A step that subscribes calls on the sink. -/
theorem Readies.site (readies : st.Readies k step st' consumer closing) :
    st.site? slot step = st.sink? k := by
  cases readies <;> rfl

/-- What a step makes before it subscribes is new. -/
theorem Readies.keeps {own : HandleRef → Prop} (readies : st.Readies k step st' consumer closing) :
    st.Keeps own s st' := by
  have added : ∀ {β : Type} {l : List β} {y z : β} {i : Nat}, l[i]? = some y →
      (l ++ [z])[i]? = some y := fun at_ =>
    (List.getElem?_append_left (List.getElem?_eq_some_iff.1 at_).1).trans at_
  cases readies with
  | scripted | valueOnly | attachChannel => exact .of_cells (fun _ _ => rfl) rfl rfl rfl
  | attachGate => exact .refl st
  | newChannel =>
      refine ⟨fun _ _ => rfl, fun _ _ _ found => found, ⟨[], (List.append_nil _).symm⟩, ?_⟩
      intro target y _ found
      cases target with
      | channel c =>
          obtain ⟨x, at_, rfl⟩ := Option.map_eq_some_iff.1 found
          exact Option.map_eq_some_iff.2 ⟨x, added at_, rfl⟩
      | gate g => exact found
  | newGate =>
      refine ⟨fun _ _ => rfl, fun _ _ _ found => found, ⟨[], (List.append_nil _).symm⟩, ?_⟩
      intro target y _ found
      cases target with
      | channel c => exact found
      | gate g =>
          obtain ⟨x, at_, rfl⟩ := Option.map_eq_some_iff.1 found
          exact Option.map_eq_some_iff.2 ⟨x, added at_, rfl⟩

end Readies

/-- **A step that calls on a sink stays within that sink.** -/
theorem perform_stays {own : HandleRef → Prop} (site : st.site? slot step = some s)
    (agenda : List (Task α ε)) (reached : ∀ h, st.reaches? slot step = some h → own h)
    (home : ∀ (h : HandleRef) (x : Handle α ε), own h → st.handles[h]? = some x → x.sink = s)
    (housed : ∀ h ∈ (st.registry s).handles, own h)
    (fresh : ∀ h, .subscribing s h ∈ (st.perform agenda slot step).1.events → own h) :
    (st.perform agenda slot step).1.Stays own s st := by
  have performs := st.perform_performs agenda slot step
  generalize st.perform agenda slot step = performed at performs fresh ⊢
  cases performs with
  | still => exact .quiet (.refl st)
  | founding | foundingStandard | sprouting | opening | openingGate | signalling | signallingGate
  | hangingUp => cases site
  | reslotting reslots =>
      cases reslots with
      | dropSink found =>
          obtain rfl := Option.some.inj (found.symm.trans site)
          exact ⟨.of_cells (fun _ _ => rfl) rfl rfl rfl, by simp, by simp [Task.Within]⟩
      | _ => cases site
  | @ending step k t o ends found =>
      obtain rfl := Option.some.inj (found.symm.trans ((site_of_ending ends).symm.trans site))
      exact .terminate housed o
  | subscribing found readies =>
      obtain rfl := Option.some.inj (found.symm.trans (readies.site.symm.trans site))
      have handles := readies.beside.handles
      exact .subscribe readies.keeps handles (fresh _ (by simp [Store.subscribe, handles])) _
  | requesting found n => exact .request (reached _ found) n
  | cancelling found => exact .cancel (reached _ found) (home _ · (reached _ found))
  | @cancellingAttached k r h found attached =>
      have mine : own h := reached h (by simp [reaches?, cancels?, found, attached])
      exact .cancel mine (home h · mine)
  | @taking step k x rest r receives found queue =>
      cases step with
      | recv | tryRecv | recvTimeout | drain => cases site
      | _ => cases receives

end Store

end OneShot
