/-
# OneShot.Proofs.Preservation -- every step of a machine keeps the invariant

One lemma for each call of the library, in two groups.

* What a step or a consumer starts (`request`, `cancel`, `subscribe`, `terminate`) finds a
  machine that is sound and about to start no callback.
* The turn of a handle (`notify`, `finish`, `deliver`) finds the handle standing nowhere
  (`Sound.turn_of`) and puts it back on its course.

`Deed.sound` gathers the first group for all steps and consumers, `Sound.step` everything.
-/
import OneShot.Proofs.Conduct
import OneShot.Proofs.Sound

namespace OneShot

set_option autoImplicit false

variable {α ε : Type}

theorem Task.isOf_of_letGo {h : HandleRef} (hs : List HandleRef) :
    (letGo hs : Task α ε).isOf h := fun _ _ => rfl

theorem Task.isOf_of_concerns {h : HandleRef} {t : Task α ε} (own : t.concerns h = true) :
    t.isOf h := by
  intro g ne
  cases t <;> simp_all [concerns, Ne.symm ne]

namespace SoundBut

variable {m : Machine α ε}

theorem calm_pending (calm : m.Calm) (h : HandleRef) : ∀ t ∈ m.pending h, t.isNotify = false :=
  fun t member => calm t (List.mem_filter.1 member).1

/-! ## Demand and cancellation -/

theorem request (sound : SoundBut none m) (calm : m.Calm) (h : HandleRef) (n : UInt64) :
    Sound (m.undergo (m.store.request h n)) := by
  have standing : ∀ {x : Handle α ε}, m.store.handles[h]? = some x → _ := fun found =>
    sound.standing h _ (by simp) found
  have calmly := calm_pending calm h
  have letsGo : ∀ t ∈ [(.letGo [h] : Task α ε)], t.isOf h := by
    simpa using Task.isOf_of_letGo [h]
  -- the ledger gains demand, unless it is refused
  have gains : n ≠ 0 → ∀ others : List (Event α ε), (∀ event ∈ others, event.isAside = true) →
      Ledger.of h (m.history ++ .requesting h n :: others) =
        { Ledger.of h m.history with asked := true } := fun positive others aside =>
    Ledger.of_demand _ positive fun event member => Event.concerns_of_isAside (aside event member) h
  have asks := m.store.request_asks h n
  generalize m.store.request h n = e at asks ⊢
  cases asks with
  | missed => exact sound.rest calm
  | refused found on zero =>
      refine sound.weaken.settle_still calm found (by simp [Event.isOf]) letsGo (by simp) ?_
      rw [zero, Ledger.of_no_demand _ (by simp [Event.concerns])]
      exact standing found
  | first found on positive idle =>
      refine sound.weaken.settle_handle calm found (fun _ => by rfl) (by simp [Event.isOf]) letsGo
        (by simp) ?_
      rw [gains positive [] (by simp)]
      exact (standing found).ask_idle calmly idle
  | served found on positive parked slot =>
      obtain ⟨v, filled, free, stands⟩ := (standing found).ask_parked parked
      cases slot.symm.trans filled
      refine sound.weaken.settle_handle calm found (fun _ => by rfl) (by simp [Event.isOf]) ?_
        (by simp [Task.isNotify]) ?_
      · simpa using ⟨Task.isOf_of_concerns (by simp [Task.concerns]), Task.isOf_of_letGo [h]⟩
      · rw [gains positive _ (by simp [Event.isAside]), free]
        simpa [Task.concerns] using stands
  | spoilt found on positive parked slot unvalued =>
      obtain ⟨v, filled, -⟩ := (standing found).ask_parked parked
      exact absurd (Option.some.inj (slot.symm.trans filled)) (unvalued v)
  | empty found on positive parked slot =>
      obtain ⟨v, filled, -⟩ := (standing found).ask_parked parked
      cases slot.symm.trans filled
  | again found on positive begun unparked =>
      refine sound.weaken.settle_still calm found (by simp [Event.isOf]) letsGo (by simp) ?_
      rw [gains positive [] (by simp)]
      exact (standing found).ask_again calmly begun unparked

theorem cancel (sound : SoundBut none m) (calm : m.Calm) (h : HandleRef) :
    Sound (m.undergo (m.store.cancel h)) := by
  have letsGo : ∀ t ∈ [(.letGo [h] : Task α ε)], t.isOf h := by
    simpa using Task.isOf_of_letGo [h]
  have cancels := m.store.cancel_cancels h
  generalize m.store.cancel h = e at cancels ⊢
  cases cancels with
  | missed => exact sound.rest calm
  | @again x found on gone =>
      have stands := sound.standing h x (by simp) found
      refine sound.weaken.settle_still calm found (by simp [Event.isOf]) letsGo (by simp) ?_
      have already : { Ledger.of h m.history with renounced := true } = Ledger.of h m.history := by
        rw [← stands.renounced_iff.2 gone]
      rw [Ledger.of_cancel _ (by simp), already]
      exact stands
  | @first x found on kept =>
      -- the handle is silenced, and then leaves the registry
      have stands := sound.standing h x (by simp) found
      have coherent := sound.coherent.modifyHandle h (f := Handle.silence) fun _ => rfl
      have frame := m.store.modifyHandle_frame h Handle.silence
      have silenced : (m.store.modifyHandle h Handle.silence).handles[h]? = some x.silence := by
        simp [Store.modifyHandle_handles, found]
      have same := m.store.modifyHandle_registry h Handle.silence x.sink
      generalize m.store.modifyHandle h Handle.silence = st at coherent frame silenced same
      have aside := st.unregister_aside x.sink h
      refine sound.weaken.settle calm (coherent.unregister x.sink h)
        (frame.trans (st.unregister_frame x.sink h)) ?_ letsGo (by simp) found
        (by rw [Store.unregister_handles]; exact silenced) (rfl : x.silence.sink = x.sink) ?_
      · refine List.forall_mem_cons.2 ⟨by simp [Event.isOf], List.forall_mem_cons.2 ⟨rfl, ?_⟩⟩
        intro event member
        exact Event.isOf_of_isAside (aside event member) h
      · rw [Ledger.of_cancel]
        · rw [Store.unregister_registry, if_pos rfl,
            Registry.place_erase_self (coherent.distinct _), same]
          exact stands.renounce (calm_pending calm h)
        · refine List.forall_mem_cons.2 ⟨rfl, ?_⟩
          intro event member
          exact Event.concerns_of_isAside (aside event member) h

end SoundBut

/-! ## Subscribing -/

theorem getElem?_snoc {β : Type} (l : List β) (b : β) (i : Nat) :
    (l ++ [b])[i]? = if i = l.length then some b else l[i]? := by
  by_cases last : i = l.length
  · subst last; simp
  · rw [if_neg last]
    by_cases inside : i < l.length
    · rw [List.getElem?_append_left inside]
    · rw [List.getElem?_eq_none (by simp; omega), List.getElem?_eq_none (by omega)]

namespace Store

section Subscribe

variable (st : Store α ε) (s : SinkRef) (consumer : Consumer α ε)

theorem subscribe_registry (t : SinkRef) :
    (st.subscribe s consumer).2.store.registry t = st.registry t :=
  st.registry_modifySink (f := fun x => { x with nextId := x.nextId + 1 }) (fun _ => rfl) t

theorem subscribe_flag (t : SinkRef) :
    (st.subscribe s consumer).2.store.flag t = st.flag t :=
  st.flag_modifySink (f := fun x => { x with nextId := x.nextId + 1 }) (fun _ => rfl) t

theorem subscribe_length : (st.subscribe s consumer).2.store.sinks.length = st.sinks.length :=
  st.modifySink_length s _

/-- Subscribing makes one handle, behind those that are there. -/
theorem subscribe_handles : ∃ id, ∀ g : HandleRef,
    (st.subscribe s consumer).2.store.handles[g]? =
      if g = st.handles.length then some (Handle.new s id consumer) else st.handles[g]? :=
  ⟨_, getElem?_snoc st.handles _⟩

end Subscribe

theorem Coherent.subscribe {st : Store α ε} (ok : st.Coherent) {s : SinkRef}
    (named : st.names s = true) (consumer : Consumer α ε) :
    (st.subscribe s consumer).2.store.Coherent := by
  obtain ⟨id, handles⟩ := st.subscribe_handles s consumer
  refine ⟨?_, ?_, ?_, ?_⟩
  · intro t name
    rw [subscribe_length]
    exact ok.named t name
  · intro g x found
    rw [subscribe_length]
    rw [handles] at found
    split at found
    · obtain rfl := Option.some.inj found
      exact ok.named s named
    · exact ok.housed g x found
  · intro t g member
    rw [subscribe_registry] at member
    obtain ⟨x, found, home⟩ := ok.enrolled t g member
    have old : g ≠ st.handles.length := by
      rintro rfl
      rw [List.getElem?_eq_none (Nat.le_refl _)] at found
      cases found
    exact ⟨x, by rw [handles, if_neg old]; exact found, home⟩
  · intro t
    rw [subscribe_registry]
    exact ok.distinct t

end Store

namespace SoundBut

variable {m : Machine α ε}

theorem subscribe (sound : SoundBut none m) (calm : m.Calm) {s : SinkRef}
    (named : m.store.names s = true) (consumer : Consumer α ε) :
    Sound (m.undergo (m.store.subscribe s consumer).2) := by
  obtain ⟨id, handles⟩ := m.store.subscribe_handles s consumer
  have coherent := sound.coherent.subscribe named consumer
  have fresh : m.store.handles[m.store.handles.length]? = none :=
    List.getElem?_eq_none (Nat.le_refl _)
  have ledgers : ∀ g, Ledger.of g (m.history ++ (m.store.subscribe s consumer).2.events) =
      Ledger.of g m.history := by
    intro g
    exact Ledger.of_append_of_others _ (by simp [Store.subscribe, Event.concerns])
  -- the acknowledgment is the one turn that is new
  have turns : ∀ g, (m.store.subscribe s consumer).2.tasks.filter (Task.concerns g) =
      if g = m.store.handles.length then [.notify g .subscribed] else [] := by
    intro g
    by_cases new : g = m.store.handles.length
    · simp [Store.subscribe, Task.concerns, new]
    · simp [Store.subscribe, Task.concerns, new, Ne.symm new]
  refine ⟨⟨coherent, ?_, ?_, ?_, ?_⟩, calm.turn_undergo (by simp [Store.subscribe, Task.isNotify])⟩
  · intro t
    have mute : attempts t (m.store.subscribe s consumer).2.events = [] := rfl
    rw [Machine.undergo_store, Machine.undergo_history, Store.subscribe_registry,
      Store.subscribe_flag, attempts_append, mute, List.append_nil]
    exact sound.tenure t
  · intro t g
    rw [Machine.undergo_history, Machine.undergo_store, handles, List.mem_append, sound.made t g]
    by_cases new : g = m.store.handles.length
    · subst new
      simp [Store.subscribe, Handle.new, eq_comm]
    · simp [new, Store.subscribe]
  · intro g absent
    rw [Machine.undergo_store, handles] at absent
    split at absent
    · cases absent
    · rename_i old
      rw [Machine.undergo_history, Machine.pending_undergo, ledgers, turns, if_neg old]
      exact sound.unborn g absent
  · intro g x _ found
    rw [Machine.undergo_store, handles] at found
    rw [Machine.undergo_store, Machine.undergo_history, Machine.pending_undergo, ledgers, turns,
      Store.subscribe_registry]
    split at found
    · rename_i new
      obtain rfl := Option.some.inj found
      subst new
      obtain ⟨idle, blank⟩ := sound.unborn _ fresh
      have out : (m.store.registry s).place m.store.handles.length ≠ .waiting := by
        intro waits
        obtain ⟨x, found, -⟩ := sound.coherent.enrolled s _ (Registry.place_eq_waiting.1 waits)
        rw [fresh] at found
        cases found
      rw [if_pos rfl, idle, blank]
      exact Standing.new s id consumer out
    · rename_i old
      rw [if_neg old]
      exact sound.standing g x (by simp) found

end SoundBut

/-! ## Ending a sink -/

theorem attempts_ending (s t : SinkRef) (o : Outcome α ε) (won : Bool) (notice : Notice) :
    attempts t [.terminating s o won, .noticed notice] = if t = s then [(o, won)] else [] := by
  by_cases same : t = s
  · simp [attempts, Event.attempt?, same]
  · simp [attempts, Event.attempt?, same, Ne.symm same]

/-- When its sink ends, a handle that waits is offered the outcome, and any other goes on as
before. -/
theorem Standing.close {r : Registry α ε} (open_ : r.outcome? = none) {h : HandleRef}
    {x : Handle α ε} {l : Ledger α ε} {pending : List (Task α ε)}
    (stands : Standing h x (r.place h) l pending) (o : Outcome α ε) :
    Standing h x (.closed o) l ((if h ∈ r.handles then [.deliver h o] else []) ++ pending) := by
  obtain ⟨phase, parked, keepAlive, course⟩ := stands
  refine ⟨phase, parked, keepAlive, ?_⟩
  cases place : r.place h with
  | waiting =>
      rw [place] at course
      obtain ⟨none_, heard, idle⟩ := course.of_waiting
      rw [if_pos (Registry.place_eq_waiting.1 place), none_, heard, idle]
      exact .offered rfl
  | apart =>
      have out : h ∉ r.handles := by
        rw [← Registry.place_eq_waiting, place]
        simp
      rw [place] at course
      rw [if_neg out]
      exact course.pass_by o
  | closed o' =>
      rw [Registry.place_eq_closed.1 place] at open_
      cases open_

/-- The loop over a registry has one offer for each handle in it. -/
theorem filter_offers {handles : List HandleRef} (distinct : handles.Nodup) (o : Outcome α ε)
    (h : HandleRef) :
    (handles.map fun g => (.deliver g o : Task α ε)).filter (Task.concerns h) =
      if h ∈ handles then [.deliver h o] else [] := by
  have own : (Task.concerns h ∘ fun g => (.deliver g o : Task α ε)) = (· == h) := rfl
  rw [List.filter_map, own, List.filter_beq, distinct.count]
  by_cases member : h ∈ handles <;> simp [member]

namespace SoundBut

variable {m : Machine α ε}

/-- A losing call leaves a mark in the tenure of its sink and nowhere else. -/
theorem lose (sound : SoundBut none m) (calm : m.Calm) {s : SinkRef}
    (closed : m.store.flag s ≠ .pending) (o : Outcome α ε) (notice : Notice) :
    Sound (m.undergo ⟨m.store, [.terminating s o false, .noticed notice], [.giveUp s]⟩) := by
  have ledgers : ∀ h, Ledger.of h (m.history ++ [.terminating s o false, .noticed notice]) =
      Ledger.of h m.history := by
    intro h
    exact Ledger.of_append_of_others _ (by simp [Event.concerns])
  refine SoundBut.rest ⟨sound.coherent, ?_, ?_, ?_, ?_⟩ (calm.undergo (by simp [Task.isNotify]))
  · intro t
    rw [Machine.undergo_history, attempts_append, attempts_ending]
    by_cases same : t = s
    · subst same
      simpa using (sound.tenure t).lose closed o
    · simpa [same] using sound.tenure t
  · intro t h
    simpa using sound.made t h
  · intro h none_
    rw [Machine.undergo_history, ledgers]
    simpa [Task.concerns] using sound.unborn h none_
  · intro h x _ found
    rw [Machine.undergo_history, ledgers]
    simpa [Task.concerns] using sound.standing h x (by simp) found

/-- The winning call closes the registry, and offers its outcome to all that stood in it. -/
theorem win (sound : SoundBut none m) (calm : m.Calm) {s : SinkRef} {y : Sink α ε}
    (found : m.store.sinks[s]? = some y) (pending : y.flag = .pending) (o : Outcome α ε)
    (notice : Notice) :
    Sound (m.undergo ⟨m.store.freeze s o, [.terminating s o true, .noticed notice],
      y.registry.handles.map (.deliver · o) ++ [.letGo y.registry.handles, .giveUp s]⟩) := by
  have registry : m.store.registry s = y.registry := m.store.registry_of_sinks found
  obtain ⟨open_, first⟩ : y.registry.outcome? = none ∧ attempts s m.history = [] := by
    have tenure := sound.tenure s
    rw [m.store.flag_of_sinks found, pending, registry] at tenure
    exact tenure.of_pending
  have home : ∀ h ∈ y.registry.handles, ∃ x : Handle α ε,
      m.store.handles[h]? = some x ∧ x.sink = s := by
    intro h member
    exact sound.coherent.enrolled s h (registry ▸ member)
  have ledgers : ∀ h, Ledger.of h (m.history ++ [.terminating s o true, .noticed notice]) =
      Ledger.of h m.history := by
    intro h
    exact Ledger.of_append_of_others _ (by simp [Event.concerns])
  -- the offers are the turns of the handles that stood in the registry
  have turns : ∀ h, (y.registry.handles.map (fun g => (.deliver g o : Task α ε)) ++
      [Task.letGo y.registry.handles, Task.giveUp s]).filter (Task.concerns h) =
        if h ∈ y.registry.handles then [.deliver h o] else [] := by
    intro h
    rw [List.filter_append, filter_offers (registry ▸ sound.coherent.distinct s)]
    simp [Task.concerns]
  have silent : ∀ t ∈ y.registry.handles.map (fun g => (.deliver g o : Task α ε)) ++
      [Task.letGo y.registry.handles, Task.giveUp s], t.isNotify = false := by
    refine List.forall_mem_append.2 ⟨?_, by simp [Task.isNotify]⟩
    intro t member
    obtain ⟨h, -, rfl⟩ := List.mem_map.1 member
    rfl
  refine SoundBut.rest ⟨sound.coherent.freeze found o, ?_, ?_, ?_, ?_⟩ (calm.undergo silent)
  · intro t
    rw [Machine.undergo_store, Machine.undergo_history, attempts_append, attempts_ending,
      Store.freeze_registry found, Store.freeze_flag found]
    by_cases same : t = s
    · subst same
      have ended : Tenure (some o) o.termination [(o, true)] := .ended o (by simp)
      simpa [first, Registry.outcome?] using ended
    · simpa [same] using sound.tenure t
  · intro t h
    simpa using sound.made t h
  · intro h none_
    have absent : h ∉ y.registry.handles := by
      intro member
      obtain ⟨x, found, -⟩ := home h member
      exact absurd (found.symm.trans none_) (by simp)
    rw [Machine.undergo_history, ledgers, Machine.pending_undergo, turns, if_neg absent]
    exact sound.unborn h none_
  · intro h x _ at_
    have stands := sound.standing h x (by simp) at_
    rw [Machine.undergo_store, Store.freeze_registry found, Machine.undergo_history, ledgers,
      Machine.pending_undergo, turns]
    by_cases same : x.sink = s
    · rw [same, registry] at stands
      rw [if_pos same]
      exact stands.close open_ o
    · have absent : h ∉ y.registry.handles := by
        intro member
        obtain ⟨x', at', home⟩ := home h member
        obtain rfl : x = x' := Option.some.inj (at_.symm.trans at')
        exact same home
      rw [if_neg same, if_neg absent]
      exact stands

theorem terminate (sound : SoundBut none m) (calm : m.Calm) {s : SinkRef}
    (named : m.store.names s = true) (o : Outcome α ε) :
    Sound (m.undergo (m.store.terminate s o).2) := by
  have ends := m.store.terminate_ends s o
  generalize m.store.terminate s o = called at ends ⊢
  cases ends with
  | missed none_ => exact absurd (sound.coherent.named s named) (by simpa using none_)
  | won found pending => exact sound.win calm found pending o _
  | lost found closed => exact sound.lose calm (by rwa [m.store.flag_of_sinks found]) o _

/-! ## Steps and consumers -/

/-- What bears on no handle may come before an effect, and be done after it. -/
theorem aside (sound : SoundBut none m) (calm : m.Calm) {events : List (Event α ε)}
    {tasks : List (Task α ε)} (told : ∀ event ∈ events, event.isAside = true)
    (left : ∀ t ∈ tasks, t.isAside = true) :
    SoundBut none (m.undergo ⟨m.store, events, tasks⟩) ∧
      (m.undergo ⟨m.store, events, tasks⟩).Calm := by
  have passed := sound.pass (e := ⟨m.store, events, tasks⟩) calm sound.coherent.named
    (Nat.le_refl _) (fun _ => rfl) (fun _ => rfl) (fun _ => rfl)
    (fun event member h => Event.isOf_of_isAside (told event member) h)
    fun t member h => Task.concerns_of_isAside (left t member) h
  exact ⟨passed.toSoundBut, calm.undergo fun t member => Task.isNotify_of_isAside (left t member)⟩

end SoundBut

/-- **What steps and consumers do keeps the invariant.** -/
theorem Deed.sound {m : Machine α ε} {may : SinkRef → Prop} {e : Effect α ε}
    (deed : Deed m.store may e) (sound : SoundBut none m) (calm : m.Calm) : Sound (m.undergo e) := by
  generalize same : m.store = st at deed
  induction deed generalizing m with
  | aside sinks handles names events tasks =>
      subst same
      refine sound.pass calm ?_ (by simp [sinks]) (by simp [Store.registry, sinks])
        (by simp [Store.flag, sinks]) (by simp [handles])
        (fun event member h => Event.isOf_of_isAside (events event member) h)
        fun t member h => Task.concerns_of_isAside (tasks t member) h
      intro s named
      rw [sinks]
      exact sound.coherent.named s (by rw [← names s, named, Bool.true_or])
  | founding label sinks handles names =>
      subst same
      refine sound.pass calm ?_ (by simp [Effect.quiet, sinks]) ?_ ?_
        (by simp [Effect.quiet, handles]) (by simp [Effect.quiet]) (by simp [Effect.quiet])
      · intro s named
        have inside := sound.coherent.named s
        simp only [Effect.quiet, names, Bool.or_eq_true, beq_iff_eq] at named
        simp only [Effect.quiet, sinks, List.length_append, List.length_singleton]
        rcases named with old | rfl
        · exact Nat.lt_succ_of_lt (inside old)
        · exact Nat.lt_succ_self _
      · intro s
        simp only [Effect.quiet, Store.registry, sinks, getElem?_snoc]
        split
        · rename_i last; subst last; simp [Sink.ofLabel]
        · rfl
      · intro s
        simp only [Effect.quiet, Store.flag, sinks, getElem?_snoc]
        split
        · rename_i last; subst last; simp [Sink.ofLabel]
        · rfl
  | subscribing beside named consumer =>
      subst same
      exact (sound.beside beside).subscribe calm (by rw [← named]; exact beside.names _) consumer
  | ending named allowed o => subst same; exact sound.terminate calm named o
  | requesting beside h n => subst same; exact (sound.beside beside).request calm h n
  | cancelling h => subst same; exact sound.cancel calm h
  | after told deed ih =>
      rw [Machine.undergo_after]
      obtain ⟨sound, calm⟩ := sound.aside calm told (by simp : ∀ t ∈ ([] : List (Task α ε)), _)
      exact ih sound calm same
  | followedBy left mute deed ih =>
      rw [Machine.undergo_followedBy]
      obtain ⟨sound, calm⟩ := sound.aside calm (by simp : ∀ e ∈ ([] : List (Event α ε)), _) left
      exact ih sound calm same

end OneShot
