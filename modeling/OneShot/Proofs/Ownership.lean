/-
# OneShot.Proofs.Ownership -- a handle is alive as long as something owns it

Nobody counts references here.  Who owns a handle is read off the machine: the registry of a
sink that is still referred to, the handle itself while it keeps itself alive, and every
task that still has to let it go.  `Tended m` says that this is exact, at every moment of
every run (`Machine.steps_tended`):

* a handle is alive if and only if it has an owner;
* a turn of a handle stands in the agenda in front of a task that lets the handle go, so
  while a callback is due or running there is an owner;
* a handle was dropped once if it is released, and never if it is not.

What is done to one handle in a call leaves the owners of all others as they were
(`Tended.settle`).  Sinks that are made, ended and given up are looked at one by one.
-/
import OneShot.Proofs.Turns

namespace OneShot

set_option autoImplicit false

variable {α ε : Type}

/-- The last owner of this handle is gone. -/
def Event.drops (h : HandleRef) : Event α ε → Bool
  | dropped h' => h' == h
  | _ => false

theorem Event.drops_of_isAside {event : Event α ε} (aside : event.isAside = true)
    (h : HandleRef) : event.drops h = false := by
  cases event <;> simp_all [isAside, drops]

theorem Task.holds_of_isAside {t : Task α ε} (aside : t.isAside = true) (h : HandleRef) :
    t.holds h = false := by
  cases t <;> simp_all [isAside, inCall, holds]

theorem Task.holds_of_concerns {t : Task α ε} {h : HandleRef} (own : t.concerns h = true)
    (g : HandleRef) : t.holds g = false := by
  cases t <;> simp_all [concerns, holds]

theorem Task.refersTo_of_concerns {t : Task α ε} {h : HandleRef} (own : t.concerns h = true)
    (s : SinkRef) : t.refersTo s = false := by
  cases t <;> simp_all [concerns, refersTo]

theorem Task.eq_of_concerns {t : Task α ε} {h g : HandleRef} (own : t.concerns h = true)
    (own' : t.concerns g = true) : g = h := by
  cases t <;> simp_all [concerns]

/-- Every turn of a handle stands in front of a task that lets the handle go. -/
def Covered : List (Task α ε) → Prop
  | [] => True
  | t :: rest => (∀ h, t.concerns h = true → rest.any (Task.holds h) = true) ∧ Covered rest

namespace Covered

variable {tasks rest : List (Task α ε)}

theorem append (covered : Covered rest)
    (held : ∀ t ∈ tasks, ∀ h, t.concerns h = true → rest.any (Task.holds h) = true) :
    Covered (tasks ++ rest) := by
  induction tasks with
  | nil => exact covered
  | cons t tasks ih =>
      refine ⟨?_, ih fun t member => held t (List.mem_cons_of_mem _ member)⟩
      intro h own
      show (tasks ++ rest).any (Task.holds h) = true
      rw [List.any_append, held t List.mem_cons_self h own, Bool.or_true]

theorem append_of_idle (covered : Covered rest)
    (idle : ∀ t ∈ tasks, ∀ h, t.concerns h = false) : Covered (tasks ++ rest) :=
  covered.append fun t member h own => by simp [idle t member h] at own

/-- A turn, wherever it stands, has its handle held. -/
theorem held (covered : Covered tasks) {t : Task α ε} (member : t ∈ tasks) {h : HandleRef}
    (own : t.concerns h = true) : tasks.any (Task.holds h) = true := by
  induction tasks with
  | nil => cases member
  | cons t' tasks ih =>
      rw [List.any_cons, Bool.or_eq_true]
      right
      rcases List.mem_cons.1 member with rfl | later
      · exact covered.1 h own
      · exact ih covered.2 later

end Covered

/-! ## Owners -/

namespace Store

/-- The handle is there, and has been let go. -/
def gone (st : Store α ε) (h : HandleRef) : Bool := st.handles[h]?.any Handle.released

section Owners

variable {st st' : Store α ε} {agenda agenda' : List (Task α ε)} {h : HandleRef} {x : Handle α ε}

theorem alive_of (found : st.handles[h]? = some x) : st.alive h = !x.released := by
  simp [alive, found]

theorem gone_of (found : st.handles[h]? = some x) : st.gone h = x.released := by
  simp [gone, found]

theorem owned_of (found : st.handles[h]? = some x) :
    st.owned agenda h = (x.keepAlive || agenda.any (Task.holds h) ||
      (st.referenced agenda x.sink && (st.registry x.sink).handles.contains h)) := by
  simp only [owned, found]

theorem owned_of_held (found : st.handles[h]? = some x)
    (held : agenda.any (Task.holds h) = true) : st.owned agenda h = true := by
  simp [owned_of found, held]

/-- What owns a handle is told by the handle, by what holds it, and by where it is enrolled. -/
theorem owned_congr (same : st'.handles[h]? = st.handles[h]?)
    (held : agenda'.any (Task.holds h) = agenda.any (Task.holds h))
    (listed : ∀ x : Handle α ε, st.handles[h]? = some x →
      (st'.referenced agenda' x.sink && (st'.registry x.sink).handles.contains h) =
        (st.referenced agenda x.sink && (st.registry x.sink).handles.contains h)) :
    st'.owned agenda' h = st.owned agenda h := by
  cases found : st.handles[h]? with
  | none => simp [owned, same, found]
  | some x => rw [owned_of (same.trans found), owned_of found, held, listed x found]

/-- The mark of a release does not count among the owners. -/
theorem owned_of_memory (sinks : st'.sinks = st.sinks) (slots : st'.slots = st.slots)
    (memory : st'.handles[h]?.map Handle.memory = st.handles[h]?.map Handle.memory) :
    st'.owned agenda h = st.owned agenda h := by
  have registry : ∀ s, st'.registry s = st.registry s := by
    intro s
    simp [Store.registry, sinks]
  have referenced : ∀ s, st'.referenced agenda s = st.referenced agenda s := by
    intro s
    simp [Store.referenced, names, slots]
  cases found : st.handles[h]? with
  | none =>
      rw [found, Option.map_none, Option.map_eq_none_iff] at memory
      simp [owned, found, memory]
  | some x =>
      rw [found, Option.map_some, Option.map_eq_some_iff] at memory
      obtain ⟨x', found', same⟩ := memory
      simp only [Handle.memory, Handle.mk.injEq] at same
      rw [owned_of found, owned_of found', same.1, same.2.2.2.2.2.1, registry, referenced]

theorem listed_congr {s : SinkRef} (place : (st'.registry s).place h = (st.registry s).place h) :
    (st'.registry s).handles.contains h = (st.registry s).handles.contains h := by
  have same : h ∈ (st'.registry s).handles ↔ h ∈ (st.registry s).handles := by
    rw [← Registry.place_eq_waiting, ← Registry.place_eq_waiting, place]
  rw [Bool.eq_iff_iff, List.contains_iff_mem, List.contains_iff_mem]
  exact same

/-- A sink with a slot is referred to, whatever the agenda. -/
theorem referenced_of_names {s : SinkRef} (named : st.names s = true) :
    st.referenced agenda s = true := by
  simp [referenced, named]

theorem referenced_append {tasks : List (Task α ε)} {s : SinkRef}
    (mute : ∀ t ∈ tasks, t.refersTo s = false) :
    st.referenced (tasks ++ agenda) s = st.referenced agenda s := by
  have none_ : tasks.any (Task.refersTo s) = false := List.any_eq_false.2 fun t member => by
    simp [mute t member]
  simp [referenced, none_]

end Owners

end Store

/-! ## The invariant -/

/-- **Releases are exact.** -/
structure Tended (m : Machine α ε) : Prop where
  covered : Covered m.agenda
  kept : ∀ h, m.store.alive h = m.store.owned m.agenda h
  dropped : ∀ h, m.history.countP (Event.drops h) = (m.store.gone h).toNat

namespace Tended

variable {m : Machine α ε}

/-- A turn finds its handle alive. -/
theorem alive_of_turn (tended : Tended m) {h : HandleRef} {x : Handle α ε}
    (found : m.store.handles[h]? = some x) (held : m.agenda.any (Task.holds h) = true) :
    x.released = false := by
  have alive := tended.kept h
  rw [Store.owned_of_held found held, Store.alive_of found] at alive
  simpa using alive

theorem undergo (tended : Tended m) {e : Effect α ε} (covered : Covered (e.tasks ++ m.agenda))
    (kept : ∀ h, e.store.alive h = e.store.owned (e.tasks ++ m.agenda) h)
    (gone : ∀ h, e.store.gone h = m.store.gone h)
    (mute : ∀ event ∈ e.events, ∀ h, event.drops h = false) : Tended (m.undergo e) := by
  refine ⟨covered, kept, ?_⟩
  intro h
  have none_ : e.events.countP (Event.drops h) = 0 := List.countP_eq_zero.2 fun event member => by
    simp [mute event member h]
  rw [Machine.undergo_history, List.countP_append, none_, Machine.undergo_store, gone h]
  exact tended.dropped h

/-- **What is done to a handle that is alive and held leaves all owners as they were.** -/
theorem settle (tended : Tended m) {h : HandleRef} {x x' : Handle α ε}
    (old : m.store.handles[h]? = some x) (on : x.released = false) {e : Effect α ε}
    (frame : m.store.Frame h e.store) (names : ∀ s, e.store.names s = m.store.names s)
    (new : e.store.handles[h]? = some x') (on' : x'.released = false)
    (covered : Covered (e.tasks ++ m.agenda))
    (held : (e.tasks ++ m.agenda).any (Task.holds h) = true)
    (others : ∀ t ∈ e.tasks, (∀ g, g ≠ h → t.holds g = false) ∧ ∀ s, t.refersTo s = false)
    (mute : ∀ event ∈ e.events, ∀ h, event.drops h = false) : Tended (m.undergo e) := by
  refine tended.undergo covered ?_ ?_ mute
  · intro g
    by_cases self : g = h
    · subst self
      rw [Store.owned_of_held new held, Store.alive_of new, on']
      rfl
    · have free : e.tasks.any (Task.holds g) = false := List.any_eq_false.2 fun t member => by
        simp [(others t member).1 g self]
      have same := frame.handles g self
      have owned : e.store.owned (e.tasks ++ m.agenda) g = m.store.owned m.agenda g := by
        refine Store.owned_congr same (by rw [List.any_append, free, Bool.false_or]) ?_
        intro y _
        rw [Store.listed_congr (frame.places g self y.sink),
          Store.referenced_append fun t member => (others t member).2 y.sink]
        simp [Store.referenced, names]
      rw [owned, ← tended.kept g]
      simp [Store.alive, same]
  · intro g
    by_cases self : g = h
    · subst self
      rw [Store.gone_of new, Store.gone_of old, on, on']
    · simp [Store.gone, frame.handles g self]

/-- What happens beside sinks and handles is seen by no owner. -/
theorem beside (tended : Tended m) {st : Store α ε} (beside : m.store.Beside st) :
    Tended { m with store := st } := by
  have alive : ∀ h, st.alive h = m.store.alive h := by
    intro h
    simp [Store.alive, beside.handles]
  have owned : ∀ h, st.owned m.agenda h = m.store.owned m.agenda h := by
    intro h
    refine Store.owned_congr (by rw [beside.handles]) rfl ?_
    intro x _
    simp [Store.referenced, beside.names, Store.registry, beside.sinks]
  refine ⟨tended.covered, fun h => by rw [alive, owned, tended.kept], ?_⟩
  intro h
  have gone : st.gone h = m.store.gone h := by simp [Store.gone, beside.handles]
  rw [gone]
  exact tended.dropped h

/-! ## Calls on a handle -/

theorem letGo_own {h : HandleRef} :
    (∀ g, g ≠ h → (.letGo [h] : Task α ε).holds g = false) ∧
      ∀ s, (.letGo [h] : Task α ε).refersTo s = false :=
  ⟨fun g ne => by simp [Task.holds, ne], fun _ => rfl⟩

theorem turn_own {h g : HandleRef} {t : Task α ε} (own : t.concerns g = true) :
    (∀ g, g ≠ h → t.holds g = false) ∧ ∀ s, t.refersTo s = false :=
  ⟨fun g _ => Task.holds_of_concerns own g, Task.refersTo_of_concerns own⟩

/-- A call on a handle that is alive holds it until it is over. -/
theorem call (tended : Tended m) {h : HandleRef} {x x' : Handle α ε}
    (old : m.store.handles[h]? = some x) (on : x.released = false) {st : Store α ε}
    (frame : m.store.Frame h st) (names : ∀ s, st.names s = m.store.names s)
    (new : st.handles[h]? = some x') (on' : x'.released = false) {events : List (Event α ε)}
    {turns : List (Task α ε)} (own : ∀ t ∈ turns, t.concerns h = true)
    (mute : ∀ event ∈ events, ∀ h, event.drops h = false) :
    Tended (m.undergo ⟨st, events, turns ++ [.letGo [h]]⟩) := by
  have holds : (Task.letGo [h] :: m.agenda).any (Task.holds h) = true := by simp [Task.holds]
  refine tended.settle old on frame names new on' ?_ (by simp [Task.holds]) ?_ mute
  · have covered : Covered (Task.letGo [h] :: m.agenda) :=
      ⟨by simp [Task.concerns], tended.covered⟩
    show Covered (turns ++ [Task.letGo [h]] ++ m.agenda)
    rw [List.append_assoc]
    refine covered.append ?_
    intro t member g own'
    rw [Task.eq_of_concerns (own t member) own']
    exact holds
  · intro t member
    rcases List.mem_append.1 member with turn | last
    · exact turn_own (own t turn)
    · rw [List.mem_singleton.1 last]
      exact letGo_own

theorem no_turns {h : HandleRef} : ∀ t ∈ ([] : List (Task α ε)), t.concerns h = true :=
  fun _ member => nomatch member

theorem request (tended : Tended m) (h : HandleRef) (n : UInt64) :
    Tended (m.undergo (m.store.request h n)) := by
  have still : ∀ {x : Handle α ε}, m.store.handles[h]? = some x → x.released = false →
      ∀ events : List (Event α ε), (∀ event ∈ events, ∀ h, event.drops h = false) →
        Tended (m.undergo ⟨m.store, events, [.letGo [h]]⟩) := fun found on events mute =>
    tended.call found on (.refl _ h) (fun _ => rfl) found on no_turns mute
  have changed : ∀ {x : Handle α ε}, m.store.handles[h]? = some x → x.released = false →
      ∀ (f : Handle α ε → Handle α ε), (f x).released = x.released →
      ∀ (events : List (Event α ε)) (turns : List (Task α ε)),
      (∀ t ∈ turns, t.concerns h = true) → (∀ event ∈ events, ∀ h, event.drops h = false) →
        Tended (m.undergo ⟨m.store.modifyHandle h f, events, turns ++ [.letGo [h]]⟩) :=
    fun found on f same events turns own mute =>
      tended.call found on (m.store.modifyHandle_frame h f) (fun _ => rfl)
        (by simp [Store.modifyHandle_handles, found]) (same.trans on) own mute
  have asks := m.store.request_asks h n
  generalize m.store.request h n = e at asks ⊢
  cases asks with
  | missed => exact tended
  | refused found on | again found on => exact still found on _ (by simp [Event.drops])
  | first found on | spoilt found on | empty found on =>
      exact changed found on _ rfl _ [] (by simp) (by simp [Event.drops])
  | served found on =>
      exact changed found on _ rfl _ [.notify h (.next _)] (by simp) (by simp [Event.drops])

theorem cancel (tended : Tended m) (h : HandleRef) : Tended (m.undergo (m.store.cancel h)) := by
  have cancels := m.store.cancel_cancels h
  generalize m.store.cancel h = e at cancels ⊢
  cases cancels with
  | missed => exact tended
  | again found on =>
      exact tended.call found on (.refl _ h) (fun _ => rfl) found on no_turns (by simp [Event.drops])
  | @first x found on kept =>
      have silenced : (m.store.modifyHandle h Handle.silence).handles[h]? = some x.silence := by
        simp [Store.modifyHandle_handles, found]
      have frame := m.store.modifyHandle_frame h Handle.silence
      have names : ∀ s, (m.store.modifyHandle h Handle.silence).names s = m.store.names s :=
        fun _ => rfl
      generalize m.store.modifyHandle h Handle.silence = st at silenced frame names
      have new : (st.unregister x.sink h).1.handles[h]? = some x.silence := by
        rw [Store.unregister_handles]
        exact silenced
      refine tended.call found on (frame.trans (st.unregister_frame x.sink h))
        (fun s => (st.unregister_names x.sink h s).trans (names s)) new on no_turns ?_
      refine List.forall_mem_cons.2 ⟨fun _ => rfl, List.forall_mem_cons.2 ⟨fun _ => rfl, ?_⟩⟩
      intro event member
      exact Event.drops_of_isAside (st.unregister_aside x.sink h event member)

/-! ## Calls on a sink -/

theorem subscribe (tended : Tended m) {s : SinkRef} (named : m.store.names s = true)
    (consumer : Consumer α ε) : Tended (m.undergo (m.store.subscribe s consumer).2) := by
  obtain ⟨id, handles⟩ := m.store.subscribe_handles s consumer
  refine tended.undergo ?_ ?_ ?_ (by simp [Store.subscribe, Event.drops])
  · refine ⟨?_, ?_, ?_, tended.covered⟩
    · intro h own
      simp_all [Task.concerns, Task.holds]
    · simp [Task.concerns]
    · simp [Task.concerns]
  · intro h
    by_cases new : h = m.store.handles.length
    · have found : (m.store.subscribe s consumer).2.store.handles[h]? =
          some (Handle.new s id consumer) := by rw [handles, if_pos new]
      rw [Store.alive_of found, Store.owned_of_held found]
      · rfl
      · simp [Store.subscribe, Task.holds, new]
    · have same : (m.store.subscribe s consumer).2.store.handles[h]? = m.store.handles[h]? := by
        rw [handles, if_neg new]
      have owned : (m.store.subscribe s consumer).2.store.owned
          ((m.store.subscribe s consumer).2.tasks ++ m.agenda) h =
            m.store.owned m.agenda h := by
        refine Store.owned_congr same (by simp [Store.subscribe, Task.holds, new]) ?_
        intro x _
        rw [Store.subscribe_registry]
        have referenced : (m.store.subscribe s consumer).2.store.referenced
            ((m.store.subscribe s consumer).2.tasks ++ m.agenda) x.sink =
              m.store.referenced m.agenda x.sink := by
          by_cases here : x.sink = s
          · rw [here, Store.referenced_of_names named, Store.referenced_of_names]
            exact named
          · have mute : ∀ t ∈ (m.store.subscribe s consumer).2.tasks,
                t.refersTo x.sink = false := by
              simp [Store.subscribe, Task.refersTo, here]
            exact Store.referenced_append mute
        rw [referenced]
      rw [owned, ← tended.kept h]
      simp [Store.alive, same]
  · intro h
    by_cases new : h = m.store.handles.length
    · simp [Store.gone, handles, new, Handle.new]
    · simp [Store.gone, handles, new]

/-- A step's own reference to a sink that has a slot changes nothing. -/
theorem referenced_giveUp {s : SinkRef} (named : m.store.names s = true) (t : SinkRef) :
    m.store.referenced (.giveUp s :: m.agenda) t = m.store.referenced m.agenda t := by
  by_cases here : t = s
  · rw [here, Store.referenced_of_names named, Store.referenced_of_names named]
  · have mute : ∀ t' ∈ [(.giveUp s : Task α ε)], t'.refersTo t = false := by
      simp [Task.refersTo, here]
    exact Store.referenced_append mute

/-- The handles of a registry that is frozen pass from the registry to the loop over them. -/
theorem win (tended : Tended m) (ok : m.store.Coherent) {s : SinkRef}
    (named : m.store.names s = true) {y : Sink α ε} (found : m.store.sinks[s]? = some y)
    (o : Outcome α ε) {events : List (Event α ε)}
    (mute : ∀ event ∈ events, ∀ h, event.drops h = false) :
    Tended (m.undergo ⟨m.store.freeze s o, events,
      y.registry.handles.map (.deliver · o) ++ [.letGo y.registry.handles, .giveUp s]⟩) := by
  have registry : m.store.registry s = y.registry := m.store.registry_of_sinks found
  refine tended.undergo ?_ ?_ (fun _ => rfl) mute
  · show Covered (y.registry.handles.map (.deliver · o) ++
      [.letGo y.registry.handles, .giveUp s] ++ m.agenda)
    rw [List.append_assoc]
    refine Covered.append ⟨by simp [Task.concerns], by simp [Task.concerns], tended.covered⟩ ?_
    intro t member h own
    obtain ⟨g, waits, rfl⟩ := List.mem_map.1 member
    obtain rfl : g = h := by simpa [Task.concerns] using own
    simp [Task.holds, waits]
  · intro h
    show m.store.alive h = (m.store.freeze s o).owned
      (y.registry.handles.map (.deliver · o) ++ [.letGo y.registry.handles, .giveUp s] ++
        m.agenda) h
    by_cases waits : h ∈ y.registry.handles
    · obtain ⟨x, at_, home⟩ := ok.enrolled s h (registry ▸ waits)
      have owned : m.store.owned m.agenda h = true := by
        rw [Store.owned_of at_, home, Store.referenced_of_names named, registry]
        simp [waits]
      have still : (m.store.freeze s o).handles[h]? = some x := at_
      rw [tended.kept h, owned]
      refine (Store.owned_of_held still ?_).symm
      simp [Task.holds, waits]
    · have still : (m.store.freeze s o).handles[h]? = m.store.handles[h]? := rfl
      rw [tended.kept h]
      refine (Store.owned_congr still ?_ ?_).symm
      · simp [Task.holds, waits]
      · intro x _
        have listed : ((m.store.freeze s o).registry x.sink).handles.contains h =
            (m.store.registry x.sink).handles.contains h := by
          rw [Store.freeze_registry found]
          by_cases here : x.sink = s
          · have out : y.registry.handles.contains h = false := by simpa using waits
            rw [if_pos here, here, registry, out]
            rfl
          · rw [if_neg here]
        have alike : (m.store.freeze s o).referenced
            (y.registry.handles.map (.deliver · o) ++ [.letGo y.registry.handles, .giveUp s] ++
              m.agenda) x.sink = m.store.referenced m.agenda x.sink := by
          rw [← referenced_giveUp named, List.append_assoc]
          exact Store.referenced_append (by simp [Task.refersTo])
        rw [listed, alike]

theorem terminate (tended : Tended m) (ok : m.store.Coherent) {s : SinkRef}
    (named : m.store.names s = true) (o : Outcome α ε) :
    Tended (m.undergo (m.store.terminate s o).2) := by
  have ends := m.store.terminate_ends s o
  generalize m.store.terminate s o = called at ends ⊢
  cases ends with
  | missed => exact tended
  | won found => exact tended.win ok named found o (by simp [Event.drops])
  | lost =>
      refine tended.undergo ?_ ?_ (fun _ => rfl) (by simp [Event.drops])
      · exact ⟨by simp [Task.concerns], tended.covered⟩
      · intro h
        rw [tended.kept h]
        refine (Store.owned_congr rfl (by simp [Task.holds]) ?_).symm
        intro x _
        exact congrArg (· && _) (referenced_giveUp named x.sink)

/-! ## Steps and consumers -/

/-- A sink that is new owns nothing. -/
theorem founding (tended : Tended m) (ok : m.store.Coherent) {st : Store α ε} {label : String}
    (sinks : st.sinks = m.store.sinks ++ [Sink.ofLabel label])
    (handles : st.handles = m.store.handles)
    (names : ∀ s, st.names s = (m.store.names s || s == m.store.sinks.length)) :
    Tended (m.undergo (.quiet st)) := by
  have same : ∀ h : HandleRef, st.handles[h]? = m.store.handles[h]? := fun h => by rw [handles]
  refine tended.undergo tended.covered ?_ (fun h => by simp [Store.gone, Effect.quiet, handles])
    (by simp [Effect.quiet])
  intro h
  have owned : st.owned m.agenda h = m.store.owned m.agenda h := by
    refine Store.owned_congr (same h) rfl ?_
    intro x found
    have inside := ok.housed h x found
    have other : (x.sink == m.store.sinks.length) = false :=
      beq_eq_false_iff_ne.2 (Nat.ne_of_lt inside)
    have old : st.sinks[x.sink]? = m.store.sinks[x.sink]? := by
      rw [sinks, List.getElem?_append_left inside]
    simp [Store.referenced, names, other, Store.registry, old]
  show st.alive h = st.owned m.agenda h
  rw [owned, ← tended.kept h]
  simp [Store.alive, same]

/-- What takes references from slots into tasks, or back, is seen by no owner. -/
theorem handing (tended : Tended m) {e : Effect α ε} (sinks : e.store.sinks = m.store.sinks)
    (handles : e.store.handles = m.store.handles)
    (names : ∀ s, (e.store.names s || e.tasks.any (Task.refersTo s)) = m.store.names s)
    (told : ∀ event ∈ e.events, event.isAside = true) (left : ∀ t ∈ e.tasks, t.isAside = true) :
    Tended (m.undergo e) := by
  refine tended.undergo ?_ ?_ (fun h => by simp [Store.gone, handles]) fun event member h =>
    Event.drops_of_isAside (told event member) h
  · exact tended.covered.append_of_idle fun t member h =>
      Task.concerns_of_isAside (left t member) h
  · intro h
    have free : e.tasks.any (Task.holds h) = false := List.any_eq_false.2 fun t member => by
      simp [Task.holds_of_isAside (left t member) h]
    have owned : e.store.owned (e.tasks ++ m.agenda) h = m.store.owned m.agenda h := by
      refine Store.owned_congr (by rw [handles]) (by simp [free]) ?_
      intro x _
      simp [Store.referenced, ← names, Bool.or_assoc, Store.registry, sinks]
    rw [owned, ← tended.kept h]
    simp [Store.alive, handles]

/-- Events and tasks that bear on nothing are seen by no owner. -/
theorem aside (tended : Tended m) {events : List (Event α ε)} {tasks : List (Task α ε)}
    (told : ∀ event ∈ events, event.isAside = true) (left : ∀ t ∈ tasks, t.isAside = true)
    (mute : ∀ s, tasks.any (Task.refersTo s) = false) :
    Tended (m.undergo ⟨m.store, events, tasks⟩) :=
  tended.handing rfl rfl (fun s => by simp [mute]) told left

end Tended

/-- **What steps and consumers do keeps releases exact.** -/
theorem Deed.tended {m : Machine α ε} {may : SinkRef → Prop} {e : Effect α ε}
    (deed : Deed m.store may e) (tended : Tended m) (ok : m.store.Coherent) :
    Tended (m.undergo e) := by
  generalize same : m.store = st at deed
  induction deed generalizing m with
  | aside sinks handles names events tasks =>
      subst same
      exact tended.handing sinks handles names events tasks
  | founding label sinks handles names =>
      subst same
      exact tended.founding ok sinks handles names
  | subscribing beside named consumer =>
      subst same
      exact (tended.beside beside).subscribe (by rw [← named]; exact beside.names _) consumer
  | ending named allowed o => subst same; exact tended.terminate ok named o
  | requesting beside h n => subst same; exact (tended.beside beside).request h n
  | cancelling h => subst same; exact tended.cancel h
  | after told deed ih =>
      rw [Machine.undergo_after]
      exact ih (tended.aside told (by simp : ∀ t ∈ ([] : List (Task α ε)), _) fun _ => rfl) ok same
  | followedBy left mute deed ih =>
      rw [Machine.undergo_followedBy]
      exact ih (tended.aside (by simp : ∀ e ∈ ([] : List (Event α ε)), _) left mute) ok same

end OneShot
