/-
# OneShot.Proofs.Sound -- the invariant of every run

`Sound m` holds of every machine that a script reaches (`Machine.steps_sound`).  It says
that the store is coherent, that every sink has its tenure, that every handle is on its
course with the turn that is pending for it, and that only the task in hand can start a
callback.

A step takes the first task away.  While it is in hand, the handle whose turn it is stands
nowhere, and all others stand where they stood: that is `SoundBut h`.  What the task does
puts the handle back on its course (`SoundBut.settle`).  There is one lemma for each thing
that calls do, and the deeds of steps and consumers come down to them (`Deed.sound`).
-/
import OneShot.Proofs.Registry

namespace OneShot

set_option autoImplicit false

variable {α ε : Type}

/-- The turns that are pending for a handle. -/
def Machine.pending (m : Machine α ε) (h : HandleRef) : List (Task α ε) :=
  m.agenda.filter (Task.concerns h)

@[simp] theorem Machine.pending_undergo (m : Machine α ε) (e : Effect α ε) (h : HandleRef) :
    (m.undergo e).pending h = e.tasks.filter (Task.concerns h) ++ m.pending h := by
  simp [pending]

/-- No task starts a callback. -/
def Machine.Calm (m : Machine α ε) : Prop := ∀ t ∈ m.agenda, t.isNotify = false

namespace Machine.Calm

variable {m : Machine α ε} {e : Effect α ε}

theorem undergo (calm : m.Calm) (mute : ∀ t ∈ e.tasks, t.isNotify = false) : (m.undergo e).Calm := by
  intro t member
  rcases List.mem_append.1 member with new | old
  · exact mute t new
  · exact calm t old

/-- Behind the first task nothing starts a callback, if nothing did before. -/
theorem turn_undergo (calm : m.Calm) (mute : ∀ t ∈ e.tasks.tail, t.isNotify = false) :
    ∀ t ∈ (m.undergo e).agenda.tail, t.isNotify = false := by
  intro t member
  rw [undergo_agenda] at member
  cases eq : e.tasks with
  | nil => rw [eq] at member; exact calm t (List.mem_of_mem_tail member)
  | cons first others =>
      rw [eq] at member mute
      rcases List.mem_append.1 member with new | old
      · exact mute t new
      · exact calm t old

end Machine.Calm

/-- The invariant, but for one handle whose turn is in hand. -/
structure SoundBut (k : Option HandleRef) (m : Machine α ε) : Prop where
  coherent : m.store.Coherent
  tenure : ∀ s, Tenure (m.store.registry s).outcome? (m.store.flag s) (attempts s m.history)
  made : ∀ (s : SinkRef) (h : HandleRef),
    .subscribing s h ∈ m.history ↔ m.store.handles[h]?.map Handle.sink = some s
  unborn : ∀ h : HandleRef, m.store.handles[h]? = none →
    m.pending h = [] ∧ Ledger.of h m.history = .empty
  standing : ∀ (h : HandleRef) (x : Handle α ε), k ≠ some h → m.store.handles[h]? = some x →
    Standing h x ((m.store.registry x.sink).place h) (.of h m.history) (m.pending h)

/-- **The invariant of every run.** -/
structure Sound (m : Machine α ε) : Prop extends SoundBut none m where
  turn : ∀ t ∈ m.agenda.tail, t.isNotify = false

/-- A sink holds the outcome of the call that has ended it. -/
theorem SoundBut.ended_iff {k : Option HandleRef} {m : Machine α ε} (sound : SoundBut k m)
    {s : SinkRef} {o : Outcome α ε} :
    .terminating s o true ∈ m.history ↔ m.store.registry s = .frozen o := by
  rw [← mem_attempts, (sound.tenure s).won_iff, Registry.outcome?_eq_some]

theorem SoundBut.eq_of_ended {k : Option HandleRef} {m : Machine α ε} (sound : SoundBut k m)
    {s : SinkRef} {o o' : Outcome α ε} (frozen : m.store.registry s = .frozen o)
    (ended : .terminating s o' true ∈ m.history) : o = o' := by
  rw [sound.ended_iff, frozen, Registry.frozen.injEq] at ended
  exact ended

/-- A handle is one of the sink that it was subscribed to. -/
theorem SoundBut.subscribed_iff {k : Option HandleRef} {m : Machine α ε} (sound : SoundBut k m)
    {h : HandleRef} {x : Handle α ε} (found : m.store.handles[h]? = some x) {s : SinkRef} :
    .subscribing s h ∈ m.history ↔ s = x.sink := by
  rw [sound.made, found, Option.map_some, Option.some.injEq, eq_comm]

/-! ## Effects that bear on one handle -/

/-- The event bears on no other handle, and on no sink. -/
def Event.isOf (h : HandleRef) : Event α ε → Bool
  | began h' _ | ended h' _ | requesting h' _ | cancelling h' | attempted h' _ => h' == h
  | subscribing _ _ | terminating _ _ _ => false
  | _ => true

namespace Event

variable {event : Event α ε} {h : HandleRef}

theorem isOf_of_isAside (aside : event.isAside = true) (h : HandleRef) : event.isOf h = true := by
  cases event <;> simp_all [isAside, isOf]

theorem concerns_of_isOf (own : event.isOf h = true) {g : HandleRef} (ne : g ≠ h) :
    event.concerns g = false := by
  cases event <;> simp_all [isOf, concerns, Ne.symm ne]

theorem attempt?_of_isOf (own : event.isOf h = true) (s : SinkRef) : event.attempt? s = none := by
  cases event <;> simp_all [isOf, attempt?]

theorem ne_subscribing_of_isOf (own : event.isOf h = true) (s : SinkRef) (g : HandleRef) :
    .subscribing s g ≠ event := by
  rintro rfl
  cases own

end Event

/-- The task is a turn of no other handle. -/
def Task.isOf (h : HandleRef) (t : Task α ε) : Prop := ∀ g, g ≠ h → t.concerns g = false

namespace SoundBut

variable {m : Machine α ε} {k : Option HandleRef} {h : HandleRef}

theorem weaken (sound : SoundBut none m) : SoundBut k m :=
  ⟨sound.coherent, sound.tenure, sound.made, sound.unborn,
    fun h x _ found => sound.standing h x (by simp) found⟩

/-- **A handle is put back on its course** by an effect that bears on it alone. -/
theorem settle (sound : SoundBut (some h) m) (calm : m.Calm) {e : Effect α ε}
    (coherent : e.store.Coherent) (frame : m.store.Frame h e.store)
    (events : ∀ event ∈ e.events, event.isOf h = true) (tasks : ∀ t ∈ e.tasks, t.isOf h)
    (turn : ∀ t ∈ e.tasks.tail, t.isNotify = false) {x x' : Handle α ε}
    (old : m.store.handles[h]? = some x) (new : e.store.handles[h]? = some x')
    (home : x'.sink = x.sink)
    (stands : Standing h x' ((e.store.registry x.sink).place h) (.of h (m.history ++ e.events))
      (e.tasks.filter (Task.concerns h) ++ m.pending h)) : Sound (m.undergo e) := by
  -- for all other handles nothing is said and nothing is left
  have ledgers : ∀ g, g ≠ h → Ledger.of g (m.history ++ e.events) = Ledger.of g m.history := by
    intro g other
    exact Ledger.of_append_of_others _ fun event member =>
      Event.concerns_of_isOf (events event member) other
  have mute : ∀ g, g ≠ h → e.tasks.filter (Task.concerns g) = [] := by
    intro g other
    simpa using fun t member => tasks t member g other
  refine ⟨⟨coherent, ?_, ?_, ?_, ?_⟩, calm.turn_undergo turn⟩
  · intro s
    have none_ : attempts s e.events = [] :=
      attempts_eq_nil fun event member => Event.attempt?_of_isOf (events event member) s
    simpa [attempts_append, none_, frame.outcomes, frame.flags] using sound.tenure s
  · intro s g
    have absent : .subscribing s g ∉ e.events :=
      fun member => Event.ne_subscribing_of_isOf (events _ member) s g rfl
    have same : e.store.handles[g]?.map Handle.sink = m.store.handles[g]?.map Handle.sink := by
      by_cases self : g = h
      · subst self; simp [old, new, home]
      · rw [frame.handles g self]
    simpa [absent, same] using sound.made s g
  · intro g none_
    have other : g ≠ h := by
      rintro rfl
      exact absurd (new.symm.trans none_) (by simp)
    obtain ⟨pending, ledger⟩ := sound.unborn g (by rw [← frame.handles g other]; exact none_)
    rw [Machine.pending_undergo, mute g other, Machine.undergo_history, ledgers g other]
    exact ⟨pending, ledger⟩
  · intro g y _ found
    rw [Machine.undergo_store] at found
    rw [Machine.undergo_store, Machine.undergo_history, Machine.pending_undergo]
    by_cases self : g = h
    · subst self
      obtain rfl : x' = y := by simpa using new.symm.trans found
      rw [home]
      exact stands
    · rw [frame.handles g self] at found
      rw [mute g self, ledgers g self, frame.places g self]
      exact sound.standing g y (by simpa using Ne.symm self) found

/-- The same, for an effect that leaves sinks alone. -/
theorem settle_handle (sound : SoundBut (some h) m) (calm : m.Calm) {x : Handle α ε}
    (old : m.store.handles[h]? = some x) {f : Handle α ε → Handle α ε}
    (keep : ∀ y, (f y).sink = y.sink) {events : List (Event α ε)} {tasks : List (Task α ε)}
    (own : ∀ event ∈ events, event.isOf h = true) (turns : ∀ t ∈ tasks, t.isOf h)
    (turn : ∀ t ∈ tasks.tail, t.isNotify = false)
    (stands : Standing h (f x) ((m.store.registry x.sink).place h) (.of h (m.history ++ events))
      (tasks.filter (Task.concerns h) ++ m.pending h)) :
    Sound (m.undergo ⟨m.store.modifyHandle h f, events, tasks⟩) :=
  sound.settle calm (sound.coherent.modifyHandle h keep) (m.store.modifyHandle_frame h f) own turns
    turn old (by simp [Store.modifyHandle_handles, old]) (keep x) stands

theorem settle_still (sound : SoundBut (some h) m) (calm : m.Calm) {x : Handle α ε}
    (old : m.store.handles[h]? = some x) {events : List (Event α ε)} {tasks : List (Task α ε)}
    (own : ∀ event ∈ events, event.isOf h = true) (turns : ∀ t ∈ tasks, t.isOf h)
    (turn : ∀ t ∈ tasks.tail, t.isNotify = false)
    (stands : Standing h x ((m.store.registry x.sink).place h) (.of h (m.history ++ events))
      (tasks.filter (Task.concerns h) ++ m.pending h)) :
    Sound (m.undergo ⟨m.store, events, tasks⟩) :=
  sound.settle calm sound.coherent (.refl m.store h) own turns turn old old rfl stands

end SoundBut

/-! ## Effects that bear on no handle -/

/-- A handle without the mark of its release, which changes nothing of where it stands. -/
def Handle.memory (x : Handle α ε) : Handle α ε := { x with released := false }

theorem Standing.of_memory {h : HandleRef} {x x' : Handle α ε} {place : Place α ε}
    {l : Ledger α ε} {pending : List (Task α ε)} (stands : Standing h x place l pending)
    (same : x'.memory = x.memory) : Standing h x' place l pending := by
  obtain ⟨phase, parked, keepAlive, course⟩ := stands
  simp only [Handle.memory, Handle.mk.injEq] at same
  obtain ⟨-, -, -, samePhase, sameParked, sameKept, -⟩ := same
  exact ⟨samePhase ▸ phase, by rw [samePhase, sameParked]; exact parked,
    by rw [samePhase, sameKept]; exact keepAlive, course⟩

theorem Store.Coherent.of_memory {st st' : Store α ε} (ok : st.Coherent)
    (names : ∀ s, st'.names s = true → s < st'.sinks.length)
    (length : st.sinks.length ≤ st'.sinks.length) (registries : ∀ s, st'.registry s = st.registry s)
    (handles : ∀ g : HandleRef,
      st'.handles[g]?.map Handle.memory = st.handles[g]?.map Handle.memory) : st'.Coherent := by
  refine ok.mono names length ?_ fun s => by simp [registries s]
  intro g
  have same := congrArg (Option.map Handle.sink) (handles g)
  simpa [Function.comp_def, Handle.memory] using same

namespace SoundBut

variable {m : Machine α ε}

theorem rest (sound : SoundBut none m) (calm : m.Calm) : Sound m :=
  ⟨sound, fun t member => calm t (List.mem_of_mem_tail member)⟩

/-- **Every handle stays where it stands** when an effect bears on none. -/
theorem pass (sound : SoundBut none m) (calm : m.Calm) {e : Effect α ε}
    (named : ∀ s, e.store.names s = true → s < e.store.sinks.length)
    (length : m.store.sinks.length ≤ e.store.sinks.length)
    (registries : ∀ s, e.store.registry s = m.store.registry s)
    (flags : ∀ s, e.store.flag s = m.store.flag s)
    (handles : ∀ g : HandleRef,
      e.store.handles[g]?.map Handle.memory = m.store.handles[g]?.map Handle.memory)
    (events : ∀ event ∈ e.events, ∀ h, event.isOf h = true)
    (tasks : ∀ t ∈ e.tasks, ∀ h, t.concerns h = false) : Sound (m.undergo e) := by
  have ledgers : ∀ h, Ledger.of h (m.history ++ e.events) = Ledger.of h m.history := by
    intro h
    exact Ledger.of_append_of_others _ fun event member =>
      Event.concerns_of_isOf (events event member (h + 1)) (Nat.ne_of_lt (Nat.lt_succ_self h))
  have mute : ∀ h, e.tasks.filter (Task.concerns h) = [] := by
    intro h
    simpa using fun t member => tasks t member h
  have silent : ∀ t ∈ e.tasks, t.isNotify = false := fun t member =>
    Task.isNotify_of_concerns (tasks t member)
  refine SoundBut.rest ⟨?_, ?_, ?_, ?_, ?_⟩ (calm.undergo silent)
  · exact sound.coherent.of_memory named length registries handles
  · intro s
    have none_ : attempts s e.events = [] :=
      attempts_eq_nil fun event member => Event.attempt?_of_isOf (events event member 0) s
    simpa [attempts_append, none_, registries, flags] using sound.tenure s
  · intro s h
    have absent : .subscribing s h ∉ e.events :=
      fun member => Event.ne_subscribing_of_isOf (events _ member 0) s h rfl
    have same := congrArg (Option.map Handle.sink) (handles h)
    rw [Option.map_map, Option.map_map] at same
    change e.store.handles[h]?.map Handle.sink = m.store.handles[h]?.map Handle.sink at same
    simpa [absent, same] using sound.made s h
  · intro h none_
    have unborn : m.store.handles[h]? = none := by
      have same := handles h
      rw [Machine.undergo_store] at none_
      rw [none_, Option.map_none, eq_comm, Option.map_eq_none_iff] at same
      exact same
    simpa [mute, ledgers] using sound.unborn h unborn
  · intro h x _ found
    have same := handles h
    rw [Machine.undergo_store] at found
    rw [found, Option.map_some, eq_comm, Option.map_eq_some_iff] at same
    obtain ⟨y, old, same⟩ := same
    have home : x.sink = y.sink := by
      simpa [Handle.memory] using congrArg Handle.sink same.symm
    have stands := (sound.standing h y (by simp) old).of_memory same.symm
    simpa [mute, ledgers, registries, home] using stands

/-- What happens beside sinks and handles is seen by none of them. -/
theorem beside (sound : SoundBut none m) {st : Store α ε} (beside : m.store.Beside st) :
    SoundBut none { m with store := st } := by
  obtain ⟨store, agenda, past⟩ := m
  obtain ⟨sinks, handles, channels, gates, slots⟩ := store
  obtain ⟨sinks', handles', channels', gates', slots'⟩ := st
  obtain ⟨rfl, rfl, names⟩ := beside
  obtain ⟨⟨named, housed, enrolled, distinct⟩, tenure, made, unborn, standing⟩ := sound
  exact ⟨⟨fun s name => named s (names s ▸ name), housed, enrolled, distinct⟩, tenure, made, unborn,
    standing⟩

end SoundBut

end OneShot
