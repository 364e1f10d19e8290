/-
# OneShot.Proofs.Turns -- the turn of a handle, and the invariant of every run

When the first task of an agenda is a turn of a handle, that task is all that is pending
for the handle (`Sound.turn_of`): while it is in hand the handle stands nowhere, and the
effect of the task puts it back on its course.  The remaining tasks bear on no handle at
all, or are deeds of a script.

`Sound.step` puts the tasks together, and `Machine.steps_sound` is the result: every
machine that a script reaches is sound.
-/
import OneShot.Proofs.Preservation

namespace OneShot

set_option autoImplicit false

variable {α ε : Type}

namespace Sound

variable {m : Machine α ε} {t : Task α ε} {rest : List (Task α ε)}

theorem behind_calm (sound : Sound m) : m.behind.Calm := sound.turn

/-- A task that is no turn leaves every handle where it stands. -/
theorem behind_of_idle (sound : Sound m) (turn : m.agenda = t :: rest)
    (idle : ∀ h, t.concerns h = false) : SoundBut none m.behind := by
  have pending : ∀ h, m.behind.pending h = m.pending h := by
    intro h
    simp [Machine.pending, turn, idle h]
  refine ⟨sound.coherent, sound.tenure, sound.made, ?_, ?_⟩
  · intro h none_
    rw [pending]
    exact sound.unborn h none_
  · intro h x _ found
    rw [pending]
    exact sound.standing h x (by simp) found

/-- **The turn of a handle is all that is pending for it.** -/
theorem turn_of (sound : Sound m) (turn : m.agenda = t :: rest) {h : HandleRef}
    (own : t.concerns h = true) :
    ∃ x, m.store.handles[h]? = some x ∧ SoundBut (some h) m.behind ∧ m.behind.pending h = [] ∧
      Standing h x ((m.store.registry x.sink).place h) (.of h m.history) [t] := by
  have pending : m.pending h = t :: m.behind.pending h := by
    simp [Machine.pending, turn, own]
  cases found : m.store.handles[h]? with
  | none =>
      obtain ⟨none_, -⟩ := sound.unborn h found
      rw [pending] at none_
      cases none_
  | some x =>
      have stands := sound.standing h x (by simp) found
      rw [pending] at stands
      have alone : m.behind.pending h = [] := stands.course.pending_of_cons
      rw [alone] at stands
      refine ⟨x, rfl, ?_, alone, stands⟩
      have others : ∀ g, g ≠ h → m.behind.pending g = m.pending g := by
        intro g ne
        simp [Machine.pending, turn, Task.isOf_of_concerns own g ne]
      refine ⟨sound.coherent, sound.tenure, sound.made, ?_, ?_⟩
      · intro g none_
        have other : g ≠ h := by
          rintro rfl
          rw [Machine.behind_store, found] at none_
          cases none_
        rw [others g other]
        exact sound.unborn g none_
      · intro g y ne at_
        have other : g ≠ h := by
          rintro rfl
          exact ne rfl
        rw [others g other]
        exact sound.standing g y (by simp) at_

section Turn

variable {h : HandleRef} {x : Handle α ε} {events : List (Event α ε)} {tasks : List (Task α ε)}
  {l : Ledger α ε}

/-- A turn that changes nothing but its own handle. -/
theorem turn_handle (sound : Sound m) (turn : m.agenda = t :: rest) (own : t.concerns h = true)
    (found : m.store.handles[h]? = some x) {f : Handle α ε → Handle α ε}
    (keep : ∀ y, (f y).sink = y.sink) (told : ∀ event ∈ events, event.isOf h = true)
    (left : ∀ t ∈ tasks, t.concerns h = true) (later : ∀ t ∈ tasks.tail, t.isNotify = false)
    (ledger : Ledger.of h (m.history ++ events) = l)
    (stands : Standing h (f x) ((m.store.registry x.sink).place h) l tasks) :
    Sound (m.behind.undergo ⟨m.store.modifyHandle h f, events, tasks⟩) := by
  obtain ⟨_, _, sound', alone, -⟩ := sound.turn_of turn own
  refine sound'.settle_handle sound.behind_calm found keep told
    (fun t member => Task.isOf_of_concerns (left t member)) later ?_
  rw [Machine.behind_history, ledger, alone, List.append_nil, List.filter_eq_self.2 left]
  exact stands

/-- A turn that changes no store. -/
theorem turn_still (sound : Sound m) (turn : m.agenda = t :: rest) (own : t.concerns h = true)
    (found : m.store.handles[h]? = some x) (told : ∀ event ∈ events, event.isOf h = true)
    (left : ∀ t ∈ tasks, t.concerns h = true) (later : ∀ t ∈ tasks.tail, t.isNotify = false)
    (ledger : Ledger.of h (m.history ++ events) = l)
    (stands : Standing h x ((m.store.registry x.sink).place h) l tasks) :
    Sound (m.behind.undergo ⟨m.store, events, tasks⟩) := by
  obtain ⟨_, _, sound', alone, -⟩ := sound.turn_of turn own
  refine sound'.settle_still sound.behind_calm found told
    (fun t member => Task.isOf_of_concerns (left t member)) later ?_
  rw [Machine.behind_history, ledger, alone, List.append_nil, List.filter_eq_self.2 left]
  exact stands

end Turn

/-! ## Callbacks -/

theorem notify {h : HandleRef} {signal : Signal α ε} (sound : Sound m)
    (turn : m.agenda = .notify h signal :: rest) :
    Sound (m.behind.undergo (m.store.notify h signal)) := by
  have own := Task.notify_concerns h signal
  obtain ⟨x, found, -, -, stands⟩ := sound.turn_of turn own
  have began : Sound (m.behind.undergo ⟨m.store, [.began h signal], [.finish h signal]⟩) :=
    sound.turn_still turn own found (by simp [Event.isOf]) (by simp [Task.concerns]) (by simp)
      (Ledger.of_began _ _ (by simp)) stands.begins
  have calm : (m.behind.undergo ⟨m.store, [.began h signal], [.finish h signal]⟩).Calm :=
    sound.behind_calm.undergo (by simp [Task.isNotify])
  have deed := m.store.react_deed x.consumer h signal
  rw [Store.notify_eq found, Machine.undergo_followedBy, Machine.undergo_after]
  exact Deed.sound (m := m.behind.undergo ⟨m.store, [.began h signal], [.finish h signal]⟩) deed
    began.toSoundBut calm

end Sound

/-! ## After the acknowledgment -/

namespace Sound

variable {m : Machine α ε} {rest : List (Task α ε)} {h : HandleRef}

theorem enrol (sound : Sound m) (turn : m.agenda = .finish h .subscribed :: rest) :
    Sound (m.behind.undergo ((m.store.enrol h).after [.ended h .subscribed])) := by
  have own := Task.finish_concerns h (.subscribed : Signal α ε)
  obtain ⟨x, found, sound', alone, stands⟩ := sound.turn_of turn own
  obtain ⟨out, none_, heard⟩ := stands.course.acknowledged
  have greeted : ∀ others : List (Event α ε), (∀ event ∈ others, event.isAside = true) →
      Ledger.of h (m.history ++ .ended h .subscribed :: others) =
        { Ledger.of h m.history with callbacks := inTurn h [.subscribed] } := fun others aside => by
    rw [Ledger.of_ended _ _ fun event member =>
      Event.concerns_of_isAside (aside event member) h, heard]
  -- where the handle goes from here
  have arrive : ∀ {place : Place α ε} {pending : List (Task α ε)},
      Course h place (Ledger.of h m.history).asked (Ledger.of h m.history).renounced []
        (inTurn h [.subscribed]) pending →
      Standing h x place { Ledger.of h m.history with callbacks := inTurn h [.subscribed] }
        pending := fun course => stands.moves (none_ ▸ course)
  cases registry : m.store.registry x.sink with
  | frozen o =>
      rw [Store.enrol_frozen found registry]
      have closed : (m.store.registry x.sink).place h = .closed o := by rw [registry]; rfl
      exact sound.turn_still turn own found (by simp [Event.isOf]) (by simp [Task.concerns])
        (by simp) (greeted [.noticed (.replaying x.sink h)] (by simp [Event.isAside]))
        (arrive (.offered closed))
  | live waiting =>
      have inside := sound.coherent.housed h x found
      have absent : h ∉ waiting := fun member =>
        out (Registry.place_eq_waiting.2 (by rw [registry]; exact member))
      have coherent := sound.coherent.join found registry absent
      have frame := m.store.join_frame (h := h) inside registry
      have here := m.store.join_place_self (h := h) inside waiting
      have joined : (m.store.join h x.sink waiting).handles[h]? = some x := found
      rw [Store.enrol_live found registry]
      generalize m.store.join h x.sink waiting = st at coherent frame here joined
      split
      · -- a handle that was cancelled meanwhile leaves at once
        rename_i gone
        have aside : ∀ event ∈ .noticed (.registered x.sink h) :: (st.unregister x.sink h).2,
            event.isAside = true :=
          List.forall_mem_cons.2 ⟨rfl, st.unregister_aside x.sink h⟩
        have left : ((st.unregister x.sink h).1.registry x.sink).place h ≠ .waiting := by
          rw [Store.unregister_registry, if_pos rfl,
            Registry.place_erase_self (coherent.distinct x.sink)]
          exact Place.leave_ne_waiting _
        refine sound'.settle sound.behind_calm (coherent.unregister x.sink h)
          (frame.trans (st.unregister_frame x.sink h)) ?_ (by simp [Effect.after])
          (by simp [Effect.after]) found (by simpa [Effect.after] using joined) rfl ?_
        · refine List.forall_mem_cons.2 ⟨by simp [Event.isOf], ?_⟩
          intro event member
          exact Event.isOf_of_isAside (aside event member) h
        · simp only [Effect.after, List.cons_append, List.nil_append, Machine.behind_history]
          rw [alone, greeted _ aside]
          exact arrive (.left left (stands.renounced_iff.2 gone))
      · rename_i kept
        refine sound'.settle sound.behind_calm coherent frame (by simp [Effect.after, Event.isOf])
          (by simp [Effect.after]) (by simp [Effect.after]) found joined rfl ?_
        simp only [Effect.after, List.cons_append, List.nil_append, Machine.behind_history]
        rw [alone, greeted _ (by simp [Event.isAside])]
        exact arrive (.waiting here (stands.kept kept))

theorem finish {signal : Signal α ε} (sound : Sound m)
    (turn : m.agenda = .finish h signal :: rest) :
    Sound (m.behind.undergo (m.store.finish h signal)) := by
  have own := Task.finish_concerns h signal
  obtain ⟨x, found, -, -, stands⟩ := sound.turn_of turn own
  have phase : m.store.phase h = x.phase := Store.phase_of found
  -- a callback that ends leaves the handle with `tasks` to come
  have ends : ∀ tasks : List (Task α ε), (∀ t ∈ tasks, t.concerns h = true) →
      (∀ t ∈ tasks.tail, t.isNotify = false) →
      Course h ((m.store.registry x.sink).place h) (Ledger.of h m.history).asked
        (Ledger.of h m.history).renounced (Ledger.of h m.history).offers
        ((Ledger.of h m.history).callbacks ++ [.ended h signal]) tasks →
      Sound (m.behind.undergo ⟨m.store, [.ended h signal], tasks⟩) := fun tasks left later course =>
    sound.turn_still turn own found (by simp [Event.isOf]) left later
      (Ledger.of_ended _ _ (by simp)) (stands.moves course)
  cases signal with
  | subscribed => exact sound.enrol turn
  | next v =>
      obtain ⟨broken, due⟩ := stands.course.next_ends
      simp only [Store.finish, phase]
      split
      · rename_i gone
        exact ends [] (by simp) (by simp) (broken (stands.renounced_iff.2 gone))
      · rename_i on
        exact ends [.notify h .complete] (by simp [Task.concerns]) (by simp) (due (stands.kept on))
  | complete => exact ends [] (by simp) (by simp) (stands.course.last_ends rfl)
  | error e => exact ends [] (by simp) (by simp) (stands.course.last_ends rfl)

/-! ## The offer -/

theorem deliver {o : Outcome α ε} (sound : Sound m) (turn : m.agenda = .deliver h o :: rest) :
    Sound (m.behind.undergo (m.store.deliver h o)) := by
  have own := Task.deliver_concerns h o
  obtain ⟨x, found, -, -, stands⟩ := sound.turn_of turn own
  have phase : m.store.phase h = x.phase := Store.phase_of found
  have first : (Ledger.of h m.history).offers = [] := stands.course.of_deliver.2.1
  have offered : ∀ others : List (Event α ε), (∀ event ∈ others, event.isAside = true) →
      Ledger.of h (m.history ++ .attempted h o :: others) =
        { Ledger.of h m.history with offers := [o] } := fun others aside => by
    rw [Ledger.of_offer _ _ fun event member =>
      Event.concerns_of_isAside (aside event member) h, first]
    rfl
  have told : ∀ notice, ∀ event ∈ [.attempted h o, (.noticed notice : Event α ε)],
      event.isOf h = true := by simp [Event.isOf]
  have silent : ∀ event ∈ [(.attempted h o : Event α ε)], event.isOf h = true := by
    simp [Event.isOf]
  have notifies : ∀ signal, ∀ t ∈ [(.notify h signal : Task α ε)], t.concerns h = true := by
    simp [Task.concerns]
  have offers := m.store.deliver_offers h o
  generalize m.store.deliver h o = e at offers ⊢
  cases offers with
  | withheld gone =>
      exact sound.turn_still turn own found (told _) (by simp) (by simp)
        (offered _ (by simp [Event.isAside])) (stands.offer_cancelled (phase ▸ gone))
  | told on script =>
      exact sound.turn_still turn own found silent (notifies _) (by simp)
        (offered [] (by simp)) (stands.offer_signal (phase ▸ on) script)
  | fed requested =>
      exact sound.turn_handle turn own found (fun _ => rfl) silent (notifies _) (by simp)
        (offered [] (by simp)) (stands.offer_requested (phase ▸ requested))
  | parked idle =>
      exact sound.turn_handle turn own found (fun _ => rfl) (told _) (by simp) (by simp)
        (offered _ (by simp [Event.isAside])) (stands.offer_idle (phase ▸ idle))
  | late valued =>
      rw [phase, stands.offer_fresh] at valued
      cases valued

end Sound

/-! ## Letting go -/

namespace Store

/-- Letting go of handles marks some as released, and does nothing else. -/
structure Forgets (st : Store α ε) (left : Store α ε × List (Event α ε)) : Prop where
  sinks : left.1.sinks = st.sinks
  slots : left.1.slots = st.slots
  handles : ∀ g : HandleRef, left.1.handles[g]?.map Handle.memory = st.handles[g]?.map Handle.memory
  events : ∀ event ∈ left.2, ∃ h, event = .dropped h

/-- What is let go is told of as such. -/
theorem Forgets.each {st : Store α ε} {left : Store α ε × List (Event α ε)}
    (forgets : st.Forgets left) {P : Event α ε → Prop} (dropped : ∀ h, P (.dropped h)) :
    ∀ event ∈ left.2, P event := by
  intro event member
  obtain ⟨h, rfl⟩ := forgets.events event member
  exact dropped h

theorem Forgets.refl (st : Store α ε) : st.Forgets (st, []) :=
  ⟨rfl, rfl, fun _ => rfl, by simp⟩

theorem release_forgets (st : Store α ε) (agenda : List (Task α ε)) (h : HandleRef) :
    st.Forgets (st.release agenda h) := by
  unfold release
  split
  · refine ⟨rfl, rfl, ?_, by simp⟩
    intro g
    rw [modifyHandle_handles]
    by_cases same : g = h
    · rw [if_pos same, Option.map_map]
      rfl
    · rw [if_neg same]
  · exact .refl st

theorem letGo_forgets (st : Store α ε) (agenda : List (Task α ε)) (hs : List HandleRef) :
    st.Forgets (st.letGo agenda hs) := by
  induction hs generalizing st with
  | nil => exact .refl st
  | cons h hs ih =>
      have first := st.release_forgets agenda h
      have others := ih (st.release agenda h).1
      refine ⟨others.sinks.trans first.sinks, others.slots.trans first.slots,
        fun g => (others.handles g).trans (first.handles g), ?_⟩
      intro event member
      rcases List.mem_append.1 member with old | new
      · exact first.events event old
      · exact others.events event new

theorem giveUp_forgets (st : Store α ε) (agenda : List (Task α ε)) (s : SinkRef) :
    st.Forgets (st.giveUp agenda s) := by
  unfold giveUp
  split
  · exact .refl st
  · exact st.letGo_forgets agenda _

end Store

/-! ## Every step, every run -/

namespace Sound

variable {m : Machine α ε} {t : Task α ε} {rest : List (Task α ε)}

theorem forgets (sound : Sound m) (turn : m.agenda = t :: rest) (idle : ∀ h, t.concerns h = false)
    {left : Store α ε × List (Event α ε)} (forgets : m.store.Forgets left) :
    Sound (m.behind.undergo ⟨left.1, left.2, []⟩) := by
  have registries : ∀ s, left.1.registry s = m.store.registry s := by
    intro s
    simp [Store.registry, forgets.sinks]
  have flags : ∀ s, left.1.flag s = m.store.flag s := by
    intro s
    simp [Store.flag, forgets.sinks]
  have names : ∀ s, left.1.names s = m.store.names s := by
    intro s
    simp [Store.names, forgets.slots]
  refine (sound.behind_of_idle turn idle).pass sound.behind_calm ?_
    (Nat.le_of_eq (congrArg List.length forgets.sinks.symm)) registries flags forgets.handles
    (forgets.each fun _ _ => rfl) (by simp)
  intro s named
  rw [names] at named
  rw [forgets.sinks]
  exact sound.coherent.named s named

theorem deed (sound : Sound m) (turn : m.agenda = t :: rest) (idle : ∀ h, t.concerns h = false)
    {may : SinkRef → Prop} {e : Effect α ε} (deed : Deed m.store may e) : Sound (m.behind.undergo e) :=
  Deed.sound (m := m.behind) deed (sound.behind_of_idle turn idle) sound.behind_calm

/-- **Every step keeps the invariant.** -/
theorem step (sound : Sound m) : Sound m.step := by
  cases turn : m.agenda with
  | nil => rw [Machine.step_nil turn]; exact sound
  | cons t rest =>
      rw [Machine.step_cons turn]
      cases t with
      | perform within step =>
          exact sound.deed turn (fun _ => rfl) (Task.effect_perform_deed m.store rest within step)
      | answer within step closing =>
          exact sound.deed turn (fun _ => rfl)
            (Task.effect_answer_deed m.store rest within step closing)
      | notify h signal => exact sound.notify turn
      | finish h signal => exact sound.finish turn
      | deliver h o => exact sound.deliver turn
      | letGo hs => exact sound.forgets turn (fun _ => rfl) (m.store.letGo_forgets rest hs)
      | giveUp s => exact sound.forgets turn (fun _ => rfl) (m.store.giveUp_forgets rest s)
      | hangUp c =>
          have quiet : Deed m.store (fun _ => False) (.quiet m.store) := .quiet (.refl _)
          exact sound.deed turn (fun _ => rfl) quiet

theorem load (script : List (Step α ε)) : Sound (Machine.load script) := by
  have performs : ∀ t ∈ (Machine.load script).agenda, ∃ step, t = .perform none step := by
    intro t member
    obtain ⟨step, -, rfl⟩ := List.mem_map.1 member
    exact ⟨step, rfl⟩
  have calm : (Machine.load script).Calm := by
    intro t member
    obtain ⟨step, rfl⟩ := performs t member
    rfl
  refine SoundBut.rest ⟨.empty, fun s => .running, ?_, ?_, ?_⟩ calm
  · intro s h
    simp [Machine.load, Machine.history, Store.empty]
  · intro h _
    refine ⟨List.filter_eq_nil_iff.2 ?_, rfl⟩
    intro t member
    obtain ⟨step, rfl⟩ := performs t member
    simp [Task.concerns]
  · intro h x _ found
    simp [Machine.load, Store.empty] at found

end Sound

theorem Sound.steps {m : Machine α ε} (sound : Sound m) (n : Nat) : Sound (m.steps n) :=
  Machine.steps_keep (fun _ sound => sound.step) sound n

/-- **Every machine that a script reaches is sound.** -/
theorem Machine.steps_sound (script : List (Step α ε)) (n : Nat) :
    Sound ((load script).steps n) :=
  (Sound.load script).steps n

end OneShot
