/-
# OneShot.Proofs.Release -- when its last owner is gone, a consumer goes, and once

`Machine.steps_tended` carries the account of owners through every run.  What is left for it
are the turns of a handle, which find it held by the call that they belong to, and the two
tasks that take owners away: `letGo` and `giveUp`.  These are the only ones that drop anything,
and they look at all handles that they may have left without an owner (`Store.letGo_exact`).

`release_is_exact` puts it in terms of runs.
-/
import OneShot.Proofs.Ownership
import OneShot.Proofs.Cancellation
import OneShot.Proofs.Grammar

namespace OneShot

set_option autoImplicit false

variable {α ε : Type}

/-! ## Turns -/

namespace Tended

variable {m : Machine α ε} {t : Task α ε} {rest : List (Task α ε)} {h : HandleRef}

/-- A task that owns nothing leaves all owners when it is taken in hand. -/
theorem behind (tended : Tended m) (turn : m.agenda = t :: rest)
    (holds : ∀ h, t.holds h = false) (refers : ∀ s, t.refersTo s = false) : Tended m.behind := by
  refine ⟨?_, ?_, tended.dropped⟩
  · have covered := tended.covered
    rw [turn] at covered
    rw [Machine.behind_agenda, turn]
    exact covered.2
  · intro h
    show m.store.alive h = m.store.owned m.agenda.tail h
    rw [tended.kept h, turn]
    apply Store.owned_congr rfl
    · simp [holds]
    · intro x _
      simp [Store.referenced, refers]

/-- The turn of a handle is in hand: something behind it holds the handle. -/
theorem in_turn (tended : Tended m) (turn : m.agenda = t :: rest) (own : t.concerns h = true) :
    Tended m.behind ∧ m.behind.agenda.any (Task.holds h) = true := by
  constructor
  · exact tended.behind turn (Task.holds_of_concerns own) (Task.refersTo_of_concerns own)
  · have covered := tended.covered
    rw [turn] at covered
    rw [Machine.behind_agenda, turn]
    exact covered.1 h own

/-- What is done to a handle in its turn, and the turn that follows, change no owner. -/
theorem moves (tended : Tended m) (held : m.agenda.any (Task.holds h) = true) {x x' : Handle α ε}
    (old : m.store.handles[h]? = some x) {e : Effect α ε} (frame : m.store.Frame h e.store)
    (names : ∀ s, e.store.names s = m.store.names s) (new : e.store.handles[h]? = some x')
    (same : x'.released = x.released) (own : ∀ t ∈ e.tasks, t.concerns h = true)
    (mute : ∀ event ∈ e.events, ∀ h, event.drops h = false) : Tended (m.undergo e) := by
  have on := tended.alive_of_turn old held
  refine tended.settle old on frame names new (same.trans on) ?_ ?_ ?_ mute
  · apply tended.covered.append
    intro t member g own'
    rw [Task.eq_of_concerns (own t member) own']
    exact held
  · rw [List.any_append, held, Bool.or_true]
  · intro t member
    exact turn_own (own t member)

/-- The same, for a turn that changes no store. -/
theorem speaks (tended : Tended m) (held : m.agenda.any (Task.holds h) = true) {x : Handle α ε}
    (old : m.store.handles[h]? = some x) {events : List (Event α ε)} {tasks : List (Task α ε)}
    (own : ∀ t ∈ tasks, t.concerns h = true)
    (mute : ∀ event ∈ events, ∀ h, event.drops h = false) :
    Tended (m.undergo ⟨m.store, events, tasks⟩) :=
  tended.moves held old (.refl _ h) (fun _ => rfl) old rfl own mute

theorem notify (tended : Tended m) (sound : Sound m) {signal : Signal α ε}
    (turn : m.agenda = .notify h signal :: rest) :
    Tended (m.behind.undergo (m.store.notify h signal)) := by
  have own := Task.notify_concerns h signal
  obtain ⟨x, found, -⟩ := sound.turn_of turn own
  obtain ⟨tended, held⟩ := tended.in_turn turn own
  have began : Tended (m.behind.undergo ⟨m.store, [.began h signal], [.finish h signal]⟩) :=
    tended.speaks held found (by simp) (by simp [Event.drops])
  have deed := m.store.react_deed x.consumer h signal
  rw [Store.notify_eq found, Machine.undergo_followedBy, Machine.undergo_after]
  exact Deed.tended (m := m.behind.undergo ⟨m.store, [.began h signal], [.finish h signal]⟩) deed
    began sound.coherent

theorem enrol (tended : Tended m) (sound : Sound m)
    (turn : m.agenda = .finish h .subscribed :: rest) :
    Tended (m.behind.undergo ((m.store.enrol h).after [.ended h .subscribed])) := by
  have own := Task.finish_concerns h (.subscribed : Signal α ε)
  obtain ⟨x, found, -⟩ := sound.turn_of turn own
  obtain ⟨tended, held⟩ := tended.in_turn turn own
  cases registry : m.store.registry x.sink with
  | frozen o =>
      rw [Store.enrol_frozen found registry]
      exact tended.speaks held found (by simp) (by simp [Event.drops])
  | live waiting =>
      have frame := m.store.join_frame (h := h) (sound.coherent.housed h x found) registry
      have joined : (m.store.join h x.sink waiting).handles[h]? = some x := found
      have names : ∀ s, (m.store.join h x.sink waiting).names s = m.store.names s := fun _ => rfl
      rw [Store.enrol_live found registry]
      generalize m.store.join h x.sink waiting = st at frame joined names
      split
      · refine tended.moves held found (frame.trans (st.unregister_frame x.sink h)) ?_
          (by simpa [Effect.after] using joined) rfl (by simp [Effect.after]) ?_
        · intro s
          exact (st.unregister_names x.sink h s).trans (names s)
        · refine List.forall_mem_cons.2 ⟨fun _ => rfl, List.forall_mem_cons.2 ⟨fun _ => rfl, ?_⟩⟩
          intro event member
          exact Event.drops_of_isAside (st.unregister_aside x.sink h event member)
      · exact tended.moves held found frame names joined rfl (by simp [Effect.after])
          (by simp [Effect.after, Event.drops])

theorem finish (tended : Tended m) (sound : Sound m) {signal : Signal α ε}
    (turn : m.agenda = .finish h signal :: rest) :
    Tended (m.behind.undergo (m.store.finish h signal)) := by
  have own := Task.finish_concerns h signal
  obtain ⟨x, found, -⟩ := sound.turn_of turn own
  have ends : ∀ tasks : List (Task α ε), (∀ t ∈ tasks, t.concerns h = true) →
      Tended (m.behind.undergo ⟨m.store, [.ended h signal], tasks⟩) := fun tasks own' => by
    obtain ⟨tended, held⟩ := tended.in_turn turn own
    exact tended.speaks held found own' (by simp [Event.drops])
  cases signal with
  | subscribed => exact tended.enrol sound turn
  | next v =>
      simp only [Store.finish]
      split
      · exact ends [] (by simp)
      · exact ends [.notify h .complete] (by simp)
  | complete => exact ends [] (by simp)
  | error e => exact ends [] (by simp)

theorem deliver (tended : Tended m) (sound : Sound m) {o : Outcome α ε}
    (turn : m.agenda = .deliver h o :: rest) :
    Tended (m.behind.undergo (m.store.deliver h o)) := by
  have own := Task.deliver_concerns h o
  obtain ⟨x, found, -⟩ := sound.turn_of turn own
  obtain ⟨tended, held⟩ := tended.in_turn turn own
  have marked : ∀ {f : Handle α ε → Handle α ε} {events : List (Event α ε)}
      {tasks : List (Task α ε)}, (f x).released = x.released →
      (∀ t ∈ tasks, t.concerns h = true) → (∀ event ∈ events, ∀ h, event.drops h = false) →
      Tended (m.behind.undergo ⟨m.store.modifyHandle h f, events, tasks⟩) :=
    fun {f _ _} same own mute =>
      tended.moves held found (m.store.modifyHandle_frame h f) (fun _ => rfl)
        (by simp [Store.modifyHandle_handles, found]) same own mute
  have offers := m.store.deliver_offers h o
  generalize m.store.deliver h o = e at offers ⊢
  cases offers with
  | withheld | told | late => exact tended.speaks held found (by simp) (by simp [Event.drops])
  | fed | parked => exact marked rfl (by simp) (by simp [Event.drops])

end Tended

/-! ## Letting go -/

namespace Store

variable {st : Store α ε} {agenda : List (Task α ε)}

/-- What is alive is owned, and what was dropped is what is gone since. -/
structure Exact (st : Store α ε) (agenda : List (Task α ε))
    (left : Store α ε × List (Event α ε)) : Prop where
  kept : ∀ h, left.1.alive h = left.1.owned agenda h
  dropped : ∀ h, (st.gone h).toNat + left.2.countP (Event.drops h) = (left.1.gone h).toNat

/-- One more task in progress takes no owner away. -/
theorem owned_cons {h : HandleRef} (t : Task α ε) (own : st.owned agenda h = true) :
    st.owned (t :: agenda) h = true := by
  cases found : st.handles[h]? with
  | none => simp [owned, found] at own
  | some x =>
      rw [owned_of found] at own ⊢
      simp only [referenced, List.any_cons, Bool.or_eq_true, Bool.and_eq_true] at own ⊢
      rcases own with (itself | held) | ⟨named | referred, waits⟩
      · exact .inl (.inl itself)
      · exact .inl (.inr (.inr held))
      · exact .inr ⟨.inl named, waits⟩
      · exact .inr ⟨.inr (.inr referred), waits⟩

theorem Forgets.owned {left : Store α ε × List (Event α ε)} (forgets : st.Forgets left)
    (h : HandleRef) : left.1.owned agenda h = st.owned agenda h :=
  owned_of_memory forgets.sinks forgets.slots (forgets.handles h)

/-- A release makes a difference to the one handle, and only if nothing owns it. -/
theorem release_alive (h g : HandleRef) :
    (st.release agenda h).1.alive g = true ↔
      st.alive g = true ∧ (g = h → st.owned agenda g = true) := by
  unfold release
  split
  · rename_i free
    obtain ⟨on, free⟩ : st.alive h = true ∧ st.owned agenda h = false := by simpa using free
    by_cases self : g = h
    · subst self
      cases found : st.handles[g]? <;> simp [alive, modifyHandle_handles, found, free]
    · simp [alive, modifyHandle_handles, self]
  · rename_i kept
    constructor
    · intro on
      refine ⟨on, ?_⟩
      rintro rfl
      simpa [show st.alive g = true from on] using kept
    · exact fun on => on.1

theorem release_gone (h g : HandleRef) :
    (st.gone g).toNat + (st.release agenda h).2.countP (Event.drops g) =
      ((st.release agenda h).1.gone g).toNat := by
  unfold release
  split
  · rename_i free
    obtain ⟨on, -⟩ : st.alive h = true ∧ st.owned agenda h = false := by simpa using free
    by_cases self : g = h
    · subst self
      cases found : st.handles[g]? with
      | none => simp [alive, found] at on
      | some x =>
          have on : x.released = false := by simpa [alive, found] using on
          simp [gone, modifyHandle_handles, found, on, Event.drops]
    · simp [gone, modifyHandle_handles, self, Event.drops, Ne.symm self]
  · simp

/-- **Who loses an owner is looked at.**  If only handles of a list may be without one, giving up
the list leaves just those alive that have one. -/
theorem letGo_exact {hs : List HandleRef} (lower : ∀ h, st.owned agenda h = true → st.alive h = true)
    (upper : ∀ h, h ∉ hs → st.alive h = true → st.owned agenda h = true) :
    st.Exact agenda (st.letGo agenda hs) := by
  induction hs generalizing st with
  | nil =>
      refine ⟨?_, fun h => rfl⟩
      intro h
      rw [Bool.eq_iff_iff]
      exact ⟨upper h (by simp), lower h⟩
  | cons h hs ih =>
      have owned : ∀ g, (st.release agenda h).1.owned agenda g = st.owned agenda g :=
        (st.release_forgets agenda h).owned
      have others : (st.release agenda h).1.Exact agenda ((st.release agenda h).1.letGo agenda hs) := by
        apply ih
        · intro g own
          rw [owned] at own
          exact release_alive h g |>.2 ⟨lower g own, fun _ => own⟩
        · intro g out on
          rw [owned]
          obtain ⟨on, own⟩ := (release_alive h g).1 on
          by_cases self : g = h
          · exact own self
          · exact upper g (by simp [self, out]) on
      refine ⟨others.kept, ?_⟩
      intro g
      show (st.gone g).toNat + ((st.release agenda h).2 ++ _).countP (Event.drops g) = _
      rw [List.countP_append, ← Nat.add_assoc, release_gone]
      exact others.dropped g

theorem Exact.refl (kept : ∀ h, st.alive h = st.owned agenda h) : st.Exact agenda (st, []) :=
  ⟨kept, fun _ => rfl⟩

end Store

namespace Tended

variable {m : Machine α ε} {t : Task α ε} {rest : List (Task α ε)}

/-- A task that gives up owners, and looks at all handles that they owned. -/
theorem exact (tended : Tended m) (turn : m.agenda = t :: rest)
    {left : Store α ε × List (Event α ε)} (exact_ : m.store.Exact rest left) :
    Tended (m.behind.undergo ⟨left.1, left.2, []⟩) := by
  have tail : m.agenda.tail = rest := by rw [turn]; rfl
  refine ⟨?_, ?_, ?_⟩
  · have covered := tended.covered
    rw [turn] at covered
    simpa [tail] using covered.2
  · intro h
    simpa [tail] using exact_.kept h
  · intro h
    rw [Machine.undergo_history, List.countP_append, Machine.behind_history, tended.dropped h]
    exact exact_.dropped h

theorem letGo (tended : Tended m) {hs : List HandleRef} (turn : m.agenda = .letGo hs :: rest) :
    Tended (m.behind.undergo ((Task.letGo hs).effect m.store rest)) := by
  have kept := tended.kept
  rw [turn] at kept
  apply tended.exact turn
  apply Store.letGo_exact
  · intro h own
    rw [kept]
    exact Store.owned_cons _ own
  · intro h out on
    rw [← on, kept]
    refine (Store.owned_congr rfl (by simp [Task.holds, out]) ?_).symm
    intro x _
    simp [Store.referenced, Task.refersTo]

theorem giveUp (tended : Tended m) {s : SinkRef} (turn : m.agenda = .giveUp s :: rest) :
    Tended (m.behind.undergo ((Task.giveUp s).effect m.store rest)) := by
  have kept := tended.kept
  rw [turn] at kept
  -- only the registry of this sink may own less than before
  have other : ∀ h, (m.store.referenced rest s = true ∨ h ∉ (m.store.registry s).handles) →
      m.store.owned (.giveUp s :: rest) h = m.store.owned rest h := by
    intro h why
    refine Store.owned_congr rfl (by simp [Task.holds]) ?_
    intro x _
    by_cases here : x.sink = s
    · subst here
      rcases why with still | out
      · have named : m.store.referenced (.giveUp x.sink :: rest) x.sink = true := by
          simp [Store.referenced, Task.refersTo]
        rw [still, named]
      · simp [out]
    · have mute : (Task.giveUp s : Task α ε).refersTo x.sink = false := by
        simp [Task.refersTo, here]
      simp [Store.referenced, mute]
  suffices exact_ : m.store.Exact rest (m.store.giveUp rest s) from tended.exact turn exact_
  unfold Store.giveUp
  split
  · rename_i still
    apply Store.Exact.refl
    intro h
    rw [kept, other h (.inl still)]
  · apply Store.letGo_exact
    · intro h own
      rw [kept]
      exact Store.owned_cons _ own
    · intro h out on
      rw [← on, kept, other h (.inr out)]

/-! ## Every step, every run -/

theorem deed (tended : Tended m) (sound : Sound m) (turn : m.agenda = t :: rest)
    (aside : t.isAside = true) (refers : ∀ s, t.refersTo s = false) {may : SinkRef → Prop}
    {e : Effect α ε} (deed : Deed m.store may e) : Tended (m.behind.undergo e) :=
  Deed.tended (m := m.behind) deed
    (tended.behind turn (Task.holds_of_isAside aside) refers) sound.coherent

/-- **Every step keeps releases exact.** -/
theorem step (tended : Tended m) (sound : Sound m) : Tended m.step := by
  cases turn : m.agenda with
  | nil => rw [Machine.step_nil turn]; exact tended
  | cons t rest =>
      rw [Machine.step_cons turn]
      cases t with
      | perform within step =>
          exact tended.deed sound turn rfl (fun _ => rfl)
            (Task.effect_perform_deed m.store rest within step)
      | answer within step closing =>
          exact tended.deed sound turn rfl (fun _ => rfl)
            (Task.effect_answer_deed m.store rest within step closing)
      | notify h signal => exact tended.notify sound turn
      | finish h signal => exact tended.finish sound turn
      | deliver h o => exact tended.deliver sound turn
      | letGo hs => exact tended.letGo turn
      | giveUp s => exact tended.giveUp turn
      | hangUp c =>
          have quiet : Deed m.store (fun _ => False) (.quiet m.store) := .quiet (.refl _)
          exact tended.deed sound turn rfl (fun _ => rfl) quiet

theorem load (script : List (Step α ε)) : Tended (Machine.load script) := by
  have idle : ∀ t ∈ script.map (.perform none), ∀ h : HandleRef,
      Task.concerns h (t : Task α ε) = false := by
    simp [Task.concerns]
  refine ⟨?_, ?_, ?_⟩
  · have covered : Covered (script.map (.perform none) ++ []) := Covered.append_of_idle trivial idle
    rwa [List.append_nil] at covered
  · intro h
    simp [Machine.load, Store.alive, Store.owned, Store.empty]
  · intro h
    simp [Machine.load, Machine.history, Store.gone, Store.empty]

end Tended

theorem Tended.steps {m : Machine α ε} (tended : Tended m) (sound : Sound m) (k : Nat) :
    Tended (m.steps k) := by
  induction k with
  | zero => exact tended
  | succ k ih =>
      rw [Machine.steps_step]
      exact ih.step (sound.steps k)

/-- **Every machine that a script reaches releases exactly.** -/
theorem Machine.steps_tended (script : List (Step α ε)) (n : Nat) :
    Tended ((load script).steps n) :=
  (Tended.load script).steps (Sound.load script) n

/-! ## Calls in progress -/

/-- A call starts that works on the handle: a call on the handle itself, or the one that ends
the sink in whose registry it waits. -/
def Event.enters (st : Store α ε) (h : HandleRef) : Event α ε → Bool
  | subscribing _ h' | requesting h' _ | cancelling h' => h' == h
  | terminating s _ won => won && (st.registry s).handles.contains h
  | _ => false

theorem Event.enters_of_isAside {event : Event α ε} (aside : event.isAside = true)
    (st : Store α ε) (h : HandleRef) : event.enters st h = false := by
  cases event <;> simp_all [isAside, enters]

/-- The work of the call that starts with an event, and the handles that the call holds for it.
The call that ends a sink offers the outcome to all that wait in its registry, and holds them all;
any other call holds the handle that it works on. -/
inductive Event.Opens (st : Store α ε) : Event α ε → List (Task α ε) → List HandleRef → Prop
  | subscribing (s : SinkRef) (h : HandleRef) :
      Opens st (.subscribing s h) [.notify h .subscribed] [h]
  | requesting (h : HandleRef) (n : UInt64) : Opens st (.requesting h n) [] [h]
  | serving (h : HandleRef) (n : UInt64) (v : α) :
      Opens st (.requesting h n) [.notify h (.next v)] [h]
  | cancelling (h : HandleRef) : Opens st (.cancelling h) [] [h]
  | ending (s : SinkRef) (o : Outcome α ε) :
      Opens st (.terminating s o true) ((st.registry s).handles.map (.deliver · o))
        (st.registry s).handles

theorem Event.Opens.held {st : Store α ε} {event : Event α ε} {work : List (Task α ε)}
    {hs : List HandleRef} (opens : event.Opens st work hs) {h : HandleRef}
    (enters : event.enters st h = true) : h ∈ hs := by
  cases opens with
  | ending => simpa [Event.enters] using enters
  | subscribing | requesting | serving | cancelling =>
      exact List.mem_singleton.2 (beq_iff_eq.1 enters).symm

/-- A sink or a channel that a step has referred to is given up. -/
def Task.isReference : Task α ε → Bool
  | giveUp _ | hangUp _ => true
  | _ => false

/-- What stands behind a call that is made in a task, when its work is done and its handles are
let go: references to give up, and then the answer of the step, or the end of the callback whose
consumer has made the call. -/
inductive Task.Closes : Task α ε → List (Task α ε) → Prop
  | step {within : Option Nat} {step : Step α ε} {refs : List (Task α ε)}
      (given : ∀ t ∈ refs, t.isReference = true) (closing : Closing α ε) :
      Closes (.perform within step) (refs ++ [.answer within step closing])
  | callback {h : HandleRef} {signal : Signal α ε} {refs : List (Task α ε)}
      (given : ∀ t ∈ refs, t.isReference = true) :
      Closes (.notify h signal) (refs ++ [.finish h signal])

/-- Each call that starts in the effect leaves its work, the task that lets go of what it holds
for that, and behind it nothing but references to give up. -/
def Store.Holds (st : Store α ε) (e : Effect α ε) : Prop :=
  ∀ event ∈ e.events, ∀ h, event.enters st h = true →
    h < e.store.handles.length ∧ ∃ work hs refs, event.Opens st work hs ∧ h ∈ hs ∧
      e.tasks = work ++ .letGo hs :: refs ∧ ∀ t ∈ refs, t.isReference = true

namespace Store

variable {st : Store α ε} {e : Effect α ε}

theorem Holds.of_mute (mute : ∀ event ∈ e.events, ∀ h, event.enters st h = false) : st.Holds e := by
  intro event member h enters
  rw [mute event member h] at enters
  cases enters

theorem Holds.of_aside (aside : ∀ event ∈ e.events, event.isAside = true) : st.Holds e :=
  .of_mute fun event member h => Event.enters_of_isAside (aside event member) st h

/-- The effect of one call. -/
theorem Holds.of_call {left : Store α ε} {first : Event α ε} {told : List (Event α ε)}
    {work refs : List (Task α ε)} {hs : List HandleRef} (opens : first.Opens st work hs)
    (aside : ∀ event ∈ told, event.isAside = true) (inside : ∀ h ∈ hs, h < left.handles.length)
    (given : ∀ t ∈ refs, t.isReference = true) :
    st.Holds ⟨left, first :: told, work ++ .letGo hs :: refs⟩ := by
  intro event member h enters
  rcases List.mem_cons.1 member with rfl | later
  · exact ⟨inside h (opens.held enters), work, hs, refs, opens, opens.held enters, rfl, given⟩
  · rw [Event.enters_of_isAside (aside event later)] at enters
    cases enters

theorem Holds.after (holds : st.Holds e) {events : List (Event α ε)}
    (mute : ∀ event ∈ events, ∀ h, event.enters st h = false) : st.Holds (e.after events) := by
  intro event member h enters
  rcases List.mem_append.1 member with new | old
  · rw [mute event new h] at enters
    cases enters
  · exact holds event old h enters

theorem Holds.followedBy (holds : st.Holds e) {tasks : List (Task α ε)}
    (given : ∀ t ∈ tasks, t.isReference = true) : st.Holds (e.followedBy tasks) := by
  intro event member h enters
  obtain ⟨inside, work, hs, refs, opens, held, left, own⟩ := holds event member h enters
  refine ⟨inside, work, hs, refs ++ tasks, opens, held, ?_, ?_⟩
  · simp [Effect.followedBy, left]
  · exact fun t member => (List.mem_append.1 member).elim (own t) (given t)

theorem lt_of_found {h : HandleRef} {x : Handle α ε} (found : st.handles[h]? = some x) :
    h < st.handles.length :=
  (List.getElem?_eq_some_iff.1 found).1

theorem request_holds (st st' : Store α ε) (h : HandleRef) (n : UInt64) :
    st.Holds (st'.request h n) := by
  have asks := st'.request_asks h n
  generalize st'.request h n = e at asks ⊢
  have given : ∀ t ∈ ([] : List (Task α ε)), t.isReference = true := List.forall_mem_nil _
  cases asks with
  | missed => exact .of_aside (List.forall_mem_nil _)
  | refused found | again found =>
      exact .of_call (.requesting h n) (by simp [Event.isAside])
        (by simpa using lt_of_found found) given
  | first found | spoilt found | empty found =>
      exact .of_call (.requesting h n) (by simp [Event.isAside])
        (by simpa [modifyHandle] using lt_of_found found) given
  | served found =>
      exact .of_call (.serving h n _) (by simp [Event.isAside])
        (by simpa [modifyHandle] using lt_of_found found) given

theorem cancel_holds (st : Store α ε) (h : HandleRef) : st.Holds (st.cancel h) := by
  have cancels := st.cancel_cancels h
  generalize st.cancel h = e at cancels ⊢
  have given : ∀ t ∈ ([] : List (Task α ε)), t.isReference = true := List.forall_mem_nil _
  cases cancels with
  | missed => exact .of_aside (List.forall_mem_nil _)
  | again found =>
      exact .of_call (.cancelling h) (List.forall_mem_nil _) (by simpa using lt_of_found found) given
  | first found =>
      refine .of_call (.cancelling h) ?_ (by simpa [modifyHandle] using lt_of_found found) given
      exact List.forall_mem_cons.2 ⟨rfl, unregister_aside _ _ _⟩

theorem terminate_holds (ok : st.Coherent) (s : SinkRef) (o : Outcome α ε) :
    st.Holds (st.terminate s o).2 := by
  have ends := st.terminate_ends s o
  generalize st.terminate s o = called at ends ⊢
  cases ends with
  | missed => exact .of_aside (List.forall_mem_nil _)
  | lost => exact .of_mute (by simp [Event.enters])
  | @won y found pending =>
      rw [← st.registry_of_sinks found]
      refine .of_call (.ending s o) (by simp [Event.isAside]) ?_ (by simp [Task.isReference])
      intro h waits
      obtain ⟨x, at_, -⟩ := ok.enrolled s h waits
      exact lt_of_found at_

theorem subscribe_holds (st st' : Store α ε) (s : SinkRef) (consumer : Consumer α ε) :
    st.Holds (st'.subscribe s consumer).2 :=
  .of_call (.subscribing s st'.handles.length) (List.forall_mem_nil _) (by simp)
    (by simp [Task.isReference])

theorem react_holds (st : Store α ε) (consumer : Consumer α ε) (h : HandleRef)
    (signal : Signal α ε) : st.Holds (st.react consumer h signal) := by
  have reacts := st.react_reacts consumer h signal
  generalize st.react consumer h signal = e at reacts ⊢
  cases reacts with
  | greeting | running | valued | completed => exact .of_aside (List.forall_mem_nil _)
  | unheard => exact .of_aside (by simp [Event.isAside])
  | sending c signal => exact .of_aside (forward_aside st c signal)
  | closing g => exact .of_aside (close_aside st g)
  | asking | askingOnce => exact request_holds st st h _
  | sendingAsking c n =>
      exact (request_holds st _ h n).after fun event member g =>
        Event.enters_of_isAside (forward_aside st c _ event member) st g

/-- **A call holds what it works on**, whatever step makes it. -/
theorem perform_holds (ok : st.Coherent) (agenda : List (Task α ε)) (within : Option Nat)
    (step : Step α ε) : st.Holds (st.perform agenda within step).1 := by
  have performs := st.perform_performs agenda within step
  generalize st.perform agenda within step = performed at performs ⊢
  cases performs with
  | still | founding | foundingStandard | sprouting | reslotting | opening | openingGate
  | hangingUp => exact .of_aside (List.forall_mem_nil _)
  | taking => exact .of_aside (by simp [Event.isAside])
  | ending => exact terminate_holds ok _ _
  | subscribing => exact subscribe_holds st _ _ _
  | requesting => exact request_holds st st _ _
  | cancelling | cancellingAttached => exact cancel_holds st _
  | signalling _ _ h signal =>
      exact .followedBy ((react_holds st _ h signal).after (by simp [Event.enters]))
        (by simp [Task.isReference])
  | signallingGate _ _ h signal =>
      exact .followedBy ((react_holds st _ h signal).after (by simp [Event.enters]))
        (List.forall_mem_nil _)

end Store

/-- **A call holds what it works on**, whatever task it starts in. -/
theorem Task.effect_holds {st : Store α ε} (ok : st.Coherent) (rest : List (Task α ε))
    {t : Task α ε} {event : Event α ε} (member : event ∈ (t.effect st rest).events)
    {h : HandleRef} (enters : event.enters st h = true) :
    h < (t.effect st rest).store.handles.length ∧
      ∃ work hs closing, event.Opens st work hs ∧ h ∈ hs ∧ t.Closes closing ∧
        (t.effect st rest).tasks = work ++ .letGo hs :: closing := by
  -- what starts a call is neither the turn of a handle nor set aside
  have mute : ∀ {e : Effect α ε}, event ∈ e.events →
      (∀ event ∈ e.events, ∀ h, event.enters st h = false) → False := by
    intro e member mute
    rw [mute event member h] at enters
    cases enters
  have turned : ∀ {first : Event α ε} {e : Effect α ε}, st.Turned first e →
      (∀ h, first.enters st h = false) → event ∈ e.events → False := fun turned own member =>
    mute member (turned.each own fun event aside h => Event.enters_of_isAside aside st h)
  cases t with
  | perform within step =>
      have told : ∀ event ∈ [Event.performed within step], ∀ h, event.enters st h = false := by
        simp [Event.enters]
      have holds := (st.perform_holds ok rest within step).after told
      obtain ⟨inside, work, hs, refs, opens, held, left, given⟩ := holds event member h enters
      refine ⟨inside, work, hs, _, opens, held, .step given (st.perform rest within step).2, ?_⟩
      simp [effect, Effect.followedBy, left]
  | notify g signal =>
      cases found : st.handles[g]? with
      | none => simp [effect, Store.notify, found, Effect.quiet] at member
      | some x =>
          have told : ∀ event ∈ [Event.began g signal], ∀ h, event.enters st h = false := by
            simp [Event.enters]
          have holds := (st.react_holds x.consumer g signal).after told
          rw [effect, Store.notify_eq found] at member ⊢
          obtain ⟨inside, work, hs, refs, opens, held, left, given⟩ := holds event member h enters
          refine ⟨inside, work, hs, _, opens, held, .callback given, ?_⟩
          simp [Effect.followedBy, left]
  | answer within step closing => exact (mute member (by simp [effect, Event.enters])).elim
  | finish g signal => exact (turned (st.finish_turned g signal) (fun _ => rfl) member).elim
  | deliver g o => exact (turned (st.deliver_turned g o) (fun _ => rfl) member).elim
  | letGo hs => exact (mute member ((st.letGo_forgets rest hs).each fun _ _ => rfl)).elim
  | giveUp s => exact (mute member ((st.giveUp_forgets rest s).each fun _ _ => rfl)).elim
  | hangUp c => cases member

namespace Tended

variable {m : Machine α ε} {h : HandleRef}

theorem alive_of_held (tended : Tended m) (inside : h < m.store.handles.length)
    (held : m.agenda.any (Task.holds h) = true) : m.store.alive h = true := by
  rw [tended.kept h]
  exact Store.owned_of_held (List.getElem?_eq_getElem inside) held

/-- A handle that is gone was dropped, and one that was dropped is gone. -/
theorem dropped_iff (tended : Tended m) : .dropped h ∈ m.history ↔ m.store.gone h = true := by
  have counted := tended.dropped h
  have some_ : .dropped h ∈ m.history ↔ 0 < m.history.countP (Event.drops h) := by
    rw [List.countP_pos_iff]
    constructor
    · exact fun member => ⟨_, member, by simp [Event.drops]⟩
    · rintro ⟨event, member, drops⟩
      cases event <;> simp_all [Event.drops]
  rw [some_, counted]
  cases m.store.gone h <;> simp

theorem gone_iff {x : Handle α ε} (found : m.store.handles[h]? = some x) :
    m.store.gone h = true ↔ m.store.alive h = false := by
  rw [Store.gone_of found, Store.alive_of found]
  simp

/-- What was not dropped is alive. -/
theorem alive_of_kept (tended : Tended m) (inside : h < m.store.handles.length)
    (kept : .dropped h ∉ m.history) : m.store.alive h = true := by
  have found : m.store.handles[h]? = some m.store.handles[h] := List.getElem?_eq_getElem inside
  rw [tended.dropped_iff, gone_iff found] at kept
  simpa using kept

/-- What is alive was not dropped. -/
theorem kept_of_alive (tended : Tended m) (alive : m.store.alive h = true) :
    .dropped h ∉ m.history := by
  intro dropped
  have gone := tended.dropped_iff.1 dropped
  cases found : m.store.handles[h]? with
  | none => simp [Store.gone, found] at gone
  | some x =>
      rw [gone_iff found, alive] at gone
      cases gone

/-- A handle that was dropped stays so, and no callback of it begins. -/
theorem silent (tended : Tended m) (dropped : .dropped h ∈ m.history) :
    m.store.alive h = false ∧ begun h m.step.history = begun h m.history := by
  have gone := tended.dropped_iff.1 dropped
  cases found : m.store.handles[h]? with
  | none => simp [Store.gone, found] at gone
  | some x =>
      have dead := (gone_iff found).1 gone
      refine ⟨dead, ?_⟩
      cases turn : m.agenda with
      | nil => rw [Machine.step_nil turn]
      | cons t rest =>
          apply Machine.begun_step turn
          rintro signal rfl
          have first : .notify h signal ∈ m.agenda := by rw [turn]; exact List.mem_cons_self
          have held := tended.covered.held first (Task.notify_concerns h signal)
          rw [tended.alive_of_held (Store.lt_of_found found) held] at dead
          cases dead

end Tended

/-- While a callback runs, its end is what is pending for the handle. -/
theorem Course.of_open {h : HandleRef} {place : Place α ε} {asked renounced : Bool}
    {offers : List (Outcome α ε)} {heard : List (Event α ε)} {pending : List (Task α ε)}
    (course : Course h place asked renounced offers heard pending) {signal : Signal α ε}
    (open_ : heard.getLast? = some (.began h signal)) : pending = [.finish h signal] := by
  have closed : ∀ told : List (Signal α ε), (inTurn h told).getLast? ≠ some (.began h signal) := by
    intro told
    rcases List.eq_nil_or_concat told with rfl | ⟨before, last, rfl⟩
    · simp [inTurn]
    · rw [List.concat_eq_append, inTurn_snoc]
      simp
  cases course with
  | summoned => simp at open_
  | greeting => simp_all
  | hearing => simp_all
  | waiting | left | offered | withheld | due | told | broken => exact absurd open_ (closed _)

namespace Sound

variable {m : Machine α ε} {h : HandleRef}

/-- Handles stay where they are. -/
theorem inside_steps (sound : Sound m) (inside : h < m.store.handles.length) (k : Nat) :
    h < (m.steps k).store.handles.length := by
  obtain ⟨x, found⟩ : ∃ x, m.store.handles[h]? = some x := ⟨_, List.getElem?_eq_getElem inside⟩
  have made : .subscribing x.sink h ∈ m.history := (sound.made _ _).2 (by rw [found]; rfl)
  have later := ((sound.steps k).made _ _).1 ((Machine.history_prefix_steps m k).subset made)
  obtain ⟨y, found', -⟩ := Option.map_eq_some_iff.1 later
  exact Store.lt_of_found found'

end Sound

namespace Tended

variable {m : Machine α ε} {h : HandleRef}

/-- **A call keeps alive what it works on until it is over**: its work, with all that comes of it,
is done before the task that lets its handles go is next, and they are alive until then. -/
theorem through (tended : Tended m) (sound : Sound m) {t : Task α ε} {rest : List (Task α ε)}
    (turn : m.agenda = t :: rest) {event : Event α ε}
    (member : event ∈ (t.effect m.store rest).events) (enters : event.enters m.store h = true) :
    ∃ work hs closing j, event.Opens m.store work hs ∧ h ∈ hs ∧ t.Closes closing ∧
      m.step.agenda = work ++ (.letGo hs :: closing ++ rest) ∧
      (m.steps (j + 1)).agenda = .letGo hs :: closing ++ rest ∧
      (∀ i < j, (m.steps (i + 1)).Busy (.letGo hs :: closing ++ rest)) ∧
      ∀ i ≤ j, (m.steps (i + 1)).store.alive h = true := by
  obtain ⟨inside, work, hs, closing, opens, held, closes, tasks⟩ :=
    Task.effect_holds sound.coherent rest member enters
  have stack : m.step.agenda = work ++ (.letGo hs :: closing ++ rest) := by
    rw [Machine.step_cons turn, Machine.undergo_agenda, tasks, Machine.behind_agenda, turn]
    simp
  obtain ⟨j, back, busy⟩ := Machine.steps_return sound.step stack
  refine ⟨work, hs, closing, j, opens, held, closes, stack, by rw [Machine.steps_succ]; exact back,
    ?_, ?_⟩
  · intro i lt
    rw [Machine.steps_succ]
    exact busy i lt
  · intro i le
    rw [Machine.steps_succ]
    have waits : ∃ before, (m.step.steps i).agenda = before ++ (.letGo hs :: closing ++ rest) := by
      rcases Nat.lt_or_eq_of_le le with lt | rfl
      · obtain ⟨before, -, eq⟩ := busy i lt
        exact ⟨before, eq⟩
      · exact ⟨[], back⟩
    obtain ⟨before, eq⟩ := waits
    have started : h < m.step.store.handles.length := by
      rw [Machine.step_cons turn]
      exact inside
    refine ((tended.step sound).steps sound.step i).alive_of_held
      (sound.step.inside_steps started i) ?_
    simp [eq, Task.holds, held]

theorem silent_steps (tended : Tended m) (sound : Sound m) (dropped : .dropped h ∈ m.history)
    (k : Nat) :
    (m.steps k).store.alive h = false ∧ begun h (m.steps k).history = begun h m.history := by
  have dropped' : ∀ k, .dropped h ∈ (m.steps k).history := fun k =>
    (Machine.history_prefix_steps m k).subset dropped
  have silent : ∀ k, _ := fun k => (tended.steps sound k).silent (dropped' k)
  refine ⟨(silent k).1, ?_⟩
  induction k with
  | zero => rfl
  | succ k ih =>
      rw [Machine.steps_step, (silent k).2]
      exact ih

end Tended

/-! ## The owners of a handle -/

theorem any_holds_iff {agenda : List (Task α ε)} {h : HandleRef} :
    agenda.any (Task.holds h) = true ↔ ∃ hs, .letGo hs ∈ agenda ∧ h ∈ hs := by
  rw [List.any_eq_true]
  constructor
  · rintro ⟨t, member, holds⟩
    cases t with
    | letGo hs => exact ⟨hs, member, by simpa [Task.holds] using holds⟩
    | _ => cases holds
  · rintro ⟨hs, member, waits⟩
    exact ⟨_, member, by simpa [Task.holds] using waits⟩

/-- Nothing of a call is left: no turn of a handle, no loop over a registry, and no reference
that a step still has to give up. -/
def Machine.Between (m : Machine α ε) : Prop :=
  m.AtRest ∧ ∀ s, m.agenda.any (Task.refersTo s) = false

namespace Tended

variable {m : Machine α ε} {h : HandleRef} {x : Handle α ε}

/-- A handle is owned by the registry that it waits in, by its parked value, or by a call. -/
theorem alive_iff (tended : Tended m) (sound : Sound m) (found : m.store.handles[h]? = some x) :
    m.store.alive h = true ↔
      (m.store.referenced m.agenda x.sink = true ∧ h ∈ (m.store.registry x.sink).handles) ∨
        x.phase = .parked ∨ ∃ hs, .letGo hs ∈ m.agenda ∧ h ∈ hs := by
  rw [tended.kept h, Store.owned_of found, (sound.standing h x (by simp) found).keepAlive,
    ← any_holds_iff]
  simp only [Bool.or_eq_true, Bool.and_eq_true, beq_iff_eq, List.contains_iff_mem]
  exact or_comm

/-- Between calls, slots alone refer to sinks, and no call owns a handle. -/
theorem alive_between (tended : Tended m) (sound : Sound m) (between : m.Between)
    (found : m.store.handles[h]? = some x) :
    m.store.alive h = true ↔
      (m.store.names x.sink = true ∧ h ∈ (m.store.registry x.sink).handles) ∨
        x.phase = .parked := by
  have free : ¬ ∃ hs, .letGo hs ∈ m.agenda ∧ h ∈ hs := by
    rintro ⟨hs, member, -⟩
    cases between.1 _ member
  have slots : m.store.referenced m.agenda x.sink = m.store.names x.sink := by
    simp [Store.referenced, between.2]
  rw [tended.alive_iff sound found, slots]
  simp only [free, or_false]

/-- A consumer is there as long as a callback of it runs. -/
theorem alive_of_open (tended : Tended m) (sound : Sound m) {signal : Signal α ε}
    (open_ : (callbacks h m.history).getLast? = some (.began h signal)) :
    m.store.alive h = true := by
  cases found : m.store.handles[h]? with
  | none =>
      have silent : callbacks h m.history = [] :=
        congrArg Ledger.callbacks (sound.unborn h found).2
      simp [silent] at open_
  | some x =>
      have pending := (sound.standing h x (by simp) found).course.of_open open_
      have member : .finish h signal ∈ m.agenda := by
        have member : .finish h signal ∈ m.pending h := by simp [pending]
        exact (List.mem_filter.1 member).1
      exact tended.alive_of_held (Store.lt_of_found found)
        (tended.covered.held member (Task.finish_concerns h signal))

end Tended

/-! ## The result -/

/-- **Releases are exact**, at every moment of every run.

* A handle is alive if and only if it is in the registry of a sink that is still referred to,
  or holds a parked value, or a call in progress still has to let it go.  Between calls, only
  slots refer to sinks, and nothing else keeps a handle alive.
* Each call holds what it works on: subscribing, asking and cancelling the one handle, ending a
  sink all that wait in its registry.  The work of the call is done first, for the call that ends
  a sink the offers to them all, with everything that comes of it.  Then the task is next that
  lets the handles go, with nothing of the call behind it but its references to give up and the
  answer of its step, or the end of the callback that has made it.  From the start of the call
  until then its handles are alive.
* So the consumer is there as long as a callback of it runs.
* A handle was dropped once if it is no longer alive, and never if it is.  From then on it stays
  so, and no callback of it begins. -/
theorem release_is_exact (script : List (Step α ε)) (n : Nat) (h : HandleRef) :
    let m := (Machine.load script).steps n
    (∀ x, m.store.handles[h]? = some x →
        (x.phase = .parked ↔ ∃ v, x.parked = some (.value v)) ∧
        (m.store.alive h = true ↔
          (∃ s, m.store.referenced m.agenda s = true ∧ h ∈ (m.store.registry s).handles) ∨
            x.phase = .parked ∨ ∃ hs, .letGo hs ∈ m.agenda ∧ h ∈ hs) ∧
        (m.Between → (m.store.alive h = true ↔
          (∃ s, m.store.names s = true ∧ h ∈ (m.store.registry s).handles) ∨
            x.phase = .parked)) ∧
        m.history.countP (Event.drops h) = if m.store.alive h then 0 else 1) ∧
      (∀ t rest, m.agenda = t :: rest → ∀ event ∈ (t.effect m.store rest).events,
        event.enters m.store h = true →
          ∃ work hs closing j, event.Opens m.store work hs ∧ h ∈ hs ∧ t.Closes closing ∧
            m.step.agenda = work ++ (.letGo hs :: closing ++ rest) ∧
            (m.steps (j + 1)).agenda = .letGo hs :: closing ++ rest ∧
            (∀ i < j, (m.steps (i + 1)).Busy (.letGo hs :: closing ++ rest)) ∧
            ∀ i ≤ j, (m.steps (i + 1)).store.alive h = true) ∧
      (∀ signal, (callbacks h m.history).getLast? = some (.began h signal) →
        m.store.alive h = true) ∧
      (.dropped h ∈ m.history → ∀ k, (m.steps k).store.alive h = false ∧
        begun h (m.steps k).history = begun h m.history) := by
  intro m
  have sound : Sound m := Machine.steps_sound script n
  have tended : Tended m := Machine.steps_tended script n
  refine ⟨?_, fun t rest turn event member enters => tended.through sound turn member enters,
    fun signal open_ => tended.alive_of_open sound open_,
    fun dropped => tended.silent_steps sound dropped⟩
  intro x found
  have parks := (sound.standing h x (by simp) found).parked_iff
  -- a handle waits at its own sink if at any
  have waits := sound.coherent.exists_waits found
  refine ⟨parks, ?_, ?_, ?_⟩
  · have referenced := waits fun s => m.store.referenced m.agenda s = true
    exact (tended.alive_iff sound found).trans (or_congr_left referenced.symm)
  · intro between
    have named := waits fun s => m.store.names s = true
    exact (tended.alive_between sound between found).trans (or_congr_left named.symm)
  · rw [tended.dropped h, Store.gone_of found, Store.alive_of found]
    cases x.released <;> rfl

/-- The handles that the task in hand lets go. -/
def Machine.parting? (m : Machine α ε) : Option (List HandleRef) :=
  match m.agenda with
  | .letGo hs :: _ => some hs
  | _ => none

/-- A consumer asks once more while it hears the value.  That call is over, and has let go of its
handle, when the one that has ended the sink has still to come to the next handle; and the handle
stays alive until that call, too, has let it go. -/
theorem release_is_exact_nested :
    let script : List (Step Nat Nat) :=
      [.newSink none, .subscribe 0 [.request .own 1] [.request .own 1] [] [],
        .subscribe 0 [.request .own 1] [] [] [], .succeed 0 (some 7)]
    let start := Machine.load script
    .terminating 0 (.value 7) true ∈ (start.steps 20).news ∧
      (start.steps 24).parting? = some [0] ∧ (start.steps 34).parting? = some [0, 1] ∧
      (∀ n, 20 < n → n ≤ 34 → (start.steps n).store.alive 0 = true) ∧
      (start.steps 35).store.alive 0 = false ∧
      (start.steps 35).history.countP (Event.drops 0) = 1 ∧
      ∀ k, begun 0 ((start.steps 35).steps k).history = begun 0 (start.steps 35).history := by
  intro script start
  have wins : .terminating 0 (.value 7) true ∈ (start.steps 20).news :=
    mem_attempts.1 (by decide +kernel)
  have waiting : ((start.steps 20).store.registry 0).handles = [0, 1] := by decide +kernel
  -- the call is at its end once, and then the run is soon over
  have moments : ∀ k < 17, (start.steps (20 + (k + 1))).parting? = some [0, 1] → k = 13 := by
    decide +kernel
  have closed : (start.steps 37).agenda = [] := List.isEmpty_iff.1 (by decide +kernel)
  obtain ⟨-, holds, -, -⟩ := release_is_exact script 20 0
  obtain ⟨t, rest, turn, told⟩ : ∃ t rest, (start.steps 20).agenda = t :: rest ∧
      .terminating 0 (.value 7) true ∈ (t.effect (start.steps 20).store rest).events := by
    cases turn : (start.steps 20).agenda with
    | nil => rw [Machine.news_nil turn] at wins; cases wins
    | cons t rest => exact ⟨t, rest, rfl, by rwa [Machine.news_cons turn] at wins⟩
  have enters : (Event.terminating 0 (.value 7) true).enters (start.steps 20).store 0 = true := by
    rw [Event.enters, waiting]
    rfl
  obtain ⟨work, hs, closing, j, opens, -, -, -, back, -, alive⟩ :=
    holds t rest turn _ told enters
  obtain rfl : hs = [0, 1] := by
    cases opens
    exact waiting
  rw [← Machine.steps_add] at back
  obtain rfl : j = 13 := by
    rcases Nat.lt_or_ge j 17 with early | late
    · exact moments j early (by rw [Machine.parting?, back]; rfl)
    · obtain ⟨d, rfl⟩ := Nat.exists_eq_add_of_le late
      rw [show 20 + (17 + d + 1) = 37 + (1 + d) by omega, Machine.steps_add 37,
        Machine.steps_nil closed, closed] at back
      cases back
  obtain ⟨owners, -, -, silent⟩ := release_is_exact script 35 0
  obtain ⟨x, found⟩ : ∃ x, ((Machine.load script).steps 35).store.handles[0]? = some x :=
    Option.isSome_iff_exists.1 (by decide +kernel)
  have dead : (start.steps 35).store.alive 0 = false := by decide +kernel
  have once := (owners x found).2.2.2
  rw [show ((Machine.load script).steps 35).store.alive 0 = false from dead,
    if_neg Bool.false_ne_true] at once
  have member : .dropped 0 ∈ (start.steps 35).history :=
    (Machine.steps_tended script 35).dropped_iff.2 (by decide +kernel)
  refine ⟨wins, by decide +kernel, by decide +kernel, ?_, dead, once,
    fun k => (silent member k).2⟩
  intro n after_ le
  obtain ⟨i, rfl⟩ := Nat.exists_eq_add_of_le after_
  rw [show 20 + 1 + i = 20 + (i + 1) by omega, Machine.steps_add]
  exact alive i (by omega)

end OneShot
