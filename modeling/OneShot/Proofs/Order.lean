/-
# OneShot.Proofs.Order -- who stands in an open registry, and in which order

A handle joins the registry of its sink when its acknowledgment has returned, and leaves
it when it is cancelled.  So the open registry of a sink is made of the handles that were
subscribed to it, acknowledged and not cancelled (`Sound.waiting_iff`), and it keeps the
order in which the acknowledgments returned (`Machine.ranked_steps`).  That order is not
the one in which the calls of `subscribe` were made: a consumer that subscribes another one
inside its own acknowledgment stands behind it (`Sound.nested_first`).
-/
import OneShot.Proofs.Subscribing

namespace OneShot

set_option autoImplicit false

variable {α ε : Type}

/-- The handle of an acknowledgment that returns. -/
def Event.greets? : Event α ε → Option HandleRef
  | ended h .subscribed => some h
  | _ => none

theorem Event.greets?_eq_some {event : Event α ε} {h : HandleRef} :
    event.greets? = some h ↔ event = .ended h .subscribed := by
  cases event with
  | ended g signal => cases signal <;> simp [greets?]
  | _ => simp [greets?]

theorem Event.greets?_of_mute {event : Event α ε} (mute : event.isTurn = false) :
    event.greets? = none := by
  cases event <;> simp_all [isTurn, greets?]

/-- The handles whose acknowledgment has returned, in that order. -/
def greeted (history : List (Event α ε)) : List HandleRef := history.filterMap Event.greets?

theorem mem_greeted {history : List (Event α ε)} {h : HandleRef} :
    h ∈ greeted history ↔ .ended h .subscribed ∈ history := by
  simp [greeted, Event.greets?_eq_some]

theorem ended_mem_callbacks {history : List (Event α ε)} {h : HandleRef} {signal : Signal α ε} :
    .ended h signal ∈ callbacks h history ↔ .ended h signal ∈ history := by
  simp [callbacks, Event.isCallback]

theorem greeted_append (before after : List (Event α ε)) :
    greeted (before ++ after) = greeted before ++ greeted after :=
  List.filterMap_append

theorem greeted_of_mute {events : List (Event α ε)}
    (mute : ∀ event ∈ events, event.isTurn = false) : greeted events = [] :=
  List.filterMap_eq_nil_iff.2 fun event member => Event.greets?_of_mute (mute event member)

/-- A turn greets as its own event does. -/
theorem Store.Turned.greeted {st : Store α ε} {first : Event α ε} {e : Effect α ε}
    (turned : st.Turned first e) : greeted e.events = OneShot.greeted [first] := by
  obtain ⟨others, events, aside⟩ := turned.events
  rw [events, ← List.singleton_append, greeted_append,
    greeted_of_mute fun event member => Event.isTurn_of_isAside (aside event member),
    List.append_nil]

/-! ## What a step does to registries -/

namespace Store

/-- Registries lose handles at most, and keep the order of the others. -/
def Thins (st st' : Store α ε) : Prop :=
  ∀ s, (st'.registry s).handles.Sublist (st.registry s).handles

theorem Thins.of_sinks {st st' : Store α ε} (sinks : st'.sinks = st.sinks) : st.Thins st' :=
  fun s => by
    have same : st'.registry s = st.registry s := by rw [registry, sinks, registry]
    exact same ▸ List.Sublist.refl _

theorem request_sinks (st : Store α ε) (h : HandleRef) (n : UInt64) :
    (st.request h n).store.sinks = st.sinks := by
  have asks := st.request_asks h n
  generalize st.request h n = e at asks ⊢
  cases asks <;> rfl

theorem cancel_thins (st : Store α ε) (h : HandleRef) : st.Thins (st.cancel h).store := by
  have cancels := st.cancel_cancels h
  generalize st.cancel h = e at cancels ⊢
  cases cancels with
  | missed | again => exact .of_sinks rfl
  | @first x found on kept =>
      intro s
      rw [unregister_registry]
      by_cases own : s = x.sink
      · rw [if_pos own, Registry.handles_erase, own]
        exact List.erase_sublist
      · rw [if_neg own]
        exact List.Sublist.refl _

theorem terminate_thins (st : Store α ε) (s : SinkRef) (o : Outcome α ε) :
    st.Thins (st.terminate s o).2.store := by
  have ends := st.terminate_ends s o
  generalize st.terminate s o = called at ends ⊢
  cases ends with
  | missed | lost => exact .of_sinks rfl
  | won found pending =>
      intro t
      rw [freeze_registry found]
      split
      · exact List.nil_sublist _
      · exact List.Sublist.refl _

theorem deliver_sinks (st : Store α ε) (h : HandleRef) (o : Outcome α ε) :
    (st.deliver h o).store.sinks = st.sinks := by
  have offers := st.deliver_offers h o
  generalize st.deliver h o = e at offers ⊢
  cases offers <;> rfl

end Store

/-- Steps and consumers put nobody into a registry. -/
theorem Deed.thins {st : Store α ε} {may : SinkRef → Prop} {e : Effect α ε}
    (deed : Deed st may e) : st.Thins e.store := by
  induction deed with
  | aside sinks _ _ _ _ => exact .of_sinks sinks
  | @founding st' label sinks _ _ =>
      intro s
      show (st'.registry s).handles.Sublist _
      rw [Store.registry, sinks, getElem?_snoc, Store.registry]
      split
      · exact List.nil_sublist _
      · exact List.Sublist.refl _
  | @subscribing st' beside s _ consumer =>
      intro t
      rw [Store.subscribe_registry, Store.registry, beside.sinks]
      exact List.Sublist.refl _
  | ending _ _ o => exact st.terminate_thins _ o
  | requesting beside h n => exact .of_sinks ((Store.request_sinks _ h n).trans beside.sinks)
  | cancelling h => exact st.cancel_thins h
  | after _ _ ih => exact ih
  | followedBy _ _ _ ih => exact ih

/-- As long as its sink is open, a handle waits when it was acknowledged and not cancelled. -/
theorem Course.waits {h : HandleRef} {place : Place α ε} {asked renounced : Bool}
    {offers : List (Outcome α ε)} {heard : List (Event α ε)} {pending : List (Task α ε)}
    (course : Course h place asked renounced offers heard pending)
    (early : ∀ o, place ≠ .closed o) :
    place = .waiting ↔ .ended h .subscribed ∈ heard ∧ renounced = false := by
  cases course with
  | summoned out => simp [out]
  | greeting out => simp [out]
  | waiting here kept => simp [here, kept, inTurn]
  | left out gone => simp [out, gone]
  | offered closed | withheld closed | due closed | hearing closed | told closed | broken closed =>
      exact absurd closed (early _)

/-- An acknowledgment that has begun and not returned is all that is pending. -/
theorem Course.unreturned_iff {h : HandleRef} {place : Place α ε} {asked renounced : Bool}
    {offers : List (Outcome α ε)} {heard : List (Event α ε)} {pending : List (Task α ε)}
    (course : Course h place asked renounced offers heard pending) :
    .finish h .subscribed ∈ pending ↔
      .began h .subscribed ∈ heard ∧ .ended h .subscribed ∉ heard := by
  cases course with
  | summoned | greeting => simp
  | waiting | left | offered | withheld | broken => simp [inTurn]
  | due closed script begun | hearing closed script begun =>
      rcases Outcome.signals_split script begun with
        ⟨v, -, rfl, rfl, -⟩ | ⟨v, -, rfl, rfl, -⟩ | ⟨-, rfl, rfl, -⟩ | ⟨e, -, rfl, rfl, -⟩ <;>
          simp [inTurn]
  | @told o => cases o <;> simp [inTurn, Outcome.signals]

/-! ## The order -/

/-- No acknowledgment returns twice, and registries are in the order of their return. -/
structure Machine.Ranked (m : Machine α ε) : Prop where
  once : (greeted m.history).Nodup
  order : ∀ s, (m.store.registry s).handles.Sublist (greeted m.history)

namespace Machine.Ranked

variable {m : Machine α ε}

/-- An effect that puts nobody into a registry. -/
theorem undergo (ranked : m.Ranked) {e : Effect α ε} (thins : m.store.Thins e.store)
    (mute : greeted e.events = []) : (m.undergo e).Ranked := by
  have same : greeted (m.undergo e).history = greeted m.history := by
    rw [undergo_history, greeted_append, mute, List.append_nil]
  refine ⟨same ▸ ranked.once, ?_⟩
  intro s
  rw [same, undergo_store]
  exact (thins s).trans (ranked.order s)

theorem behind (ranked : m.Ranked) : m.behind.Ranked := ⟨ranked.once, ranked.order⟩

end Machine.Ranked

namespace Store

variable {st : Store α ε} {h : HandleRef} {x : Handle α ε}

/-- Whoever is enrolled comes last. -/
theorem enrol_registry (ok : st.Coherent) (found : st.handles[h]? = some x) (s : SinkRef) :
    ((st.enrol h).store.registry s).handles.Sublist ((st.registry s).handles ++ [h]) := by
  have before : ∀ {hs : List HandleRef}, hs.Sublist (hs ++ [h]) := List.sublist_append_left _ _
  cases registry : st.registry x.sink with
  | frozen o =>
      rw [enrol_frozen found registry]
      exact before
  | live waiting =>
      have joined : ∀ t, ((st.join h x.sink waiting).registry t).handles.Sublist
          ((st.registry t).handles ++ [h]) := by
        intro t
        rw [join_registry (ok.housed h x found)]
        split
        · rename_i own
          rw [own, registry]
          exact List.Sublist.refl _
        · exact before
      rw [enrol_live found registry]
      split
      · rw [unregister_registry]
        split
        · rename_i own
          rw [Registry.handles_erase, own]
          exact List.erase_sublist.trans (joined x.sink)
        · exact joined s
      · exact joined s

end Store

namespace Sound

variable {m : Machine α ε} {h : HandleRef} {rest : List (Task α ε)}

/-- An acknowledgment that has still to return has not returned before. -/
theorem ungreeted (sound : Sound m) (waits : .finish h .subscribed ∈ m.agenda) :
    h ∉ greeted m.history := by
  have pending : .finish h .subscribed ∈ m.pending h :=
    List.mem_filter.2 ⟨waits, Task.finish_concerns h .subscribed⟩
  cases found : m.store.handles[h]? with
  | none =>
      rw [(sound.unborn h found).1] at pending
      cases pending
  | some x =>
      have course := (sound.standing h x (by simp) found).course
      rw [mem_greeted, ← ended_mem_callbacks]
      exact (course.unreturned_iff.1 pending).2

/-- An acknowledgment that has begun and not returned has still to return. -/
theorem unreturned (sound : Sound m) (began : .began h .subscribed ∈ m.history)
    (open_ : h ∉ greeted m.history) : .finish h .subscribed ∈ m.agenda := by
  rw [mem_greeted, ← ended_mem_callbacks] at open_
  have begun : .began h .subscribed ∈ callbacks h m.history :=
    List.mem_filter.2 ⟨began, by simp [Event.isCallback]⟩
  cases found : m.store.handles[h]? with
  | none =>
      have none_ : callbacks h m.history = [] := congrArg Ledger.callbacks (sound.unborn h found).2
      rw [none_] at begun
      cases begun
  | some x =>
      have course := (sound.standing h x (by simp) found).course
      exact (List.mem_filter.1 (course.unreturned_iff.2 ⟨begun, open_⟩)).1

/-- An acknowledgment that returns comes last. -/
theorem greeted_step (turn : m.agenda = .finish h .subscribed :: rest) :
    greeted m.step.history = greeted m.history ++ [h] := by
  rw [Machine.step_cons turn, Machine.undergo_history, greeted_append, Task.effect,
    (m.store.finish_turned h .subscribed).greeted]
  rfl

theorem ranked_step (sound : Sound m) (ranked : m.Ranked) : m.step.Ranked := by
  cases turn : m.agenda with
  | nil => rwa [Machine.step_nil turn]
  | cons t rest =>
      have still : ∀ {st : Store α ε} {events : List (Event α ε)} {tasks : List (Task α ε)},
          st.sinks = m.store.sinks → greeted events = [] →
          (m.behind.undergo ⟨st, events, tasks⟩).Ranked := fun sinks mute =>
        ranked.behind.undergo (.of_sinks sinks) mute
      have forgets : ∀ {left : Store α ε × List (Event α ε)}, m.store.Forgets left →
          (m.behind.undergo ⟨left.1, left.2, []⟩).Ranked := fun forgets =>
        still forgets.sinks (greeted_of_mute (forgets.each fun _ => rfl))
      rw [Machine.step_cons turn]
      cases t with
      | perform within step =>
          have deed := m.store.perform_deed rest within step
          have mute := greeted_of_mute deed.mute
          exact ranked.behind.undergo deed.thins mute
      | answer within step closing =>
          exact still (m.store.conclude_beside closing).sinks rfl
      | notify h signal =>
          cases found : m.store.handles[h]? with
          | none =>
              rw [Task.effect, Store.notify, found]
              exact still rfl rfl
          | some x =>
              have deed := m.store.react_deed x.consumer h signal
              have mute := greeted_of_mute deed.mute
              rw [Task.effect, Store.notify_eq found]
              exact ranked.behind.undergo deed.thins mute
      | finish h signal =>
          have events := (m.store.finish_turned h signal).greeted
          cases signal with
          | subscribed =>
              obtain ⟨x, found, -⟩ := sound.turn_of turn (Task.finish_concerns h .subscribed)
              have later := greeted_step turn
              rw [Machine.step_cons turn] at later
              refine ⟨?_, ?_⟩
              · rw [later]
                exact List.nodup_append.2 ⟨ranked.once, by simp, fun g old _ new => by
                  rintro rfl
                  exact sound.ungreeted (by rw [turn]; exact List.mem_cons_self)
                    (List.mem_singleton.1 new ▸ old)⟩
              · intro s
                rw [later]
                exact (Store.enrol_registry sound.coherent found s).trans
                  ((ranked.order s).append_right [h])
          | next v =>
              refine ranked.behind.undergo (.of_sinks ?_) events
              show (m.store.finish h (.next v)).store.sinks = _
              simp only [Store.finish]
              split <;> rfl
          | complete => exact still rfl events
          | error e => exact still rfl events
      | deliver h o =>
          exact ranked.behind.undergo (.of_sinks (m.store.deliver_sinks h o))
            (m.store.deliver_turned h o).greeted
      | letGo hs => exact forgets (m.store.letGo_forgets rest hs)
      | giveUp s => exact forgets (m.store.giveUp_forgets rest s)
      | hangUp c => exact still rfl rfl

/-- **An open registry holds those who were subscribed, acknowledged and not cancelled.** -/
theorem waiting_iff (sound : Sound m) {s : SinkRef} {hs : List HandleRef}
    (open_ : m.store.registry s = .live hs) :
    h ∈ hs ↔ .subscribing s h ∈ m.history ∧ h ∈ greeted m.history ∧ .cancelling h ∉ m.history := by
  have early : ∀ o, (m.store.registry s).place h ≠ .closed o := by
    intro o closed
    rw [Registry.place_eq_closed, open_] at closed
    cases closed
  have here : h ∈ hs ↔ (m.store.registry s).place h = .waiting := by
    rw [Registry.place_eq_waiting, open_]
    rfl
  have waits : ∀ {x : Handle α ε}, m.store.handles[h]? = some x → x.sink = s →
      (h ∈ hs ↔ h ∈ greeted m.history ∧ .cancelling h ∉ m.history) := by
    rintro x found rfl
    have course := (sound.standing h x (by simp) found).course
    rw [here, course.waits early, mem_greeted, ← Ledger.renounced_iff, Bool.not_eq_true]
    simp [Ledger.of, callbacks, Event.isCallback]
  constructor
  · intro member
    obtain ⟨x, found, home⟩ := sound.coherent.enrolled s h (by rw [open_]; exact member)
    exact ⟨(sound.made s h).2 (by rw [found, Option.map_some, home]), (waits found home).1 member⟩
  · rintro ⟨made, wanted⟩
    obtain ⟨x, found, home⟩ := Option.map_eq_some_iff.1 ((sound.made s h).1 made)
    exact (waits found home).2 wanted

/-- **Who is subscribed inside an acknowledgment comes before its consumer.** -/
theorem nested_first (sound : Sound m) {s : SinkRef} {g : HandleRef}
    (began : .began h .subscribed ∈ m.history) (open_ : h ∉ greeted m.history)
    (made : .subscribing s g ∈ m.news) {k : Nat} (returned : h ∈ greeted (m.steps k).history) :
    [g, h].Sublist (greeted (m.steps k).history) := by
  obtain ⟨within, step, rest, work, closing, turn, due, -, -⟩ := sound.summons made
  -- the end of the outer acknowledgment stands behind the inner call
  obtain ⟨front, back, rfl⟩ : ∃ front back, rest = front ++ .finish h .subscribed :: back := by
    have waits := sound.unreturned began open_
    rw [turn] at waits
    exact List.append_of_mem ((List.mem_cons.1 waits).resolve_left (by simp))
  replace due : m.step.agenda = .notify g .subscribed ::
      ((work ++ .answer within step closing :: front) ++ (.finish h .subscribed :: back)) := by
    rw [due]
    simp
  obtain ⟨n, m', ⟨rfl, -⟩, ends⟩ := sound.step.acknowledges due
  have first := greeted_step ends
  have still : h ∉ greeted (m.step.steps n).step.history := by
    apply (sound.step.steps n).step.ungreeted
    rw [Machine.step_cons ends, Machine.undergo_agenda, Machine.behind_agenda, ends]
    simp
  rw [← Machine.steps_succ, ← Machine.steps_step] at first still
  rcases Nat.le_total k (n + 1 + 1) with early | late
  · exact absurd (((m.history_mono early).filterMap _).subset returned) still
  · obtain ⟨more, grown⟩ := m.history_mono late
    rw [← grown, greeted_append] at returned ⊢
    have after : h ∈ greeted more := (List.mem_append.1 returned).resolve_left still
    have before : g ∈ greeted (m.steps (n + 1 + 1)).history := by
      rw [first]
      simp
    exact (List.singleton_sublist.2 before).append (List.singleton_sublist.2 after)

end Sound

/-- What is left of a list without repetitions keeps the order of any two. -/
theorem pair_sublist {l hs : List HandleRef} (distinct : l.Nodup) (sub : hs.Sublist l)
    {g h : HandleRef} (first : g ∈ hs) (second : h ∈ hs) (order : [g, h].Sublist l) :
    [g, h].Sublist hs := by
  induction sub with
  | slnil => cases first
  | @cons hs l a sub ih =>
      obtain ⟨out, distinct⟩ := List.nodup_cons.1 distinct
      refine ih distinct first second ?_
      cases order with
      | cons _ order => exact order
      | cons_cons _ _ => exact absurd (sub.subset first) out
  | @cons_cons hs l a sub ih =>
      obtain ⟨out, distinct⟩ := List.nodup_cons.1 distinct
      cases order with
      | cons_cons _ order =>
          have inside : h ∈ l := List.singleton_sublist.1 order
          have other : h ≠ g := by rintro rfl; exact out inside
          exact (List.singleton_sublist.2 ((List.mem_cons.1 second).resolve_left other)).cons_cons g
      | cons _ order =>
          have apart : ∀ {b : HandleRef}, b ∈ [g, h] → b ≠ a := by
            rintro b member rfl
            exact out (order.subset member)
          exact (ih distinct ((List.mem_cons.1 first).resolve_left (apart (by simp)))
            ((List.mem_cons.1 second).resolve_left (apart (by simp))) order).cons a

theorem Machine.ranked_steps (script : List (Step α ε)) (n : Nat) :
    ((load script).steps n).Ranked := by
  induction n with
  | zero =>
      refine ⟨List.nodup_nil, fun s => ?_⟩
      simp [load, Store.empty, Store.registry, Registry.handles]
  | succ n ih =>
      rw [steps_step]
      exact (steps_sound script n).ranked_step ih

end OneShot
