/-
# OneShot.Proofs.Conduct -- how the calls of the library come out

To ask on a handle, to cancel it, to end a sink, to offer its outcome and to enrol a handle each
come out in one of a few ways.  `Store.Asks`, `Store.Cancels`, `Store.Ends`, `Store.Offers` and
`Store.Enrols` list them, with what held before the call and with the whole effect;
`request_asks`, `cancel_cancels`, `terminate_ends`, `deliver_offers` and `enrol_enrols` say that
there are no others.  What a call keeps is proved from these lists, one way after the other.
-/
import OneShot.Proofs.Registry

namespace OneShot

set_option autoImplicit false

variable {α ε : Type}

namespace Store

/-- How a demand comes out.  A parked handle whose slot holds no value is not reached by any
script (`Standing.of_parked`), but it is not excluded here. -/
inductive Asks (st : Store α ε) (h : HandleRef) (n : UInt64) : Effect α ε → Prop
  | missed (gone : st.alive h = false) : Asks st h n (.quiet st)
  | refused {x : Handle α ε} (found : st.handles[h]? = some x) (on : x.released = false)
      (zero : n = 0) : Asks st h n ⟨st, [.requesting h n, .noticed (.zeroDemand h)], [.letGo [h]]⟩
  | first {x : Handle α ε} (found : st.handles[h]? = some x) (on : x.released = false)
      (positive : n ≠ 0) (idle : x.phase = .idle) :
      Asks st h n ⟨st.modifyHandle h Handle.ask, [.requesting h n], [.letGo [h]]⟩
  | served {x : Handle α ε} {v : α} (found : st.handles[h]? = some x) (on : x.released = false)
      (positive : n ≠ 0) (parked : x.phase = .parked) (slot : x.parked = some (.value v)) :
      Asks st h n ⟨st.modifyHandle h Handle.serve, [.requesting h n, .noticed (.demandMet h)],
        [.notify h (.next v), .letGo [h]]⟩
  | spoilt {x : Handle α ε} {o : Outcome α ε} (found : st.handles[h]? = some x)
      (on : x.released = false) (positive : n ≠ 0) (parked : x.phase = .parked)
      (slot : x.parked = some o) (unvalued : ∀ v, o ≠ .value v) :
      Asks st h n ⟨st.modifyHandle h Handle.serve, [.requesting h n, .noticed (.demandMet h)],
        [.letGo [h]]⟩
  | empty {x : Handle α ε} (found : st.handles[h]? = some x) (on : x.released = false)
      (positive : n ≠ 0) (parked : x.phase = .parked) (slot : x.parked = none) :
      Asks st h n ⟨st.modifyHandle h Handle.serve, [.requesting h n], [.letGo [h]]⟩
  | again {x : Handle α ε} (found : st.handles[h]? = some x) (on : x.released = false)
      (positive : n ≠ 0) (begun : x.phase ≠ .idle) (unparked : x.phase ≠ .parked) :
      Asks st h n ⟨st, [.requesting h n], [.letGo [h]]⟩

/-- How a cancellation comes out. -/
inductive Cancels (st : Store α ε) (h : HandleRef) : Effect α ε → Prop
  | missed (gone : st.alive h = false) : Cancels st h (.quiet st)
  | again {x : Handle α ε} (found : st.handles[h]? = some x) (on : x.released = false)
      (gone : x.phase = .cancelled) : Cancels st h ⟨st, [.cancelling h], [.letGo [h]]⟩
  | first {x : Handle α ε} (found : st.handles[h]? = some x) (on : x.released = false)
      (kept : x.phase ≠ .cancelled) :
      Cancels st h ⟨((st.modifyHandle h Handle.silence).unregister x.sink h).1,
        .cancelling h :: .noticed (.cancelled h) ::
          ((st.modifyHandle h Handle.silence).unregister x.sink h).2,
        [.letGo [h]]⟩

/-- How a call to end a sink comes out. -/
inductive Ends (st : Store α ε) (s : SinkRef) (o : Outcome α ε) : Bool × Effect α ε → Prop
  | missed (none_ : st.sinks[s]? = none) : Ends st s o (false, .quiet st)
  | won {y : Sink α ε} (found : st.sinks[s]? = some y) (pending : y.flag = .pending) :
      Ends st s o (true,
        ⟨st.freeze s o,
          [.terminating s o true,
           .noticed (.terminated s o.termination y.registry.handles.length)],
          y.registry.handles.map (.deliver · o) ++ [.letGo y.registry.handles, .giveUp s]⟩)
  | lost {y : Sink α ε} (found : st.sinks[s]? = some y) (closed : y.flag ≠ .pending) :
      Ends st s o (false,
        ⟨st, [.terminating s o false, .noticed (.ignored s o.termination y.flag)],
          [.giveUp s]⟩)

/-- How an offer comes out.  No script reaches the last case (`Standing.offer_fresh`). -/
inductive Offers (st : Store α ε) (h : HandleRef) : Outcome α ε → Effect α ε → Prop
  | withheld {o : Outcome α ε} (gone : st.phase h = .cancelled) :
      Offers st h o ⟨st, [.attempted h o, .noticed (.suppressed h)], []⟩
  | told {o : Outcome α ε} {signal : Signal α ε} (on : st.phase h ≠ .cancelled)
      (script : o.signals = [.subscribed, signal]) :
      Offers st h o ⟨st, [.attempted h o], [.notify h signal]⟩
  | fed {v : α} (requested : st.phase h = .requested) :
      Offers st h (.value v) ⟨st.modifyHandle h Handle.feed, [.attempted h (.value v)],
        [.notify h (.next v)]⟩
  | parked {v : α} (idle : st.phase h = .idle) :
      Offers st h (.value v) ⟨st.modifyHandle h (Handle.park v),
        [.attempted h (.value v), .noticed (.valueParked h)], []⟩
  | late {v : α} (valued : (st.phase h).hasValue = true) :
      Offers st h (.value v) ⟨st, [.attempted h (.value v)], []⟩

/-- How the end of an acknowledgment comes out. -/
inductive Enrols (st : Store α ε) (h : HandleRef) : Effect α ε → Prop
  | missed (none_ : st.handles[h]? = none) : Enrols st h (.quiet st)
  | replayed {x : Handle α ε} {o : Outcome α ε} (found : st.handles[h]? = some x)
      (closed : st.registry x.sink = .frozen o) :
      Enrols st h ⟨st, [.noticed (.replaying x.sink h)], [.deliver h o]⟩
  | turnedAway {x : Handle α ε} {waiting : List HandleRef} (found : st.handles[h]? = some x)
      (open_ : st.registry x.sink = .live waiting) (gone : x.phase = .cancelled) :
      Enrols st h ⟨((st.join h x.sink waiting).unregister x.sink h).1,
        .noticed (.registered x.sink h) :: ((st.join h x.sink waiting).unregister x.sink h).2, []⟩
  | joined {x : Handle α ε} {waiting : List HandleRef} (found : st.handles[h]? = some x)
      (open_ : st.registry x.sink = .live waiting) (kept : x.phase ≠ .cancelled) :
      Enrols st h ⟨st.join h x.sink waiting, [.noticed (.registered x.sink h)], []⟩

theorem request_asks (st : Store α ε) (h : HandleRef) (n : UInt64) :
    st.Asks h n (st.request h n) := by
  unfold request
  split
  · rename_i none_
    exact .missed (by simp [alive, none_])
  · rename_i x found
    split
    · rename_i off
      exact .missed (by simp [alive, found, off])
    · rename_i on
      have on : x.released = false := by simpa using on
      split
      · rename_i zero
        exact .refused found on zero
      · rename_i positive
        split
        · rename_i idle
          exact .first found on positive idle
        · rename_i parked
          simp only
          split
          · rename_i v slot
            exact .served found on positive parked slot
          · rename_i o unvalued slot
            exact .spoilt found on positive parked slot unvalued
          · rename_i slot
            exact .empty found on positive parked slot
        all_goals
          rename_i phase
          exact .again found on positive (by simp [phase]) (by simp [phase])

theorem cancel_cancels (st : Store α ε) (h : HandleRef) : st.Cancels h (st.cancel h) := by
  unfold cancel
  split
  · rename_i none_
    exact .missed (by simp [alive, none_])
  · rename_i x found
    split
    · rename_i off
      exact .missed (by simp [alive, found, off])
    · rename_i on
      have on : x.released = false := by simpa using on
      split
      · rename_i gone
        exact .again found on gone
      · rename_i kept
        exact .first found on kept

theorem terminate_ends (st : Store α ε) (s : SinkRef) (o : Outcome α ε) :
    st.Ends s o (st.terminate s o) := by
  unfold terminate
  split
  · rename_i none_
    exact .missed none_
  · rename_i y found
    split
    · rename_i pending
      exact .won found pending
    · rename_i closed
      exact .lost found closed

theorem deliver_offers (st : Store α ε) (h : HandleRef) (o : Outcome α ε) :
    st.Offers h o (st.deliver h o) := by
  unfold deliver
  split
  · rename_i gone
    exact .withheld gone
  · rename_i on
    exact .told on rfl
  · rename_i on
    exact .told on rfl
  · rename_i requested
    exact .fed requested
  · rename_i idle
    exact .parked idle
  all_goals
    rename_i phase
    exact .late (by rw [phase]; rfl)

section Enrol

variable {st : Store α ε} {h : HandleRef} {x : Handle α ε}

theorem enrol_frozen {o : Outcome α ε} (found : st.handles[h]? = some x)
    (closed : st.registry x.sink = .frozen o) :
    st.enrol h = ⟨st, [.noticed (.replaying x.sink h)], [.deliver h o]⟩ := by
  simp [enrol, found, closed]

theorem enrol_live {waiting : List HandleRef} (found : st.handles[h]? = some x)
    (open_ : st.registry x.sink = .live waiting) :
    st.enrol h =
      if x.phase = .cancelled then
        ⟨((st.join h x.sink waiting).unregister x.sink h).1,
          .noticed (.registered x.sink h) :: ((st.join h x.sink waiting).unregister x.sink h).2, []⟩
      else ⟨st.join h x.sink waiting, [.noticed (.registered x.sink h)], []⟩ := by
  simp only [enrol, found, open_, join]
  split <;> rfl

theorem enrol_enrols (st : Store α ε) (h : HandleRef) : st.Enrols h (st.enrol h) := by
  cases found : st.handles[h]? with
  | none =>
      rw [enrol, found]
      exact .missed found
  | some x =>
      cases registry : st.registry x.sink with
      | frozen o =>
          rw [enrol_frozen found registry]
          exact .replayed found registry
      | live waiting =>
          rw [enrol_live found registry]
          split
          · rename_i gone
            exact .turnedAway found registry gone
          · rename_i kept
            exact .joined found registry kept

end Enrol

end Store

end OneShot
