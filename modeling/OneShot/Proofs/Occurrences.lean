/-
# OneShot.Proofs.Occurrences -- a script is run once through

`Step.treeAll` lists every step of a script with every step nested in its hooks.  A run
takes each of them at most once: what it has performed, what its agenda still has to
perform, and the hooks that no callback has run yet are together never more than the
script (`Machine.spent_steps`), however often callbacks start calls that start callbacks.

That rests on one thing only: a handle hears each callback at most once
(`Course.heard_once`), so a hook that is run is not there to be run again.

`script_runs_once` is the result, with the end of the run beside it.
-/
import Mathlib.Algebra.BigOperators.Group.Finset.Basic
import Mathlib.Algebra.Order.BigOperators.Group.Finset
import Mathlib.Data.List.Perm.Subperm
import OneShot.Proofs.Grammar
import OneShot.Proofs.Cancellation

namespace OneShot

set_option autoImplicit false

variable {α ε : Type}

/-! ## The steps of a script -/

mutual

/-- The steps nested in the hooks of a step. -/
def Step.nested : Step α ε → List (Step α ε)
  | .subscribe _ onSubscribe onNext onComplete onError =>
      treeAll onSubscribe ++ treeAll onNext ++ treeAll onComplete ++ treeAll onError
  | .subscribeFn _ onNext => treeAll onNext
  | _ => []

/-- The steps of a list, each with those nested in it. -/
def Step.treeAll : List (Step α ε) → List (Step α ε)
  | [] => []
  | s :: rest => s :: s.nested ++ treeAll rest

end

mutual

theorem Step.length_nested (s : Step α ε) : s.nested.length + 1 = s.occurrences := by
  cases s with
  | subscribe sink onSubscribe onNext onComplete onError =>
      simp only [nested, occurrences, List.length_append, length_treeAll]
      omega
  | subscribeFn sink onNext =>
      simp only [nested, occurrences, length_treeAll]
      omega
  | _ => rfl

/-- There are as many steps in the tree as the script has occurrences. -/
theorem Step.length_treeAll (steps : List (Step α ε)) :
    (treeAll steps).length = occurrencesAll steps := by
  cases steps with
  | nil => rfl
  | cons s rest =>
      have first := length_nested s
      have others := length_treeAll rest
      simp only [treeAll, occurrencesAll, List.length_cons, List.cons_append, List.length_append]
      omega

end

/-- The step that an event says was performed. -/
def Event.step? : Event α ε → Option (Step α ε)
  | performed _ step => some step
  | _ => none

/-- The steps that were performed, in the order in which they started. -/
def performed (history : List (Event α ε)) : List (Step α ε) := history.filterMap Event.step?

theorem performed_append (before after : List (Event α ε)) :
    performed (before ++ after) = performed before ++ performed after := by
  simp [performed]

/-- The steps that a task still has to perform, with all that is nested in them. -/
def Task.steps : Task α ε → List (Step α ε)
  | perform _ step => step :: step.nested
  | _ => []

theorem steps_of_performs (within : Option Nat) (steps : List (Step α ε)) :
    (steps.map (Task.perform within)).flatMap Task.steps = Step.treeAll steps := by
  induction steps with
  | nil => rfl
  | cons s rest ih => simp only [List.map_cons, List.flatMap_cons, ih, Task.steps, Step.treeAll]

/-! ## The hooks of a consumer -/

def Callback.all : List Callback := [.onSubscribe, .onNext, .onComplete, .onError]

/-- The steps that a consumer runs inside a callback. -/
def Consumer.hook : Consumer α ε → Callback → List (Step α ε)
  | scripted _ hooks, .onSubscribe => hooks.onSubscribe
  | scripted _ hooks, .onNext => hooks.onNext
  | scripted _ hooks, .onComplete => hooks.onComplete
  | scripted _ hooks, .onError => hooks.onError
  | valueOnly _ onNext, .onNext => onNext
  | _, _ => []

/-- The steps in the hooks of the callbacks that have not begun. -/
def Consumer.unrun (consumer : Consumer α ε) (heard : List (Event α ε)) : List (Step α ε) :=
  Callback.all.flatMap fun c =>
    if heard.any (Event.starts c) then [] else Step.treeAll (consumer.hook c)

theorem Consumer.unrun_congr (consumer : Consumer α ε) {heard heard' : List (Event α ε)}
    (same : ∀ c, heard'.any (Event.starts c) = heard.any (Event.starts c)) :
    consumer.unrun heard' = consumer.unrun heard := by
  simp only [unrun, same]

/-- A callback that begins for the first time takes its hook away. -/
theorem Consumer.unrun_began (consumer : Consumer α ε) (heard : List (Event α ε)) (h : HandleRef)
    (signal : Signal α ε) (unheard : heard.any (Event.starts signal.callback) = false)
    (q : Step α ε → Bool) :
    (consumer.unrun (heard ++ [.began h signal])).countP q +
      (Step.treeAll (consumer.hook signal.callback)).countP q =
        (consumer.unrun heard).countP q := by
  have begun : ∀ c, (heard ++ [Event.began h signal]).any (Event.starts c) =
      (heard.any (Event.starts c) || signal.callback == c) := by
    simp [Event.starts]
  simp only [unrun, Callback.all, List.flatMap_cons, List.flatMap_nil, List.append_nil,
    List.countP_append, begun]
  generalize signal.callback = c at unheard ⊢
  cases c <;> simp [unheard] <;> omega

/-! ## What a call leaves to perform -/

namespace Store

/-- The effect leaves the steps `run` to be performed, and makes at most one handle, whose
consumer has no other steps in its hooks than `planted`. -/
structure Sows (st : Store α ε) (e : Effect α ε) (run planted : List (Step α ε)) : Prop where
  made : ∃ made : Option (Consumer α ε), e.store.consumers = st.consumers ++ made.toList ∧
    ∀ c ∈ made, (c.unrun []).Sublist planted
  tasks : e.tasks.flatMap Task.steps = run
  events : performed e.events = []

namespace Sows

variable {st : Store α ε} {e : Effect α ε} {run planted : List (Step α ε)}

theorem of_same {run : List (Step α ε)} (same : e.store.consumers = st.consumers)
    (tasks : e.tasks.flatMap Task.steps = run) (events : performed e.events = []) :
    st.Sows e run planted :=
  ⟨⟨none, by simpa using same, by simp⟩, tasks, events⟩

theorem quiet {st' : Store α ε} (same : st'.handles = st.handles) :
    st.Sows (.quiet st') [] planted :=
  of_same (by simp [Effect.quiet, consumers, same]) rfl rfl

theorem after (sows : st.Sows e run planted) {events : List (Event α ε)}
    (none_ : performed events = []) : st.Sows (e.after events) run planted :=
  ⟨sows.made, sows.tasks, by rw [Effect.after, performed_append, none_, sows.events]; rfl⟩

theorem followedBy (sows : st.Sows e run planted) {tasks : List (Task α ε)}
    (none_ : tasks.flatMap Task.steps = []) : st.Sows (e.followedBy tasks) run planted :=
  ⟨sows.made, by rw [Effect.followedBy, List.flatMap_append, sows.tasks, none_, List.append_nil],
    sows.events⟩

theorem beside {st' : Store α ε} (sows : st'.Sows e run planted)
    (same : st'.handles = st.handles) : st.Sows e run planted := by
  have consumers : st'.consumers = st.consumers := by rw [Store.consumers, same, Store.consumers]
  exact ⟨consumers ▸ sows.made, sows.tasks, sows.events⟩

/-- What is planted, counted. -/
theorem made_le (sows : st.Sows e run planted) (q : Step α ε → Bool) :
    ∃ made : Option (Consumer α ε), e.store.consumers = st.consumers ++ made.toList ∧
      ((made.map (·.unrun [])).getD []).countP q ≤ planted.countP q := by
  obtain ⟨made, consumers, hooks⟩ := sows.made
  refine ⟨made, consumers, ?_⟩
  cases made with
  | none => simp
  | some c => exact (hooks c rfl).countP_le

end Sows

section Calls

variable (st : Store α ε) {planted : List (Step α ε)}

theorem request_sows (h : HandleRef) (n : UInt64) : st.Sows (st.request h n) [] planted := by
  have kept : ∀ f : Handle α ε → Handle α ε, (∀ x, (f x).consumer = x.consumer) →
      (st.modifyHandle h f).consumers = st.consumers := fun f keep =>
    st.modifyHandle_consumers h keep
  have asks := st.request_asks h n
  generalize st.request h n = e at asks ⊢
  cases asks with
  | missed => exact .quiet rfl
  | refused | again => exact .of_same rfl rfl rfl
  | first | served | spoilt | empty => exact .of_same (kept _ fun _ => rfl) rfl rfl

theorem unregister_performed (s : SinkRef) (h : HandleRef) :
    performed (st.unregister s h).2 = [] := by
  unfold unregister
  split <;> rfl

theorem cancel_sows (h : HandleRef) : st.Sows (st.cancel h) [] planted := by
  have consumers := st.cancel_consumers h
  have cancels := st.cancel_cancels h
  generalize st.cancel h = e at consumers cancels ⊢
  cases cancels with
  | missed => exact .quiet rfl
  | again => exact .of_same rfl rfl rfl
  | @first x => exact .of_same consumers rfl (unregister_performed _ x.sink h)

theorem subscribe_sows (s : SinkRef) {consumer : Consumer α ε}
    (hooks : (consumer.unrun []).Sublist planted) : st.Sows (st.subscribe s consumer).2 [] planted :=
  ⟨⟨some consumer, st.subscribe_consumers s consumer, by simpa using hooks⟩, rfl, rfl⟩

theorem terminate_sows (s : SinkRef) (o : Outcome α ε) :
    st.Sows (st.terminate s o).2 [] planted := by
  have offers : ∀ handles : List HandleRef,
      (handles.map fun h => (.deliver h o : Task α ε)).flatMap Task.steps = [] := fun handles => by
    simp [Task.steps]
  have ends := st.terminate_ends s o
  generalize st.terminate s o = called at ends ⊢
  cases ends with
  | missed => exact .quiet rfl
  | lost => exact .of_same rfl rfl rfl
  | won =>
      refine .of_same rfl ?_ rfl
      rw [List.flatMap_append, offers]
      rfl

/-! ## Consumers -/

theorem forward_performed (c : ChannelRef) (signal : Signal α ε) :
    performed (st.forward c signal).2 = [] := by
  have sends := st.forward_sends c signal
  generalize st.forward c signal = left at sends ⊢
  cases sends <;> rfl

theorem close_performed (g : GateRef) : performed (st.close g).2 = [] := by
  unfold close
  split <;> rfl

/-- **A consumer runs the hook of the callback that has begun**, and nothing else. -/
theorem react_sows (consumer : Consumer α ε) (h : HandleRef) (signal : Signal α ε) :
    st.Sows (st.react consumer h signal) (Step.treeAll (consumer.hook signal.callback)) planted := by
  -- what outlets do with a signal runs no steps
  have told : ∀ {left : Store α ε × List (Event α ε)}, st.Beside left.1 → performed left.2 = [] →
      st.Sows ⟨left.1, left.2, []⟩ [] planted := fun beside none_ =>
    .of_same (by simp [consumers, beside.handles]) rfl none_
  have reacts := st.react_reacts consumer h signal
  generalize st.react consumer h signal = e at reacts ⊢
  cases reacts with
  | greeting slot hooks => exact .of_same rfl (steps_of_performs (some slot) _) rfl
  | running slot hooks later =>
      cases signal with
      | subscribed => exact absurd rfl later
      | next | complete | error => exact .of_same rfl (steps_of_performs (some slot) _) rfl
  | valued slot onNext v => exact .of_same rfl (steps_of_performs (some slot) _) rfl
  | asking | askingOnce => exact st.request_sows h _
  | completed => exact .quiet rfl
  | unheard => exact .of_same rfl rfl rfl
  | sending c => exact told (st.forward_beside c signal) (st.forward_performed c signal)
  | sendingAsking c n =>
      have beside := (st.forward_beside c (.subscribed : Signal α ε)).handles
      exact .after (.beside (request_sows _ h n) beside) (st.forward_performed c .subscribed)
  | closing g => exact told (st.close_beside g) (st.close_performed g)

end Calls

/-! ## Steps -/

theorem hookless (target : DirectTarget) (c : Callback) :
    (target.consumer : Consumer α ε).hook c = [] := by
  cases target <;> rfl

theorem Reslots.steps {st : Store α ε} {within : Option Nat} {step : Step α ε} {slots : Slots}
    {tasks : List (Task α ε)} (reslots : st.Reslots within step slots tasks) :
    tasks.flatMap Task.steps = [] := by
  cases reslots <;> rfl

/-- The hooks of who is subscribed are those of the step. -/
theorem Readies.unrun_sublist {st st' : Store α ε} {k : Nat} {step : Step α ε}
    {consumer : Consumer α ε} {closing : Closing α ε}
    (readies : st.Readies k step st' consumer closing) :
    (consumer.unrun []).Sublist step.nested := by
  cases readies with
  | scripted hooks => simp [Consumer.unrun, Consumer.hook, Callback.all, Step.nested]
  | valueOnly onNext =>
      simp [Consumer.unrun, Consumer.hook, Callback.all, Step.nested, Step.treeAll]
  | newChannel | newGate | attachChannel | attachGate =>
      simp [Consumer.unrun, Consumer.hook, Step.treeAll, Callback.all]

/-- **A step plants the steps nested in it**, and leaves none to be performed at once. -/
theorem perform_sows (st : Store α ε) (agenda : List (Task α ε)) (within : Option Nat)
    (step : Step α ε) : st.Sows (st.perform agenda within step).1 [] step.nested := by
  have direct : ∀ (target : DirectTarget) (h : HandleRef) (signal : Signal α ε)
      (held : List (Task α ε)), held.flatMap Task.steps = [] →
      st.Sows (((st.react target.consumer h signal).after [.direct target signal]).followedBy
        held) [] step.nested := fun target h signal held none_ => by
    have reacts : st.Sows _ _ step.nested := st.react_sows target.consumer h signal
    rw [hookless] at reacts
    exact (reacts.after rfl).followedBy none_
  have performs := st.perform_performs agenda within step
  generalize st.perform agenda within step = performed at performs ⊢
  cases performs with
  | still | founding | foundingStandard | sprouting | opening | openingGate | hangingUp =>
      exact .quiet rfl
  | reslotting reslots => exact .of_same rfl reslots.steps rfl
  | @ending step k s o => exact st.terminate_sows s o
  | @subscribing step k s st' consumer closing found readies =>
      exact .beside (st'.subscribe_sows s readies.unrun_sublist) readies.beside.handles
  | requesting found n => exact st.request_sows _ n
  | cancelling | cancellingAttached => exact st.cancel_sows _
  | @signalling k c found call h signal => exact direct (.channel c) h signal [.hangUp c] rfl
  | @signallingGate k g found call h signal => exact direct (.gate g) h signal [] rfl
  | taking => exact .of_same rfl rfl rfl

/-! ## Turns, and letting go -/

theorem enrol_sows (st : Store α ε) (h : HandleRef) : st.Sows (st.enrol h) [] [] := by
  have consumers := (st.enrol_shape h).1
  have enrols := st.enrol_enrols h
  generalize st.enrol h = e at consumers enrols ⊢
  cases enrols with
  | missed => exact .quiet rfl
  | replayed | joined => exact .of_same rfl rfl rfl
  | @turnedAway x => exact .of_same consumers rfl (unregister_performed _ x.sink h)

theorem finish_sows (st : Store α ε) (h : HandleRef) (signal : Signal α ε) :
    st.Sows (st.finish h signal) [] [] := by
  cases signal with
  | subscribed => exact (st.enrol_sows h).after rfl
  | next v =>
      simp only [finish]
      split
      · exact (Sows.quiet rfl).after rfl
      · exact .of_same rfl rfl rfl
  | complete => exact (Sows.quiet rfl).after rfl
  | error e => exact (Sows.quiet rfl).after rfl

theorem deliver_sows (st : Store α ε) (h : HandleRef) (o : Outcome α ε) :
    st.Sows (st.deliver h o) [] [] := by
  have offers := st.deliver_offers h o
  generalize st.deliver h o = e at offers ⊢
  cases offers with
  | withheld | told | late => exact .of_same rfl rfl rfl
  | fed | parked => exact .of_same (st.modifyHandle_consumers h fun _ => rfl) rfl rfl

theorem Forgets.sows {st : Store α ε} {left : Store α ε × List (Event α ε)}
    (forgets : st.Forgets left) : st.Sows ⟨left.1, left.2, []⟩ [] [] :=
  .of_same forgets.consumers rfl (List.filterMap_eq_nil_iff.2 (forgets.each fun _ => rfl))

end Store

/-- Only steps and callbacks have steps performed. -/
theorem Task.effect_sows (st : Store α ε) (rest : List (Task α ε)) {t : Task α ε}
    (step : t.steps = []) (callback : t.isNotify = false) :
    st.Sows (t.effect st rest) [] [] := by
  cases t with
  | perform within step => cases step
  | answer within step closing =>
      exact .of_same (by simp [effect, Store.consumers, (st.conclude_beside closing).handles]) rfl rfl
  | notify h signal => cases callback
  | finish h signal => exact st.finish_sows h signal
  | deliver h o => exact st.deliver_sows h o
  | letGo hs => exact (st.letGo_forgets rest hs).sows
  | giveUp s => exact (st.giveUp_forgets rest s).sows
  | hangUp c => exact .quiet rfl

/-! ## The account of a run -/

/-- What begins no callback leaves the callbacks that have begun as they are. -/
theorem heard_append {h : HandleRef} (before : List (Event α ε)) {after : List (Event α ε)}
    (mute : ∀ event ∈ after, event.begins h = false) (c : Callback) :
    (callbacks h (before ++ after)).any (Event.starts c) =
      (callbacks h before).any (Event.starts c) := by
  have silent : (callbacks h after).any (Event.starts c) = false := by
    rw [List.any_eq_false]
    intro event member
    obtain ⟨inside, own⟩ := List.mem_filter.1 member
    have none_ := mute event inside
    cases event <;> simp_all [Event.begins, Event.isCallback, Event.starts]
  rw [callbacks, List.filter_append, List.any_append, ← callbacks, ← callbacks, silent,
    Bool.or_false]

namespace Machine

/-- The steps in the hooks of a handle that no callback has run yet. -/
def unrun (m : Machine α ε) (h : HandleRef) : List (Step α ε) :=
  match m.store.consumers[h]? with
  | none => []
  | some consumer => consumer.unrun (callbacks h m.history)

/-- Of the steps that `q` picks, those that were performed, are still to be performed, or
stand in a hook that has not been run. -/
def spent (m : Machine α ε) (q : Step α ε → Bool) : Nat :=
  (performed m.history).countP q + (m.agenda.flatMap Task.steps).countP q +
    ∑ h ∈ Finset.range m.store.consumers.length, (m.unrun h).countP q

variable {m : Machine α ε} {e : Effect α ε} (q : Step α ε → Bool)

theorem spent_behind {t : Task α ε} {rest : List (Task α ε)} (turn : m.agenda = t :: rest) :
    m.spent q = m.behind.spent q + t.steps.countP q := by
  have hooks : ∀ h, m.behind.unrun h = m.unrun h := fun h => rfl
  simp only [spent, turn, behind_agenda, behind_history, behind_store, hooks, List.tail_cons,
    List.flatMap_cons, List.countP_append]
  omega

/-- What an effect adds to the account, if it begins no callback. -/
theorem spent_undergo (unborn : ∀ h : HandleRef, m.store.handles[h]? = none →
      callbacks h m.history = [])
    {made : Option (Consumer α ε)} (consumers : e.store.consumers = m.store.consumers ++ made.toList)
    (mute : ∀ h, ∀ event ∈ e.events, event.begins h = false) :
    (m.undergo e).spent q = m.spent q + (performed e.events).countP q +
      (e.tasks.flatMap Task.steps).countP q + ((made.map (·.unrun [])).getD []).countP q := by
  have heard := fun h => heard_append (h := h) m.history (mute h)
  have old : ∀ h ∈ Finset.range m.store.consumers.length,
      ((m.undergo e).unrun h).countP q = (m.unrun h).countP q := by
    intro h inside
    simp only [Finset.mem_range] at inside
    simp only [unrun, undergo_store, undergo_history, consumers,
      List.getElem?_append_left inside, List.getElem?_eq_getElem inside]
    rw [Consumer.unrun_congr _ (heard h)]
  have hooks : ∑ h ∈ Finset.range (m.undergo e).store.consumers.length,
      ((m.undergo e).unrun h).countP q =
        ∑ h ∈ Finset.range m.store.consumers.length, (m.unrun h).countP q +
          ((made.map (·.unrun [])).getD []).countP q := by
    rw [undergo_store, consumers, List.length_append]
    cases made with
    | none => simpa using Finset.sum_congr rfl old
    | some consumer =>
        have absent : m.store.handles[m.store.consumers.length]? = none := by
          simp [Store.consumers]
        have fresh : (m.undergo e).unrun m.store.consumers.length = consumer.unrun [] := by
          have here : (m.store.consumers ++ [consumer])[m.store.consumers.length]? =
              some consumer := by simp
          simp only [unrun, undergo_store, undergo_history, consumers, Option.toList_some, here]
          apply Consumer.unrun_congr
          intro c
          rw [heard, unborn _ absent]
        rw [Option.toList_some, List.length_singleton, Finset.sum_range_succ,
          Finset.sum_congr rfl old, fresh]
        rfl
  simp only [spent, hooks, undergo_history, undergo_agenda, performed_append,
    List.flatMap_append, List.countP_append]
  omega

/-- A callback that begins takes its hook out of the account. -/
theorem spent_began {h : HandleRef} {consumer : Consumer α ε} {signal : Signal α ε}
    (found : m.store.consumers[h]? = some consumer)
    (unheard : (callbacks h m.history).any (Event.starts signal.callback) = false) :
    (m.undergo ⟨m.store, [.began h signal], [.finish h signal]⟩).spent q +
      (Step.treeAll (consumer.hook signal.callback)).countP q = m.spent q := by
  generalize begun : m.undergo ⟨m.store, [.began h signal], [.finish h signal]⟩ = m'
  have inside : h ∈ Finset.range m.store.consumers.length := by
    simpa using (List.getElem?_eq_some_iff.1 found).1
  have told : ∀ g, m'.unrun g = match m.store.consumers[g]? with
      | none => []
      | some c => c.unrun (callbacks g (m.history ++ [.began h signal])) := by
    subst begun
    intro g
    simp [unrun]
  have split : ∀ f : HandleRef → Nat,
      f h + ∑ g ∈ (Finset.range m.store.consumers.length).erase h, f g =
        ∑ g ∈ Finset.range m.store.consumers.length, f g := fun f =>
    Finset.add_sum_erase _ f inside
  have others : ∑ g ∈ (Finset.range m.store.consumers.length).erase h, (m'.unrun g).countP q =
      ∑ g ∈ (Finset.range m.store.consumers.length).erase h, (m.unrun g).countP q := by
    apply Finset.sum_congr rfl
    intro g member
    have ne : h ≠ g := Ne.symm (Finset.mem_erase.1 member).1
    have same : callbacks g (m.history ++ [.began h signal]) = callbacks g m.history := by
      simp [callbacks, Event.isCallback, ne]
    rw [told, same]
    rfl
  have own : (m'.unrun h).countP q + (Step.treeAll (consumer.hook signal.callback)).countP q =
      (m.unrun h).countP q := by
    have grown : callbacks h (m.history ++ [.began h signal]) =
        callbacks h m.history ++ [.began h signal] := by
      simp [callbacks, Event.isCallback]
    rw [told, found, grown]
    simp only [unrun, found]
    exact consumer.unrun_began _ h signal unheard q
  have agenda : (m'.agenda.flatMap Task.steps) = m.agenda.flatMap Task.steps := by
    subst begun
    simp [Task.steps]
  have history : performed m'.history = performed m.history := by
    subst begun
    rw [undergo_history, performed_append]
    exact List.append_nil _
  have store : m'.store = m.store := by
    subst begun
    rfl
  simp only [spent, agenda, history, store, ← split]
  omega

end Machine

namespace Sound

variable {m : Machine α ε} {t : Task α ε} {rest : List (Task α ε)} (q : Step α ε → Bool)

theorem unheard_behind (sound : Sound m) (h : HandleRef)
    (none_ : m.behind.store.handles[h]? = none) : callbacks h m.behind.history = [] :=
  congrArg Ledger.callbacks (sound.unborn_behind h none_)

/-- A step that is performed moves from the agenda to the history, and what is nested in it to the
hooks of the handle that it makes. -/
theorem spent_perform {within : Option Nat} {step : Step α ε} (sound : Sound m)
    (turn : m.agenda = .perform within step :: rest) : m.step.spent q ≤ m.spent q := by
  have sows := m.store.perform_sows rest within step
  obtain ⟨made, consumers, planted⟩ := sows.made_le q
  have told : performed (Task.effect m.store rest (.perform within step)).events = [step] := by
    simp only [Task.effect, Effect.followedBy, Effect.after]
    rw [performed_append, sows.events]
    rfl
  have left : (Task.effect m.store rest (.perform within step)).tasks.flatMap Task.steps = [] := by
    simp only [Task.effect, Effect.followedBy, Effect.after, List.flatMap_append]
    rw [sows.tasks]
    rfl
  have mute := fun h =>
    Task.effect_begun m.store rest (t := .perform within step) (h := h) (by simp)
  rw [Machine.step_cons turn, Machine.spent_behind q turn,
    Machine.spent_undergo q (e := Task.effect m.store rest (.perform within step))
      sound.unheard_behind consumers mute, told, left]
  simp only [Task.steps, List.countP_cons, List.countP_nil]
  omega

/-- A callback that begins moves its hook to the agenda. -/
theorem spent_notify {h : HandleRef} {signal : Signal α ε} (sound : Sound m)
    (turn : m.agenda = .notify h signal :: rest) : m.step.spent q ≤ m.spent q := by
  obtain ⟨x, found, -, -, stands⟩ := sound.turn_of turn (Task.notify_concerns h signal)
  have consumer : m.behind.store.consumers[h]? = some x.consumer := by
    simp [Store.consumers, found]
  have began := Machine.spent_began q consumer stands.course.unheard.2
  have unheard : ∀ g : HandleRef, m.store.handles[g]? = none →
      callbacks g (m.history ++ [.began h signal]) = [] := by
    intro g none_
    have ne : h ≠ g := by
      rintro rfl
      exact absurd (found.symm.trans none_) (by simp)
    have silent := sound.unheard_behind g none_
    simp_all [callbacks, Event.isCallback]
  have deed := m.store.react_deed x.consumer h signal
  have reacts : m.store.Sows _ _ [] := m.store.react_sows x.consumer h signal
  obtain ⟨made, consumers, planted⟩ := reacts.made_le q
  have after := Machine.spent_undergo q
    (m := m.behind.undergo ⟨m.store, [.began h signal], [.finish h signal]⟩)
    (by simpa using unheard) consumers fun g event member =>
      Event.begins_of_isTurn (deed.mute event member) g
  rw [reacts.events, reacts.tasks, Nat.le_zero.1 planted] at after
  rw [Machine.step_cons turn, Machine.spent_behind q turn, Task.effect, Store.notify_eq found,
    Machine.undergo_followedBy, Machine.undergo_after, Nat.add_comm, ← began]
  exact Nat.le_of_eq (after.trans (by simp [Task.steps]))

/-- **No step adds to the account.** -/
theorem spent_step (sound : Sound m) : m.step.spent q ≤ m.spent q := by
  cases turn : m.agenda with
  | nil => rw [Machine.step_nil turn]
  | cons t rest =>
      have others : t.steps = [] → t.isNotify = false → m.step.spent q ≤ m.spent q := by
        intro idle calm
        have sows := Task.effect_sows m.store rest idle calm
        obtain ⟨made, consumers, planted⟩ := sows.made_le q
        have mute := fun h => Task.effect_begun m.store rest (t := t) (h := h)
          (by rintro signal rfl; cases calm)
        rw [Machine.step_cons turn, Machine.spent_behind q turn,
          Machine.spent_undergo q sound.unheard_behind consumers mute, sows.events, sows.tasks]
        simp only [idle, List.countP_nil] at planted ⊢
        omega
      cases t with
      | perform within step => exact sound.spent_perform q turn
      | notify h signal => exact sound.spent_notify q turn
      | _ => exact others rfl rfl

end Sound

theorem Machine.spent_load (script : List (Step α ε)) (q : Step α ε → Bool) :
    (load script).spent q = (Step.treeAll script).countP q := by
  have nothing : ∑ h ∈ Finset.range (load script).store.consumers.length,
      ((load script).unrun h).countP q = 0 := by
    simp [load, Store.empty, Store.consumers]
  rw [spent, nothing, load, steps_of_performs]
  simp [performed, history]

/-- What a run has spent of a script is never more than the script. -/
theorem Machine.spent_steps (script : List (Step α ε)) (q : Step α ε → Bool) (n : Nat) :
    ((load script).steps n).spent q ≤ (Step.treeAll script).countP q := by
  induction n with
  | zero => rw [steps_zero, spent_load]
  | succ n ih =>
      rw [steps_step]
      exact Nat.le_trans ((steps_sound script n).spent_step q) ih

/-! ## Each callback begins once -/

theorem inTurn_starts (h : HandleRef) (o : Outcome α ε) (c : Callback) :
    (inTurn h o.signals).countP (Event.starts c) ≤ 1 := by
  cases o <;> cases c <;> simp [inTurn, Outcome.signals, Event.starts, Signal.callback]

/-- A handle hears each callback at most once. -/
theorem Course.heard_once {h : HandleRef} {place : Place α ε} {asked renounced : Bool}
    {offers : List (Outcome α ε)} {heard : List (Event α ε)} {pending : List (Task α ε)}
    (course : Course h place asked renounced offers heard pending) (c : Callback) :
    heard.countP (Event.starts c) ≤ 1 := by
  have within : ∃ o : Outcome α ε, heard <+: inTurn h o.signals := by
    by_cases closed : ∃ o, place = .closed o
    · obtain ⟨o, closed⟩ := closed
      exact ⟨o, course.heard_closed closed⟩
    · have early := course.heard_early fun o closed' => closed ⟨o, closed'⟩
      exact ⟨.empty, prefix_of_subscribed early .empty⟩
  obtain ⟨o, within⟩ := within
  exact Nat.le_trans within.sublist.countP_le (inTurn_starts h o c)

/-- **A script is run once through.**

The run of a script comes to an end, and stays there.  At no moment of it has any callback of
any handle begun more than once, so each hook is run at most once; and the steps that were
performed are, each as often as it was performed, steps of the script's tree.  So no more
steps are performed than there are occurrences. -/
theorem script_runs_once (script : List (Step α ε)) :
    (Machine.run script).agenda = [] ∧
      (∀ n, (Machine.run script).steps n = Machine.run script) ∧
      ∀ n,
        let m := (Machine.load script).steps n
        (∀ h c, (callbacks h m.history).countP (Event.starts c) ≤ 1) ∧
          (performed m.history).Subperm (Step.treeAll script) ∧
          (performed m.history).length ≤ Step.occurrencesAll script := by
  have ends := Machine.run_ends script
  refine ⟨ends, fun n => Machine.steps_nil ends n, ?_⟩
  intro n m
  have sound : Sound m := Machine.steps_sound script n
  have spent : (performed m.history).Subperm (Step.treeAll script) := by
    classical
    rw [List.subperm_ext_iff]
    intro step _
    have bound : m.spent (· == step) ≤ _ := Machine.spent_steps script (· == step) n
    have counts := fun l : List (Step α ε) => List.count_eq_countP (a := step) (l := l)
    rw [counts, counts]
    unfold Machine.spent at bound
    omega
  refine ⟨?_, spent, ?_⟩
  · intro h c
    cases found : m.store.handles[h]? with
    | none =>
        have silent : callbacks h m.history = [] :=
          congrArg Ledger.callbacks (sound.unborn h found).2
        simp [silent]
    | some x => exact (sound.standing h x (by simp) found).course.heard_once c
  · rw [← Step.length_treeAll]
    exact spent.length_le

end OneShot
