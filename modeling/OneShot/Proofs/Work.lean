/-
# OneShot.Proofs.Work -- how much a call leaves to do

The work of a task is a bound on the tasks that come of it and of all that it starts.
A step has `workPerStep` for itself and for each step nested in its hooks; a reply and a
reference to give up are one.  The turns of a handle have no work of their own: a handle
hears each callback at most once, so what its turns can come to is counted with the handle
(`Consumer.toCome`), from the day it is made.

`Costs st e n` says that an effect leaves tasks, and makes handles, for no more than `n`.
There is one lemma for each call, `react_costs` for all consumers, and `perform_costs` for all
steps.
-/
import OneShot.Proofs.Turns

namespace OneShot

set_option autoImplicit false

variable {α ε : Type}

/-! ## Callbacks to come -/

/-- The four callbacks of a consumer. -/
inductive Callback
  | onSubscribe
  | onNext
  | onComplete
  | onError
  deriving DecidableEq, Repr

/-- The callback that a signal is heard by. -/
def Signal.callback : Signal α ε → Callback
  | subscribed => .onSubscribe
  | next _ => .onNext
  | complete => .onComplete
  | error _ => .onError

/-- This callback of some consumer begins. -/
def Event.starts (c : Callback) : Event α ε → Bool
  | began _ signal => signal.callback == c
  | _ => false

def stepsWork (steps : List (Step α ε)) : Nat := Machine.workPerStep * Step.occurrencesAll steps

/-- The work that a callback of a consumer starts. -/
def Consumer.work : Consumer α ε → Callback → Nat
  | scripted _ hooks, .onSubscribe => stepsWork hooks.onSubscribe
  | scripted _ hooks, .onNext => stepsWork hooks.onNext
  | scripted _ hooks, .onComplete => stepsWork hooks.onComplete
  | scripted _ hooks, .onError => stepsWork hooks.onError
  | valueOnly _ onNext, .onNext => stepsWork onNext
  | valueOnly _ _, .onSubscribe | channel _, .onSubscribe | gate _, .onSubscribe => 1
  | _, _ => 0

/-- The same, as long as the callback has not begun. -/
def Consumer.left (consumer : Consumer α ε) (l : Ledger α ε) (c : Callback) : Nat :=
  if l.callbacks.any (Event.starts c) then 0 else consumer.work c

/-- The turns that a handle with this ledger may still have, with all that they start: at
most three callbacks begin and end, and there is one offer. -/
def Consumer.toCome (consumer : Consumer α ε) (l : Ledger α ε) : Nat :=
  (6 - l.callbacks.length) + (1 - l.offers.length) +
    (consumer.left l .onSubscribe + consumer.left l .onNext + consumer.left l .onComplete +
      consumer.left l .onError)

/-- What may still come of consumers, the first of which is that of the handle `h`. -/
def allToCome (history : List (Event α ε)) : Nat → List (Consumer α ε) → Nat
  | _, [] => 0
  | h, consumer :: others =>
      consumer.toCome (.of h history) + allToCome history (h + 1) others

def Task.work : Task α ε → Nat
  | perform _ step => Machine.workPerStep * step.occurrences
  | answer _ _ _ | letGo _ | giveUp _ | hangUp _ => 1
  | notify _ _ | finish _ _ | deliver _ _ => 0

def tasksWork : List (Task α ε) → Nat
  | [] => 0
  | t :: tasks => t.work + tasksWork tasks

@[simp] theorem tasksWork_nil : tasksWork ([] : List (Task α ε)) = 0 := rfl

@[simp] theorem tasksWork_cons (t : Task α ε) (tasks : List (Task α ε)) :
    tasksWork (t :: tasks) = t.work + tasksWork tasks := rfl

@[simp] theorem tasksWork_append (tasks others : List (Task α ε)) :
    tasksWork (tasks ++ others) = tasksWork tasks + tasksWork others := by
  induction tasks with
  | nil => simp
  | cons t tasks ih =>
      rw [List.cons_append, tasksWork_cons, tasksWork_cons, ih]
      omega

theorem tasksWork_of_turns {tasks : List (Task α ε)} (turns : ∀ t ∈ tasks, t.work = 0) :
    tasksWork tasks = 0 := by
  induction tasks with
  | nil => rfl
  | cons t tasks ih =>
      rw [tasksWork_cons, turns t (by simp), ih fun t member => turns t (by simp [member])]

theorem tasksWork_performs (within : Option Nat) (steps : List (Step α ε)) :
    tasksWork (steps.map (.perform within)) = stepsWork steps := by
  induction steps with
  | nil => rfl
  | cons step steps ih =>
      rw [List.map_cons, tasksWork_cons, ih]
      simp [Task.work, stepsWork, Step.occurrencesAll, Nat.mul_add]

theorem occurrences_pos (step : Step α ε) : 0 < step.occurrences := by
  cases step <;> unfold Step.occurrences <;> omega

/-! ## What effects leave -/

namespace Store

def consumers (st : Store α ε) : List (Consumer α ε) := st.handles.map Handle.consumer

/-- The effect leaves tasks, and makes handles, for no more than `n`. -/
def Costs (st : Store α ε) (e : Effect α ε) (n : Nat) : Prop :=
  ∃ made : List (Consumer α ε), e.store.consumers = st.consumers ++ made ∧
    tasksWork e.tasks + allToCome [] st.consumers.length made ≤ n

namespace Costs

variable {st : Store α ε} {e : Effect α ε} {n : Nat}

/-- An effect that makes no handle costs its tasks. -/
theorem of_tasks (same : e.store.consumers = st.consumers) (bound : tasksWork e.tasks ≤ n) :
    st.Costs e n :=
  ⟨[], by simpa using same, by simpa [allToCome] using bound⟩

theorem quiet {st' : Store α ε} (same : st'.handles = st.handles) : st.Costs (.quiet st') 0 :=
  of_tasks (by simp [Effect.quiet, consumers, same]) (by simp [Effect.quiet])

theorem mono (costs : st.Costs e n) {k : Nat} (le : n ≤ k) : st.Costs e k := by
  obtain ⟨made, same, bound⟩ := costs
  exact ⟨made, same, Nat.le_trans bound le⟩

theorem after (costs : st.Costs e n) (events : List (Event α ε)) :
    st.Costs (e.after events) n := costs

theorem followedBy (costs : st.Costs e n) (tasks : List (Task α ε)) :
    st.Costs (e.followedBy tasks) (n + tasksWork tasks) := by
  obtain ⟨made, same, bound⟩ := costs
  refine ⟨made, same, ?_⟩
  simp only [Effect.followedBy, tasksWork_append]
  omega

/-- What happens beside the handles costs nothing. -/
theorem beside {st' : Store α ε} (costs : st'.Costs e n) (same : st'.handles = st.handles) :
    st.Costs e n := by
  have consumers : st'.consumers = st.consumers := by rw [Store.consumers, same, Store.consumers]
  obtain ⟨made, eq, bound⟩ := costs
  rw [consumers] at eq bound
  exact ⟨made, eq, bound⟩

end Costs

theorem modifyHandle_consumers (st : Store α ε) (h : HandleRef) {f : Handle α ε → Handle α ε}
    (keep : ∀ x, (f x).consumer = x.consumer) : (st.modifyHandle h f).consumers = st.consumers := by
  apply List.ext_getElem?
  intro i
  simp only [consumers, List.getElem?_map, modifyHandle_handles]
  by_cases same : i = h
  · rw [if_pos same]
    cases st.handles[i]? <;> simp [keep]
  · rw [if_neg same]

theorem Forgets.consumers {st : Store α ε} {left : Store α ε × List (Event α ε)}
    (forgets : st.Forgets left) : left.1.consumers = st.consumers := by
  apply List.ext_getElem?
  intro h
  have same := congrArg (Option.map Handle.consumer) (forgets.handles h)
  simpa [Store.consumers, Function.comp_def, Handle.memory] using same

/-! ## Calls -/

section Calls

variable (st : Store α ε)

theorem request_costs (h : HandleRef) (n : UInt64) : st.Costs (st.request h n) 1 := by
  have kept : ∀ f : Handle α ε → Handle α ε, (∀ x, (f x).consumer = x.consumer) →
      (st.modifyHandle h f).consumers = st.consumers := fun f keep =>
    st.modifyHandle_consumers h keep
  have asks := st.request_asks h n
  generalize st.request h n = e at asks ⊢
  cases asks with
  | missed => exact (Costs.quiet rfl).mono (by simp)
  | refused | again => exact .of_tasks rfl (by simp [Task.work])
  | first | served | spoilt | empty =>
      exact .of_tasks (kept _ fun _ => rfl) (by simp [Task.work])

theorem unregister_consumers (s : SinkRef) (h : HandleRef) :
    (st.unregister s h).1.consumers = st.consumers := by
  simp [consumers]

theorem cancel_consumers (h : HandleRef) : (st.cancel h).store.consumers = st.consumers := by
  have cancels := st.cancel_cancels h
  generalize st.cancel h = e at cancels ⊢
  cases cancels with
  | missed | again => rfl
  | first =>
      rw [unregister_consumers]
      exact st.modifyHandle_consumers h fun _ => rfl

theorem cancel_costs (h : HandleRef) : st.Costs (st.cancel h) 1 := by
  refine .of_tasks (st.cancel_consumers h) ?_
  have cancels := st.cancel_cancels h
  generalize st.cancel h = e at cancels ⊢
  cases cancels with
  | missed => exact Nat.zero_le 1
  | again | first => simp [Task.work]

theorem subscribe_consumers (s : SinkRef) (consumer : Consumer α ε) :
    (st.subscribe s consumer).2.store.consumers = st.consumers ++ [consumer] := by
  simp [subscribe, consumers, Handle.new]

/-- Subscribing makes a handle, whose callbacks are all to come. -/
theorem subscribe_costs (s : SinkRef) (consumer : Consumer α ε) :
    st.Costs (st.subscribe s consumer).2 (2 + consumer.toCome .empty) :=
  ⟨[consumer], st.subscribe_consumers s consumer, by simp [subscribe, Task.work, allToCome]⟩

theorem terminate_costs (s : SinkRef) (o : Outcome α ε) : st.Costs (st.terminate s o).2 2 := by
  have offers : ∀ handles : List HandleRef,
      tasksWork (handles.map fun h => (.deliver h o : Task α ε)) = 0 := fun handles =>
    tasksWork_of_turns fun t member => by
      obtain ⟨h, -, rfl⟩ := List.mem_map.1 member
      rfl
  have ends := st.terminate_ends s o
  generalize st.terminate s o = called at ends ⊢
  cases ends with
  | missed => exact (Costs.quiet rfl).mono (by simp)
  | won => exact .of_tasks rfl (by simp [offers, Task.work])
  | lost => exact .of_tasks rfl (by simp [Task.work])

/-! ## Consumers -/

theorem react_costs (consumer : Consumer α ε) (h : HandleRef) (signal : Signal α ε) :
    st.Costs (st.react consumer h signal) (consumer.work signal.callback) := by
  -- what outlets do with a signal is beside the handles
  have told : ∀ {left : Store α ε × List (Event α ε)}, st.Beside left.1 → ∀ n,
      st.Costs ⟨left.1, left.2, []⟩ n := fun beside _ =>
    .of_tasks (by simp [consumers, beside.handles]) (Nat.zero_le _)
  have reacts := st.react_reacts consumer h signal
  generalize st.react consumer h signal = e at reacts ⊢
  cases reacts with
  | greeting slot hooks =>
      exact .of_tasks rfl (by simp [runHook, tasksWork_performs, Consumer.work, Signal.callback])
  | running slot hooks later =>
      refine .of_tasks rfl ?_
      cases signal <;>
        simp_all [runHook, tasksWork_performs, Hooks.on, Consumer.work, Signal.callback]
  | valued slot onNext v =>
      exact .of_tasks rfl (by simp [runHook, tasksWork_performs, Consumer.work, Signal.callback])
  | asking | askingOnce => exact st.request_costs h _
  | completed | unheard => exact .of_tasks rfl (Nat.zero_le _)
  | sending c => exact told (st.forward_beside c signal) _
  | sendingAsking c n =>
      have beside := (st.forward_beside c (.subscribed : Signal α ε)).handles
      exact .after (.beside (request_costs _ h n) beside) _
  | closing g => exact told (st.close_beside g) _

/-- A consumer without hooks starts next to nothing. -/
theorem direct_costs (target : DirectTarget) (c : Callback) :
    (target.consumer : Consumer α ε).work c ≤ 1 := by
  cases target <;> cases c <;> simp [DirectTarget.consumer, Consumer.work]

end Calls

/-! ## Steps -/

/-- All that can come of a handle, at the time when it is made. -/
theorem toCome_empty (consumer : Consumer α ε) :
    consumer.toCome .empty = 7 + (consumer.work .onSubscribe + consumer.work .onNext +
      consumer.work .onComplete + consumer.work .onError) := by
  simp [Consumer.toCome, Ledger.empty, Consumer.left]

theorem Reslots.work_le {st : Store α ε} {within : Option Nat} {step : Step α ε} {slots : Slots}
    {tasks : List (Task α ε)} (reslots : st.Reslots within step slots tasks) :
    tasksWork tasks ≤ 1 := by
  cases reslots with
  | dropSink => exact Nat.le_refl 1
  | _ => exact Nat.zero_le 1

/-- A step that subscribes has work for all that can come of the handle. -/
theorem Readies.toCome_le {st st' : Store α ε} {k : Nat} {step : Step α ε}
    {consumer : Consumer α ε} {closing : Closing α ε}
    (readies : st.Readies k step st' consumer closing) :
    consumer.toCome .empty + 4 ≤ Machine.workPerStep * step.occurrences := by
  cases readies with
  | scripted hooks =>
      simp only [toCome_empty, Consumer.work, stepsWork, Step.occurrences, Machine.workPerStep]
      omega
  | valueOnly onNext =>
      simp only [toCome_empty, Consumer.work, stepsWork, Step.occurrences, Machine.workPerStep]
      omega
  | newChannel | newGate | attachChannel | attachGate =>
      simp [toCome_empty, Consumer.work, Step.occurrences, Machine.workPerStep]

/-- **What a step leaves is less than its work**, by the step itself and its reply. -/
theorem perform_costs (st : Store α ε) (agenda : List (Task α ε)) (within : Option Nat)
    (step : Step α ε) :
    st.Costs (st.perform agenda within step).1 (Machine.workPerStep * step.occurrences - 2) := by
  have enough : ∀ {e : Effect α ε} {n : Nat}, st.Costs e n → n ≤ 10 →
      st.Costs e (Machine.workPerStep * step.occurrences - 2) := fun costs le => by
    have some_ := occurrences_pos step
    apply costs.mono
    simp only [Machine.workPerStep]
    omega
  -- a callback past every sink leaves what its consumer starts, and the reference it holds
  have direct : ∀ (target : DirectTarget) (h : HandleRef) (signal : Signal α ε)
      (held : List (Task α ε)), tasksWork held ≤ 1 →
      st.Costs (((st.react target.consumer h signal).after [.direct target signal]).followedBy
        held) 2 := fun target h signal held le => by
    have bound := direct_costs (α := α) (ε := ε) target signal.callback
    exact (((st.react_costs target.consumer h signal).after _).followedBy held).mono (by omega)
  have performs := st.perform_performs agenda within step
  generalize st.perform agenda within step = performed at performs ⊢
  cases performs with
  | still | founding | foundingStandard | sprouting | opening | openingGate | hangingUp =>
      exact enough (.quiet rfl) (Nat.zero_le _)
  | reslotting reslots => exact enough (.of_tasks rfl reslots.work_le) (by simp)
  | @ending step k s o => exact enough (st.terminate_costs s o) (by simp)
  | @subscribing step k s st' consumer closing found readies =>
      have bound := readies.toCome_le
      exact (Costs.beside (st'.subscribe_costs s consumer) readies.beside.handles).mono (by omega)
  | requesting found n => exact enough (st.request_costs _ n) (by simp)
  | cancelling | cancellingAttached => exact enough (st.cancel_costs _) (by simp)
  | @signalling k c found call h signal =>
      exact enough (direct (.channel c) h signal [.hangUp c] (Nat.le_refl _)) (by simp)
  | @signallingGate k g found call h signal =>
      exact enough (direct (.gate g) h signal [] (Nat.zero_le _)) (by simp)
  | taking => exact enough (.of_tasks rfl (Nat.le_refl _)) (by simp)

end Store

end OneShot
