/-
# OneShot.Proofs.Race.Moves -- what one move of a thread does to the points still to pass

A move takes a point from the front of one thread's work, puts those that come next in its
place, and adds to the past what it says (`Machine.Trades`); the start of a call only adds.
`Machine.step_moves` says that nothing else ever happens, so what every move keeps holds of
every machine that some schedule leads to (`Machine.Reached.keep`).

For most of what is to be said it does not matter which thread a point belongs to.
`Machine.pending` are the points that all threads have still to pass; what is counted over
them and over the past changes by what the move trades (`Trades.countP`,
`Trades.past_countP`).  Nearly all invariants of the race are stated so.
-/
import OneShot.Proofs.Race.Passages

namespace OneShot.Race

set_option autoImplicit false

variable {α ε : Type}

namespace Machine

/-- The points that threads have still to pass. -/
def pending (m : Machine α ε) : List (Point α ε) := m.threads.flatMap Thread.work

/-- The calls that threads have still to make. -/
def calls (m : Machine α ε) : List (Call α ε) := m.threads.flatMap Thread.program

/-- The events of a run, oldest first. -/
def history (m : Machine α ε) : List (Event α ε) := m.past.reverse

/-! ## Trades -/

/-- One thread has passed the points `old`, the points `new` come next in their place, and
`events` is what happened. -/
structure Trades (m m' : Machine α ε) (old new : List (Point α ε)) (events : List (Event α ε)) :
    Prop where
  works : ∃ before rest after, m.threads.map Thread.work = before ++ (old ++ rest) :: after ∧
    m'.threads.map Thread.work = before ++ (new ++ rest) :: after
  past : m'.past = events.reverse ++ m.past

namespace Trades

variable {m m' : Machine α ε} {old new : List (Point α ε)} {events : List (Event α ε)}

theorem points (trades : m.Trades m' old new events) :
    ∃ others, m.pending.Perm (old ++ others) ∧ m'.pending.Perm (new ++ others) := by
  obtain ⟨before, rest, after, works, works'⟩ := trades.works
  have gather : ∀ mine : List (Point α ε), (before ++ (mine ++ rest) :: after).flatten.Perm
      (mine ++ (before.flatten ++ (rest ++ after.flatten))) := fun mine => by
    simp only [List.flatten_append, List.flatten_cons, List.append_assoc]
    exact List.perm_append_comm_assoc _ _ _
  refine ⟨before.flatten ++ (rest ++ after.flatten), ?_, ?_⟩
  · rw [pending, List.flatMap_def, works]
    exact gather old
  · rw [pending, List.flatMap_def, works']
    exact gather new

/-- A count over the points changes by what is traded. -/
theorem countP (trades : m.Trades m' old new events) (q : Point α ε → Bool) :
    m'.pending.countP q + old.countP q = m.pending.countP q + new.countP q := by
  obtain ⟨others, before, after⟩ := trades.points
  rw [before.countP_eq, after.countP_eq, List.countP_append, List.countP_append]
  omega

/-- The same for what is selected of them, up to order. -/
theorem filterMap (trades : m.Trades m' old new events) {β : Type} (f : Point α ε → Option β) :
    (m'.pending.filterMap f ++ old.filterMap f).Perm
      (m.pending.filterMap f ++ new.filterMap f) := by
  obtain ⟨others, before, after⟩ := trades.points
  have swap : ((new ++ others) ++ old).Perm ((old ++ others) ++ new) :=
    calc ((new ++ others) ++ old).Perm (old ++ (new ++ others)) := List.perm_append_comm
      List.Perm _ (old ++ (others ++ new)) := List.perm_append_comm.append_left old
      List.Perm _ ((old ++ others) ++ new) := .of_eq (List.append_assoc _ _ _).symm
  have both : (m'.pending ++ old).Perm (m.pending ++ new) :=
    (after.append_right old).trans (swap.trans (before.append_right new).symm)
  simpa only [List.filterMap_append] using both.filterMap f

theorem past_countP (trades : m.Trades m' old new events) (q : Event α ε → Bool) :
    m'.past.countP q = m.past.countP q + events.countP q := by
  rw [trades.past, List.countP_append, List.countP_reverse, Nat.add_comm]

theorem of_old (trades : m.Trades m' old new events) {p : Point α ε} (member : p ∈ old) :
    p ∈ m.pending := by
  obtain ⟨others, before, -⟩ := trades.points
  exact before.mem_iff.2 (List.mem_append_left _ member)

theorem of_new (trades : m.Trades m' old new events) {p : Point α ε} (member : p ∈ new) :
    p ∈ m'.pending := by
  obtain ⟨others, -, after⟩ := trades.points
  exact after.mem_iff.2 (List.mem_append_left _ member)

/-- What is still to pass was so before, or has come in. -/
theorem of_pending (trades : m.Trades m' old new events) {p : Point α ε} (member : p ∈ m'.pending) :
    p ∈ new ∨ p ∈ m.pending := by
  obtain ⟨others, before, after⟩ := trades.points
  rcases List.mem_append.1 (after.mem_iff.1 member) with here | there
  · exact .inl here
  · exact .inr (before.mem_iff.2 (List.mem_append_right _ there))

/-- What was still to pass is so still, or was passed. -/
theorem passed_or (trades : m.Trades m' old new events) {p : Point α ε} (member : p ∈ m.pending) :
    p ∈ old ∨ p ∈ m'.pending := by
  obtain ⟨others, before, after⟩ := trades.points
  rcases List.mem_append.1 (before.mem_iff.1 member) with here | there
  · exact .inl here
  · exact .inr (after.mem_iff.2 (List.mem_append_right _ there))

theorem mem_past (trades : m.Trades m' old new events) {event : Event α ε} :
    event ∈ m'.past ↔ event ∈ events ∨ event ∈ m.past := by
  rw [trades.past, List.mem_append, List.mem_reverse]

end Trades

/-! ## Moves -/

/-- The start of a call: the points that it comes to, and what it says.  A call on a handle may
miss it, if nothing owns it any more. -/
inductive Entry (m : Machine α ε) : Call α ε → List (Point α ε) → List (Event α ε) → Prop
  | subscribe (consumer : Consumer) : Entry m (.subscribe consumer) [.make consumer] []
  | terminate (o : Outcome α ε) : Entry m (.terminate o) [.claim o] []
  | requestNothing {target : Target} {h : HandleRef} (owned : m.owned h = true) :
      Entry m (.request target 0) [.letGo [h]] [.requested h 0]
  | request {target : Target} {h : HandleRef} (owned : m.owned h = true) {n : UInt64}
      (positive : n ≠ 0) :
      Entry m (.request target n) [.requestLoad h, .letGo [h]] [.requested h n]
  | cancel {target : Target} {h : HandleRef} (owned : m.owned h = true) :
      Entry m (.cancel target) [.cancelSwap h, .letGo [h]] []
  | requestMissed (target : Target) (n : UInt64) : Entry m (.request target n) [] []
  | cancelMissed (target : Target) : Entry m (.cancel target) [] []

inductive Moves (m m' : Machine α ε) : Prop
  | passes {p : Point α ε} {after : Memory α ε} {new : List (Point α ε)} {events : List (Event α ε)}
      (passage : Passage m.memory p after new events) (memory : m'.memory = after)
      (trades : m.Trades m' [p] new events) (calls : m'.calls = m.calls)
  | enters {call : Call α ε} {new : List (Point α ε)} {events : List (Event α ε)}
      (entry : m.Entry call new events) (memory : m'.memory = m.memory)
      (trades : m.Trades m' [] new events) (calls : m.calls.Perm (call :: m'.calls))

theorem reach?_owned {m : Machine α ε} {t : Thread α ε} {target : Target} {h : HandleRef}
    (reaches : m.reach? t target = some h) : m.owned h = true :=
  (Option.filter_eq_some_iff.1 reaches).2

theorem enter_entry (m : Machine α ε) (t : Thread α ε) (call : Call α ε) :
    m.Entry call (m.enter t call).2 (m.enter t call).1 := by
  cases call with
  | subscribe consumer => exact .subscribe consumer
  | terminate o => exact .terminate o
  | request target n =>
      cases reaches : m.reach? t target with
      | none => simpa [enter, reaches] using Entry.requestMissed target n
      | some h =>
          have owned := reach?_owned reaches
          by_cases zero : n = 0
          · subst zero
            simpa [enter, reaches, callRequest] using Entry.requestNothing owned
          · simpa [enter, reaches, callRequest, zero] using Entry.request owned zero
  | cancel target =>
      cases reaches : m.reach? t target with
      | none => simpa [enter, reaches] using Entry.cancelMissed target
      | some h => simpa [enter, reaches, callCancel] using Entry.cancel (reach?_owned reaches)

/-- One thread among the others. -/
theorem split_threads {m : Machine α ε} {i : Nat} {t : Thread α ε}
    (found : m.threads[i]? = some t) :
    ∃ before after, m.threads = before ++ t :: after ∧
      ∀ t', m.threads.set i t' = before ++ t' :: after := by
  obtain ⟨inside, rfl⟩ := List.getElem?_eq_some_iff.1 found
  refine ⟨m.threads.take i, m.threads.drop (i + 1), ?_, ?_⟩
  · rw [← List.drop_eq_getElem_cons, List.take_append_drop]
  · intro t'
    exact List.set_eq_take_append_cons_drop.trans (if_pos inside)

/-- **A thread moves or is done.** -/
theorem step_moves (m : Machine α ε) (i : Nat) : m.step i = m ∨ m.Moves (m.step i) := by
  unfold step
  split
  · exact .inl rfl
  · rename_i t found
    obtain ⟨before, after, threads, set⟩ := split_threads found
    split
    · rename_i p rest work
      right
      refine .passes (p.effect_passage m.memory) rfl
        ⟨⟨before.map Thread.work, rest, after.map Thread.work, ?_, ?_⟩, rfl⟩ ?_
      · simp only [threads, List.map_append, List.map_cons, work, List.singleton_append]
      · simp only [set, List.map_append, List.map_cons]
      · simp only [calls, set]
        simp only [threads, List.flatMap_append, List.flatMap_cons]
    · rename_i call rest work program
      right
      refine .enters (m.enter_entry t call) rfl
        ⟨⟨before.map Thread.work, [], after.map Thread.work, ?_, ?_⟩, rfl⟩ ?_
      · simp only [threads, List.map_append, List.map_cons, work, List.append_nil]
      · simp only [set, List.map_append, List.map_cons, List.append_nil]
      · simp only [calls, set]
        simp only [threads, List.flatMap_append, List.flatMap_cons, program]
        exact List.perm_append_comm_assoc _ [call] _
    · exact .inl rfl

/-! ## Runs -/

/-- Some schedule leads the threads with these programs, on a fresh sink, to the machine. -/
def Reached (programs : List (List (Call α ε))) (m : Machine α ε) : Prop :=
  ∃ schedule, (start .fresh programs).run schedule = m

theorem reached_run (programs : List (List (Call α ε))) (schedule : List Nat) :
    ((start .fresh programs).run schedule).Reached programs := ⟨schedule, rfl⟩

theorem Reached.step {programs : List (List (Call α ε))} {m : Machine α ε}
    (reached : m.Reached programs) (i : Nat) : (m.step i).Reached programs := by
  obtain ⟨schedule, rfl⟩ := reached
  refine ⟨schedule ++ [i], ?_⟩
  rw [run, List.foldl_append]
  rfl

/-- **What every move keeps holds under every schedule.** -/
theorem Reached.keep {P : Machine α ε → Prop} {programs : List (List (Call α ε))}
    (start : P (start .fresh programs))
    (moves : ∀ m m', m.Reached programs → m.Moves m' → P m → P m') {m : Machine α ε}
    (reached : m.Reached programs) : P m := by
  obtain ⟨schedule, rfl⟩ := reached
  suffices carried : ∀ (schedule : List Nat) (m : Machine α ε), m.Reached programs → P m →
      P (m.run schedule) from carried schedule _ ⟨[], rfl⟩ start
  intro schedule
  induction schedule with
  | nil => exact fun m _ holds => holds
  | cons i schedule ih =>
      intro m reached holds
      refine ih (m.step i) (reached.step i) ?_
      rcases m.step_moves i with still | moved
      · rw [still]
        exact holds
      · exact moves m _ reached moved holds

@[simp] theorem pending_start (memory : Memory α ε) (programs : List (List (Call α ε))) :
    (start memory programs).pending = [] := by
  simp [pending, start, Thread.running]

@[simp] theorem calls_start (memory : Memory α ε) (programs : List (List (Call α ε))) :
    (start memory programs).calls = programs.flatten := by
  simp [calls, start, Thread.running, List.flatMap_map, List.flatMap_id']

/-- Calls of one kind, which come to points of one kind, which say what is of one kind: each of
them is still to be made, or its point to be passed, or that has been said. -/
theorem Reached.tallied {calls : Call α ε → Bool} {points : Point α ε → Bool}
    {said : Event α ε → Bool}
    (passes : ∀ {m m' : Memory α ε} {p new events}, Passage m p m' new events →
      new.countP points + events.countP said = [p].countP points)
    (enters : ∀ {m : Machine α ε} {call new events}, m.Entry call new events →
      new.countP points + events.countP said = [call].countP calls)
    {programs : List (List (Call α ε))} {m : Machine α ε} (reached : m.Reached programs) :
    m.past.countP said + m.pending.countP points + m.calls.countP calls =
      programs.flatten.countP calls := by
  refine reached.keep (P := fun m => m.past.countP said + m.pending.countP points +
    m.calls.countP calls = programs.flatten.countP calls) ?_ ?_
  · rw [pending_start, calls_start]
    simp [Machine.start]
  · intro m m' _ moves law
    cases moves with
    | passes passage memory trades same =>
        have traded := trades.countP points
        have past := trades.past_countP said
        have passed := passes passage
        rw [same]
        omega
    | enters entry memory trades same =>
        have traded := trades.countP points
        have past := trades.past_countP said
        have entered := enters entry
        have made := same.countP_eq calls
        rw [List.countP_cons, ← List.countP_singleton] at made
        simp only [List.countP_nil] at traded
        omega

/-- When all threads are done, nothing is left to pass, and no call to make. -/
theorem done_iff {m : Machine α ε} : m.done = true ↔ m.pending = [] ∧ m.calls = [] := by
  simp only [done, pending, calls, List.all_eq_true, List.flatMap_eq_nil_iff, Thread.idle,
    Bool.and_eq_true, List.isEmpty_iff]
  constructor
  · exact fun idle => ⟨fun t member => (idle t member).2, fun t member => (idle t member).1⟩
  · exact fun idle t member => ⟨idle.2 t member, idle.1 t member⟩

end Machine

end OneShot.Race
