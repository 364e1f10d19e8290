/-
# OneShot.Proofs.Lockstep -- what calls make of a store, whatever they stand before

A task looks at what stands behind it for one thing only: who still holds a handle, a sink
or a sending end (`Task.effect_alike`).  Behind two agendas that hold alike (`Alike`) the
same calls run in lockstep: they make the same of the same store, and say the same
(`Machine.Leads.transplant`).

So one can say of tasks what they make of a store and what they say on the way
(`Machine.ComesTo`), apart from what had happened before and from what stands behind them
as long as that holds nothing.  Such accounts are put together by
`Machine.ComesTo.append` and started by `Machine.ComesTo.first`, and there is exactly one for
all tasks of a sound machine (`Machine.comes`, `Machine.ComesTo.unique`).
-/
import OneShot.Proofs.Subscribing
import OneShot.Proofs.Ownership

namespace OneShot

set_option autoImplicit false

variable {α ε : Type}

/-! ## Agendas that hold alike -/

/-- The same handles, sinks and sending ends are held by the one list as by the other. -/
structure Alike (a b : List (Task α ε)) : Prop where
  holds : ∀ h, a.any (Task.holds h) = b.any (Task.holds h)
  refersTo : ∀ s, a.any (Task.refersTo s) = b.any (Task.refersTo s)
  sendsOn : ∀ c, a.any (Task.sendsOn c) = b.any (Task.sendsOn c)

/-- The task holds nothing. -/
structure Task.Free (t : Task α ε) : Prop where
  holds : ∀ h, t.holds h = false
  refersTo : ∀ s, t.refersTo s = false
  sendsOn : ∀ c, t.sendsOn c = false

theorem Task.free_perform (within : Option Nat) (step : Step α ε) :
    (Task.perform within step).Free := ⟨fun _ => rfl, fun _ => rfl, fun _ => rfl⟩

theorem Task.free_answer (within : Option Nat) (step : Step α ε) (closing : Closing α ε) :
    (Task.answer within step closing).Free := ⟨fun _ => rfl, fun _ => rfl, fun _ => rfl⟩

namespace Alike

variable {a b : List (Task α ε)}

theorem refl (a : List (Task α ε)) : Alike a a := ⟨fun _ => rfl, fun _ => rfl, fun _ => rfl⟩

theorem symm (alike : Alike a b) : Alike b a :=
  ⟨fun h => (alike.holds h).symm, fun s => (alike.refersTo s).symm,
    fun c => (alike.sendsOn c).symm⟩

/-- What stands in front of both does not tell them apart. -/
theorem behind (alike : Alike a b) (front : List (Task α ε)) : Alike (front ++ a) (front ++ b) :=
  ⟨fun h => by rw [List.any_append, List.any_append, alike.holds],
    fun s => by rw [List.any_append, List.any_append, alike.refersTo],
    fun c => by rw [List.any_append, List.any_append, alike.sendsOn]⟩

/-- Tasks that hold nothing are not noticed. -/
theorem of_free {tasks : List (Task α ε)} (free : ∀ t ∈ tasks, t.Free) (a : List (Task α ε)) :
    Alike (tasks ++ a) a := by
  have none_ : ∀ {p : Task α ε → Bool}, (∀ t ∈ tasks, p t = false) →
      (tasks ++ a).any p = a.any p := by
    intro p idle
    have silent : tasks.any p = false := List.any_eq_false.2 fun t member => by
      simp [idle t member]
    rw [List.any_append, silent, Bool.false_or]
  exact ⟨fun h => none_ fun t member => (free t member).holds h,
    fun s => none_ fun t member => (free t member).refersTo s,
    fun c => none_ fun t member => (free t member).sendsOn c⟩

section Effects

variable (alike : Alike a b) (st : Store α ε)
include alike

theorem referenced (s : SinkRef) : st.referenced a s = st.referenced b s := by
  rw [Store.referenced, Store.referenced, alike.refersTo]

theorem owned (h : HandleRef) : st.owned a h = st.owned b h :=
  Store.owned_congr rfl (alike.holds h) fun x _ => by rw [alike.referenced]

theorem release (h : HandleRef) : st.release a h = st.release b h := by
  rw [Store.release, Store.release, alike.owned]

theorem letGo (hs : List HandleRef) : st.letGo a hs = st.letGo b hs := by
  induction hs generalizing st with
  | nil => rfl
  | cons h hs ih => simp only [Store.letGo, alike.release st h, ih]

theorem giveUp (s : SinkRef) : st.giveUp a s = st.giveUp b s := by
  simp only [Store.giveUp, alike.referenced st s, alike.letGo st]

theorem receive (c : ChannelRef) (otherwise : Reply α ε) :
    st.receive a c otherwise = st.receive b c otherwise := by
  have connected : st.connected a c = st.connected b c := by
    rw [Store.connected, Store.connected, alike.sendsOn]
  rw [Store.receive, Store.receive, connected]

theorem perform (within : Option Nat) (step : Step α ε) :
    st.perform a within step = st.perform b within step := by
  cases step with
  | recv receiver | tryRecv receiver | recvTimeout receiver =>
      simp only [Store.perform, alike.receive st]
  | _ => rfl

end Effects

end Alike

/-- **A task looks behind itself for who holds what, and for nothing else.** -/
theorem Task.effect_alike {a b : List (Task α ε)} (alike : Alike a b) (st : Store α ε)
    (t : Task α ε) : t.effect st a = t.effect st b := by
  cases t with
  | perform within step => simp only [effect, alike.perform st]
  | letGo hs => simp only [effect, alike.letGo st]
  | giveUp s => simp only [effect, alike.giveUp st]
  | answer | notify | finish | deliver | hangUp => rfl

namespace Machine

/-! ## In lockstep -/

namespace Leads

variable {m m' : Machine α ε} {rest : List (Task α ε)} {n : Nat}

/-- The first step of a piece that has one. -/
theorem tail (leads : Leads rest m m' (n + 1)) : m.Busy rest ∧ Leads rest m.step m' n := by
  obtain ⟨rfl, busy⟩ := leads
  refine ⟨busy 0 (Nat.succ_pos n), (steps_succ n m).symm, ?_⟩
  intro i lt
  rw [← steps_succ]
  exact busy (i + 1) (Nat.succ_lt_succ lt)

/-- What does not come back to `more ++ rest` does not come back to `rest`. -/
theorem weaken {more : List (Task α ε)} (leads : Leads (more ++ rest) m m' n) :
    Leads rest m m' n := by
  refine ⟨leads.1, ?_⟩
  intro i lt
  obtain ⟨work, some_, agenda⟩ := leads.2 i lt
  exact ⟨work ++ more, by simp [some_], by rw [agenda, List.append_assoc]⟩

/-- **The same calls do the same** behind agendas that hold alike, whatever has happened
before: on the way they leave the same work, and say the same. -/
theorem transplant {rest' : List (Task α ε)} (alike : Alike rest rest') {st : Store α ε}
    {work : List (Task α ε)} {past : List (Event α ε)} (past' : List (Event α ε))
    (leads : Leads rest ⟨st, work ++ rest, past⟩ m' n) :
    ∃ st' work', ∃ told : List (Event α ε), m' = ⟨st', work' ++ rest, told.reverse ++ past⟩ ∧
      Leads rest' ⟨st, work ++ rest', past'⟩ ⟨st', work' ++ rest', told.reverse ++ past'⟩ n := by
  induction n generalizing st work past past' with
  | zero => exact ⟨st, work, [], leads.1.symm, rfl, fun i lt => absurd lt (Nat.not_lt_zero i)⟩
  | succ n ih =>
      obtain ⟨⟨front, some_, agenda⟩, later⟩ := leads.tail
      obtain rfl : work = front := List.append_cancel_right agenda
      cases work with
      | nil => exact absurd rfl some_
      | cons t work =>
          have step : ∀ (agenda : List (Task α ε)) (before : List (Event α ε)),
              Machine.step ⟨st, t :: (work ++ agenda), before⟩ =
                ⟨(t.effect st (work ++ agenda)).store,
                  (t.effect st (work ++ agenda)).tasks ++ work ++ agenda,
                  (t.effect st (work ++ agenda)).events.reverse ++ before⟩ := by
            intro agenda before
            simp [Machine.step]
          have same := Task.effect_alike (alike.behind work) st t
          change Leads rest (Machine.step ⟨st, t :: (work ++ rest), past⟩) m' n at later
          rw [step] at later
          obtain ⟨st', work', told, rfl, later'⟩ :=
            ih ((t.effect st (work ++ rest)).events.reverse ++ past') later
          refine ⟨st', work', (t.effect st (work ++ rest)).events ++ told, ?_, ?_⟩
          · rw [List.reverse_append, List.append_assoc]
          · have first : Leads rest' ⟨st, t :: (work ++ rest'), past'⟩ _ 1 := .step rfl
            rw [step, ← same] at first
            rw [List.reverse_append, List.append_assoc, Nat.add_comm]
            exact first.trans later'

end Leads

/-! ## What tasks come to -/

/-- The tasks, done before all that is left to do, make of the store `st`, and say `told`. -/
def ComesTo (m : Machine α ε) (tasks : List (Task α ε)) (st : Store α ε)
    (told : List (Event α ε)) : Prop :=
  ∃ n, Leads m.agenda (m.undergo ⟨m.store, [], tasks⟩) (m.undergo ⟨st, told, []⟩) n

namespace ComesTo

variable {m : Machine α ε} {tasks more : List (Task α ε)} {st st' : Store α ε}
  {told told' : List (Event α ε)}

theorem nothing (m : Machine α ε) : m.ComesTo [] m.store [] :=
  ⟨0, rfl, fun i lt => absurd lt (Nat.not_lt_zero i)⟩

/-- What has happened before makes no difference, nor does what holds nothing. -/
theorem elsewhere (comes : m.ComesTo tasks st told) {m' : Machine α ε}
    (store : m'.store = m.store) (alike : Alike m.agenda m'.agenda) :
    m'.ComesTo tasks st told := by
  obtain ⟨n, leads⟩ := comes
  obtain ⟨st', work, told', same, leads'⟩ := Leads.transplant alike m'.past leads
  simp only [undergo, mk.injEq] at same
  obtain ⟨rfl, done, said⟩ := same
  obtain rfl : [] = work := List.append_cancel_right done
  obtain rfl : told = told' := List.reverse_inj.1 (List.append_cancel_right said)
  refine ⟨n, ?_⟩
  rw [store]
  exact leads'

/-- **One call after the other.** -/
theorem append (comes : m.ComesTo tasks st told)
    (later : (m.undergo ⟨st, told, []⟩).ComesTo more st' told') (free : ∀ t ∈ more, t.Free) :
    m.ComesTo (tasks ++ more) st' (told ++ told') := by
  have first : ({ m with agenda := more ++ m.agenda } : Machine α ε).ComesTo tasks st told :=
    comes.elsewhere rfl (Alike.of_free free m.agenda).symm
  obtain ⟨n, leads⟩ := first
  obtain ⟨k, leads'⟩ := later
  refine ⟨n + k, ?_⟩
  have whole := leads.weaken.trans leads'
  simpa only [undergo, List.reverse_append, List.append_assoc, List.nil_append] using whole

/-- What a task does at once, and then what it leaves to do. -/
theorem first {t : Task α ε} {e : Effect α ε} (effect : t.effect m.store m.agenda = e)
    (later : (m.undergo ⟨e.store, e.events, []⟩).ComesTo e.tasks st told) :
    m.ComesTo [t] st (e.events ++ told) := by
  obtain ⟨n, leads⟩ := later
  have turn : (m.undergo ⟨m.store, [], [t]⟩).agenda = t :: m.agenda := rfl
  refine ⟨1 + n, ?_⟩
  have step : (m.undergo ⟨m.store, [], [t]⟩).step =
      (m.undergo ⟨e.store, e.events, []⟩).undergo ⟨e.store, [], e.tasks⟩ := by
    rw [step_cons turn]
    show _ = (m.undergo _).undergo _
    simp [undergo, behind, effect]
  have whole := (Leads.last turn).trans (step ▸ leads)
  simpa [undergo] using whole

/-- A step whose reply is known when it is performed. -/
theorem performed {within : Option Nat} {step : Step α ε} {e : Effect α ε} {r : Reply α ε}
    (performs : m.store.perform m.agenda within step = (e, .reply r))
    (later : (m.undergo ⟨e.store, e.events, []⟩).ComesTo e.tasks st told) :
    m.ComesTo [.perform within step] st
      (.performed within step :: (e.events ++ told) ++ [.answered within step r]) := by
  have effect : (Task.perform within step).effect m.store m.agenda =
      (e.after [.performed within step]).followedBy [.answer within step (.reply r)] := by
    simp only [Task.effect, performs]
  have answers : ∀ m' : Machine α ε, m'.ComesTo [.answer within step (.reply r)] m'.store
      [.answered within step r] := fun m' => first rfl (.nothing _)
  have called : (m.undergo ⟨e.store, .performed within step :: e.events, []⟩).ComesTo e.tasks st
      told := later.elsewhere rfl (.refl _)
  have whole := first effect (called.append (answers _) (by simpa using Task.free_answer _ _ _))
  simpa [Effect.after, Effect.followedBy] using whole

/-- What a task says at once stands first. -/
theorem opening {t : Task α ε} (comes : m.ComesTo (t :: tasks) st told) :
    ∃ later, told = (t.effect m.store (tasks ++ m.agenda)).events ++ later := by
  obtain ⟨n, leads⟩ := comes
  cases n with
  | zero =>
      have longer := congrArg (fun m' => m'.agenda.length) leads.1
      simp [undergo] at longer
      omega
  | succ n =>
      have turn : (m.undergo ⟨m.store, [], t :: tasks⟩).agenda = t :: (tasks ++ m.agenda) := rfl
      obtain ⟨grown, history⟩ := history_prefix_steps (m.undergo ⟨m.store, [], t :: tasks⟩).step n
      rw [leads.tail.2.1, step_cons turn, undergo_history, behind_history, undergo_history,
        undergo_history, List.append_nil, List.append_assoc] at history
      exact ⟨grown, (List.append_cancel_left history).symm⟩

/-- Tasks come to one thing only. -/
theorem unique (comes : m.ComesTo tasks st told) (comes' : m.ComesTo tasks st' told') :
    st = st' ∧ told = told' := by
  obtain ⟨n, home, busy⟩ := comes
  obtain ⟨n', home', busy'⟩ := comes'
  -- the work in hand is done once
  have returned : ∀ {k : Nat} {st : Store α ε} {told : List (Event α ε)},
      (m.undergo ⟨m.store, [], tasks⟩).steps k = m.undergo ⟨st, told, []⟩ →
        ¬ ((m.undergo ⟨m.store, [], tasks⟩).steps k).Busy m.agenda := by
    rintro k st told home ⟨work, some_, agenda⟩
    rw [home] at agenda
    exact some_ (List.append_left_eq_self.1 agenda.symm)
  obtain rfl : n = n' := by
    rcases Nat.lt_trichotomy n n' with lt | same | gt
    · exact absurd (busy' n lt) (returned home)
    · exact same
    · exact absurd (busy n' gt) (returned home')
  rw [home] at home'
  simp only [undergo, mk.injEq] at home'
  exact ⟨home'.1, List.reverse_inj.1 (List.append_cancel_right home'.2.2)⟩

/-- What tasks come to is reached by a run. -/
theorem reached (comes : m.ComesTo tasks st told) :
    ∃ n, (m.undergo ⟨m.store, [], tasks⟩).steps n = m.undergo ⟨st, told, []⟩ :=
  comes.imp fun _ leads => leads.1

end ComesTo

/-- **All tasks come to something.** -/
theorem comes {m : Machine α ε} {tasks : List (Task α ε)}
    (sound : Sound (m.undergo ⟨m.store, [], tasks⟩)) : ∃ st told, m.ComesTo tasks st told := by
  have stack : (m.undergo ⟨m.store, [], tasks⟩).agenda = tasks ++ m.agenda := rfl
  obtain ⟨n, back, busy⟩ := steps_return sound stack
  obtain ⟨st, work, told, same, -⟩ :=
    Leads.transplant (Alike.refl m.agenda) m.past
      (⟨rfl, busy⟩ : Leads m.agenda (m.undergo ⟨m.store, [], tasks⟩) _ n)
  rw [same] at back
  obtain rfl : work = [] := List.append_left_eq_self.1 back
  exact ⟨st, told, n, same, busy⟩

end Machine

end OneShot
