/-
# OneShot.Proofs.Outlets.Gate -- a gate closes with its sink

A gate is closed if and only if it was told a signal that closes (`Machine.gate_steps`), and
it says so once.  One step closes it at most once, so that follows by induction on the run.

The gate that `gate` makes is the consumer of a handle that nothing refers to (`Unnamed`): no
slot, no reply, and no script.  So the handle is never cancelled.  It asks for the one value
inside its own acknowledgment.  What a handle has heard when no call is in progress is
known (`Sound.settled`), and with that the gate is closed if and only if the sink has ended.

A sink that nothing refers to is not referred to again, and nothing ends it
(`Machine.dropped_steps`), so if it was pending then its gate stays open.
-/
import OneShot.Proofs.Outlets.Channel
import OneShot.Proofs.Release
import OneShot.Proofs.Ending

namespace OneShot

set_option autoImplicit false

variable {α ε : Type}

/-! ## One step -/

/-- The acknowledgment leaves a gate open; every other callback closes it. -/
def Signal.closes : Signal α ε → Bool
  | subscribed => false
  | _ => true

/-- A gate says that it is closed. -/
def Event.shuts (g : GateRef) : Event α ε → Bool
  | noticed (.gateClosed g') => g' == g
  | _ => false

/-- What one step does to a gate: it closes it, and says so, if it tells it to and the gate was
open. -/
structure Latches (st st' : Store α ε) (g : GateRef) (news : List (Event α ε)) : Prop where
  closed : st'.gateClosed g = (st.gateClosed g || (st.told (.gate g) news).any Signal.closes)
  said : news.countP (Event.shuts g) =
    ((st.told (.gate g) news).any Signal.closes && !st.gateClosed g).toNat

theorem shuts_posts (g : GateRef) (events : List (Event α ε)) :
    (posts events).countP (Event.shuts g) = events.countP (Event.shuts g) := by
  rw [posts, List.countP_filter]
  congr 1
  funext event
  cases event with
  | noticed notice => cases notice <;> simp [Event.shuts, Event.isPost]
  | _ => rfl

namespace Store

variable {st : Store α ε} {g : GateRef}

theorem told_posts (st : Store α ε) (target : DirectTarget) (events : List (Event α ε)) :
    st.told target (posts events) = st.told target events := by
  rw [told, told, posts, List.filterMap_filter]
  apply List.filterMap_congr
  intro event _
  cases event with
  | noticed notice => cases notice <;> rfl
  | _ => rfl

/-- A gate that was open is closed by this, and says so; one that was closed stays so. -/
theorem close_latches (inside : st.Has (.outlet (.gate g))) :
    (st.close g).1.gateClosed g = true ∧
      (st.close g).2.countP (Event.shuts g) = (!st.gateClosed g).toNat := by
  cases closed : st.gateClosed g with
  | true => simp [close, closed]
  | false =>
      have inside : g < st.gates.length := inside
      simp [close, closed, Event.shuts]
      simp [gateClosed, inside]

/-- What is told to one outlet closes no other gate. -/
theorem tell_latches_other (st : Store α ε) {target : DirectTarget} (ne : target ≠ .gate g)
    (signal : Signal α ε) :
    (st.tell target signal).1.gateClosed g = st.gateClosed g ∧
      (st.tell target signal).2.countP (Event.shuts g) = 0 := by
  cases target with
  | channel c =>
      obtain ⟨-, gates⟩ := st.forward_posts c signal
      refine ⟨?_, ?_⟩
      · show (st.forward c signal).1.gateClosed g = _
        rw [gateClosed, gates, gateClosed]
      · show (st.forward c signal).2.countP (Event.shuts g) = 0
        have sends := st.forward_sends c signal
        generalize st.forward c signal = left at sends ⊢
        cases sends <;> rfl
  | gate g' =>
      have other : g' ≠ g := by simpa using ne
      have shut : (st.close g').1.gateClosed g = st.gateClosed g ∧
          (st.close g').2.countP (Event.shuts g) = 0 := by
        unfold close
        split
        · exact ⟨rfl, rfl⟩
        · exact ⟨by simp [gateClosed, List.getElem?_set_ne other], by simp [Event.shuts, other]⟩
      cases signal <;> first | exact ⟨rfl, rfl⟩ | exact shut

/-- What an outlet says of a signal tells no outlet anything. -/
theorem told_tell (st : Store α ε) (target target' : DirectTarget) (signal : Signal α ε) :
    st.told target (st.tell target' signal).2 = [] := by
  apply List.filterMap_eq_nil_iff.2
  intro event member
  obtain ⟨notice, rfl⟩ := st.tell_notices target' signal event member
  rfl

/-- A signal that is told comes first. -/
theorem told_first {target target' : DirectTarget} {signal : Signal α ε} {first : Event α ε}
    (how : (first = .direct target' signal ∧ st.Slotted target') ∨
      ∃ h, first = .began h signal ∧ st.target? h = some target') :
    st.told target (first :: (st.tell target' signal).2) =
      if target' = target then [signal] else [] := by
  have tells : st.tells? target first = if target' = target then some signal else none := by
    rcases how with ⟨rfl, -⟩ | ⟨h, rfl, hears⟩
    · rfl
    · simp [tells?, hears]
  have later := st.told_tell target target' signal
  rw [told] at later
  rw [told, List.filterMap_cons, tells, later]
  split <;> simp_all

end Store

/-- **What a task does to a gate**, if gates that are referred to exist. -/
theorem Errand.latches {st : Store α ε} {e : Effect α ε} (errand : Errand st e) (g : GateRef)
    (wired : ∀ r, st.Cites r → st.Has r) : Latches st e.store g e.events := by
  -- a step that tells the gate nothing, and leaves it alone
  have still : e.store.gateClosed g = st.gateClosed g → st.told (.gate g) (posts e.events) = [] →
      (posts e.events).countP (Event.shuts g) = 0 → Latches st e.store g e.events := by
    intro same untold silent
    rw [Store.told_posts] at untold
    rw [shuts_posts] at silent
    exact ⟨by simp [same, untold], by simp [silent, untold]⟩
  have alone : e.store.gates = st.gates → e.store.gateClosed g = st.gateClosed g := by
    intro gates
    rw [Store.gateClosed, gates, Store.gateClosed]
  cases errand with
  | idle _ gates said | founding _ _ gates said | hangingUp _ gates said =>
      exact still (alone gates) (by rw [said]; rfl) (by rw [said]; rfl)
  | handing _ _ gates said => exact still (alone gates) (by rw [said]; rfl) (by rw [said]; rfl)
  | opening _ gates said =>
      refine still ?_ (by rw [said]; rfl) (by rw [said]; rfl)
      rw [Store.gateClosed, gates, Store.gateClosed]
      rcases Nat.lt_trichotomy g st.gates.length with inside | new | beyond
      · rw [List.getElem?_append_left inside]
      · simp [new]
      · rw [List.getElem?_eq_none (Nat.le_of_lt beyond),
          List.getElem?_eq_none (by rw [List.length_append]; exact beyond)]
  | @speaking h signal _ other _ gates said =>
      refine still (alone gates) ?_ (by rw [said]; rfl)
      rw [said]
      simp [Store.told, Store.tells?, other]
  | @telling target signal first how _ gates said =>
      have told : st.told (.gate g) e.events = if target = .gate g then [signal] else [] := by
        rw [← Store.told_posts, said, Store.told_first how]
      have first_mute : first.shuts g = false := by
        rcases how with ⟨rfl, -⟩ | ⟨h, rfl, -⟩ <;> rfl
      have counted : e.events.countP (Event.shuts g) =
          (st.tell target signal).2.countP (Event.shuts g) := by
        rw [← shuts_posts, said, List.countP_cons_of_neg (by simp [first_mute])]
      have left : e.store.gateClosed g = (st.tell target signal).1.gateClosed g := by
        rw [Store.gateClosed, gates, Store.gateClosed]
      by_cases own : target = .gate g
      · subst own
        rw [if_pos rfl] at told
        have cited : st.Cites (.outlet (.gate g)) := by
          rcases how with ⟨-, slotted⟩ | ⟨h, -, hears⟩
          · exact .inl slotted
          · exact .inr ⟨h, hears⟩
        obtain ⟨shut, once⟩ := Store.close_latches (wired _ cited)
        cases signal with
        | subscribed => exact ⟨by simp [left, told, Store.tell, Signal.closes],
            by simp [counted, told, Store.tell, Signal.closes]⟩
        | _ => exact ⟨by simpa [left, told, Store.tell, Signal.closes] using shut,
            by simpa [counted, told, Store.tell, Signal.closes] using once⟩
      · obtain ⟨same, silent⟩ := st.tell_latches_other own signal
        rw [if_neg own] at told
        exact ⟨by simp [left, same, told], by simp [counted, silent, told]⟩

namespace Machine

variable {m : Machine α ε} {g : GateRef}

theorem Wired.latches (wired : m.Wired) (g : GateRef) :
    Latches m.store m.step.store g m.news :=
  m.step_errand.latches g fun r cites => wired r (.inl cites)

/-- A gate agrees with what it was told, and has said so. -/
structure GateTells (m : Machine α ε) (g : GateRef) : Prop where
  closed : m.store.gateClosed g = (m.store.told (.gate g) m.history).any Signal.closes
  said : m.history.countP (Event.shuts g) = (m.store.gateClosed g).toNat

theorem GateTells.step (tells : m.GateTells g) (sound : Sound m) (wired : m.Wired) :
    m.step.GateTells g := by
  have latches := wired.latches g
  refine ⟨?_, ?_⟩
  · rw [latches.closed, sound.told_step, List.any_append, tells.closed]
  · rw [history_step, List.countP_append, tells.said, latches.said, latches.closed]
    cases m.store.gateClosed g <;> simp

/-- **At every moment a gate is closed if and only if it was told a signal that closes.** -/
theorem gate_steps (script : List (Step α ε)) (n : Nat) (g : GateRef) :
    ((load script).steps n).GateTells g := by
  have start : (load script).GateTells g := ⟨rfl, rfl⟩
  have kept := steps_keep (P := fun m => Sound m ∧ m.Wired ∧ m.GateTells g)
    (fun m ⟨sound, wired, tells⟩ => ⟨sound.step, wired.step, tells.step sound wired⟩)
    ⟨Sound.load script, .load script, start⟩ n
  exact kept.2.2

/-- What is closed stays closed. -/
theorem gate_stays (wired : m.Wired) (closed : m.store.gateClosed g = true) (k : Nat) :
    (m.steps k).store.gateClosed g = true := by
  have kept := steps_keep (P := fun m => m.Wired ∧ m.store.gateClosed g = true)
    (fun m ⟨wired, closed⟩ => ⟨wired.step, by rw [(wired.latches g).closed, closed, Bool.true_or]⟩)
    ⟨wired, closed⟩ k
  exact kept.2

end Machine

theorem Signal.closes_iff {signal : Signal α ε} : signal.closes = true ↔ signal ≠ .subscribed := by
  cases signal <;> simp [closes]

/-- What an outlet was told, it was told by a callback or by a step. -/
theorem Store.mem_told {st : Store α ε} {target : DirectTarget} {events : List (Event α ε)}
    {signal : Signal α ε} : signal ∈ st.told target events ↔
      (∃ h, st.target? h = some target ∧ .began h signal ∈ events) ∨
        .direct target signal ∈ events := by
  rw [told, List.mem_filterMap]
  constructor
  · rintro ⟨event, member, tells⟩
    cases event with
    | began h signal' =>
        rw [tells?] at tells
        split at tells
        · rename_i hears
          cases tells
          exact .inl ⟨h, hears, member⟩
        · cases tells
    | direct target' signal' =>
        rw [tells?] at tells
        split at tells
        · rename_i same
          cases tells
          exact .inr (same ▸ member)
        · cases tells
    | _ => cases tells
  · rintro (⟨h, hears, began⟩ | direct)
    · exact ⟨_, began, by simp [tells?, hears]⟩
    · exact ⟨_, direct, by simp [tells?]⟩

/-! ## The handle of `gate` -/

/-- A call that finds its handle alive is told. -/
theorem Store.request_told_alive {st : Store α ε} {h : HandleRef} {x : Handle α ε}
    (found : st.handles[h]? = some x) (on : x.released = false) (n : UInt64) :
    .requesting h n ∈ (st.request h n).events := by
  have asks := st.request_asks h n
  generalize st.request h n = e at asks ⊢
  cases asks with
  | missed gone => simp [alive, found, on] at gone
  | refused | first | served | spoilt | empty | again => exact List.mem_cons_self

/-- Nothing refers to a handle, whose consumer is a gate, and nothing has cancelled it. -/
structure Machine.Unnamed (m : Machine α ε) (h : HandleRef) (g : GateRef) : Prop where
  outlet : m.store.target? h = some (.gate g)
  uncited : ¬ m.Cites (.sub h)
  kept : .cancelling h ∉ m.history
  asked : .began h .subscribed ∈ m.history → .requesting h 1 ∈ m.history

/-- A step is about to ask the sink `s` for a gate, which will be `g`, with the handle `h`. -/
structure Machine.AsksGate (m : Machine α ε) (s : SinkRef) (g : GateRef) (h : HandleRef) :
    Prop where
  turn : ∃ within k rest, m.agenda = .perform within (.gate k) :: rest ∧
    m.store.sink? k = some s
  gate : m.store.gates.length = g
  handle : m.store.handles.length = h

/-- A gate is attached to no other handle, and no step has made a callback on it. -/
structure Machine.Reserved (m : Machine α ε) (g : GateRef) (h : HandleRef) : Prop where
  one : ∀ h', m.store.target? h' = some (.gate g) → h' = h
  indirect : ∀ signal, .direct (.gate g) signal ∉ m.history

namespace Machine.Unnamed

variable {m : Machine α ε} {h : HandleRef} {g : GateRef}

/-- A gate asks inside its acknowledgment. -/
theorem asks (outlet : m.store.target? h = some (.gate g)) (tended : Tended m)
    (began : .began h .subscribed ∈ m.news) : .requesting h 1 ∈ m.news := by
  cases turn : m.agenda with
  | nil =>
      rw [Machine.news_nil turn] at began
      cases began
  | cons t rest =>
      rw [Machine.news_cons turn] at began ⊢
      obtain ⟨signal, rfl⟩ : ∃ signal, t = .notify h signal := by
        by_cases own : ∃ signal, t = .notify h signal
        · exact own
        · have silent :=
            Task.effect_begun m.store rest (fun signal same => own ⟨signal, same⟩) _ began
          simp [Event.begins] at silent
      obtain ⟨x, found, hears⟩ := Option.bind_eq_some_iff.1 outlet
      have consumer : x.consumer = .gate g := Consumer.target?_eq_some.1 hears
      have on : x.released = false :=
        (tended.in_turn turn (Task.notify_concerns h signal)).1.alive_of_turn found
          (tended.in_turn turn (Task.notify_concerns h signal)).2
      rw [Task.effect, Store.notify_eq found, consumer] at began ⊢
      rcases List.mem_cons.1 began with first | later
      · cases first
        exact List.mem_cons_of_mem _ (Store.request_told_alive found on 1)
      · have deed := m.store.react_deed (.gate g) h signal
        cases deed.mute _ later

theorem step (unnamed : m.Unnamed h g) (tended : Tended m) :
    m.step.Unnamed h g := by
  obtain ⟨made, grown⟩ := m.step_consumers
  refine ⟨Store.target?_mono grown unnamed.outlet, ?_, ?_, ?_⟩
  · intro cites
    rcases Machine.cites_step cites with old | ⟨fresh, -⟩ | ⟨h', x, same, found, script⟩
    · exact unnamed.uncited old
    · exact fresh (Store.target?_inside unnamed.outlet)
    · cases same
      have outlet := unnamed.outlet
      rw [Store.target?, found, Option.bind_some, script] at outlet
      cases outlet
  · rw [Machine.history_step, List.mem_append]
    rintro (old | new)
    · exact unnamed.kept old
    · exact unnamed.uncited (Machine.cancelled_cited new)
  · rw [Machine.history_step]
    intro began
    rcases List.mem_append.1 began with old | new
    · exact List.mem_append_left _ (unnamed.asked old)
    · exact List.mem_append_right _ (asks unnamed.outlet tended new)

theorem steps (unnamed : m.Unnamed h g) (sound : Sound m) (tended : Tended m) (n : Nat) :
    (m.steps n).Unnamed h g := by
  have kept := Machine.steps_keep (P := fun m => Sound m ∧ Tended m ∧ m.Unnamed h g)
    (fun m ⟨sound, tended, unnamed⟩ => ⟨sound.step, tended.step sound, unnamed.step tended⟩)
    ⟨sound, tended, unnamed⟩ n
  exact kept.2.2

/-- **The handle that `gate` makes is unnamed.** -/
theorem born (sound : Sound m) (wired : m.Wired) {s : SinkRef} (asks : m.AsksGate s g h) :
    m.step.Unnamed h g ∧ .subscribing s h ∈ m.step.history := by
  obtain ⟨⟨within, k, rest, turn, found⟩, rfl, rfl⟩ := asks
  have performed : m.store.perform rest within (.gate k) =
      ((m.store.newGate.2.subscribe s (.gate m.store.gates.length)).2,
        .keepGate m.store.gates.length) := by
    simp [Store.perform, Store.with?, found, Store.newGate]
  have unborn := sound.unborn m.store.handles.length (List.getElem?_eq_none (Nat.le_refl _))
  have step := Machine.step_perform turn performed
  have history : m.step.history = m.history ++
      [.performed within (.gate k), .subscribing s m.store.handles.length] := by
    rw [step]
    simp [Machine.history, Store.subscribe, Store.newGate]
  have silent : ∀ signal, .began m.store.handles.length signal ∉ m.step.history := by
    intro signal began
    rw [history] at began
    rcases List.mem_append.1 began with old | new
    · exact absurd (sound.began_inside old) (Nat.lt_irrefl _)
    · simp at new
  have fresh : ¬ m.Cites (.sub m.store.handles.length) := fun cites =>
    Nat.lt_irrefl _ (wired _ cites)
  refine ⟨⟨?_, ?_, ?_, ?_⟩, by simp [history]⟩
  · rw [step]
    simp [Store.target?, Store.subscribe, Store.newGate, Handle.new, Consumer.target?]
  · rintro (slotted | ⟨t, member, named⟩)
    · rw [step] at slotted
      exact fresh (.inl slotted)
    · rw [step] at member
      rcases List.mem_append.1 member with own | later
      · rcases List.mem_cons.1 own with rfl | own
        · cases named
        · rcases List.mem_cons.1 own with rfl | own
          · cases named
          · rw [List.mem_singleton.1 own] at named
            cases named
      · rcases List.mem_cons.1 later with rfl | old
        · cases named
        · exact fresh (.inr ⟨t, by rw [turn]; exact List.mem_cons_of_mem _ old, named⟩)
  · intro cancelled
    rw [history] at cancelled
    rcases List.mem_append.1 cancelled with old | new
    · have renounced := Ledger.renounced_iff.2 old
      rw [unborn.2] at renounced
      cases renounced
    · simp at new
  · intro began
    exact absurd began (silent _)

/-! ### The gate and its sink -/

section Sink

variable (unnamed : m.Unnamed h g) (tells : m.GateTells g) (reserved : m.Reserved g h)
include unnamed tells reserved

/-- The gate is closed if and only if its handle has heard more than its acknowledgment. -/
theorem closed_iff :
    m.store.gateClosed g = true ↔ ∃ signal ∈ heard h m.history, signal ≠ .subscribed := by
  have only : ∀ h', m.store.target? h' = some (.gate g) ↔ h' = h := by
    intro h'
    constructor
    · exact reserved.one h'
    · rintro rfl
      exact unnamed.outlet
  rw [tells.closed, Store.told_of_one only reserved.indirect, List.any_eq_true]
  simp only [Signal.closes_iff]

variable (sound : Sound m) {x : Handle α ε} (found : m.store.handles[h]? = some x)
include sound found

/-- As long as its sink is pending, the gate is open. -/
theorem open_of_pending (pending : ∀ o, .terminating x.sink o true ∉ m.history) :
    m.store.gateClosed g = false := by
  have course := (sound.standing h x (by simp) found).course
  have early : callbacks h m.history <+: inTurn h [.subscribed] := by
    apply course.heard_early
    intro o closed
    exact pending o
      (sound.ended_iff.2 (Registry.outcome?_eq_some.1 (Registry.place_eq_closed.1 closed)))
  have first : heard h (callbacks h m.history) <+: heard h (inTurn h [.subscribed]) :=
    early.filterMap _
  rw [heard_callbacks, heard_inTurn] at first
  rw [Bool.eq_false_iff]
  intro closed
  obtain ⟨signal, member, beyond⟩ := (unnamed.closed_iff tells reserved).1 closed
  exact beyond (List.mem_singleton.1 (first.subset member))

/-- **At rest the gate is closed if and only if its sink has ended.** -/
theorem closed_iff_ended (rest : m.AtRest) :
    m.store.gateClosed g = true ↔ ∃ o, .terminating x.sink o true ∈ m.history := by
  constructor
  · intro closed
    apply Classical.byContradiction
    intro none_
    have open_ := unnamed.open_of_pending tells reserved sound found fun o ended =>
      none_ ⟨o, ended⟩
    rw [closed] at open_
    cases open_
  · rintro ⟨o, ended⟩
    have frozen := sound.ended_iff.1 ended
    rw [unnamed.closed_iff tells reserved, ← heard_callbacks]
    rcases sound.settled found (rest.pending h) unnamed.kept with
      ⟨unended, -⟩ | ⟨o', frozen', ⟨-, all⟩ | ⟨v, -, unasked, all, -⟩⟩
    · exact absurd ended (unended o)
    · rw [all, heard_inTurn]
      cases o' <;> simp [Outcome.signals]
    · -- without demand the value would be parked, but a gate has asked
      have began : .began h .subscribed ∈ m.history := by
        have member : (.began h .subscribed : Event α ε) ∈ callbacks h m.history := by
          rw [all]
          simp [inTurn]
        exact (List.mem_filter.1 member).1
      have zero := unasked 1 (unnamed.asked began)
      cases zero

end Sink

end Machine.Unnamed

/-! ## A sink that was dropped -/

namespace Store

theorem names_of_slots {st st' : Store α ε} (slots : st'.slots = st.slots) (s : SinkRef) :
    st'.names s = st.names s := by
  rw [names, slots, names]

/-- Calls on a handle give up no sink. -/
theorem request_refers (st : Store α ε) (h : HandleRef) (n : UInt64) (s : SinkRef) :
    ∀ t ∈ (st.request h n).tasks, t.refersTo s = false := by
  have asks := st.request_asks h n
  generalize st.request h n = e at asks ⊢
  cases asks with
  | missed => exact List.forall_mem_nil _
  | refused | first | served | spoilt | empty | again => simp [Task.refersTo]

theorem cancel_refers (st : Store α ε) (h : HandleRef) (s : SinkRef) :
    ∀ t ∈ (st.cancel h).tasks, t.refersTo s = false := by
  have cancels := st.cancel_cancels h
  generalize st.cancel h = e at cancels ⊢
  cases cancels with
  | missed => exact List.forall_mem_nil _
  | again | first => simp [Task.refersTo]

theorem terminate_refers (st : Store α ε) {s t : SinkRef} (other : t ≠ s) (o : Outcome α ε) :
    ∀ task ∈ (st.terminate t o).2.tasks, task.refersTo s = false := by
  have giving : (Task.giveUp t : Task α ε).refersTo s = false := by
    simp [Task.refersTo, Ne.symm other]
  have ends := st.terminate_ends t o
  generalize st.terminate t o = called at ends ⊢
  cases ends with
  | missed => exact List.forall_mem_nil _
  | lost => exact List.forall_mem_singleton.2 giving
  | won =>
      exact List.forall_mem_append.2 ⟨List.forall_mem_map.2 fun _ _ => rfl,
        List.forall_mem_cons.2 ⟨rfl, List.forall_mem_singleton.2 giving⟩⟩

/-- A turn gives up no sink. -/
theorem Turned.refers {st : Store α ε} {first : Event α ε} {e : Effect α ε}
    (turned : st.Turned first e) (s : SinkRef) : ∀ t ∈ e.tasks, t.refersTo s = false := by
  have idle : ∀ tasks : List (Task α ε), tasksWork tasks = 0 →
      ∀ t ∈ tasks, t.refersTo s = false := by
    intro tasks none_
    induction tasks with
    | nil => exact List.forall_mem_nil _
    | cons t tasks ih =>
        rw [tasksWork_cons] at none_
        refine List.forall_mem_cons.2 ⟨?_, ih (by omega)⟩
        cases t with
        | giveUp => simp [Task.work] at none_
        | _ => rfl
  exact idle e.tasks turned.turns

end Store

/-- Tasks that give up no sink are no references to any. -/
theorem Store.referenced_of_mute {st st' : Store α ε} {tasks : List (Task α ε)} {s : SinkRef}
    (names : st'.names s = st.names s) (mute : ∀ t ∈ tasks, t.refersTo s = false) :
    st'.referenced tasks s = st.names s := by
  have none_ : tasks.any (Task.refersTo s) = false := List.any_eq_false.2 fun t member => by
    simp [mute t member]
  rw [referenced, names, none_, Bool.or_false]

/-- One more task that gives up no sink makes no difference. -/
theorem Store.referenced_concat {st : Store α ε} {tasks : List (Task α ε)} {last : Task α ε}
    {s : SinkRef} (mute : last.refersTo s = false) :
    st.referenced (tasks ++ [last]) s = st.referenced tasks s := by
  simp [referenced, mute]

/-- **A deed gives and takes no reference to a sink**: what it takes out of the slots stands
among what it leaves to do. -/
theorem Deed.references {st : Store α ε} {may : SinkRef → Prop} {e : Effect α ε}
    (deed : Deed st may e) {s : SinkRef} (inside : s < st.sinks.length) :
    e.store.referenced e.tasks s = st.names s := by
  have named : ∀ {e : Effect α ε}, e.store.names s = st.names s → st.names s = true →
      e.store.referenced e.tasks s = st.names s := by
    intro e names named
    rw [Store.referenced, names, named, Bool.true_or]
  induction deed with
  | aside _ _ names _ _ => exact names s
  | @founding st' label _ _ names =>
      have other : (s == st.sinks.length) = false := beq_eq_false_iff_ne.2 (Nat.ne_of_lt inside)
      refine Store.referenced_of_mute ?_ (List.forall_mem_nil _)
      show st'.names s = st.names s
      rw [names, other, Bool.or_false]
  | @subscribing st' beside t here consumer =>
      by_cases same : s = t
      · exact named (beside.names s) (same ▸ here)
      · exact Store.referenced_of_mute (beside.names s)
          (by simp [Store.subscribe, Task.refersTo, same])
  | @ending t here _ o =>
      have names := Store.names_of_slots (st.terminate_rests t o).slots s
      by_cases same : t = s
      · exact named names (same ▸ here)
      · exact Store.referenced_of_mute names (st.terminate_refers same o)
  | @requesting st' beside h n =>
      exact Store.referenced_of_mute
        ((Store.names_of_slots (st'.request_rests h n).slots s).trans (beside.names s))
        (st'.request_refers h n s)
  | cancelling h =>
      exact Store.referenced_of_mute (Store.names_of_slots (st.cancel_slots h) s)
        (st.cancel_refers h s)
  | after _ _ ih => exact ih
  | @followedBy e tasks _ mute _ ih =>
      rw [← ih]
      show e.store.referenced (e.tasks ++ tasks) s = _
      rw [Store.referenced, List.any_append, mute, Bool.or_false, Store.referenced]

/-- So does a task. -/
theorem Task.effect_references (st : Store α ε) (rest : List (Task α ε)) (t : Task α ε)
    {s : SinkRef} (inside : s < st.sinks.length) :
    (t.effect st rest).store.referenced (t.effect st rest).tasks s = st.names s := by
  have still : ∀ {st' : Store α ε}, st'.slots = st.slots → st'.names s = st.names s :=
    fun slots => Store.names_of_slots slots s
  cases t with
  | perform within step =>
      exact (Store.referenced_concat rfl).trans
        ((st.perform_deed rest within step).references inside)
  | answer within step closing =>
      exact Store.referenced_of_mute ((st.conclude_beside closing).names s) (List.forall_mem_nil _)
  | notify h signal =>
      cases found : st.handles[h]? with
      | none =>
          have nothing : (Task.notify h signal).effect st rest = .quiet st := by
            rw [Task.effect, Store.notify, found]
          rw [nothing]
          exact Store.referenced_of_mute rfl (List.forall_mem_nil _)
      | some x =>
          have deed := st.react_deed x.consumer h signal
          rw [Task.effect, Store.notify_eq found]
          exact (Store.referenced_concat rfl).trans (deed.references inside)
  | finish h signal =>
      exact Store.referenced_of_mute (still (st.finish_rests h signal).slots)
        ((st.finish_turned h signal).refers s)
  | deliver h o =>
      exact Store.referenced_of_mute (still (st.deliver_rests h o).slots)
        ((st.deliver_turned h o).refers s)
  | letGo hs =>
      exact Store.referenced_of_mute (still (st.letGo_forgets rest hs).slots)
        (List.forall_mem_nil _)
  | giveUp s' =>
      exact Store.referenced_of_mute (still (st.giveUp_forgets rest s').slots)
        (List.forall_mem_nil _)
  | hangUp c => exact Store.referenced_of_mute rfl (List.forall_mem_nil _)

namespace Machine

variable {m : Machine α ε} {s : SinkRef}

/-- **A step takes the reference that the task in hand is**, and no other; and it gives none. -/
theorem referenced_step (inside : s < m.store.sinks.length) :
    m.step.store.referenced m.step.agenda s = m.store.referenced m.agenda.tail s := by
  cases turn : m.agenda with
  | nil =>
      rw [step_nil turn, turn]
      rfl
  | cons t rest =>
      have references := Task.effect_references m.store rest t inside
      rw [Store.referenced] at references
      rw [step_cons turn, undergo_store, undergo_agenda, behind_agenda, turn, List.tail_cons,
        Store.referenced, List.any_append, ← Bool.or_assoc, references, Store.referenced]

/-- **A sink that nothing refers to is not referred to again, and nothing ends it.** -/
theorem dropped_step (inside : s < m.store.sinks.length)
    (dropped : m.store.referenced m.agenda s = false) :
    m.step.store.referenced m.step.agenda s = false ∧
      attempts s m.step.history = attempts s m.history := by
  obtain ⟨unnamed, idle⟩ := Bool.or_eq_false_iff.1 dropped
  constructor
  · rw [referenced_step inside, Store.referenced, unnamed, Bool.false_or]
    exact List.any_eq_false.2 fun t member => List.any_eq_false.1 idle t (List.mem_of_mem_tail member)
  · apply attempts_step
    rintro o within step rest ⟨-, k, -, found⟩
    rw [Store.names_of_sink? found] at unnamed
    cases unnamed

/-- The same, over a run. -/
theorem dropped_steps (sound : Sound m) {h : HandleRef} (made : .subscribing s h ∈ m.history)
    (dropped : m.store.referenced m.agenda s = false) (n : Nat) :
    attempts s (m.steps n).history = attempts s m.history := by
  have kept := steps_keep
    (P := fun m' => Sound m' ∧ .subscribing s h ∈ m'.history ∧
      m'.store.referenced m'.agenda s = false ∧ attempts s m'.history = attempts s m.history)
    (fun m' ⟨sound, made, dropped, same⟩ => by
      obtain ⟨x, found, rfl⟩ := Option.map_eq_some_iff.1 ((sound.made s h).1 made)
      obtain ⟨later, unended⟩ := dropped_step (sound.coherent.housed h x found) dropped
      exact ⟨sound.step, (history_prefix_step m').subset made, later, unended.trans same⟩)
    ⟨sound, made, dropped, rfl⟩ n
  exact kept.2.2.2

end Machine

/-! ## The result -/

/-- **A gate is a latch, and the gate of a sink closes when the sink ends.**

At every moment of every run a gate is closed if and only if one of its clones has been called
back with more than an acknowledgment: by the library, through a handle whose consumer it is,
or by a step.  It said so once, when it closed, and stays closed.

A step asks a sink for a gate.  As long as no other handle is attached to that gate, and no step
makes a callback on it, it is closed at any later moment at which no call is in progress, if and
only if the sink has ended, in whatever way and whether before or after the step.  If at some
later moment nothing refers to the sink any more and it is pending, then the gate is open from
then on. -/
theorem gate_closes_with_sink (script : List (Step α ε)) :
    let run := fun n => (Machine.load script).steps n
    (∀ n g,
      let m := run n
      (m.store.gateClosed g = true ↔ ∃ signal, signal ≠ .subscribed ∧
          ((∃ h, m.store.target? h = some (.gate g) ∧ .began h signal ∈ m.history) ∨
            .direct (.gate g) signal ∈ m.history)) ∧
        (m.store.gateClosed g = true → ∀ k, (run (n + k)).store.gateClosed g = true) ∧
        m.history.countP (Event.shuts g) = if m.store.gateClosed g = true then 1 else 0) ∧
      ∀ i s g h, (run i).AsksGate s g h →
        (∀ n > i, (run n).Reserved g h → (run n).AtRest →
            ((run n).store.gateClosed g = true ↔ ∃ o, .terminating s o true ∈ (run n).history)) ∧
          ∀ n > i, (∀ o, .terminating s o true ∉ (run n).history) →
            (run n).store.referenced (run n).agenda s = false →
            ∀ d, (run (n + d)).Reserved g h → (run (n + d)).store.gateClosed g = false := by
  intro run
  have sound : ∀ n, Sound (run n) := Machine.steps_sound script
  have wired : ∀ n, (run n).Wired := Machine.steps_wired script
  have tells : ∀ n g, (run n).GateTells g := Machine.gate_steps script
  have onward : ∀ n d, run (n + d) = (run n).steps d := fun n d => Machine.steps_add n d _
  refine ⟨?_, ?_⟩
  · intro n g m
    refine ⟨?_, ?_, ?_⟩
    · rw [(tells n g).closed, List.any_eq_true]
      simp only [Signal.closes_iff, Store.mem_told, m]
      constructor
      · rintro ⟨signal, heard, beyond⟩
        exact ⟨signal, beyond, heard⟩
      · rintro ⟨signal, beyond, heard⟩
        exact ⟨signal, heard, beyond⟩
    · intro closed k
      rw [onward]
      exact Machine.gate_stays (wired n) closed k
    · rw [(tells n g).said]
      cases m.store.gateClosed g <;> rfl
  · intro i s g h asks
    obtain ⟨born, made⟩ := Machine.Unnamed.born (sound i) (wired i) asks
    -- the handle is there at every later moment, and of this sink
    have later : ∀ n > i, (run n).Unnamed h g ∧ .subscribing s h ∈ (run n).history := by
      intro n gt
      obtain ⟨d, rfl⟩ := Nat.exists_eq_add_of_lt gt
      rw [Nat.add_assoc, onward, Machine.steps_succ]
      exact ⟨born.steps (sound i).step ((Machine.steps_tended script i).step (sound i)) d,
        (Machine.history_prefix_steps _ d).subset made⟩
    refine ⟨?_, ?_⟩
    · intro n gt reserved atRest
      obtain ⟨unnamed, made⟩ := later n gt
      obtain ⟨x, here, rfl⟩ := Option.map_eq_some_iff.1 (((sound n).made _ _).1 made)
      exact unnamed.closed_iff_ended (tells n g) reserved (sound n) here atRest
    · intro n gt pending dropped d reserved
      obtain ⟨unnamed, made'⟩ := later (n + d) (by omega)
      obtain ⟨x, here, rfl⟩ := Option.map_eq_some_iff.1 (((sound (n + d)).made _ _).1 made')
      apply unnamed.open_of_pending (tells (n + d) g) reserved (sound (n + d)) here
      intro o ended
      have same := Machine.dropped_steps (sound n) (later n gt).2 dropped d
      rw [← onward] at same
      rw [← mem_attempts, same, mem_attempts] at ended
      exact pending o ended

/-- Inside the delivery of a value, a consumer asks the sink for a gate, which is closed when the
delivery is over; and the gate of a sink that is dropped stays open. -/
theorem gate_closes_with_sink_within :
    let ended : List (Step Nat Nat) :=
      [.newSink none, .subscribe 0 [.request .own 1] [.gate 0] [] [], .succeed 0 (some 7)]
    let dropped : List (Step Nat Nat) := [.newSink none, .gate 0, .dropSink 0]
    (((Machine.load ended).steps 32).AtRest ∧
        ((Machine.load ended).steps 32).store.gateClosed 0 = true) ∧
      (((Machine.load dropped).steps 12).store.referenced
          ((Machine.load dropped).steps 12).agenda 0 = false ∧
        ∀ d, ((Machine.load dropped).steps (12 + d)).store.gateClosed 0 = false) := by
  intro ended dropped
  have asks : ∀ {m : Machine Nat Nat} {g h},
      (m.inHand.any fun p => match p.2 with | .gate 0 => true | _ => false) = true →
      m.store.sink? 0 = some 0 → m.store.gates.length = g → m.store.handles.length = h →
      m.AsksGate 0 g h := by
    intro m g h hand found gate handle
    obtain ⟨⟨within, step⟩, hand, asks⟩ := (Option.any_eq_true _ _).1 hand
    obtain ⟨rest, turn⟩ := Machine.inHand_eq_some.1 hand
    split at asks
    · rename_i same
      cases same
      exact ⟨⟨within, 0, rest, turn, found⟩, gate, handle⟩
    · cases asks
  -- no step makes a callback on a gate in these scripts
  have indirect : ∀ {history : List (Event Nat Nat)}, directs history = [] →
      ∀ signal, .direct (.gate 0) signal ∉ history := by
    intro history none_ signal direct
    rw [← mem_directs, none_] at direct
    cases direct
  constructor
  · have asks : ((Machine.load ended).steps 14).AsksGate 0 0 1 :=
      asks (by decide +kernel) (by decide +kernel) (by decide +kernel) (by decide +kernel)
    have one : ∀ h, ((Machine.load ended).steps 32).store.target? h = some (.gate 0) → h = 1 := by
      intro h hears
      have outlets : ((Machine.load ended).steps 32).store.consumers.map Consumer.target? =
          [none, some (.gate 0)] := by decide +kernel
      rw [Store.target?_of_map outlets] at hears
      rcases h with _ | _ | h
      · cases hears
      · rfl
      · simp at hears
    have atRest : ((Machine.load ended).steps 32).AtRest := by
      have closed : ((Machine.load ended).steps 32).agenda = [] :=
        List.isEmpty_iff.1 (by decide +kernel)
      simp [Machine.AtRest, closed]
    have ends : ∃ o, .terminating 0 o true ∈ ((Machine.load ended).steps 32).history :=
      ⟨.value 7, mem_attempts.1 (by decide +kernel)⟩
    refine ⟨atRest,
      (((gate_closes_with_sink ended).2 14 0 0 1 asks).1 32 (by decide) ?_ atRest).2 ends⟩
    exact ⟨one, indirect (by decide +kernel)⟩
  · have asks : ((Machine.load dropped).steps 2).AsksGate 0 0 0 :=
      asks (by decide +kernel) (by decide +kernel) (by decide +kernel) (by decide +kernel)
    have closed : ((Machine.load dropped).steps 12).agenda = [] :=
      List.isEmpty_iff.1 (by decide +kernel)
    have same : ∀ d, (Machine.load dropped).steps (12 + d) = (Machine.load dropped).steps 12 := by
      intro d
      rw [Machine.steps_add, Machine.steps_nil closed]
    have one : ∀ h, ((Machine.load dropped).steps 12).store.target? h = some (.gate 0) → h = 0 := by
      intro h hears
      have outlets : ((Machine.load dropped).steps 12).store.consumers.map Consumer.target? =
          [some (.gate 0)] := by decide +kernel
      rw [Store.target?_of_map outlets] at hears
      rcases h with _ | h
      · rfl
      · simp at hears
    have pending : ∀ o, .terminating 0 o true ∉ ((Machine.load dropped).steps 12).history := by
      intro o ended
      have none_ : attempts 0 ((Machine.load dropped).steps 12).history = [] := by decide +kernel
      rw [← mem_attempts, none_] at ended
      cases ended
    have free : ((Machine.load dropped).steps 12).store.referenced
        ((Machine.load dropped).steps 12).agenda 0 = false := by decide +kernel
    have reserved : ∀ d, ((Machine.load dropped).steps (12 + d)).Reserved 0 0 := by
      intro d
      rw [same]
      exact ⟨one, indirect (by decide +kernel)⟩
    exact ⟨free, fun d => ((gate_closes_with_sink dropped).2 2 0 0 0 asks).2 12 (by decide) pending
      free d (reserved d)⟩

end OneShot
