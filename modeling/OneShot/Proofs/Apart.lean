/-
# OneShot.Proofs.Apart -- sinks do not interfere

A call on a sink changes no other sink and no handle of another, as long as no callback performs
further steps (`sinks_do_not_interfere`).

* `Machine.Leads.stays`: what stays within at every task stays within for the whole call.
* `Task.effect_aside`, `Machine.Leads.aside`: what follows a `request` or a `cancel` leaves every
  sink and all slots alone, so that of the sinks only the registry that a cancellation takes its
  handle from is changed (`Sound.cancel_sinks`).
* `Sound.apart`, `Sound.apart_from`: the two put together, for a call on a sink and for a call on a
  handle.
-/
import OneShot.Proofs.Footprint
import OneShot.Proofs.Lockstep
import OneShot.Proofs.Outlets.Receiver
import OneShot.Proofs.Roster

namespace OneShot

set_option autoImplicit false

variable {α ε : Type}

/-! ## What follows a `request` or a `cancel` -/

/-- No slot has changed, and no handle, channel or gate is new. -/
structure Store.Still (st st' : Store α ε) : Prop where
  slots : st'.slots = st.slots
  handles : st'.handles.length = st.handles.length
  channels : st'.channels.length = st.channels.length
  gates : st'.gates.length = st.gates.length

namespace Store.Still

variable {st st' st'' : Store α ε}

theorem refl (st : Store α ε) : st.Still st := ⟨rfl, rfl, rfl, rfl⟩

theorem trans (first : st.Still st') (second : st'.Still st'') : st.Still st'' :=
  ⟨second.slots.trans first.slots, second.handles.trans first.handles,
    second.channels.trans first.channels, second.gates.trans first.gates⟩

theorem modifyHandle (st : Store α ε) (h : HandleRef) (f : Handle α ε → Handle α ε) :
    st.Still (st.modifyHandle h f) :=
  ⟨rfl, List.length_modify .., rfl, rfl⟩

theorem unregister (st : Store α ε) (s : SinkRef) (h : HandleRef) :
    st.Still (st.unregister s h).1 := by
  unfold Store.unregister
  split
  · exact ⟨rfl, rfl, rfl, rfl⟩
  · exact .refl st

theorem request (st : Store α ε) (h : HandleRef) (n : UInt64) : st.Still (st.request h n).store := by
  have asks := st.request_asks h n
  generalize st.request h n = e at asks ⊢
  cases asks with
  | missed | refused | again => exact .refl st
  | first | served | spoilt | empty => exact .modifyHandle st h _

theorem cancel (st : Store α ε) (h : HandleRef) : st.Still (st.cancel h).store := by
  have cancels := st.cancel_cancels h
  generalize st.cancel h = e at cancels ⊢
  cases cancels with
  | missed | again => exact .refl st
  | first => exact (Still.modifyHandle st h _).trans (.unregister _ _ h)

theorem forward (st : Store α ε) (c : ChannelRef) (signal : Signal α ε) :
    st.Still (st.forward c signal).1 := by
  have sends := st.forward_sends c signal
  generalize st.forward c signal = left at sends ⊢
  cases sends with
  | missed | gone | full => exact .refl st
  | kept => exact ⟨rfl, rfl, List.length_modify .., rfl⟩

theorem close (st : Store α ε) (g : GateRef) : st.Still (st.close g).1 := by
  unfold Store.close
  split
  · exact .refl st
  · exact ⟨rfl, rfl, rfl, List.length_set⟩

theorem letGo (st : Store α ε) (agenda : List (Task α ε)) (hs : List HandleRef) :
    st.Still (st.letGo agenda hs).1 := by
  induction hs generalizing st with
  | nil => exact .refl st
  | cons h hs ih =>
      have first : st.Still (st.release agenda h).1 := by
        unfold release
        split
        · exact .modifyHandle st h _
        · exact .refl st
      exact first.trans (ih _)

end Store.Still

/-- A list of the same length that has kept a place has it no matter what stands there. -/
theorem getElem?_eq_of_kept {β : Type} {l l' : List β} {i : Nat} (length : l'.length = l.length)
    (kept : ∀ y, l[i]? = some y → l'[i]? = some y) : l'[i]? = l[i]? := by
  cases found : l[i]? with
  | some y => exact kept y found
  | none =>
      rw [List.getElem?_eq_none_iff] at found ⊢
      omega

/-- The task makes a callback of the handle past its acknowledgment, lets go of the handle, or
answers at once. -/
def Task.Tells (h : HandleRef) : Task α ε → Prop
  | .notify g signal | .finish g signal => g = h ∧ signal ≠ .subscribed
  | .letGo hs => hs = [h]
  | .answer _ _ closing => ∃ r, closing = .reply r
  | .perform _ _ => True
  | .deliver _ _ | .giveUp _ | .hangUp _ => False

theorem Task.Tells.within {h : HandleRef} {t : Task α ε} (tells : t.Tells h) (s : SinkRef) :
    t.Within (· = h) s := by
  cases t with
  | notify | finish => exact tells.1
  | letGo hs =>
      obtain rfl : hs = [h] := tells
      exact List.forall_mem_singleton.2 rfl
  | perform | answer | hangUp => trivial
  | deliver | giveUp => exact tells.elim

/-- Past the acknowledgment, a consumer leaves sinks and slots alone and makes nothing. -/
theorem Store.react_aside (st : Store α ε) (consumer : Consumer α ε) (h : HandleRef)
    {signal : Signal α ε} (past : signal ≠ .subscribed) :
    (st.react consumer h signal).store.sinks = st.sinks ∧
      st.Still (st.react consumer h signal).store ∧
      ∀ t ∈ (st.react consumer h signal).tasks, t.Tells h := by
  have hook : ∀ (slot : Nat) (steps : List (Step α ε)), ∀ t ∈ runHook slot steps, t.Tells h := by
    simp [runHook, Task.Tells]
  have reacts := st.react_reacts consumer h signal
  generalize st.react consumer h signal = e at reacts ⊢
  cases reacts with
  | greeting | asking | sendingAsking | askingOnce => exact absurd rfl past
  | running slot | valued slot => exact ⟨rfl, .refl st, hook slot _⟩
  | completed | unheard => exact ⟨rfl, .refl st, List.forall_mem_nil _⟩
  | sending c =>
      exact ⟨(st.forward_beside c signal).sinks, .forward st c signal, List.forall_mem_nil _⟩
  | closing g => exact ⟨(st.close_beside g).sinks, .close st g, List.forall_mem_nil _⟩

/-- Such a task leaves sinks and slots alone, makes nothing, and leaves only such tasks to do. -/
theorem Task.effect_aside {h : HandleRef} {t : Task α ε} (st : Store α ε) (rest : List (Task α ε))
    (tells : t.Tells h) (idle : ∀ slot step, t ≠ .perform slot step) :
    (t.effect st rest).store.sinks = st.sinks ∧ st.Still (t.effect st rest).store ∧
      ∀ t' ∈ (t.effect st rest).tasks, t'.Tells h := by
  cases t with
  | perform slot step => exact absurd rfl (idle slot step)
  | answer slot step closing =>
      obtain ⟨r, rfl⟩ := tells
      exact ⟨rfl, .refl st, List.forall_mem_nil _⟩
  | notify g signal =>
      obtain ⟨rfl, past⟩ := tells
      cases found : st.handles[g]? with
      | none =>
          rw [effect, Store.notify, found]
          exact ⟨rfl, .refl st, List.forall_mem_nil _⟩
      | some x =>
          obtain ⟨sinks, still, hooks⟩ := st.react_aside x.consumer g past
          rw [effect, Store.notify_eq found]
          refine ⟨sinks, still, ?_⟩
          exact List.forall_mem_append.2 ⟨hooks, List.forall_mem_singleton.2 ⟨rfl, past⟩⟩
  | finish g signal =>
      obtain ⟨rfl, past⟩ := tells
      cases signal with
      | subscribed => exact absurd rfl past
      | next v =>
          simp only [effect, Store.finish]
          split
          · exact ⟨rfl, .refl st, List.forall_mem_nil _⟩
          · exact ⟨rfl, .refl st, List.forall_mem_singleton.2 ⟨rfl, by simp⟩⟩
      | complete | error => exact ⟨rfl, .refl st, List.forall_mem_nil _⟩
  | letGo hs =>
      exact ⟨(st.letGo_forgets rest hs).sinks, .letGo st rest hs, List.forall_mem_nil _⟩
  | deliver | giveUp | hangUp => exact tells.elim

namespace Store

variable (st : Store α ε) (h : HandleRef)

theorem request_tells (n : UInt64) : ∀ t ∈ (st.request h n).tasks, t.Tells h := by
  have asks := st.request_asks h n
  generalize st.request h n = e at asks ⊢
  cases asks with
  | missed => exact List.forall_mem_nil _
  | refused | first | served | spoilt | empty | again => simp [Task.Tells]

theorem cancel_tells : ∀ t ∈ (st.cancel h).tasks, t.Tells h := by
  have cancels := st.cancel_cancels h
  generalize st.cancel h = e at cancels ⊢
  cases cancels with
  | missed => exact List.forall_mem_nil _
  | again | first => simp [Task.Tells]

/-- Taken out or not there, a handle is not in the registry any more, and nothing else of its
sink has changed. -/
theorem unregister_sinks (s : SinkRef) :
    (st.unregister s h).1.sinks =
      (st.modifySink s fun x => { x with registry := x.registry.erase h }).sinks := by
  unfold unregister
  split
  · rfl
  · rename_i absent
    apply List.ext_getElem?
    intro t
    rw [modifySink_sinks]
    split
    · rename_i here
      cases found : st.sinks[t]? with
      | none => rfl
      | some y =>
          have out : h ∉ y.registry.handles := by
            rw [← registry_of_sinks st (here ▸ found)]
            simpa using absent
          simp [Registry.erase_of_not_mem out]
    · rfl

end Store

/-- A cancellation that finds its handle alive takes it out of the registry of its sink. -/
theorem Sound.cancel_sinks {m : Machine α ε} (sound : Sound m) {h : HandleRef} {x : Handle α ε}
    (found : m.store.handles[h]? = some x) (alive : m.store.alive h = true) :
    (m.store.cancel h).store.sinks =
      (m.store.modifySink x.sink fun y => { y with registry := y.registry.erase h }).sinks := by
  have cancels := m.store.cancel_cancels h
  generalize m.store.cancel h = e at cancels ⊢
  cases cancels with
  | missed gone =>
      rw [alive] at gone
      cases gone
  | first found' on kept =>
      obtain rfl : x = _ := Option.some.inj (found.symm.trans found')
      rw [Store.unregister_sinks]
      rfl
  | again found' on gone =>
      obtain rfl : x = _ := Option.some.inj (found.symm.trans found')
      -- who is cancelled does not wait any more
      have out : (m.store.registry x.sink).handles.contains h = false := by
        rw [Bool.eq_false_iff, Ne, List.contains_iff_mem]
        intro waits
        obtain ⟨y, found', -, early⟩ := sound.waits_without_value waits
        obtain rfl : x = y := Option.some.inj (found.symm.trans found')
        rw [gone] at early
        rcases early with idle | asked
        · cases idle
        · cases asked
      rw [← Store.unregister_sinks, Store.unregister, out]
      rfl

/-! ## From a call to its return -/

namespace Machine

variable {m m' : Machine α ε} {rest : List (Task α ε)} {k : Nat} {own : HandleRef → Prop}
  {s : SinkRef} {h : HandleRef}

/-- After the step that is in hand, no other is performed for `k` steps of the machine. -/
def Alone (m : Machine α ε) (k : Nat) : Prop := ∀ i, 0 < i → i < k → (m.steps i).inHand = none

/-- What every step of a piece keeps of the work in front of `rest` holds all along. -/
theorem Leads.along {work : List (Task α ε)} {P : List (Task α ε) → Machine α ε → Prop}
    (leads : Leads rest m m' k) (stack : m.agenda = work ++ rest) (start : P work m)
    (keep : ∀ i < k, ∀ t work, (m.steps i).agenda = t :: (work ++ rest) → P (t :: work) (m.steps i) →
      P ((t.effect (m.steps i).store (work ++ rest)).tasks ++ work) (m.steps (i + 1))) :
    ∀ i ≤ k, ∃ work, (m.steps i).agenda = work ++ rest ∧ P work (m.steps i) := by
  intro i
  induction i with
  | zero => exact fun _ => ⟨work, stack, start⟩
  | succ i ih =>
      intro le
      obtain ⟨work, agenda, holds⟩ := ih (Nat.le_of_succ_le le)
      obtain ⟨front, some_, busy⟩ := leads.2 i le
      obtain rfl : work = front := List.append_cancel_right (agenda.symm.trans busy)
      cases work with
      | nil => exact absurd rfl some_
      | cons t work =>
          refine ⟨_, ?_, keep i le t work agenda holds⟩
          rw [steps_step, step_cons agenda, undergo_agenda, behind_agenda, agenda]
          exact (List.append_assoc _ work rest).symm

theorem idle_of_inHand {t : Task α ε} {work : List (Task α ε)} (quiet : m.inHand = none)
    (turn : m.agenda = t :: work) : ∀ slot step, t ≠ .perform slot step := by
  rintro slot step rfl
  rw [inHand_eq_some.2 ⟨work, turn⟩] at quiet
  cases quiet

/-- **A piece in which no step is performed stays within** what it starts with. -/
theorem Leads.stays {work : List (Task α ε)} (leads : Leads rest m m' k)
    (stack : m.agenda = work ++ rest) (within : ∀ t ∈ work, t.Within own s)
    (quiet : ∀ i < k, (m.steps i).inHand = none)
    (home : ∀ i, ∀ (h : HandleRef) (x : Handle α ε), own h →
      (m.steps i).store.handles[h]? = some x → x.sink = s)
    (housed : ∀ i < k, ∀ work, (m.steps i).agenda = .giveUp s :: work →
      ∀ h ∈ ((m.steps i).store.registry s).handles, own h) :
    m.store.Keeps own s m'.store ∧ ∀ h, ¬ own h → Ledger.of h m'.history = Ledger.of h m.history := by
  obtain ⟨-, -, -, keeps, ledgers⟩ := leads.along
    (P := fun work m' => (∀ t ∈ work, t.Within own s) ∧ m.store.Keeps own s m'.store ∧
      ∀ h, ¬ own h → Ledger.of h m'.history = Ledger.of h m.history)
    stack ⟨within, .refl _, fun _ _ => rfl⟩ (by
      rintro i lt t work agenda ⟨within, keeps, ledgers⟩
      have stays := Task.effect_stays (work ++ rest) (within t List.mem_cons_self)
        (idle_of_inHand (quiet i lt) agenda) (home i)
        (by rintro rfl; exact housed i lt _ agenda)
      rw [steps_step, step_cons agenda]
      refine ⟨?_, keeps.trans stays.store, ?_⟩
      · exact List.forall_mem_append.2
          ⟨stays.left, fun t member => within t (List.mem_cons_of_mem _ member)⟩
      · intro h other
        rw [undergo_history, behind_history, Ledger.of_append_of_others _ fun event member =>
          stays.said event member h other]
        exact ledgers h other) k (Nat.le_refl k)
  rw [leads.1] at keeps ledgers
  exact ⟨keeps, ledgers⟩

/-- What follows a `request` or a `cancel` leaves sinks and slots alone, makes nothing, and gives
up no sink. -/
theorem Leads.aside {work : List (Task α ε)} (leads : Leads rest m m' k)
    (stack : m.agenda = work ++ rest) (tells : ∀ t ∈ work, t.Tells h)
    (quiet : ∀ i < k, (m.steps i).inHand = none) :
    m'.store.sinks = m.store.sinks ∧ m.store.Still m'.store ∧
      ∀ i < k, ∀ work, (m.steps i).agenda ≠ .giveUp s :: work := by
  have along := leads.along
    (P := fun work m' => (∀ t ∈ work, t.Tells h) ∧ m'.store.sinks = m.store.sinks ∧
      m.store.Still m'.store)
    stack ⟨tells, rfl, .refl _⟩ (by
      rintro i lt t work agenda ⟨tells, sinks, still⟩
      obtain ⟨sinks', still', left⟩ := Task.effect_aside (m.steps i).store (work ++ rest)
        (tells t List.mem_cons_self) (idle_of_inHand (quiet i lt) agenda)
      rw [steps_step, step_cons agenda]
      refine ⟨?_, sinks'.trans sinks, still.trans still'⟩
      exact List.forall_mem_append.2
        ⟨left, fun t member => tells t (List.mem_cons_of_mem _ member)⟩)
  obtain ⟨-, -, -, sinks, still⟩ := along k (Nat.le_refl k)
  rw [leads.1] at sinks still
  refine ⟨sinks, still, ?_⟩
  intro i lt others agenda
  obtain ⟨work, agenda', tells, -⟩ := along i (Nat.le_of_lt lt)
  obtain ⟨front, some_, busy⟩ := leads.2 i lt
  obtain rfl : work = front := List.append_cancel_right (agenda'.symm.trans busy)
  cases work with
  | nil => exact some_ rfl
  | cons t work =>
      obtain rfl : t = .giveUp s := by
        rw [agenda] at agenda'
        exact (List.cons.inj agenda').1.symm
      exact tells _ List.mem_cons_self

/-- Nothing is subscribed in a piece in which no step is performed. -/
theorem subscribed_of_quiet (quiet : ∀ i < k, (m.steps i).inHand = none) :
    ∀ i ≤ k, ∀ h, .subscribing s h ∈ (m.steps i).history → .subscribing s h ∈ m.history := by
  intro i
  induction i with
  | zero => exact fun _ h made => made
  | succ i ih =>
      intro le h made
      rw [steps_step, history_step] at made
      rcases List.mem_append.1 made with old | new
      · exact ih (Nat.le_of_succ_le le) h old
      · obtain ⟨slot, step, rest, turn, -⟩ := subscribes new
        exact absurd rfl (idle_of_inHand (quiet i le) turn slot step)

end Machine

/-! ## The result -/

/-- What a call on the sink `s` leaves as it was: the other sinks, their handles, the channels of
these, and all outlets but those of the handles of `s`. -/
structure Machine.Apart (s : SinkRef) (m m' : Machine α ε) : Prop where
  sinks : ∀ t, t ≠ s → m'.store.sinks[t]? = m.store.sinks[t]?
  handles : ∀ (g : HandleRef) (x : Handle α ε), m.store.handles[g]? = some x → x.sink ≠ s →
    m'.store.handles[g]? = some x ∧ Ledger.of g m'.history = Ledger.of g m.history
  channels : ∀ (g : HandleRef) (x : Handle α ε) (c : ChannelRef), m.store.handles[g]? = some x →
    x.sink ≠ s → x.consumer = .channel c → m'.store.channels[c]? = m.store.channels[c]?
  outlets : ∀ target y,
    (∀ h, .subscribing s h ∈ m'.history → m'.store.target? h ≠ some target) →
    m.store.outlet? target = some y → m'.store.outlet? target = some y

/-- What a call on the handle `h` leaves as it was: all other handles, all outlets but that of
`h`, and all slots. -/
structure Machine.ApartFrom (h : HandleRef) (m m' : Machine α ε) : Prop where
  handles : ∀ g, g ≠ h → m'.store.handles[g]? = m.store.handles[g]? ∧
    Ledger.of g m'.history = Ledger.of g m.history
  outlets : ∀ target, m.store.target? h ≠ some target →
    m'.store.outlet? target = m.store.outlet? target
  slots : m'.store.slots = m.store.slots

namespace Sound

variable {m m' : Machine α ε} {slot : Option Nat} {step : Step α ε} {rest : List (Task α ε)}
  {s : SinkRef} {k : Nat}

/-- A handle is subscribed to one sink. -/
theorem one_home (sound : Sound m) {g : HandleRef} {t : SinkRef}
    (made : .subscribing s g ∈ m.history) (made' : .subscribing t g ∈ m.history) : s = t :=
  Option.some.inj (((sound.made s g).1 made).symm.trans ((sound.made t g).1 made'))

/-- A handle that belongs to another sink before a step is not subscribed by the step. -/
theorem other_home (sound : Sound m) {g : HandleRef} {x : Handle α ε}
    (found : m.store.handles[g]? = some x) (made : .subscribing s g ∈ m.step.history) :
    x.sink = s :=
  sound.step.one_home (m.history_prefix_step.subset ((sound.subscribed_iff found).2 rfl)) made

/-- **The step itself stays within its sink.** -/
theorem perform_stays (sound : Sound m) (turn : m.agenda = .perform slot step :: rest)
    (site : m.store.site? slot step = some s) :
    (m.store.perform rest slot step).1.Stays (fun h => .subscribing s h ∈ m.step.history) s
      m.store := by
  have grown : ∀ {h}, .subscribing s h ∈ m.history → .subscribing s h ∈ m.step.history :=
    fun made => m.history_prefix_step.subset made
  refine Store.perform_stays site rest ?_ ?_ ?_ ?_
  · intro h reaches
    rw [Store.site_of_reaches reaches] at site
    exact grown ((sound.made s h).2 site)
  · intro h x made found
    exact sound.other_home found made
  · intro h waits
    obtain ⟨x, found, rfl⟩ := sound.coherent.enrolled s h waits
    exact grown ((sound.subscribed_iff found).2 rfl)
  · intro h made
    rw [Machine.step_cons turn, Machine.undergo_history]
    exact List.mem_append_right _ (List.mem_cons_of_mem _ made)

/-- **A call on a sink leaves all others alone**, if no other step is performed before it
returns. -/
theorem apart (sound : Sound m) (wired : m.Wired) (single : m'.Single)
    (turn : m.agenda = .perform slot step :: rest) (site : m.store.site? slot step = some s)
    (leads : Machine.Leads rest m m' (k + 1)) (alone : m.Alone (k + 1)) : m.Apart s m' := by
  have first := sound.perform_stays turn site
  obtain ⟨⟨e, closing⟩, performed⟩ : ∃ p, m.store.perform rest slot step = p := ⟨_, rfl⟩
  rw [performed] at first
  have stepped := Machine.step_perform turn performed
  have news : m.step.history = m.history ++ (.performed slot step :: e.events) := by
    simp [stepped, Machine.history]
  have stack : m.step.agenda = (e.tasks ++ [.answer slot step closing]) ++ rest := by
    simp [stepped]
  have quiet : ∀ i < k, (m.step.steps i).inHand = none := by
    intro i lt
    rw [← Machine.steps_succ]
    exact alone (i + 1) (Nat.succ_pos i) (Nat.succ_lt_succ lt)
  -- what follows stays within the handles that the sink has after the step
  obtain ⟨keeps, ledgers⟩ := leads.tail.2.stays stack
    (List.forall_mem_append.2 ⟨first.left, List.forall_mem_singleton.2 trivial⟩) quiet
    (fun i h x mine found => by
      have made := (Machine.history_prefix_steps m.step i).subset mine
      exact (((sound.step.steps i).subscribed_iff found).1 made).symm)
    (fun i lt _ _ h waits => by
      obtain ⟨x, found, rfl⟩ := (sound.step.steps i).coherent.enrolled s h waits
      exact Machine.subscribed_of_quiet quiet i (Nat.le_of_lt lt) h
        (((sound.step.steps i).subscribed_iff found).2 rfl))
  have store : m.step.store = e.store := by rw [stepped]
  rw [store] at keeps
  have whole := first.store.trans keeps
  have other : ∀ {g : HandleRef} {x : Handle α ε}, m.store.handles[g]? = some x → x.sink ≠ s →
      .subscribing s g ∉ m.step.history := fun found ne made => ne (sound.other_home found made)
  refine ⟨whole.sinks, ?_, ?_, ?_⟩
  · intro g x found ne
    refine ⟨whole.handles g x (other found ne) found, ?_⟩
    rw [ledgers g (other found ne), news]
    refine Ledger.of_append_of_others _ (List.forall_mem_cons.2 ⟨rfl, ?_⟩)
    exact fun event member => first.said event member g (other found ne)
  · intro g x c found ne channel
    -- the channel is with this handle alone
    have hears : m.store.target? g = some (.channel c) := by
      simp [Store.target?, found, channel, Consumer.target?]
    have unheard : ∀ h, .subscribing s h ∈ m.step.history → m'.store.target? h ≠ some (.channel c) := by
      intro h mine hears'
      have same := (Store.alone (single c) (whole.targets hears)).2 h hears'
      exact other found ne (same ▸ mine)
    have there : c < m.store.channels.length :=
      wired (.outlet (.channel c)) (.inl (.inr ⟨g, hears⟩))
    have at_ := whole.outlets (.channel c) (.inl m.store.channels[c]) unheard
      (by simp [Store.outlet?, there])
    simpa [Store.outlet?, there] using at_
  · intro target y unheard found
    refine whole.outlets target y (fun h mine => unheard h ?_) found
    rw [← leads.1, Machine.steps_succ]
    exact (Machine.history_prefix_steps m.step k).subset mine

/-- **A call on a handle leaves all other handles alone**, if no other step is performed before it
returns, and of its sink all but the registry. -/
theorem apart_from (sound : Sound m) {h : HandleRef}
    (turn : m.agenda = .perform slot step :: rest) (reaches : m.store.reaches? slot step = some h)
    (site : m.store.site? slot step = some s)
    (leads : Machine.Leads rest m m' (k + 1)) (alone : m.Alone (k + 1)) :
    m.ApartFrom h m' ∧
      m'.store.sinks = (m.store.perform rest slot step).1.store.sinks := by
  obtain ⟨e, performed, how⟩ := Store.perform_reaches reaches rest
  have home : .subscribing s h ∈ m.history := by
    rw [Store.site_of_reaches reaches] at site
    exact (sound.made s h).2 site
  obtain ⟨first, tells, still⟩ : e.Stays (· = h) s m.store ∧ (∀ t ∈ e.tasks, t.Tells h) ∧
      m.store.Still e.store := by
    rcases how with ⟨-, n, rfl⟩ | ⟨-, rfl⟩
    · have stays := @Effect.Stays.request _ _ (· = h) s m.store h rfl n
      exact ⟨stays, m.store.request_tells h n, .request m.store h n⟩
    · have stays := @Effect.Stays.cancel _ _ (· = h) s m.store h rfl fun x found =>
        ((sound.subscribed_iff found).1 home).symm
      exact ⟨stays, m.store.cancel_tells h, .cancel m.store h⟩
  have stepped := Machine.step_perform turn performed
  have news : m.step.history = m.history ++ (.performed slot step :: e.events) := by
    simp [stepped, Machine.history]
  have stack : m.step.agenda = (e.tasks ++ [.answer slot step (.reply .done)]) ++ rest := by
    simp [stepped]
  have tells' : ∀ t ∈ e.tasks ++ [.answer slot step (.reply .done)], t.Tells h :=
    List.forall_mem_append.2 ⟨tells, List.forall_mem_singleton.2 ⟨_, rfl⟩⟩
  have quiet : ∀ i < k, (m.step.steps i).inHand = none := by
    intro i lt
    rw [← Machine.steps_succ]
    exact alone (i + 1) (Nat.succ_pos i) (Nat.succ_lt_succ lt)
  obtain ⟨sinks, still', kept⟩ := leads.tail.2.aside (s := s) stack tells' quiet
  obtain ⟨keeps, ledgers⟩ := leads.tail.2.stays (s := s) stack
    (fun t member => (tells' t member).within s) quiet
    (fun i g x mine found => by
      subst mine
      have made := (Machine.history_prefix_steps m.step i).subset
        (m.history_prefix_step.subset home)
      exact (((sound.step.steps i).subscribed_iff found).1 made).symm)
    (fun i lt work agenda => absurd agenda (kept i lt work))
  have store : m.step.store = e.store := by rw [stepped]
  rw [store] at keeps still' sinks
  have whole := first.store.trans keeps
  have size := still.trans still'
  refine ⟨⟨?_, ?_, size.slots⟩, by rw [performed]; exact sinks⟩
  · intro g ne
    refine ⟨getElem?_eq_of_kept size.handles fun x found => whole.handles g x ne found, ?_⟩
    rw [ledgers g ne, news]
    refine Ledger.of_append_of_others _ (List.forall_mem_cons.2 ⟨rfl, ?_⟩)
    exact fun event member => first.said event member g ne
  · intro target other
    have unheard : ∀ g, g = h → m'.store.target? g ≠ some target := by
      rintro g rfl hears
      obtain ⟨x, found, -⟩ := Option.map_eq_some_iff.1 ((sound.made s g).1 home)
      obtain ⟨made, grown⟩ := whole.consumers
      rw [Store.target?_keep grown (List.getElem?_eq_some_iff.1 found).1] at hears
      exact other hears
    cases target with
    | channel c =>
        exact congrArg (Option.map Sum.inl) (getElem?_eq_of_kept size.channels fun y found => by
          simpa [Store.outlet?] using
            whole.outlets (.channel c) (.inl y) unheard (by simp [Store.outlet?, found]))
    | gate g =>
        exact congrArg (Option.map Sum.inr) (getElem?_eq_of_kept size.gates fun y found => by
          simpa [Store.outlet?] using
            whole.outlets (.gate g) (.inr y) unheard (by simp [Store.outlet?, found]))

end Sound

/-- **Sinks do not interfere.**

A call on a sink `s` subscribes to it, ends it, drops it, or asks on or cancels one of its handles;
it returns.  If no callback performs further steps until then, every other sink is the same
afterwards, with its registry, its outcome and its next number, and so is every handle of another
sink, with what its consumer has heard and what its channel holds; labels, numbers and outcomes
play no part in this.

A call on a handle `h` of `s` changes no other handle either, no outlet but that of `h`, and no
slot.  Of the sinks it leaves everything, but for a cancellation that finds `h` alive: that takes
`h` out of the registry of `s`, and leaves all others there in their order. -/
theorem sinks_do_not_interfere (script : List (Step α ε)) (n : Nat) {slot : Option Nat}
    {step : Step α ε} {rest : List (Task α ε)} {s : SinkRef}
    (turn : ((Machine.load script).steps n).agenda = .perform slot step :: rest)
    (site : ((Machine.load script).steps n).store.site? slot step = some s) :
    let m := (Machine.load script).steps n
    (∃ k m', Machine.Leads rest m m' k ∧ m'.agenda = rest) ∧
      ∀ k m', Machine.Leads rest m m' k → m'.agenda = rest → m.Alone k →
        m.Apart s m' ∧
          ∀ h, m.store.reaches? slot step = some h →
            m.ApartFrom h m' ∧
              (m.store.cancels? slot step = some h → m.store.alive h = true →
                m'.store.sinks = (m.store.modifySink s fun y =>
                  { y with registry := y.registry.erase h }).sinks ∧
                (m'.store.registry s).handles = (m.store.registry s).handles.filter (· != h)) ∧
              (m.store.cancels? slot step = none ∨ m.store.alive h = false →
                m'.store.sinks = m.store.sinks) := by
  intro m
  have sound : Sound m := Machine.steps_sound script n
  refine ⟨?_, ?_⟩
  · obtain ⟨j, back, busy⟩ := Machine.steps_return sound
      (show m.agenda = [.perform slot step] ++ rest from turn)
    exact ⟨j, m.steps j, ⟨rfl, busy⟩, back⟩
  · intro k m' leads back alone
    obtain ⟨k, rfl⟩ : ∃ j, k = j + 1 := by
      cases k with
      | succ j => exact ⟨j, rfl⟩
      | zero =>
          -- a call takes at least one step of the machine
          obtain rfl : m = m' := leads.1
          have longer := congrArg List.length (turn.symm.trans back)
          simp at longer
    have reached : m' = (Machine.load script).steps (n + (k + 1)) := by
      rw [Machine.steps_add, ← leads.1]
    refine ⟨sound.apart (Machine.steps_wired script n)
      (reached ▸ Machine.steps_single script (n + (k + 1))) turn site leads alone, ?_⟩
    intro h reaches
    obtain ⟨apart, sinks⟩ := sound.apart_from turn reaches site leads alone
    obtain ⟨x, found, rfl⟩ : ∃ x, m.store.handles[h]? = some x ∧ x.sink = s := by
      have home := site
      rwa [Store.site_of_reaches reaches, Option.map_eq_some_iff] at home
    obtain ⟨e, performed, how⟩ := Store.perform_reaches reaches rest
    rw [performed] at sinks
    refine ⟨apart, ?_, ?_⟩
    · intro cancels alive
      obtain ⟨none_, -⟩ | ⟨-, rfl⟩ := how
      · rw [cancels] at none_
        cases none_
      · rw [sound.cancel_sinks found alive] at sinks
        refine ⟨sinks, ?_⟩
        have erased : m'.store.registry x.sink = (m.store.registry x.sink).erase h := by
          obtain ⟨y, at_⟩ : ∃ y, m.store.sinks[x.sink]? = some y :=
            ⟨_, List.getElem?_eq_getElem (sound.coherent.housed h x found)⟩
          rw [Store.registry_of_sinks m.store at_, Store.registry, sinks, Store.modifySink_sinks,
            if_pos rfl, at_]
          rfl
        rw [erased, Registry.handles_erase]
        exact (sound.coherent.distinct x.sink).erase_eq_filter h
    · intro other
      obtain ⟨-, n, rfl⟩ | ⟨cancels, rfl⟩ := how
      · rw [sinks, Store.request_sinks]
      · have gone : x.released = true := by
          rcases other with none_ | gone
          · rw [cancels] at none_
            cases none_
          · simpa [Store.alive, found] using gone
        rw [sinks]
        simp [Store.cancel, found, gone, Effect.quiet]

/-- The subscription that a step asks, and for how much. -/
def Step.demand? : Step α ε → Option (SubName × UInt64)
  | .request sub amount => some (sub, amount)
  | _ => none

/-- Two sinks of one label end with the same value, and each has a handle with number one and that
value parked.  The one sink is gone when its handle is asked for the value. -/
theorem sinks_do_not_interfere_alike :
    let script : List (Step Nat Nat) :=
      [.newSink none, .newSink none, .subscribe 0 [] [] [] [], .subscribe 1 [] [] [] [],
        .succeed 0 (some 7), .succeed 1 (some 7), .dropSink 0, .request (.slot 0) 1]
    let m := (Machine.load script).steps 29
    let m' := m.steps 7
    m.agenda = [.perform none (.request (.slot 0) 1)] ∧
      m.store.site? none (.request (.slot 0) 1 : Step Nat Nat) = some 0 ∧
      m.store.sinks.map Sink.label = ["sink", "sink"] ∧
      m.store.handles.map Handle.id = [⟨1⟩, ⟨1⟩] ∧
      m.store.handles.map Handle.parked = [some (.value 7), some (.value 7)] ∧
      m.store.slots.sinks = [none, some 1] ∧
      heard 0 m'.history = [.subscribed, .next 7, .complete] ∧ heard 1 m'.history = [.subscribed] ∧
      m.Apart 0 m' ∧ m.ApartFrom 0 m' := by
  intro script m m'
  have turn : m.agenda = [.perform none (.request (.slot 0) 1)] := by
    have asks : (m.inHand.map fun turn => (turn.1, turn.2.demand?)) =
        some (none, some (.slot 0, 1)) := by decide +kernel
    have last : m.agenda.tail.isEmpty = true := by decide +kernel
    obtain ⟨⟨slot, step⟩, hand, request⟩ := Option.map_eq_some_iff.1 asks
    obtain ⟨rest, turn⟩ := Machine.inHand_eq_some.1 hand
    rw [turn] at last ⊢
    obtain rfl : rest = [] := List.isEmpty_iff.1 last
    cases step with
    | request sub amount =>
        obtain ⟨rfl, rfl, rfl⟩ : slot = none ∧ sub = .slot 0 ∧ amount = 1 := by
          simpa [Step.demand?] using request
        rfl
    | _ => simp [Step.demand?] at request
  have site : m.store.site? none (.request (.slot 0) 1 : Step Nat Nat) = some 0 := by decide +kernel
  have leads : Machine.Leads [] m m' 7 := by
    refine ⟨rfl, fun i lt => ⟨(m.steps i).agenda, ?_, (List.append_nil _).symm⟩⟩
    have busy : ∀ i < 7, (m.steps i).agenda.isEmpty = false := by decide +kernel
    intro none_
    simpa [none_] using busy i lt
  have back : m'.agenda = [] := List.isEmpty_iff.1 (by decide +kernel)
  have alone : m.Alone 7 := by
    have quiet : ∀ i < 7, 0 < i → (m.steps i).inHand.isNone := by decide +kernel
    exact fun i pos lt => Option.isNone_iff_eq_none.1 (quiet i lt pos)
  have reaches : m.store.reaches? none (.request (.slot 0) 1 : Step Nat Nat) = some 0 := by
    decide +kernel
  obtain ⟨apart, calls⟩ := (sinks_do_not_interfere script 29 turn site).2 7 m' leads back alone
  refine ⟨turn, site, ?_, ?_, ?_, ?_, ?_, ?_, apart, (calls 0 reaches).1⟩ <;> decide +kernel

end OneShot
