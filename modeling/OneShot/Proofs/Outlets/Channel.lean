/-
# OneShot.Proofs.Outlets.Channel -- a channel is a queue of three that loses nothing

What a step does to one channel is one of six things (`Passes`): nothing; it is made; a signal
is told to it, and kept behind the others, or discarded because three are pending or the
receiver is gone; signals are taken out in front; the receiver is dropped.

Over a run (`Pipe`): never more than three signals are pending; as long as none was found too
many, what was handed out and what is pending are all that the channel was told, in order; and
for one to be too many, there have to be four.  A handle makes three callbacks at most, so a
channel that is the consumer of one handle and is told nothing else never has too many.
-/
import OneShot.Proofs.Outlets.Wiring
import OneShot.Proofs.Grammar

namespace OneShot

set_option autoImplicit false

variable {α ε : Type}

/-! ## What a run says of a channel -/

/-- The signals that an event hands out to the receiver of a channel. -/
def Event.hands (c : ChannelRef) : Event α ε → List (Signal α ε)
  | received c' signals => if c' = c then signals else []
  | _ => []

/-- The notice that a signal to a channel was discarded. -/
def Event.discard? (c : ChannelRef) : Event α ε → Option Notice
  | noticed (.channelFull c') => if c' = c then some (.channelFull c) else none
  | noticed (.receiverGone c') => if c' = c then some (.receiverGone c) else none
  | _ => none

/-- All that was handed out to the receiver of a channel, in order. -/
def handed (c : ChannelRef) (events : List (Event α ε)) : List (Signal α ε) :=
  events.flatMap (Event.hands c)

def discards (c : ChannelRef) (events : List (Event α ε)) : List Notice :=
  events.filterMap (Event.discard? c)

/-- The callbacks of a handle that have begun, as signals. -/
def heard (h : HandleRef) (events : List (Event α ε)) : List (Signal α ε) :=
  events.filterMap fun
    | .began h' signal => if h' = h then some signal else none
    | _ => none

/-- The receiver of a channel exists. -/
def Store.receiving (st : Store α ε) (c : ChannelRef) : Bool :=
  (st.channels[c]?.map Channel.receiving).getD false

/-- What events tell a channel, hand out of it, and discard. -/
structure Traffic (α ε : Type) where
  told : List (Signal α ε)
  handed : List (Signal α ε)
  discarded : List Notice

instance : Append (Traffic α ε) :=
  ⟨fun t u => ⟨t.told ++ u.told, t.handed ++ u.handed, t.discarded ++ u.discarded⟩⟩

namespace Traffic

variable (t u : Traffic α ε)

@[simp] theorem told_append : (t ++ u).told = t.told ++ u.told := rfl

@[simp] theorem handed_append : (t ++ u).handed = t.handed ++ u.handed := rfl

@[simp] theorem discarded_append : (t ++ u).discarded = t.discarded ++ u.discarded := rfl

end Traffic

def Store.traffic (st : Store α ε) (c : ChannelRef) (events : List (Event α ε)) : Traffic α ε :=
  { told := st.told (.channel c) events, handed := handed c events,
    discarded := discards c events }

/-- What one step does to a channel. -/
inductive Passes (st st' : Store α ε) (c : ChannelRef) : Traffic α ε → Prop
  | still (queue : st'.queue c = st.queue c) (receiving : st'.receiving c = st.receiving c) :
      Passes st st' c ⟨[], [], []⟩
  | founded (fresh : ¬ st.Has (.outlet (.channel c))) (empty : st.queue c = [])
      (queue : st'.queue c = []) : Passes st st' c ⟨[], [], []⟩
  | kept {signal : Signal α ε} (on : st.receiving c = true)
      (room : (st.queue c).length < Channel.capacity) (queue : st'.queue c = st.queue c ++ [signal])
      (receiving : st'.receiving c = true) : Passes st st' c ⟨[signal], [], []⟩
  | full {signal : Signal α ε} (on : st.receiving c = true)
      (full : Channel.capacity ≤ (st.queue c).length) (queue : st'.queue c = st.queue c)
      (receiving : st'.receiving c = true) : Passes st st' c ⟨[signal], [], [.channelFull c]⟩
  | gone {signal : Signal α ε} (inside : st.Has (.outlet (.channel c)))
      (off : st.receiving c = false) (queue : st'.queue c = st.queue c)
      (receiving : st'.receiving c = false) : Passes st st' c ⟨[signal], [], [.receiverGone c]⟩
  | taken {signals : List (Signal α ε)} (queue : st.queue c = signals ++ st'.queue c)
      (receiving : st'.receiving c = st.receiving c) : Passes st st' c ⟨[], signals, []⟩
  | hungUp (queue : st'.queue c = []) (off : st'.receiving c = false) :
      Passes st st' c ⟨[], [], []⟩

namespace Store

variable {st st' : Store α ε} {c d : ChannelRef}

theorem modifyChannel_channels (st : Store α ε) (c d : ChannelRef)
    (f : Channel α ε → Channel α ε) :
    (st.modifyChannel c f).channels[d]? =
      if d = c then st.channels[d]?.map f else st.channels[d]? := by
  simp only [modifyChannel, List.getElem?_modify]
  by_cases same : d = c
  · simp [same]
  · simp [same, Ne.symm same]

/-- Of a channel, queue and receiver are looked at, and nothing else of the store. -/
theorem outside_of_channels (same : st'.channels[c]? = st.channels[c]?) :
    st'.queue c = st.queue c ∧ st'.receiving c = st.receiving c := by
  rw [queue, queue, receiving, receiving, same]
  exact ⟨rfl, rfl⟩

theorem traffic_append (st : Store α ε) (c : ChannelRef) (before after : List (Event α ε)) :
    st.traffic c (before ++ after) = st.traffic c before ++ st.traffic c after := by
  show _ = Traffic.mk _ _ _
  simp [traffic, told, handed, discards]

/-- Only what bears on outlets counts. -/
theorem traffic_posts (st : Store α ε) (c : ChannelRef) (events : List (Event α ε)) :
    st.traffic c (posts events) = st.traffic c events := by
  induction events with
  | nil => rfl
  | cons event events ih =>
      have split_ := st.traffic_append c [event] events
      rw [← ih] at split_
      show st.traffic c (posts ([event] ++ events)) = st.traffic c ([event] ++ events)
      rw [posts_append, split_, traffic_append]
      cases event with
      | noticed notice => cases notice <;> rfl
      | _ => rfl

end Store

/-! ## One step -/

theorem Passes.of_channels {st st' st'' : Store α ε} {c : ChannelRef} {traffic : Traffic α ε}
    (passes : Passes st st' c traffic) (same : st''.channels[c]? = st'.channels[c]?) :
    Passes st st'' c traffic := by
  obtain ⟨queue, receiving⟩ := Store.outside_of_channels same
  cases passes with
  | still queue' receiving' => exact .still (queue.trans queue') (receiving.trans receiving')
  | founded fresh empty queue' => exact .founded fresh empty (queue.trans queue')
  | kept on room queue' on' => exact .kept on room (queue.trans queue') (receiving.trans on')
  | full on full queue' on' => exact .full on full (queue.trans queue') (receiving.trans on')
  | gone inside off queue' off' =>
      exact .gone inside off (queue.trans queue') (receiving.trans off')
  | taken queue' receiving' =>
      rw [← queue] at queue'
      exact .taken queue' (receiving.trans receiving')
  | hungUp queue' off => exact .hungUp (queue.trans queue') (receiving.trans off)

namespace Store

variable {st : Store α ε} {c d : ChannelRef}

/-- A channel that exists keeps a signal, or discards it and says why. -/
theorem forward_passes (inside : st.Has (.outlet (.channel c))) (signal : Signal α ε) :
    Passes st (st.forward c signal).1 c ⟨[signal], [], discards c (st.forward c signal).2⟩ := by
  have queue : ∀ {y : Channel α ε}, st.channels[c]? = some y → st.queue c = y.queue :=
    fun found => by simp [Store.queue, found]
  have receiving : ∀ {y : Channel α ε}, st.channels[c]? = some y →
      st.receiving c = y.receiving := fun found => by simp [Store.receiving, found]
  have sends := st.forward_sends c signal
  generalize st.forward c signal = left at sends ⊢
  cases sends with
  | missed none_ => exact absurd inside (Nat.not_lt.2 (List.getElem?_eq_none_iff.1 none_))
  | gone found off =>
      have passes : Passes st st c ⟨[signal], [], [.receiverGone c]⟩ :=
        .gone inside ((receiving found).trans off) rfl ((receiving found).trans off)
      simpa [discards, Event.discard?] using passes
  | full found on full =>
      have passes : Passes st st c ⟨[signal], [], [.channelFull c]⟩ :=
        .full ((receiving found).trans on) (queue found ▸ full) rfl ((receiving found).trans on)
      simpa [discards, Event.discard?] using passes
  | kept found on room =>
      refine .kept ((receiving found).trans on) (queue found ▸ room) ?_ ?_
      · simp [Store.queue, modifyChannel_channels, found]
      · simp [Store.receiving, modifyChannel_channels, found, on]

/-- What is told to one channel is nothing to another. -/
theorem forward_other (ne : d ≠ c) (signal : Signal α ε) :
    (st.forward d signal).1.channels[c]? = st.channels[c]? ∧
      st.traffic c (st.forward d signal).2 = ⟨[], [], []⟩ := by
  have sends := st.forward_sends d signal
  generalize st.forward d signal = left at sends ⊢
  cases sends with
  | missed => exact ⟨rfl, rfl⟩
  | gone | full =>
      refine ⟨rfl, ?_⟩
      simp [traffic, told, tells?, handed, Event.hands, discards, Event.discard?, ne]
  | kept =>
      refine ⟨?_, rfl⟩
      rw [modifyChannel_channels, if_neg (Ne.symm ne)]

/-- Of itself, a channel only says what it discards. -/
theorem forward_traffic (signal : Signal α ε) :
    st.traffic c (st.forward d signal).2 = ⟨[], [], discards c (st.forward d signal).2⟩ := by
  have sends := st.forward_sends d signal
  generalize st.forward d signal = left at sends ⊢
  cases sends <;> rfl

/-- A signal that is told comes first. -/
theorem traffic_told {target : DirectTarget} {signal : Signal α ε} {first : Event α ε}
    (how : (first = .direct target signal ∧ st.Slotted target) ∨
      ∃ h, first = .began h signal ∧ st.target? h = some target) (events : List (Event α ε)) :
    st.traffic c (first :: events) =
      ⟨if target = .channel c then [signal] else [], [], []⟩ ++ st.traffic c events := by
  rw [← List.singleton_append, traffic_append]
  congr 1
  rcases how with ⟨rfl, -⟩ | ⟨h, rfl, hears⟩
  · by_cases own : target = .channel c <;>
      simp [traffic, told, tells?, handed, Event.hands, discards, Event.discard?, own]
  · by_cases own : target = .channel c <;>
      simp [traffic, told, tells?, handed, Event.hands, discards, Event.discard?, hears, own]

theorem close_traffic (g : GateRef) :
    (st.close g).1.channels = st.channels ∧ st.traffic c (st.close g).2 = ⟨[], [], []⟩ := by
  unfold close
  split <;> exact ⟨rfl, rfl⟩

/-- What is told to one outlet is nothing to another. -/
theorem tell_other (st : Store α ε) {target : DirectTarget} (ne : target ≠ .channel c)
    (signal : Signal α ε) :
    (st.tell target signal).1.channels[c]? = st.channels[c]? ∧
      st.traffic c (st.tell target signal).2 = ⟨[], [], []⟩ := by
  cases target with
  | channel d => exact forward_other (by simpa using ne) signal
  | gate g =>
      obtain ⟨channels, silent⟩ := st.close_traffic (c := c) g
      have shut := congrArg (fun cells : List (Channel α ε) => cells[c]?) channels
      cases signal <;> first | exact ⟨rfl, rfl⟩ | exact ⟨shut, silent⟩

/-- Signals that are handed out leave the queue of their channel, from the front. -/
theorem taking_passes {signals rest : List (Signal α ε)} (queue : st.queue c = signals ++ rest) :
    Passes st (st.modifyChannel c fun x => { x with queue := rest }) c ⟨[], signals, []⟩ := by
  refine .taken ?_ ?_
  · rw [queue]
    cases found : st.channels[c]? with
    | none =>
        have nothing : st.queue c = [] := by simp [Store.queue, found]
        simp_all [Store.queue, modifyChannel_channels]
    | some x => simp [Store.queue, modifyChannel_channels, found]
  · cases found : st.channels[c]? <;> simp [receiving, modifyChannel_channels, found]

theorem hangingUp_passes :
    Passes st (st.modifyChannel c fun x => { x with queue := [], receiving := false }) c
      ⟨[], [], []⟩ := by
  refine .hungUp ?_ ?_
  · cases found : st.channels[c]? <;> simp [Store.queue, modifyChannel_channels, found]
  · cases found : st.channels[c]? <;> simp [receiving, modifyChannel_channels, found]

/-- What is handed out is all that it says of its channel, and nothing to others. -/
theorem traffic_received (signals : List (Signal α ε)) :
    st.traffic c [.received d signals] = ⟨[], if d = c then signals else [], []⟩ := by
  by_cases own : d = c <;>
    simp [traffic, told, tells?, handed, Event.hands, discards, Event.discard?, own]

end Store

/-- **What a task does to a channel**, if channels that are referred to exist. -/
theorem Errand.passes {st : Store α ε} {e : Effect α ε} (errand : Errand st e) (c : ChannelRef)
    (wired : ∀ r, st.Cites r → st.Has r) : Passes st e.store c (st.traffic c e.events) := by
  -- a step that says nothing to any channel, and leaves this one alone
  have still : ∀ {events : List (Event α ε)}, st.traffic c events = ⟨[], [], []⟩ →
      e.store.channels[c]? = st.channels[c]? → Passes st e.store c (st.traffic c events) := by
    intro events silent same
    obtain ⟨queue, receiving⟩ := Store.outside_of_channels same
    rw [silent]
    exact .still queue receiving
  rw [← Store.traffic_posts]
  cases errand with
  | idle channels _ said | opening channels _ said =>
      rw [said]
      exact still rfl (by rw [channels])
  | founding initial channels _ said =>
      rw [said]
      by_cases own : c = st.channels.length
      · refine .founded ?_ ?_ ?_
        · exact Nat.not_lt.2 (Nat.le_of_eq own.symm)
        · simp [Store.queue, own]
        · simp [Store.queue, channels, own]
      · refine still rfl ?_
        rw [channels]
        by_cases inside : c < st.channels.length
        · exact List.getElem?_append_left inside
        · have beyond : st.channels.length + 1 ≤ c :=
            Nat.lt_of_le_of_ne (Nat.le_of_not_lt inside) (Ne.symm own)
          rw [List.getElem?_eq_none (by simpa using beyond),
            List.getElem?_eq_none (Nat.le_of_not_lt inside)]
  | @speaking h signal _ other channels _ said =>
      rw [said]
      refine still ?_ (by rw [channels])
      simp [Store.traffic, Store.told, Store.tells?, other, handed, Event.hands, discards,
        Event.discard?]
  | @telling target signal first how channels _ said =>
      rw [said]
      have cited : st.Cites (.outlet target) := by
        rcases how with ⟨-, slotted⟩ | ⟨h, -, hears⟩
        · exact .inl slotted
        · exact .inr ⟨h, hears⟩
      have cell := congrArg (fun cells : List (Channel α ε) => cells[c]?) channels
      by_cases own : target = .channel c
      · subst own
        have passes := Store.forward_passes (wired _ cited) signal
        rw [Store.traffic_told how, if_pos rfl]
        show Passes st e.store c (_ ++ st.traffic c (st.forward c signal).2)
        rw [Store.forward_traffic]
        exact passes.of_channels cell
      · obtain ⟨same, silent⟩ := st.tell_other own signal
        refine still ?_ (cell.trans same)
        rw [Store.traffic_told how, silent, if_neg own]
        rfl
  | @handing d signals rest queue channels _ said =>
      rw [said]
      have cell := congrArg (fun cells : List (Channel α ε) => cells[c]?) channels
      by_cases own : d = c
      · subst own
        rw [Store.traffic_received, if_pos rfl]
        exact (Store.taking_passes queue).of_channels cell
      · refine still ?_ (cell.trans ?_)
        · rw [Store.traffic_received, if_neg own]
        · rw [Store.modifyChannel_channels, if_neg (Ne.symm own)]
  | @hangingUp d channels _ said =>
      rw [said]
      have cell := congrArg (fun cells : List (Channel α ε) => cells[c]?) channels
      by_cases own : d = c
      · subst own
        exact Store.hangingUp_passes.of_channels cell
      · refine still rfl (cell.trans ?_)
        rw [Store.modifyChannel_channels, if_neg (Ne.symm own)]

/-! ## A run -/

/-- How a channel is, after all that was said of it. -/
structure Pipe (st : Store α ε) (c : ChannelRef) (total : Traffic α ε) : Prop where
  short : (st.queue c).length ≤ Channel.capacity
  unfounded : ¬ st.Has (.outlet (.channel c)) → total.told = [] ∧ total.handed = []
  whole : st.receiving c = true → .channelFull c ∉ total.discarded →
    total.handed ++ st.queue c = total.told
  crowded : .channelFull c ∈ total.discarded → Channel.capacity < total.told.length

theorem Store.has_of_receiving {st : Store α ε} {c : ChannelRef} (on : st.receiving c = true) :
    st.Has (.outlet (.channel c)) := by
  apply Nat.lt_of_not_le
  intro beyond
  simp [Store.receiving, List.getElem?_eq_none beyond] at on

theorem mem_discards {c : ChannelRef} {events : List (Event α ε)} :
    .channelFull c ∈ discards c events ↔ .noticed (.channelFull c) ∈ events := by
  simp only [discards, List.mem_filterMap]
  constructor
  · rintro ⟨event, member, discard⟩
    cases event with
    | noticed notice => cases notice <;> simp_all [Event.discard?]
    | _ => cases discard
  · intro member
    exact ⟨_, member, by simp [Event.discard?]⟩

/-- **What a channel goes through keeps it a pipe.** -/
theorem Pipe.passes {st st' : Store α ε} {c : ChannelRef} {total traffic : Traffic α ε}
    (pipe : Pipe st c total) (passes : Passes st st' c traffic)
    (later : st.Has (.outlet (.channel c)) → st'.Has (.outlet (.channel c))) :
    Pipe st' c (total ++ traffic) := by
  cases passes with
  | still queue receiving =>
      refine ⟨by rw [queue]; exact pipe.short, ?_, ?_, ?_⟩
      · intro absent
        simpa using pipe.unfounded (mt later absent)
      · intro on none_
        rw [receiving] at on
        simpa [queue] using pipe.whole on (by simpa using none_)
      · intro full
        simpa using pipe.crowded (by simpa using full)
  | founded fresh empty queue =>
      obtain ⟨untold, unhanded⟩ := pipe.unfounded fresh
      refine ⟨by simp [queue], ?_, ?_, ?_⟩
      · intro _
        simp [untold, unhanded]
      · intro _ _
        simp [untold, unhanded, queue]
      · intro full
        simpa using pipe.crowded (by simpa using full)
  | kept on room queue receiving =>
      refine ⟨?_, ?_, ?_, ?_⟩
      · rw [queue, List.length_append]
        exact room
      · intro absent
        exact absurd (later (Store.has_of_receiving on)) absent
      · intro _ none_
        rw [queue, ← List.append_assoc]
        simp [← pipe.whole on (by simpa using none_)]
      · intro full
        have before := pipe.crowded (by simpa using full)
        simp only [Traffic.told_append, List.length_append]
        omega
  | full on full queue receiving =>
      refine ⟨by rw [queue]; exact pipe.short, ?_, ?_, ?_⟩
      · intro absent
        exact absurd (later (Store.has_of_receiving on)) absent
      · intro _ none_
        simp at none_
      · -- the first that is too many comes when three are pending and all were kept
        intro _
        simp only [Traffic.told_append, List.length_append, List.length_singleton]
        by_cases before : .channelFull c ∈ total.discarded
        · have more := pipe.crowded before
          omega
        · rw [← pipe.whole on before, List.length_append]
          omega
  | gone inside off queue receiving =>
      refine ⟨by rw [queue]; exact pipe.short, ?_, ?_, ?_⟩
      · intro absent
        exact absurd (later inside) absent
      · intro on
        rw [receiving] at on
        cases on
      · intro full
        have before := pipe.crowded (by simpa using full)
        simp only [Traffic.told_append, List.length_append]
        omega
  | taken queue receiving =>
      have shorter := congrArg List.length queue
      rw [List.length_append] at shorter
      have short := pipe.short
      refine ⟨by omega, ?_, ?_, ?_⟩
      · intro absent
        obtain ⟨untold, unhanded⟩ := pipe.unfounded (mt later absent)
        have empty : st.queue c = [] := by
          have beyond : st.channels.length ≤ c := Nat.le_of_not_lt (mt later absent)
          simp [Store.queue, List.getElem?_eq_none beyond]
        rw [empty] at queue
        obtain ⟨none_, -⟩ := List.append_eq_nil_iff.1 queue.symm
        simp [untold, unhanded, none_]
      · intro on none_
        rw [receiving] at on
        have before := pipe.whole on (by simpa using none_)
        rw [queue, ← List.append_assoc] at before
        simpa using before
      · intro full
        simpa using pipe.crowded (by simpa using full)
  | hungUp queue off =>
      refine ⟨by simp [queue], ?_, ?_, ?_⟩
      · intro absent
        simpa using pipe.unfounded (mt later absent)
      · intro on
        rw [off] at on
        cases on
      · intro full
        simpa using pipe.crowded (by simpa using full)

namespace Machine

/-- **What one step does to a channel.** -/
theorem Wired.passes {m : Machine α ε} (wired : m.Wired) (c : ChannelRef) :
    Passes m.store m.step.store c (m.store.traffic c m.news) :=
  m.step_errand.passes c fun r cites => wired r (.inl cites)

theorem traffic_step {m : Machine α ε} (sound : Sound m) (c : ChannelRef) :
    m.step.store.traffic c m.step.history =
      m.store.traffic c m.history ++ m.store.traffic c m.news := by
  have told := sound.told_step (.channel c)
  show Traffic.mk _ _ _ = Traffic.mk _ _ _
  rw [told, history_step]
  simp [handed, discards, Store.traffic]

theorem pipe_steps (script : List (Step α ε)) (n : Nat) (c : ChannelRef) :
    let m := (load script).steps n
    Pipe m.store c (m.store.traffic c m.history) := by
  have start : Pipe (load script).store c ⟨[], [], []⟩ := by
    refine ⟨Nat.zero_le _, fun _ => ⟨rfl, rfl⟩, fun _ _ => rfl, ?_⟩
    intro full
    cases full
  have kept := steps_keep
    (P := fun m => Sound m ∧ m.Wired ∧ Pipe m.store c (m.store.traffic c m.history))
    (fun m ⟨sound, wired, pipe⟩ => ⟨sound.step, wired.step,
      traffic_step sound c ▸ pipe.passes (wired.passes c) step_has⟩)
    ⟨Sound.load script, .load script, start⟩ n
  exact kept.2.2

end Machine

/-! ## What receivers are answered -/

/-- What the step in hand is answered with, if it takes signals from this channel. -/
def Machine.draws (m : Machine α ε) (c : ChannelRef) : List (Signal α ε) :=
  match m.agenda with
  | .perform within step :: rest =>
      if (step.receiver?.bind m.store.receiver?).map Receiver.channel = some c then
        (m.store.perform rest within step).2.handsOver
      else []
  | _ => []

theorem handed_posts (c : ChannelRef) (events : List (Event α ε)) :
    handed c (posts events) = handed c events :=
  congrArg Traffic.handed (Store.traffic_posts (.empty : Store α ε) c events)

namespace Store

variable (st : Store α ε) (c : ChannelRef)

theorem tell_handed (target : DirectTarget) (signal : Signal α ε) :
    handed c (st.tell target signal).2 = [] := by
  cases target with
  | channel d => exact congrArg Traffic.handed (st.forward_traffic (c := c) (d := d) signal)
  | gate g =>
      have silent := congrArg Traffic.handed (st.close_traffic (c := c) g).2
      cases signal <;> first | rfl | exact silent

/-- A callback that a step makes hands nothing out. -/
theorem direct_handed (target : DirectTarget) (h : HandleRef) (signal : Signal α ε) :
    handed c (.direct target signal :: (st.react target.consumer h signal).events) = [] := by
  show handed c (st.react target.consumer h signal).events = []
  rw [← handed_posts, (st.react_tell target h signal).2.2, tell_handed]

/-- **What a step hands out is what it is answered with.** -/
theorem perform_handed (agenda : List (Task α ε)) (within : Option Nat) (step : Step α ε) :
    handed c (st.perform agenda within step).1.events =
      if (step.receiver?.bind st.receiver?).map Receiver.channel = some c then
        (st.perform agenda within step).2.handsOver
      else [] := by
  have leaves : ∀ {e : Effect α ε}, st.Leaves e → handed c e.events = [] := by
    intro e leaves
    rw [← handed_posts, leaves.said]
    rfl
  have none_ : ∀ {performed : Effect α ε × Closing α ε}, handed c performed.1.events = [] →
      performed.2.handsOver = [] → handed c performed.1.events =
        if (step.receiver?.bind st.receiver?).map Receiver.channel = some c then
          performed.2.handsOver
        else [] := by
    intro performed silent mute
    rw [silent, mute, ite_self]
  have performs := st.perform_performs agenda within step
  generalize st.perform agenda within step = performed at performs ⊢
  cases performs with
  | still _ mute | reslotting _ mute => exact none_ rfl mute
  | founding | foundingStandard | sprouting | opening | openingGate | hangingUp =>
      exact none_ rfl rfl
  | subscribing found readies => exact none_ rfl (by cases readies <;> rfl)
  | @ending step k s o => exact none_ (leaves (st.terminate_leaves s o)) rfl
  | requesting found n => exact none_ (leaves (st.request_leaves _ n)) rfl
  | cancelling | cancellingAttached => exact none_ (leaves (st.cancel_leaves _)) rfl
  | @signalling k d found call h signal =>
      exact none_ (st.direct_handed c (.channel d) h signal) rfl
  | @signallingGate k g found call h signal =>
      exact none_ (st.direct_handed c (.gate g) h signal) rfl
  | @taking step k x rest r receives found queue =>
      rw [receives, Option.bind_some, found, Option.map_some]
      by_cases own : x.channel = c <;> simp [handed, Event.hands, Closing.handsOver, own]

end Store

/-- A step of a machine hands out what the step in hand is answered with. -/
theorem Machine.handed_news (m : Machine α ε) (c : ChannelRef) : handed c m.news = m.draws c := by
  have mute : ∀ {events : List (Event α ε)}, posts events = [] → handed c events = [] := by
    intro events said
    rw [← handed_posts, said]
    rfl
  unfold draws
  cases turn : m.agenda with
  | nil => rw [news_nil turn]; rfl
  | cons t rest =>
      rw [news_cons turn]
      cases t with
      | perform within step => exact m.store.perform_handed c rest within step
      | answer within step closing => rfl
      | notify h signal =>
          cases found : m.store.handles[h]? with
          | none =>
              have nothing : m.store.notify h signal = .quiet m.store := by
                simp [Store.notify, found]
              rw [Task.effect, nothing]
              rfl
          | some x =>
              rw [Task.effect, Store.notify_eq found]
              show handed c (m.store.react x.consumer h signal).events = []
              rw [← handed_posts]
              cases outlet : x.consumer.target? with
              | none =>
                  rw [(m.store.react_leaves outlet h signal).said]
                  rfl
              | some target =>
                  rw [Consumer.target?_eq_some.1 outlet, (m.store.react_tell target h signal).2.2]
                  exact m.store.tell_handed c target signal
      | finish h signal => exact mute (m.store.finish_leaves h signal).said
      | deliver h o => exact mute (m.store.deliver_leaves h o).said
      | letGo hs => exact mute (m.store.letGo_forgets rest hs).posts
      | giveUp s => exact mute (m.store.giveUp_forgets rest s).posts
      | hangUp d => rfl

/-! ## One consumer -/

theorem heard_inTurn (h : HandleRef) (signals : List (Signal α ε)) :
    heard h (inTurn h signals) = signals := by
  induction signals with
  | nil => rfl
  | cons signal signals ih =>
      show heard h ([.began h signal, .ended h signal] ++ inTurn h signals) = _
      rw [heard, List.filterMap_append, ← heard, ← heard, ih]
      simp [heard]

theorem heard_callbacks (h : HandleRef) (events : List (Event α ε)) :
    heard h (callbacks h events) = heard h events := by
  rw [heard, callbacks, List.filterMap_filter]
  apply List.filterMap_congr
  intro event _
  cases event with
  | began h' signal => by_cases own : h' = h <;> simp [Event.isCallback, own]
  | _ => simp

namespace Sound

variable {m : Machine α ε}

/-- A handle makes three callbacks at most. -/
theorem heard_le (sound : Sound m) (h : HandleRef) : (heard h m.history).length ≤ 3 := by
  have signals_le : ∀ o : Outcome α ε, o.signals.length ≤ 3 := by
    intro o
    cases o <;> simp [Outcome.signals]
  have bound : ∀ {signals : List (Signal α ε)}, callbacks h m.history <+: inTurn h signals →
      (heard h m.history).length ≤ signals.length := by
    intro signals told
    have first : heard h (callbacks h m.history) <+: heard h (inTurn h signals) := told.filterMap _
    rw [heard_callbacks, heard_inTurn] at first
    exact first.length_le
  cases found : m.store.handles[h]? with
  | none =>
      have none_ : callbacks h m.history = [] :=
        congrArg Ledger.callbacks (sound.unborn h found).2
      rw [← heard_callbacks, none_]
      exact Nat.zero_le _
  | some x =>
      have course := (sound.standing h x (by simp) found).course
      cases place : (m.store.registry x.sink).place h with
      | closed o => exact Nat.le_trans (bound (course.heard_closed place)) (signals_le o)
      | apart | waiting =>
          refine Nat.le_trans (bound (course.heard_early ?_)) (by simp)
          intro o closed
          rw [place] at closed
          cases closed

end Sound

/-- What a channel is told that is the consumer of one handle. -/
theorem Store.told_of_one {st : Store α ε} {h : HandleRef} {target : DirectTarget}
    {events : List (Event α ε)} (one : ∀ h', st.target? h' = some target ↔ h' = h)
    (indirect : ∀ signal, .direct target signal ∉ events) :
    st.told target events = heard h events := by
  apply List.filterMap_congr
  intro event member
  cases event with
  | began h' signal => simp [tells?, one h']
  | direct target' signal =>
      have other : target' ≠ target := by
        rintro rfl
        exact indirect signal member
      simp [tells?, other]
  | _ => rfl

/-! ## The result -/

/-- **A channel is a queue of three, and loses nothing that one consumer hears.**

At every moment of every run, three signals are pending at most.  A step that tells the channel
a signal appends it, if the receiver exists and fewer than three are pending; otherwise it
changes nothing and discards the signal, with the one notice that says why.  Any other step
discards nothing; as long as the receiver stays, it takes away from the front what it hands
out.  What is handed out is what the four steps that receive are answered with, and no other
step hands out anything.

If the channel is the consumer of one handle, and no step makes a callback on it, then no
signal is ever found too many; and as long as the receiver exists, what was handed out, and
behind it what is pending, are the callbacks of that consumer, all of them, once each and in
order. -/
theorem channel_loses_nothing (script : List (Step α ε)) (n : Nat) (c : ChannelRef) :
    let m := (Machine.load script).steps n
    let told := m.store.told (.channel c) m.news
    (m.store.queue c).length ≤ 3 ∧
      ((told = [] ∧ discards c m.news = [] ∧
          (m.step.store.receiving c = true →
            m.store.queue c = handed c m.news ++ m.step.store.queue c)) ∨
        ∃ signal, told = [signal] ∧ handed c m.news = [] ∧
          if m.store.receiving c = true ∧ (m.store.queue c).length < 3 then
            m.step.store.queue c = m.store.queue c ++ [signal] ∧ discards c m.news = []
          else
            m.step.store.queue c = m.store.queue c ∧ discards c m.news =
              [if m.store.receiving c = true then .channelFull c else .receiverGone c]) ∧
      handed c m.news = m.draws c ∧
      ∀ h, (∀ h', m.store.target? h' = some (.channel c) ↔ h' = h) →
        (∀ signal, .direct (.channel c) signal ∉ m.history) →
        .noticed (.channelFull c) ∉ m.history ∧
          (m.store.receiving c = true →
            handed c m.history ++ m.store.queue c = heard h m.history) := by
  intro m told
  have sound : Sound m := Machine.steps_sound script n
  have pipe : Pipe m.store c (m.store.traffic c m.history) := Machine.pipe_steps script n c
  refine ⟨pipe.short, ?_, m.handed_news c, ?_⟩
  · have passes := (Machine.steps_wired script n : m.Wired).passes c
    generalize traffic : m.store.traffic c m.news = t at passes
    cases passes with
    | still queue =>
        obtain ⟨said, out, gone⟩ := Traffic.mk.inj traffic
        exact .inl ⟨said, gone, fun _ => by rw [out, queue]; rfl⟩
    | founded _ empty queue =>
        obtain ⟨said, out, gone⟩ := Traffic.mk.inj traffic
        exact .inl ⟨said, gone, fun _ => by rw [out, queue, empty]; rfl⟩
    | @kept signal on room queue =>
        obtain ⟨said, out, gone⟩ := Traffic.mk.inj traffic
        refine .inr ⟨signal, said, out, ?_⟩
        rw [if_pos ⟨on, room⟩]
        exact ⟨queue, gone⟩
    | @full signal on full queue =>
        obtain ⟨said, out, gone⟩ := Traffic.mk.inj traffic
        refine .inr ⟨signal, said, out, ?_⟩
        rw [if_neg fun room => Nat.not_lt.2 full room.2, if_pos on]
        exact ⟨queue, gone⟩
    | @gone signal _ off queue =>
        obtain ⟨said, out, gone⟩ := Traffic.mk.inj traffic
        refine .inr ⟨signal, said, out, ?_⟩
        rw [off]
        exact ⟨queue, gone⟩
    | taken queue =>
        obtain ⟨said, out, gone⟩ := Traffic.mk.inj traffic
        exact .inl ⟨said, gone, fun _ => by rw [out]; exact queue⟩
    | hungUp _ off =>
        obtain ⟨said, out, gone⟩ := Traffic.mk.inj traffic
        refine .inl ⟨said, gone, fun on => ?_⟩
        rw [off] at on
        cases on
  · intro h one indirect
    have all : m.store.told (.channel c) m.history = heard h m.history :=
      Store.told_of_one one indirect
    have roomy : .channelFull c ∉ discards c m.history := by
      intro full
      have crowded := pipe.crowded full
      have few := sound.heard_le h
      rw [← all] at few
      exact Nat.not_lt.2 few crowded
    refine ⟨mt mem_discards.2 roomy, ?_⟩
    intro on
    rw [← all]
    exact pipe.whole on roomy

/-- A consumer takes signals out of a channel while the outcome is being delivered to it. -/
theorem channel_loses_nothing_within :
    let script : List (Step Nat Nat) :=
      [.newSink none, .subscribe 0 [.request .own 1] [.drain 0] [] [], .subscribeChannel 0 none,
        .succeed 0 (some 7), .recv 0]
    let m := (Machine.load script).steps 40
    (∀ h, m.store.target? h = some (.channel 0) ↔ h = 1) ∧
      (∀ signal, .direct (.channel 0) signal ∉ m.history) ∧
      .noticed (.channelFull 0) ∉ m.history ∧ m.store.receiving 0 = true ∧
      handed 0 m.history = [.subscribed, .next 7] ∧ m.store.queue 0 = [.complete] ∧
      handed 0 m.history ++ m.store.queue 0 = heard 1 m.history := by
  intro script m
  have outlets : m.store.consumers.map Consumer.target? = [none, some (.channel 0)] := by
    decide +kernel
  have one : ∀ h, m.store.target? h = some (.channel 0) ↔ h = 1 := by
    intro h
    rw [Store.target?_of_map outlets]
    rcases h with _ | _ | h <;> simp
  have indirect : ∀ signal, .direct (.channel 0) signal ∉ m.history := by
    intro signal direct
    have none_ : directs m.history = [] := by decide +kernel
    rw [← mem_directs, none_] at direct
    cases direct
  have on : m.store.receiving 0 = true := by decide +kernel
  obtain ⟨roomy, whole⟩ := (channel_loses_nothing script 40 0).2.2.2 1 one indirect
  exact ⟨one, indirect, roomy, on, by decide +kernel, by decide +kernel, whole on⟩

end OneShot
