/-
# OneShot.Proofs.Outlets.Receiver -- what a receiver is told when nothing is left to take

A receiver takes what is in the queue of its channel.  When the queue is empty it is told
whether anybody can still send.

The sending end of a channel is in at most one place: in a slot, or with the handle whose
consumer it is (`Machine.steps_single`).  No call takes it out of a handle, and only what is made
anew brings an end of its own (`Store.Hands`).  So the channel that `subscribeChannel` makes is
sent on by its handle alone, and between calls that handle goes exactly when there is nothing
more to hear (`Sound.deserted_iff`).
-/
import Mathlib.Data.List.Count
import OneShot.Proofs.Order
import OneShot.Proofs.Release
import OneShot.Proofs.Outlets.Wiring

namespace OneShot

set_option autoImplicit false

variable {α ε : Type}

/-! ## Where a sending end is -/

namespace Store

/-- The places where the sending end of a channel is: slots and consumers. -/
def places (st : Store α ε) (c : ChannelRef) : Nat :=
  st.slots.channels.count (some c) + st.consumers.countP (Consumer.sendsTo c)

/-- Sending ends are handed on at most; a channel that is new may bring one. -/
def Hands (st st' : Store α ε) : Prop :=
  ∀ c, st'.places c ≤ st.places c + if c < st.channels.length then 0 else 1

section Hands

variable {st st' : Store α ε}

theorem Hands.keep (channels : st'.slots.channels = st.slots.channels)
    (consumers : st'.consumers = st.consumers) : st.Hands st' := by
  intro c
  rw [places, channels, consumers]
  exact Nat.le_add_right _ _

theorem Rests.hands {e : Effect α ε} (rests : st.Rests e) : st.Hands e.store :=
  .keep (by rw [rests.slots]) rests.consumers

theorem subscribe_places (st : Store α ε) (s : SinkRef) (consumer : Consumer α ε)
    (c : ChannelRef) :
    (st.subscribe s consumer).2.store.places c =
      st.places c + (consumer.sendsTo c).toNat := by
  have slots : (st.subscribe s consumer).2.store.slots = st.slots := rfl
  rw [places, places, subscribe_consumers, slots, List.countP_append, Nat.add_assoc]
  cases sends : consumer.sendsTo c <;> simp [sends]

/-- Whoever is subscribed and is no channel brings no sending end. -/
theorem Hands.subscribe (channels : st'.slots.channels = st.slots.channels)
    (consumers : st'.consumers = st.consumers) (s : SinkRef) {consumer : Consumer α ε}
    (mute : ∀ c, consumer.sendsTo c = false) : st.Hands (st'.subscribe s consumer).2.store := by
  intro c
  rw [subscribe_places, mute, places, channels, consumers]
  exact Nat.le_add_right _ _

/-- What is taken out of a slot was in it. -/
theorem count_set_none {slots : List (Option ChannelRef)} {k : Nat} {c : ChannelRef}
    (found : slot? slots k = some c) (d : ChannelRef) :
    (slots.set k none).count (some d) + (d == c).toNat = slots.count (some d) := by
  obtain ⟨inside, at_⟩ := List.getElem?_eq_some_iff.1 (Option.join_eq_some_iff.1 found)
  have member : some c ∈ slots := at_ ▸ List.getElem_mem inside
  rw [List.count_set inside, at_]
  by_cases same : d = c
  · subst same
    have some_ : 0 < slots.count (some d) := List.count_pos_iff.2 member
    simp
    omega
  · simp [same, Ne.symm same]

theorem dropChannel_places {k : Nat} {c : ChannelRef} (found : st.channel? k = some c)
    (d : ChannelRef) :
    (st.modifySlots fun x => { x with channels := x.channels.set k none }).places d +
      (d == c).toNat = st.places d := by
  have count := count_set_none found d
  show (st.slots.channels.set k none).count (some d) + _ + _ = _
  rw [places, ← count]
  exact Nat.add_right_comm _ _ _

end Hands

/-! ### What steps do to sending ends -/

section Steps

variable (st : Store α ε)

theorem cancel_hands (h : HandleRef) : st.Hands (st.cancel h).store :=
  .keep (congrArg Slots.channels (st.cancel_slots h)) (st.cancel_consumers h)

theorem react_hands (consumer : Consumer α ε) (h : HandleRef) (signal : Signal α ε) :
    st.Hands (st.react consumer h signal).store := by
  rcases st.react_rests consumer h signal with rests | ⟨slot, hooks, rfl, rfl⟩
  · exact rests.hands
  · exact .keep rfl rfl

theorem Reslots.hands {st : Store α ε} {within : Option Nat} {step : Step α ε} {slots : Slots}
    {tasks : List (Task α ε)} (reslots : st.Reslots within step slots tasks) :
    st.Hands { st with slots } := by
  cases reslots with
  | @dropChannel k c found =>
      intro d
      have left := dropChannel_places found d
      show (st.modifySlots fun x => { x with channels := x.channels.set k none }).places d ≤ _
      omega
  | _ => exact .keep rfl rfl

/-- The sending end of who is subscribed is new, or was in a slot. -/
theorem Readies.hands {st st' : Store α ε} {k : Nat} {step : Step α ε} {consumer : Consumer α ε}
    {closing : Closing α ε} (readies : st.Readies k step st' consumer closing) (s : SinkRef) :
    st.Hands (st'.subscribe s consumer).2.store := by
  cases readies with
  | scripted | valueOnly | newGate | attachGate => exact .subscribe rfl rfl s fun _ => rfl
  | newChannel initial =>
      intro c
      have made : (st.newChannel initial).2.places c = st.places c := rfl
      rw [subscribe_places, made, Consumer.sendsTo]
      split
      · rename_i inside
        rw [beq_false_of_ne (Nat.ne_of_lt inside)]
        exact Nat.le_refl _
      · exact Nat.add_le_add_left (Bool.toNat_le _) _
  | @attachChannel j c found =>
      intro d
      rw [subscribe_places, Consumer.sendsTo, dropChannel_places found d]
      exact Nat.le_add_right _ _

/-- A channel that is made is sent on from its slot. -/
theorem opening_hands (initial : Option UInt64) :
    st.Hands (((st.newChannel initial).2.modifySlots fun x =>
      { x with channels := x.channels ++ [some st.channels.length] }).addReceiver
        { channel := st.channels.length, subscription := none }) := by
  intro c
  show (st.slots.channels ++ [some st.channels.length]).count (some c) +
    st.consumers.countP (Consumer.sendsTo c) ≤ _
  rw [List.count_append, places]
  split
  · rename_i inside
    have other : [some st.channels.length].count (some c) = 0 :=
      List.count_eq_zero.2 (by simp [Nat.ne_of_lt inside])
    omega
  · have one : [some st.channels.length].count (some c) ≤ 1 := List.count_le_length
    omega

/-- **Steps hand sending ends on**, and make those of new channels. -/
theorem perform_hands (agenda : List (Task α ε)) (within : Option Nat) (step : Step α ε) :
    st.Hands (st.perform agenda within step).1.store := by
  have performs := st.perform_performs agenda within step
  generalize st.perform agenda within step = performed at performs ⊢
  cases performs with
  | still | founding | foundingStandard | sprouting | openingGate | taking | hangingUp =>
      exact .keep rfl rfl
  | reslotting reslots => exact reslots.hands
  | @ending step k s o => exact (st.terminate_rests s o).hands
  | subscribing found readies => exact readies.hands _
  | requesting found n => exact (st.request_rests _ n).hands
  | cancelling | cancellingAttached => exact st.cancel_hands _
  | opening initial => exact st.opening_hands initial
  | @signalling k c found call h signal => exact (st.outlet_rests (.channel c) h signal).hands
  | @signallingGate k g found call h signal => exact (st.outlet_rests (.gate g) h signal).hands

end Steps

end Store

theorem Task.effect_hands (st : Store α ε) (rest : List (Task α ε)) (t : Task α ε) :
    st.Hands (t.effect st rest).store := by
  cases t with
  | perform within step => exact st.perform_hands rest within step
  | answer within step closing => cases closing <;> exact .keep rfl rfl
  | notify h signal =>
      cases found : st.handles[h]? with
      | none =>
          rw [effect, Store.notify, found]
          exact .keep rfl rfl
      | some x =>
          rw [effect, Store.notify_eq found]
          exact st.react_hands x.consumer h signal
  | finish h signal => exact (st.finish_rests h signal).hands
  | deliver h o => exact (st.deliver_rests h o).hands
  | letGo hs => exact (st.letGo_forgets rest hs).rests.hands
  | giveUp s => exact (st.giveUp_forgets rest s).rests.hands
  | hangUp c => exact .keep rfl rfl

namespace Machine

variable {m : Machine α ε}

/-- Every sending end is in one place at most. -/
def Single (m : Machine α ε) : Prop := ∀ c, m.store.places c ≤ 1

/-- A channel that has not been made is nowhere. -/
theorem Wired.nowhere (wired : m.Wired) {c : ChannelRef} (beyond : m.store.channels.length ≤ c) :
    m.store.places c = 0 := by
  have absent : ¬ m.store.Cites (.outlet (.channel c)) := fun cites =>
    Nat.not_lt.2 beyond (wired _ (.inl cites))
  have unslotted : m.store.slots.channels.count (some c) = 0 :=
    List.count_eq_zero.2 fun slotted => absent (.inl slotted)
  have unheard : m.store.consumers.countP (Consumer.sendsTo c) = 0 := by
    refine List.countP_eq_zero.2 fun consumer member sends => absent ?_
    obtain ⟨h, at_⟩ := List.mem_iff_getElem?.1 member
    refine .inr ⟨h, ?_⟩
    rw [Store.target?_eq, at_]
    cases consumer <;> simp_all [Consumer.sendsTo, Consumer.target?]
  rw [Store.places, unslotted, unheard]

theorem Single.step (wired : m.Wired) (single : m.Single) : m.step.Single := by
  intro c
  cases turn : m.agenda with
  | nil =>
      rw [step_nil turn]
      exact single c
  | cons t rest =>
      have hands := Task.effect_hands m.store rest t c
      rw [step_cons turn, undergo_store]
      split at hands
      · exact Nat.le_trans hands (single c)
      · rename_i beyond
        rwa [wired.nowhere (Nat.le_of_not_lt beyond)] at hands

/-- **In every run, the sending end of a channel is in one place at most.** -/
theorem steps_single (script : List (Step α ε)) (n : Nat) : ((load script).steps n).Single := by
  induction n with
  | zero =>
      intro c
      simp [load, Store.empty, Store.places, Store.consumers]
  | succ n ih =>
      rw [steps_step]
      exact ih.step (steps_wired script n)

end Machine

/-- Two members of a list in which one at most is such. -/
theorem eq_of_countP_le_one {β : Type} {p : β → Bool} {l : List β} (one : l.countP p ≤ 1)
    {i j : Nat} {a b : β} (first : l[i]? = some a) (second : l[j]? = some b) (pa : p a = true)
    (pb : p b = true) : i = j := by
  induction l generalizing i j with
  | nil => cases first
  | cons c l ih =>
      have some_ : ∀ {k : Nat} {d : β}, l[k]? = some d → p d = true → 0 < l.countP p :=
        fun at_ pd => List.countP_pos_iff.2 ⟨_, List.mem_of_getElem? at_, pd⟩
      rw [List.countP_cons] at one
      cases i with
      | zero =>
          cases j with
          | zero => rfl
          | succ j =>
              obtain rfl : c = a := by simpa using first
              have more := some_ (by simpa using second) pb
              rw [if_pos pa] at one
              omega
      | succ i =>
          cases j with
          | zero =>
              obtain rfl : c = b := by simpa using second
              have more := some_ (by simpa using first) pa
              rw [if_pos pb] at one
              omega
          | succ j =>
              have same : i = j := ih (Nat.le_trans (Nat.le_add_right _ _) one)
                (by simpa using first) (by simpa using second)
              rw [same]

namespace Store

variable {st : Store α ε} {c : ChannelRef} {h : HandleRef}

theorem consumers_of_target (hears : st.target? h = some (.channel c)) :
    st.consumers[h]? = some (.channel c) := by
  rw [target?_eq] at hears
  obtain ⟨consumer, at_, outlet⟩ := Option.bind_eq_some_iff.1 hears
  rw [at_, Consumer.target?_eq_some.1 outlet]
  rfl

/-- A sending end that is with a handle is in no slot, and with no other handle. -/
theorem alone (single : st.places c ≤ 1) (hears : st.target? h = some (.channel c)) :
    some c ∉ st.slots.channels ∧ ∀ g, st.target? g = some (.channel c) → g = h := by
  have at_ := consumers_of_target hears
  have sends : (Consumer.channel c : Consumer α ε).sendsTo c = true := by simp [Consumer.sendsTo]
  have here : 0 < st.consumers.countP (Consumer.sendsTo c) :=
    List.countP_pos_iff.2 ⟨_, List.mem_of_getElem? at_, sends⟩
  rw [places] at single
  constructor
  · intro slotted
    have there : 0 < st.slots.channels.count (some c) := List.count_pos_iff.2 slotted
    omega
  · intro g hears'
    have one : st.consumers.countP (Consumer.sendsTo c) ≤ 1 := by omega
    exact eq_of_countP_le_one one (consumers_of_target hears') at_ sends sends

end Store

/-! ## Between calls -/

/-- No call is in progress, nor a callback that a step makes. -/
def Machine.Idle (m : Machine α ε) : Prop :=
  m.Between ∧ ∀ c, m.agenda.any (Task.sendsOn c) = false

/-- Nothing is in progress where only steps are left to perform. -/
theorem Machine.idle_of_performs {m : Machine α ε}
    (only : (m.agenda.all fun | .perform _ _ => true | _ => false) = true) : m.Idle := by
  have performs : ∀ t ∈ m.agenda, ∃ within step, t = .perform within step := by
    intro t member
    have test := List.all_eq_true.1 only t member
    cases t with
    | perform within step => exact ⟨within, step, rfl⟩
    | _ => cases test
  refine ⟨⟨?_, fun s => List.any_eq_false.2 ?_⟩, fun c => List.any_eq_false.2 ?_⟩ <;>
    · intro t member
      obtain ⟨within, step, rfl⟩ := performs t member
      simp [Task.inCall, Task.refersTo, Task.sendsOn]

/-- Nobody can send on the channel any more: its sending end is in no slot, and a handle that
has it neither waits in the open registry of a sink that is still referred to, nor holds a
parked value. -/
def Store.Deserted (st : Store α ε) (c : ChannelRef) : Prop :=
  some c ∉ st.slots.channels ∧
    ∀ (h : HandleRef) (x : Handle α ε), st.handles[h]? = some x → x.consumer = .channel c →
      (∀ s hs, st.names s = true → st.registry s = .live hs → h ∉ hs) ∧
      ∀ v, x.parked ≠ some (.value v)

namespace Sound

variable {m : Machine α ε} {h : HandleRef} {x : Handle α ε}

/-- Whose handle has gone between calls, told by what it would have to hold. -/
theorem gone_between (sound : Sound m) (tended : Tended m) (between : m.Between)
    (found : m.store.handles[h]? = some x) :
    m.store.alive h = false ↔
      (∀ s hs, m.store.names s = true → m.store.registry s = .live hs → h ∉ hs) ∧
        ∀ v, x.parked ≠ some (.value v) := by
  have parks : x.phase ≠ .parked ↔ ∀ v, x.parked ≠ some (.value v) := by
    rw [Ne, (sound.standing h x (by simp) found).parked_iff, not_exists]
  rw [← Bool.not_eq_true, tended.alive_between sound between found, not_or, ← parks]
  refine and_congr_left fun _ => ?_
  constructor
  · intro apart s hs named open_ waits
    have listed : h ∈ (m.store.registry s).handles := by rw [open_]; exact waits
    obtain rfl := sound.coherent.home found listed
    exact apart ⟨named, listed⟩
  · rintro absent ⟨named, waits⟩
    cases registry : m.store.registry x.sink with
    | frozen o =>
        rw [registry] at waits
        cases waits
    | live hs =>
        rw [registry] at waits
        exact absent x.sink hs named registry waits

/-- **A receiver can tell whether its channel is deserted.** -/
theorem connected_iff (sound : Sound m) (tended : Tended m) (idle : m.Idle) {t : Task α ε}
    {rest : List (Task α ε)} (turn : m.agenda = t :: rest) (c : ChannelRef) :
    m.store.connected rest c = false ↔ m.store.Deserted c := by
  have free : rest.any (Task.sendsOn c) = false := by
    have free := idle.2 c
    rw [turn, List.any_cons, Bool.or_eq_false_iff] at free
    exact free.2
  rw [Store.connected, free, Bool.or_false, Store.hasSender, Bool.or_eq_false_iff,
    List.contains_eq_mem, decide_eq_false_iff_not]
  refine and_congr_right fun _ => ?_
  rw [List.any_eq_false]
  have sends : ∀ consumer : Consumer α ε, consumer.sendsTo c = true ↔ consumer = .channel c := by
    intro consumer
    cases consumer with
    | channel d => simp [Consumer.sendsTo, @eq_comm _ c d]
    | _ => simp [Consumer.sendsTo]
  constructor
  · intro silent h x found own
    apply (sound.gone_between tended idle.1 found).1
    have quiet := silent x (List.mem_of_getElem? found)
    rw [(sends _).2 own, Bool.and_true, Bool.not_eq_true] at quiet
    rw [Store.alive_of found, quiet]
  · intro silent x member
    obtain ⟨h, found⟩ := List.mem_iff_getElem?.1 member
    simp only [Bool.and_eq_true, sends, Bool.not_eq_true']
    rintro ⟨on, own⟩
    have dead := (sound.gone_between tended idle.1 found).2 (silent h x found own)
    rw [Store.alive_of found, on] at dead
    cases dead

end Sound

/-! ## Answers -/

/-- A step that takes one signal, with what it answers when there is none and the sender is
still there. -/
def Step.receives? : Step α ε → Option (Nat × Reply α ε)
  | recv j => some (j, .blocked)
  | tryRecv j => some (j, .refused .empty)
  | recvTimeout j limit => some (j, .refused (.timeout limit))
  | _ => none

/-- The store with another queue in a channel. -/
def Store.leaving (st : Store α ε) (c : ChannelRef) (queue : List (Signal α ε)) : Store α ε :=
  st.modifyChannel c fun x => { x with queue }

/-- The step in hand is answered at once, with `reply`; it leaves the store `st`, and what it
tells is `told`. -/
def Machine.Answers (m : Machine α ε) (st : Store α ε) (told : List (Event α ε))
    (reply : Reply α ε) : Prop :=
  ∃ within step rest, m.agenda = .perform within step :: rest ∧ (m.steps 2).store = st ∧
    (m.steps 2).agenda = rest ∧
    (m.steps 2).history =
      m.history ++ (.performed within step :: told ++ [.answered within step reply])

theorem Machine.answers {m : Machine α ε} {within : Option Nat} {step : Step α ε}
    {rest : List (Task α ε)} (turn : m.agenda = .perform within step :: rest) {st : Store α ε}
    {told : List (Event α ε)} {reply : Reply α ε}
    (performed : m.store.perform rest within step = (⟨st, told, []⟩, .reply reply)) :
    m.Answers st told reply := by
  have one := step_perform turn performed
  have two : m.steps 2 = ⟨st, rest, .answered within step reply :: (told.reverse ++
      .performed within step :: m.past)⟩ := by
    rw [steps_succ, steps_succ, steps_zero, one]
    simp [Machine.step, Task.effect, Store.conclude]
  refine ⟨within, step, rest, turn, ?_, ?_, ?_⟩
  · rw [two]
  · rw [two]
  · rw [two]
    simp [history]

theorem Store.perform_receives (st : Store α ε) (agenda : List (Task α ε)) (within : Option Nat)
    {step : Step α ε} {j : Nat} {otherwise : Reply α ε} {r : Receiver}
    (receives : step.receives? = some (j, otherwise)) (found : st.receiver? j = some r) :
    st.perform agenda within step = st.receive agenda r.channel otherwise := by
  cases step with
  | recv | tryRecv | recvTimeout =>
      cases receives
      simp [perform, with?, found]
  | _ => cases receives

/-! ## Channels made by subscribing -/

/-- What the last owner of a handle waits for, between calls: the handle is gone if nothing is
left for it to hear. -/
theorem Sound.spent_iff {m : Machine α ε} (sound : Sound m) (tended : Tended m)
    (between : m.Between) {h : HandleRef} {x : Handle α ε} (found : m.store.handles[h]? = some x) :
    m.store.alive h = false ↔
      (∃ o, .terminating x.sink o true ∈ m.history ∧ o.isValue = false) ∨
      (∃ v, .terminating x.sink (.value v) true ∈ m.history ∧
        ∃ n, n ≠ 0 ∧ .requesting h n ∈ m.history) ∨
      .cancelling h ∈ m.history ∨
      ((∀ o, .terminating x.sink o true ∉ m.history) ∧ m.store.names x.sink = false) := by
  have stands := sound.standing h x (by simp) found
  have course := stands.course
  rw [between.1.pending] at course
  generalize (Ledger.of h m.history).callbacks = heard at course
  simp only [sound.ended_iff, ← Ledger.renounced_iff, ← Ledger.asked_iff]
  have closed : ∀ {o}, (m.store.registry x.sink).place h = .closed o →
      m.store.registry x.sink = .frozen o := fun closed =>
    Registry.outcome?_eq_some.1 (Registry.place_eq_closed.1 closed)
  rw [← Bool.not_eq_true, tended.alive_between sound between found, not_or]
  constructor
  · rintro ⟨apart, unparked⟩
    generalize renounced : (Ledger.of h m.history).renounced = gone at course ⊢
    cases gone with
    | true => exact .inr (.inr (.inl rfl))
    | false =>
      generalize offers : (Ledger.of h m.history).offers = offered at course
      cases course with
      | waiting here =>
          have waits := Registry.place_eq_waiting.1 here
          refine .inr (.inr (.inr ⟨?_, ?_⟩))
          · intro o frozen
            rw [frozen] at waits
            cases waits
          · rw [← Bool.not_eq_true]
            exact fun named => apart ⟨named, waits⟩
      | left _ gone | broken _ gone => cases gone
      | @withheld o _ why =>
          obtain ⟨value, unasked⟩ := why.resolve_left (by simp)
          refine absurd ?_ unparked
          rw [stands.phase, renounced, offers, unasked]
          simp [value, Phase.of]
      | @told o here fed =>
          cases o with
          | value v => exact .inr (.inl ⟨v, closed here, fed rfl⟩)
          | empty => exact .inl ⟨_, closed here, rfl⟩
          | error e => exact .inl ⟨_, closed here, rfl⟩
  · -- a parked value is one that nobody has asked for
    have parked : x.phase = .parked → ∃ v, m.store.registry x.sink = .frozen (.value v) ∧
        (Ledger.of h m.history).asked = false ∧ (Ledger.of h m.history).renounced = false := by
      intro parked
      obtain ⟨v, -, here, unasked, kept, -⟩ := stands.of_parked parked
      exact ⟨v, closed here, unasked, kept⟩
    have ended : ∀ {o}, m.store.registry x.sink = .frozen o →
        ¬ (m.store.names x.sink = true ∧ h ∈ (m.store.registry x.sink).handles) := by
      rintro o frozen ⟨-, waits⟩
      rw [frozen] at waits
      cases waits
    rintro (⟨o, frozen, unvalued⟩ | ⟨v, frozen, asked⟩ | gone | ⟨never, unnamed⟩)
    · refine ⟨ended frozen, fun phase => ?_⟩
      obtain ⟨v, frozen', -⟩ := parked phase
      rw [frozen] at frozen'
      cases frozen'
      cases unvalued
    · refine ⟨ended frozen, fun phase => ?_⟩
      obtain ⟨-, -, unasked, -⟩ := parked phase
      rw [asked] at unasked
      cases unasked
    · refine ⟨?_, fun phase => ?_⟩
      · rintro ⟨-, waits⟩
        rw [Registry.place_eq_waiting.2 waits] at course
        have kept := ((course.waits (by simp)).1 rfl).2
        rw [gone] at kept
        cases kept
      · obtain ⟨-, -, -, kept⟩ := parked phase
        rw [gone] at kept
        cases kept
    · refine ⟨?_, fun phase => ?_⟩
      · rintro ⟨named, -⟩
        rw [unnamed] at named
        cases named
      · obtain ⟨v, frozen, -⟩ := parked phase
        exact never _ frozen

namespace Sound

variable {m : Machine α ε} {h : HandleRef} {c : ChannelRef} {x : Handle α ε}

/-- Where the sending end is with a handle, the channel is deserted when that handle is gone. -/
theorem deserted_iff (sound : Sound m) (tended : Tended m) (between : m.Between)
    (single : m.Single) (found : m.store.handles[h]? = some x)
    (hears : m.store.target? h = some (.channel c)) :
    m.store.Deserted c ↔ m.store.alive h = false := by
  have target : ∀ {g : HandleRef} {y : Handle α ε}, m.store.handles[g]? = some y →
      (m.store.target? g = some (.channel c) ↔ y.consumer = .channel c) := by
    intro g y at_
    rw [Store.target?, at_]
    exact Consumer.target?_eq_some
  obtain ⟨unslotted, only⟩ := Store.alone (single c) hears
  constructor
  · intro deserted
    exact (sound.gone_between tended between found).2
      (deserted.2 h x found ((target found).1 hears))
  · intro gone
    refine ⟨unslotted, ?_⟩
    intro g y at_ own
    obtain rfl := only g ((target at_).2 own)
    exact (sound.gone_between tended between at_).1 gone

end Sound

namespace Machine

variable {m : Machine α ε}

/-- The consumer of a handle stays the same. -/
theorem target_steps {h : HandleRef} {target : DirectTarget}
    (hears : m.store.target? h = some target) (k : Nat) :
    (m.steps k).store.target? h = some target :=
  steps_keep (P := fun m' => m'.store.target? h = some target)
    (fun m' hears => by
      obtain ⟨made, grown⟩ := m'.step_consumers
      exact Store.target?_mono grown hears) hears k

/-- The call that makes a channel and subscribes it: a new handle is its consumer, and the
receiver is handed out when the call returns. -/
theorem subscribes_channel {within : Option Nat} {k : Nat} {initial : Option UInt64}
    {rest : List (Task α ε)} {s : SinkRef}
    (turn : m.agenda = .perform within (.subscribeChannel k initial) :: rest)
    (named : m.store.sink? k = some s) :
    let h := m.store.handles.length
    let c := m.store.channels.length
    m.step.agenda = .notify h .subscribed :: .letGo [h] :: .giveUp s ::
        .answer within (.subscribeChannel k initial) (.receive h c) :: rest ∧
      .subscribing s h ∈ m.step.history ∧ m.step.store.target? h = some (.channel c) := by
  intro h c
  have performed : m.store.perform rest within (.subscribeChannel k initial) =
      (((m.store.newChannel initial).2.subscribe s (.channel c)).2, .receive h c) := by
    simp [Store.perform, Store.with?, named, Store.newChannel, Store.subscribe, h, c]
  rw [step_perform turn performed]
  refine ⟨rfl, ?_, ?_⟩
  · simp [history, Store.subscribe, Store.newChannel, h]
  · simp [Store.subscribe, Store.newChannel, Store.target?, Handle.new, Consumer.target?, h]

end Machine

/-! ## The result -/

/-- **A receiver answers with what is pending, and otherwise tells whether anybody can still
send**, in every run.

* As long as signals are pending, whichever way one is taken is answered with the oldest, and
  leaves the others; `drain` is answered with all of them in order.  Whether the sender is still
  there makes no difference.
* When none is pending and no call is in progress, a receiver is told that its sender is gone
  if and only if the channel is deserted.  Otherwise it is told that nothing came: in its time,
  if it has set one.
* A sending end is in one place at most.
* The channel that `subscribeChannel` makes is deserted, between calls, after its sink has ended
  empty or with an error, after it has ended with a value and there was positive demand, after a
  cancellation, or when nothing refers to the sink any more before it has ended; and in no other
  case. -/
theorem receiver_answers_exactly (script : List (Step α ε)) (n : Nat) :
    let run := fun k => (Machine.load script).steps k
    let m := run n
    (∀ within step rest j otherwise r, m.agenda = .perform within step :: rest →
        step.receives? = some (j, otherwise) → m.store.receiver? j = some r →
        (∀ signal later, m.store.queue r.channel = signal :: later →
          m.Answers (m.store.leaving r.channel later) [.received r.channel [signal]]
            (.received signal)) ∧
        (m.store.queue r.channel = [] → m.Idle →
          (m.store.Deserted r.channel → m.Answers m.store [] (.refused .disconnected)) ∧
          (¬ m.store.Deserted r.channel → m.Answers m.store [] otherwise))) ∧
      (∀ within rest j r, m.agenda = .perform within (.drain j) :: rest →
        m.store.receiver? j = some r →
        m.Answers (m.store.leaving r.channel []) [.received r.channel (m.store.queue r.channel)]
          (.signals (m.store.queue r.channel))) ∧
      (∀ c, m.store.places c ≤ 1) ∧
      (∀ i < n, ∀ within k initial rest s,
        (run i).agenda = .perform within (.subscribeChannel k initial) :: rest →
        (run i).store.sink? k = some s → m.Between →
        let h := (run i).store.handles.length
        let c := (run i).store.channels.length
        (run (i + 1)).agenda = .notify h .subscribed :: .letGo [h] :: .giveUp s ::
            .answer within (.subscribeChannel k initial) (.receive h c) :: rest ∧
          (m.store.Deserted c ↔
            (∃ o, .terminating s o true ∈ m.history ∧ o.isValue = false) ∨
            (∃ v, .terminating s (.value v) true ∈ m.history ∧
              ∃ n, n ≠ 0 ∧ .requesting h n ∈ m.history) ∨
            .cancelling h ∈ m.history ∨
            ((∀ o, .terminating s o true ∉ m.history) ∧ m.store.names s = false))) := by
  intro run m
  have sound : Sound m := Machine.steps_sound script n
  have tended : Tended m := Machine.steps_tended script n
  have single : m.Single := Machine.steps_single script n
  refine ⟨?_, ?_, single, ?_⟩
  · intro within step rest j otherwise r turn receives found
    have performed := m.store.perform_receives rest within receives found
    constructor
    · intro signal later pending
      apply Machine.answers turn
      rw [performed, Store.receive, pending]
      rfl
    · intro empty idle
      have connected := sound.connected_iff tended idle turn r.channel
      have answers : m.Answers m.store []
          (if m.store.connected rest r.channel then otherwise else .refused .disconnected) := by
        apply Machine.answers turn
        rw [performed, Store.receive, empty]
        rfl
      constructor
      · intro deserted
        rwa [connected.2 deserted, if_neg (by simp)] at answers
      · intro kept
        have on : m.store.connected rest r.channel = true := by
          rw [← Bool.not_eq_false, connected]
          exact kept
        rwa [if_pos on] at answers
  · intro within rest j r turn found
    apply Machine.answers turn
    simp [Store.perform, Store.with?, found, Store.leaving]
  · intro i lt within k initial rest s turn named between h c
    obtain ⟨next, made, hears⟩ := (run i).subscribes_channel turn named
    obtain ⟨d, later⟩ : ∃ d, m = (run i).step.steps d := by
      obtain ⟨d, rfl⟩ := Nat.exists_eq_add_of_le lt
      exact ⟨d, by rw [← Machine.steps_step]; exact Machine.steps_add ..⟩
    refine ⟨by rw [← next]; exact congrArg Machine.agenda (Machine.steps_step i _), ?_⟩
    have made : .subscribing s h ∈ m.history := by
      rw [later]
      exact (Machine.history_prefix_steps _ d).subset made
    have hears : m.store.target? h = some (.channel c) := by
      rw [later]
      exact Machine.target_steps hears d
    obtain ⟨x, found, rfl⟩ := Option.map_eq_some_iff.1 ((sound.made s h).1 made)
    rw [sound.deserted_iff tended between single found hears]
    exact sound.spent_iff tended between found

/-- A value is parked for a channel that has asked for nothing: the receiver is told to wait.  After
a request it takes what has come, though its sender is gone by then, and is told so at the end. -/
theorem receiver_answers_exactly_parked :
    let script : List (Step Nat Nat) :=
      [.newSink none, .subscribeChannel 0 (some 0), .tryRecv 0, .succeed 0 (some 7), .tryRecv 0,
        .request (.slot 0) 1, .tryRecv 0, .tryRecv 0, .tryRecv 0]
    ((Machine.load script).steps 15).Answers ((Machine.load script).steps 15).store []
        (.refused .empty) ∧
      (((Machine.load script).steps 24).store.alive 0 = false ∧
        ((Machine.load script).steps 24).Answers
          (((Machine.load script).steps 24).store.leaving 0 [.complete]) [.received 0 [.next 7]]
          (.received (.next 7))) ∧
      ((Machine.load script).steps 28).Answers ((Machine.load script).steps 28).store []
        (.refused .disconnected) := by
  intro script
  have takes : ∀ {m : Machine Nat Nat},
      (m.inHand.any fun p => match p.2 with | .tryRecv 0 => true | _ => false) = true →
        ∃ within rest, m.agenda = .perform within (.tryRecv 0) :: rest := by
    intro m test
    obtain ⟨⟨within, step⟩, hand, test⟩ := (Option.any_eq_true _ _).1 test
    split at test
    · rename_i same
      cases same
      exact ⟨within, Machine.inHand_eq_some.1 hand⟩
    · cases test
  obtain ⟨rest, subscribes⟩ : ∃ rest, ((Machine.load script).steps 2).agenda =
      .perform none (.subscribeChannel 0 (some 0)) :: rest := ⟨_, rfl⟩
  have sink : ((Machine.load script).steps 2).store.sink? 0 = some 0 := by decide +kernel
  refine ⟨?_, ⟨by decide +kernel, ?_⟩, ?_⟩
  · obtain ⟨within, later, turn⟩ := takes (m := (Machine.load script).steps 15) (by decide +kernel)
    obtain ⟨answers, -, -, channels⟩ := receiver_answers_exactly script 15
    have found : ((Machine.load script).steps 15).store.receiver? 0 = some ⟨0, some 0⟩ := by
      decide +kernel
    have idle : ((Machine.load script).steps 15).Idle := Machine.idle_of_performs (by decide +kernel)
    refine ((answers _ _ _ _ _ _ turn rfl found).2 (by decide +kernel) idle).2 fun deserted => ?_
    -- the value is parked, so none of the four cases is there
    have attempted : attempts 0 ((Machine.load script).steps 15).history = [(.value 7, true)] := by
      decide +kernel
    have unasked : (Ledger.of 0 ((Machine.load script).steps 15).history).asked = false := by
      decide +kernel
    have kept : (Ledger.of 0 ((Machine.load script).steps 15).history).renounced = false := by
      decide +kernel
    rcases ((channels 2 (by decide) _ _ _ _ _ subscribes sink idle.1).2.1 deserted) with
      ⟨o, ended, unvalued⟩ | ⟨v, -, asked⟩ | gone | ⟨never, -⟩
    · rw [← mem_attempts, attempted] at ended
      cases List.mem_singleton.1 ended
      cases unvalued
    · exact Bool.false_ne_true (unasked.symm.trans (Ledger.asked_iff.2 asked))
    · exact Bool.false_ne_true (kept.symm.trans (Ledger.renounced_iff.2 gone))
    · refine never (.value 7) (mem_attempts.1 ?_)
      rw [attempted]
      exact List.mem_singleton_self _
  · obtain ⟨within, later, turn⟩ := takes (m := (Machine.load script).steps 24) (by decide +kernel)
    obtain ⟨answers, -⟩ := receiver_answers_exactly script 24
    have found : ((Machine.load script).steps 24).store.receiver? 0 = some ⟨0, some 0⟩ := by
      decide +kernel
    exact (answers _ _ _ _ _ _ turn rfl found).1 _ _ (by decide +kernel)
  · obtain ⟨within, later, turn⟩ := takes (m := (Machine.load script).steps 28) (by decide +kernel)
    obtain ⟨answers, -, -, channels⟩ := receiver_answers_exactly script 28
    have found : ((Machine.load script).steps 28).store.receiver? 0 = some ⟨0, some 0⟩ := by
      decide +kernel
    have idle : ((Machine.load script).steps 28).Idle := Machine.idle_of_performs (by decide +kernel)
    have won : .terminating 0 (.value 7) true ∈ ((Machine.load script).steps 28).history :=
      mem_attempts.1 (by decide +kernel)
    have asked : ∃ n, n ≠ 0 ∧ .requesting 0 n ∈ ((Machine.load script).steps 28).history :=
      Ledger.asked_iff.1 (by decide +kernel)
    exact ((answers _ _ _ _ _ _ turn rfl found).2 (by decide +kernel) idle).1
      ((channels 2 (by decide) _ _ _ _ _ subscribes sink idle.1).2.2 (.inr (.inl ⟨7, won, asked⟩)))

end OneShot
