/-
# OneShot.Proofs.Outlets.Errand -- what a task does to channels and gates

Channels and gates are the *outlets* of a run: what is said to them is not said back.  Of all
that tasks do, six things bear on them, and `Errand` lists these: nothing; a new channel; a
new gate; a signal is told to an outlet, by a callback of the handle that it is the consumer
of or by a step; signals are handed out to a receiver; a receiver is dropped.

Every task is an errand (`Task.effect_errand`).  What each errand keeps of a channel or of a
gate, every step of a machine keeps.
-/
import OneShot.Proofs.Turns

namespace OneShot

set_option autoImplicit false

variable {α ε : Type}

/-! ## What is said to outlets -/

/-- The outlet that a consumer is, if it is one. -/
def Consumer.target? : Consumer α ε → Option DirectTarget
  | scripted _ _ | valueOnly _ _ => none
  | channel c => some (.channel c)
  | gate g => some (.gate g)

theorem Consumer.target?_eq_some {consumer : Consumer α ε} {target : DirectTarget} :
    consumer.target? = some target ↔ consumer = target.consumer := by
  cases consumer <;> cases target <;> simp [target?, DirectTarget.consumer]

namespace Store

/-- The outlet that hears the signals of a handle. -/
def target? (st : Store α ε) (h : HandleRef) : Option DirectTarget :=
  st.handles[h]?.bind fun x => x.consumer.target?

/-- What an outlet does with a signal: a channel keeps it, a gate closes on all but the
acknowledgment. -/
def tell (st : Store α ε) (target : DirectTarget) (signal : Signal α ε) :
    Store α ε × List (Event α ε) :=
  match target, signal with
  | .channel c, signal => st.forward c signal
  | .gate _, .subscribed => (st, [])
  | .gate g, _ => st.close g

/-- The signal that an event tells an outlet. -/
def tells? (st : Store α ε) (target : DirectTarget) : Event α ε → Option (Signal α ε)
  | .began h signal => if st.target? h = some target then some signal else none
  | .direct target' signal => if target' = target then some signal else none
  | _ => none

/-- The outlet stands in a slot. -/
def Slotted (st : Store α ε) : DirectTarget → Prop
  | .channel c => some c ∈ st.slots.channels
  | .gate g => some g ∈ st.slots.gates

/-- All that an outlet is told, in order. -/
def told (st : Store α ε) (target : DirectTarget) (events : List (Event α ε)) :
    List (Signal α ε) :=
  events.filterMap (st.tells? target)

end Store

/-- The event bears on an outlet: something is told, handed out, discarded, or closed. -/
def Event.isPost : Event α ε → Bool
  | began _ _ | direct _ _ | received _ _ => true
  | noticed (.channelFull _) | noticed (.receiverGone _) | noticed (.gateClosed _) => true
  | _ => false

def posts (events : List (Event α ε)) : List (Event α ε) := events.filter Event.isPost

theorem posts_append (before after : List (Event α ε)) :
    posts (before ++ after) = posts before ++ posts after := by
  simp [posts]

theorem posts_of_mute {events : List (Event α ε)}
    (mute : ∀ event ∈ events, event.isPost = false) : posts events = [] :=
  List.filter_eq_nil_iff.2 fun event member => by simp [mute event member]

/-- What an outlet says of a signal is a notice. -/
theorem Store.tell_notices (st : Store α ε) (target : DirectTarget) (signal : Signal α ε) :
    ∀ event ∈ (st.tell target signal).2, ∃ notice, event = .noticed notice := by
  cases target with
  | channel c =>
      have sends := st.forward_sends c signal
      simp only [tell]
      generalize st.forward c signal = left at sends ⊢
      cases sends with
      | missed | kept => exact List.forall_mem_nil _
      | gone | full => exact List.forall_mem_singleton.2 ⟨_, rfl⟩
  | gate g =>
      have shut : ∀ event ∈ (st.close g).2, ∃ notice, event = .noticed notice := by
        unfold close
        split <;> simp
      cases signal <;> first | exact List.forall_mem_nil _ | exact shut

open Store

/-- What a task does to channels and gates. -/
inductive Errand (st : Store α ε) (e : Effect α ε) : Prop
  | idle (channels : e.store.channels = st.channels) (gates : e.store.gates = st.gates)
      (said : posts e.events = [])
  | founding (initial : UInt64)
      (channels : e.store.channels =
        st.channels ++ [{ initial, queue := [], receiving := true }])
      (gates : e.store.gates = st.gates) (said : posts e.events = [])
  | opening (channels : e.store.channels = st.channels)
      (gates : e.store.gates = st.gates ++ [false]) (said : posts e.events = [])
  /-- A callback begins whose consumer is no outlet. -/
  | speaking {h : HandleRef} {signal : Signal α ε} (inside : h < st.handles.length)
      (other : st.target? h = none)
      (channels : e.store.channels = st.channels) (gates : e.store.gates = st.gates)
      (said : posts e.events = [.began h signal])
  | telling {target : DirectTarget} {signal : Signal α ε} {first : Event α ε}
      (how : (first = .direct target signal ∧ st.Slotted target) ∨
        ∃ h, first = .began h signal ∧ st.target? h = some target)
      (channels : e.store.channels = (st.tell target signal).1.channels)
      (gates : e.store.gates = (st.tell target signal).1.gates)
      (said : posts e.events = first :: (st.tell target signal).2)
  | handing {c : ChannelRef} {signals rest : List (Signal α ε)}
      (queue : st.queue c = signals ++ rest)
      (channels : e.store.channels =
        (st.modifyChannel c fun x => { x with queue := rest }).channels)
      (gates : e.store.gates = st.gates) (said : posts e.events = [.received c signals])
  | hangingUp {c : ChannelRef}
      (channels : e.store.channels =
        (st.modifyChannel c fun x => { x with queue := [], receiving := false }).channels)
      (gates : e.store.gates = st.gates) (said : posts e.events = [])

namespace Errand

variable {st : Store α ε} {e : Effect α ε}

theorem quiet {st' : Store α ε} (channels : st'.channels = st.channels)
    (gates : st'.gates = st.gates) : Errand st (.quiet st') :=
  .idle channels gates rfl

/-- An errand is told by the store that it leaves and by what it says of outlets. -/
theorem transfer (errand : Errand st e) {e' : Effect α ε} (store : e'.store = e.store)
    (same : posts e'.events = posts e.events) : Errand st e' := by
  cases errand with
  | idle channels gates said =>
      exact .idle (store ▸ channels) (store ▸ gates) (same.trans said)
  | founding initial channels gates said =>
      exact .founding initial (store ▸ channels) (store ▸ gates) (same.trans said)
  | opening channels gates said =>
      exact .opening (store ▸ channels) (store ▸ gates) (same.trans said)
  | speaking inside other channels gates said =>
      exact .speaking inside other (store ▸ channels) (store ▸ gates) (same.trans said)
  | telling how channels gates said =>
      exact .telling how (store ▸ channels) (store ▸ gates) (same.trans said)
  | handing queue channels gates said =>
      exact .handing queue (store ▸ channels) (store ▸ gates) (same.trans said)
  | hangingUp channels gates said =>
      exact .hangingUp (store ▸ channels) (store ▸ gates) (same.trans said)

/-- Tasks behind an effect, and events before it that bear on no outlet, change no errand. -/
theorem framed (errand : Errand st e) {events : List (Event α ε)} (mute : posts events = [])
    (tasks : List (Task α ε)) : Errand st ((e.after events).followedBy tasks) := by
  refine errand.transfer ?_ ?_
  · rfl
  · show posts (events ++ e.events) = posts e.events
    rw [posts_append, mute, List.nil_append]

/-- A callback that begins is one of a handle that is there. -/
theorem began_inside (errand : Errand st e) {h : HandleRef} {signal : Signal α ε}
    (began : .began h signal ∈ e.events) : h < st.handles.length := by
  have posted : .began h signal ∈ posts e.events := List.mem_filter.2 ⟨began, rfl⟩
  cases errand with
  | idle _ _ said | founding _ _ _ said | opening _ _ said | hangingUp _ _ said =>
      rw [said] at posted
      cases posted
  | speaking inside _ _ _ said =>
      rw [said] at posted
      cases List.mem_singleton.1 posted
      exact inside
  | @telling target signal' first how _ _ said =>
      rw [said] at posted
      rcases List.mem_cons.1 posted with rfl | told
      · rcases how with ⟨other, -⟩ | ⟨g, own, hears⟩
        · cases other
        · cases own
          obtain ⟨x, found, -⟩ := Option.bind_eq_some_iff.1 hears
          exact (List.getElem?_eq_some_iff.1 found).1
      · obtain ⟨notice, other⟩ := st.tell_notices target signal' _ told
        cases other
  | handing _ _ _ said =>
      rw [said] at posted
      cases List.mem_singleton.1 posted

end Errand

/-! ## Calls of the library -/

namespace Store

variable (st : Store α ε)

theorem mem_of_slot? {β : Type} {slots : List (Option β)} {k : Nat} {b : β}
    (found : slot? slots k = some b) : some b ∈ slots :=
  List.mem_of_getElem? (Option.join_eq_some_iff.1 found)

/-- A call does nothing to outlets, and says nothing of them. -/
structure Leaves (st : Store α ε) (e : Effect α ε) : Prop where
  channels : e.store.channels = st.channels
  gates : e.store.gates = st.gates
  said : posts e.events = []

theorem Leaves.errand {st : Store α ε} {e : Effect α ε} (leaves : st.Leaves e) : Errand st e :=
  .idle leaves.channels leaves.gates leaves.said

theorem request_leaves (h : HandleRef) (n : UInt64) : st.Leaves (st.request h n) := by
  have asks := st.request_asks h n
  generalize st.request h n = e at asks ⊢
  cases asks <;> exact ⟨rfl, rfl, rfl⟩

theorem unregister_leaves (s : SinkRef) (h : HandleRef) :
    (st.unregister s h).1.channels = st.channels ∧ (st.unregister s h).1.gates = st.gates ∧
      posts (st.unregister s h).2 = [] := by
  unfold unregister
  split <;> exact ⟨rfl, rfl, rfl⟩

theorem cancel_leaves (h : HandleRef) : st.Leaves (st.cancel h) := by
  have cancels := st.cancel_cancels h
  generalize st.cancel h = e at cancels ⊢
  cases cancels with
  | missed | again => exact ⟨rfl, rfl, rfl⟩
  | @first x =>
      obtain ⟨channels, gates, said⟩ :=
        (st.modifyHandle h Handle.silence).unregister_leaves x.sink h
      exact ⟨channels, gates, said⟩

theorem terminate_leaves (s : SinkRef) (o : Outcome α ε) : st.Leaves (st.terminate s o).2 := by
  have ends := st.terminate_ends s o
  generalize st.terminate s o = called at ends ⊢
  cases ends <;> exact ⟨rfl, rfl, rfl⟩

theorem enrol_leaves (h : HandleRef) : st.Leaves (st.enrol h) := by
  have enrols := st.enrol_enrols h
  generalize st.enrol h = e at enrols ⊢
  cases enrols with
  | missed | replayed | joined => exact ⟨rfl, rfl, rfl⟩
  | @turnedAway x waiting =>
      obtain ⟨channels, gates, said⟩ := (st.join h x.sink waiting).unregister_leaves x.sink h
      exact ⟨channels, gates, said⟩

theorem finish_leaves (h : HandleRef) (signal : Signal α ε) : st.Leaves (st.finish h signal) := by
  cases signal with
  | subscribed =>
      obtain ⟨channels, gates, said⟩ := st.enrol_leaves h
      exact ⟨channels, gates, said⟩
  | next v =>
      simp only [finish]
      split <;> exact ⟨rfl, rfl, rfl⟩
  | complete | error => exact ⟨rfl, rfl, rfl⟩

theorem deliver_leaves (h : HandleRef) (o : Outcome α ε) : st.Leaves (st.deliver h o) := by
  have offers := st.deliver_offers h o
  generalize st.deliver h o = e at offers ⊢
  cases offers <;> exact ⟨rfl, rfl, rfl⟩

theorem letGo_leaves (agenda : List (Task α ε)) (hs : List HandleRef) :
    (st.letGo agenda hs).1.channels = st.channels ∧ (st.letGo agenda hs).1.gates = st.gates := by
  induction hs generalizing st with
  | nil => exact ⟨rfl, rfl⟩
  | cons h hs ih =>
      have first : (st.release agenda h).1.channels = st.channels ∧
          (st.release agenda h).1.gates = st.gates := by
        unfold release
        split <;> exact ⟨rfl, rfl⟩
      have others := ih (st.release agenda h).1
      exact ⟨others.1.trans first.1, others.2.trans first.2⟩

theorem giveUp_leaves (agenda : List (Task α ε)) (s : SinkRef) :
    (st.giveUp agenda s).1.channels = st.channels ∧ (st.giveUp agenda s).1.gates = st.gates := by
  unfold giveUp
  split
  · exact ⟨rfl, rfl⟩
  · exact st.letGo_leaves agenda _

/-- What is let go of bears on no outlet. -/
theorem Forgets.posts {st : Store α ε} {left : Store α ε × List (Event α ε)}
    (forgets : st.Forgets left) : posts left.2 = [] :=
  posts_of_mute (forgets.each fun _ => rfl)

/-! ## Consumers -/

theorem forward_posts (c : ChannelRef) (signal : Signal α ε) :
    posts (st.forward c signal).2 = (st.forward c signal).2 ∧
      (st.forward c signal).1.gates = st.gates := by
  have sends := st.forward_sends c signal
  generalize st.forward c signal = left at sends ⊢
  cases sends <;> exact ⟨rfl, rfl⟩

theorem close_posts (g : GateRef) : posts (st.close g).2 = (st.close g).2 := by
  unfold close
  split <;> rfl

/-- What an outlet is told is all that bears on outlets in its answer. -/
theorem react_tell (target : DirectTarget) (h : HandleRef) (signal : Signal α ε) :
    (st.react target.consumer h signal).store.channels = (st.tell target signal).1.channels ∧
      (st.react target.consumer h signal).store.gates = (st.tell target signal).1.gates ∧
      posts (st.react target.consumer h signal).events = (st.tell target signal).2 := by
  have reacts := st.react_reacts target.consumer h signal
  generalize st.react target.consumer h signal = e at reacts ⊢
  cases target with
  | channel c =>
      cases reacts with
      | sending => exact ⟨rfl, rfl, (st.forward_posts c signal).1⟩
      | sendingAsking c n =>
          obtain ⟨channels, gates, mute⟩ := (st.forward c .subscribed).1.request_leaves h n
          refine ⟨channels, gates, ?_⟩
          show posts ((st.forward c .subscribed).2 ++ _) = _
          rw [posts_append, mute, List.append_nil, (st.forward_posts c .subscribed).1]
          rfl
  | gate g =>
      cases reacts with
      | askingOnce =>
          obtain ⟨channels, gates, mute⟩ := st.request_leaves h 1
          exact ⟨channels, gates, mute⟩
      | closing g later =>
          cases signal with
          | subscribed => exact absurd rfl later
          | next | complete | error => exact ⟨rfl, rfl, st.close_posts g⟩

/-- A consumer that is no outlet leaves outlets alone. -/
theorem react_leaves {consumer : Consumer α ε} (other : consumer.target? = none) (h : HandleRef)
    (signal : Signal α ε) : st.Leaves (st.react consumer h signal) := by
  have reacts := st.react_reacts consumer h signal
  generalize st.react consumer h signal = e at reacts ⊢
  cases reacts with
  | greeting | running | valued | completed | unheard => exact ⟨rfl, rfl, rfl⟩
  | asking => exact st.request_leaves h _
  | sending | sendingAsking | askingOnce | closing => cases other

theorem notify_errand {h : HandleRef} {x : Handle α ε} (found : st.handles[h]? = some x)
    (signal : Signal α ε) : Errand st (st.notify h signal) := by
  have target : st.target? h = x.consumer.target? := by simp [target?, found]
  rw [notify_eq found]
  have posts_first : posts ((((st.react x.consumer h signal).after [.began h signal]).followedBy
      [.finish h signal]).events) =
        .began h signal :: posts (st.react x.consumer h signal).events := rfl
  cases outlet : x.consumer.target? with
  | none =>
      obtain ⟨channels, gates, said⟩ := st.react_leaves outlet h signal
      have inside : h < st.handles.length := (List.getElem?_eq_some_iff.1 found).1
      exact .speaking inside (target.trans outlet) channels gates (by rw [posts_first, said])
  | some out =>
      have tells := st.react_tell out h signal
      rw [← Consumer.target?_eq_some.1 outlet] at tells
      obtain ⟨channels, gates, said⟩ := tells
      exact .telling (.inr ⟨h, rfl, target.trans outlet⟩) channels gates (by rw [posts_first, said])

/-! ## Steps -/

/-- A callback that a step makes of an outlet in a slot. -/
theorem direct_errand (target : DirectTarget) (slotted : st.Slotted target) (h : HandleRef)
    (signal : Signal α ε) (held : List (Task α ε)) :
    Errand st (((st.react target.consumer h signal).after [.direct target signal]).followedBy
      held) := by
  obtain ⟨channels, gates, said⟩ := st.react_tell target h signal
  refine .telling (.inl ⟨rfl, slotted⟩) channels gates ?_
  show .direct target signal :: posts (st.react target.consumer h signal).events = _
  rw [said]

/-- **Every step of a script is an errand.** -/
theorem perform_errand (agenda : List (Task α ε)) (within : Option Nat) (step : Step α ε) :
    Errand st (st.perform agenda within step).1 := by
  have performs := st.perform_performs agenda within step
  generalize st.perform agenda within step = performed at performs ⊢
  cases performs with
  | still | founding | foundingStandard | sprouting => exact .quiet rfl rfl
  | reslotting => exact .idle rfl rfl rfl
  | @ending step k s o => exact (st.terminate_leaves s o).errand
  | subscribing found readies =>
      cases readies with
      | newChannel => exact .founding _ rfl rfl rfl
      | newGate => exact .opening rfl rfl rfl
      | scripted | valueOnly | attachChannel | attachGate => exact .idle rfl rfl rfl
  | requesting found n => exact (st.request_leaves _ n).errand
  | cancelling | cancellingAttached => exact (st.cancel_leaves _).errand
  | opening => exact .founding _ rfl rfl rfl
  | openingGate => exact .opening rfl rfl rfl
  | @signalling k c found call h signal =>
      exact st.direct_errand (.channel c) (mem_of_slot? found) h signal _
  | @signallingGate k g found call h signal =>
      exact st.direct_errand (.gate g) (mem_of_slot? found) h signal _
  | taking receives found queue => exact .handing queue rfl rfl rfl
  | hangingUp => exact .hangingUp rfl rfl rfl

end Store

/-- **Every task is an errand.** -/
theorem Task.effect_errand (st : Store α ε) (rest : List (Task α ε)) (t : Task α ε) :
    Errand st (t.effect st rest) := by
  cases t with
  | perform within step => exact (st.perform_errand rest within step).framed rfl _
  | answer within step closing => cases closing <;> exact .idle rfl rfl rfl
  | notify h signal =>
      cases found : st.handles[h]? with
      | none =>
          have nothing : st.notify h signal = .quiet st := by simp [Store.notify, found]
          rw [effect, nothing]
          exact .quiet rfl rfl
      | some x => exact st.notify_errand found signal
  | finish h signal => exact (st.finish_leaves h signal).errand
  | deliver h o => exact (st.deliver_leaves h o).errand
  | letGo hs =>
      obtain ⟨channels, gates⟩ := st.letGo_leaves rest hs
      exact .idle channels gates (st.letGo_forgets rest hs).posts
  | giveUp s =>
      obtain ⟨channels, gates⟩ := st.giveUp_leaves rest s
      exact .idle channels gates (st.giveUp_forgets rest s).posts
  | hangUp c => exact .quiet rfl rfl

/-! ## Steps of a machine -/

namespace Machine

/-- **Every step is an errand.** -/
theorem step_errand (m : Machine α ε) : Errand m.store ⟨m.step.store, m.news, []⟩ := by
  cases turn : m.agenda with
  | nil =>
      rw [news_nil turn, step_nil turn]
      exact .idle rfl rfl rfl
  | cons t rest =>
      rw [news_cons turn, step_cons turn]
      exact (Task.effect_errand m.store rest t).transfer rfl rfl

end Machine

end OneShot
