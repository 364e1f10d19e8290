/-
# OneShot.Proofs.Performing -- what steps and consumers come to

There are some forty steps, and consumers that answer signals with more of them.  What each of
them comes to is listed once, with what held before and with the whole effect:

* `Store.Sends` -- a signal to a channel,
* `Store.Reacts` -- a consumer's answer to a signal,
* `Store.Performs` -- a step of a script.  Steps that only move what stands in slots come to
  `Store.Reslots`, and steps that subscribe to `Store.Readies`, which says what they make first.

`forward_sends`, `react_reacts` and `perform_performs` say that there are no other ways.  What
every step keeps is proved from these lists, not from the steps.
-/
import OneShot.Proofs.Run

namespace OneShot

set_option autoImplicit false

variable {α ε : Type}

/-- The sink slot and the outcome of a step that ends a sink. -/
def Step.ending? : Step α ε → Option (Nat × Outcome α ε)
  | succeed k (some v) => some (k, .value v)
  | succeed k none | complete k => some (k, .empty)
  | fail k e => some (k, .error e)
  | _ => none

/-- The slot of the receiver that a step takes signals from. -/
def Step.receiver? : Step α ε → Option Nat
  | recv r | tryRecv r | recvTimeout r _ | drain r => some r
  | _ => none

/-- The signals that a reply hands over. -/
def Reply.handsOver : Reply α ε → List (Signal α ε)
  | received signal => [signal]
  | signals queue => queue
  | _ => []

def Closing.handsOver : Closing α ε → List (Signal α ε)
  | reply r => r.handsOver
  | _ => []

namespace Store

/-! ## Consumers -/

/-- How a signal to a channel comes out. -/
inductive Sends (st : Store α ε) (c : ChannelRef) (signal : Signal α ε) :
    Store α ε × List (Event α ε) → Prop
  | missed (none_ : st.channels[c]? = none) : Sends st c signal (st, [])
  | gone {y : Channel α ε} (found : st.channels[c]? = some y) (off : y.receiving = false) :
      Sends st c signal (st, [.noticed (.receiverGone c)])
  | full {y : Channel α ε} (found : st.channels[c]? = some y) (on : y.receiving = true)
      (full : Channel.capacity ≤ y.queue.length) :
      Sends st c signal (st, [.noticed (.channelFull c)])
  | kept {y : Channel α ε} (found : st.channels[c]? = some y) (on : y.receiving = true)
      (room : y.queue.length < Channel.capacity) :
      Sends st c signal (st.modifyChannel c fun x => { x with queue := x.queue ++ [signal] }, [])

theorem forward_sends (st : Store α ε) (c : ChannelRef) (signal : Signal α ε) :
    st.Sends c signal (st.forward c signal) := by
  unfold forward
  split
  · rename_i none_
    exact .missed none_
  · rename_i y found
    split
    · rename_i off
      exact .gone found (by simpa using off)
    · rename_i on
      have on : y.receiving = true := by simpa using on
      split
      · rename_i full
        exact .full found on full
      · rename_i room
        exact .kept found on (Nat.lt_of_not_le room)

/-- A consumer's answer to a signal. -/
def react (st : Store α ε) (consumer : Consumer α ε) (h : HandleRef) : Signal α ε → Effect α ε
  | .subscribed => st.acknowledge consumer h
  | signal => st.hear consumer signal

/-- How a consumer answers a signal; `h` is the subscription that it is handed. -/
inductive Reacts (st : Store α ε) (h : HandleRef) :
    Consumer α ε → Signal α ε → Effect α ε → Prop
  /-- A script finds its subscription in the slot that is reserved for it. -/
  | greeting (slot : Nat) (hooks : Hooks α ε) :
      Reacts st h (.scripted slot hooks) .subscribed
        ⟨st.modifySlots fun x => { x with subs := x.subs.set slot (some h) }, [],
          runHook slot hooks.onSubscribe⟩
  | running (slot : Nat) (hooks : Hooks α ε) {signal : Signal α ε} (later : signal ≠ .subscribed) :
      Reacts st h (.scripted slot hooks) signal ⟨st, [], runHook slot (hooks.on signal)⟩
  | asking (slot : Nat) (onNext : List (Step α ε)) :
      Reacts st h (.valueOnly slot onNext) .subscribed (st.request h Channel.standardDemand)
  | valued (slot : Nat) (onNext : List (Step α ε)) (v : α) :
      Reacts st h (.valueOnly slot onNext) (.next v) ⟨st, [], runHook slot onNext⟩
  | completed (slot : Nat) (onNext : List (Step α ε)) :
      Reacts st h (.valueOnly slot onNext) .complete (.quiet st)
  | unheard (slot : Nat) (onNext : List (Step α ε)) (e : ε) :
      Reacts st h (.valueOnly slot onNext) (.error e) ⟨st, [.noticed .errorUnheard], []⟩
  | sending (c : ChannelRef) (signal : Signal α ε) :
      Reacts st h (.channel c) signal ⟨(st.forward c signal).1, (st.forward c signal).2, []⟩
  /-- A channel with an initial demand passes the acknowledgment on and asks. -/
  | sendingAsking (c : ChannelRef) (n : UInt64) :
      Reacts st h (.channel c) .subscribed
        (((st.forward c .subscribed).1.request h n).after (st.forward c .subscribed).2)
  | askingOnce (g : GateRef) : Reacts st h (.gate g) .subscribed (st.request h 1)
  | closing (g : GateRef) {signal : Signal α ε} (later : signal ≠ .subscribed) :
      Reacts st h (.gate g) signal ⟨(st.close g).1, (st.close g).2, []⟩

theorem react_reacts (st : Store α ε) (consumer : Consumer α ε) (h : HandleRef)
    (signal : Signal α ε) : st.Reacts h consumer signal (st.react consumer h signal) := by
  cases consumer with
  | scripted slot hooks =>
      cases signal with
      | subscribed => exact .greeting slot hooks
      | next | complete | error => exact .running slot hooks (by simp)
  | valueOnly slot onNext =>
      cases signal with
      | subscribed => exact .asking slot onNext
      | next v => exact .valued slot onNext v
      | complete => exact .completed slot onNext
      | error e => exact .unheard slot onNext e
  | channel c =>
      cases signal with
      | subscribed =>
          simp only [react, acknowledge]
          split
          · exact .sending c .subscribed
          · exact .sendingAsking c _
      | next v => exact .sending c (.next v)
      | complete => exact .sending c .complete
      | error e => exact .sending c (.error e)
  | gate g =>
      cases signal with
      | subscribed => exact .askingOnce g
      | next | complete | error => exact .closing g (by simp)

/-- A callback begins, its consumer answers, and it has to end. -/
theorem notify_eq {st : Store α ε} {h : HandleRef} {x : Handle α ε}
    (found : st.handles[h]? = some x) (signal : Signal α ε) :
    st.notify h signal =
      ((st.react x.consumer h signal).after [.began h signal]).followedBy [.finish h signal] := by
  simp only [notify, found]
  cases signal <;> rfl

/-! ## Steps -/

/-- How a step that only moves what stands in slots leaves them, and what it gives up. -/
inductive Reslots (st : Store α ε) (within : Option Nat) :
    Step α ε → Slots → List (Task α ε) → Prop
  | cloneSink {k : Nat} {s : SinkRef} (found : st.sink? k = some s) :
      Reslots st within (.cloneSink k)
        { st.slots with sinks := st.slots.sinks ++ [some s] } []
  | dropSink {k : Nat} {s : SinkRef} (found : st.sink? k = some s) :
      Reslots st within (.dropSink k)
        { st.slots with sinks := st.slots.sinks.set k none } [.giveUp s]
  | seed {source : SeedSource} {seed : Seed}
      (held : ∀ s, seed = .existing s → ∃ k, st.sink? k = some s) :
      Reslots st within (.seed source)
        { st.slots with seeds := st.slots.seeds ++ [some seed] } []
  | growSeed {k : Nat} {s : SinkRef} (found : st.seed? k = some (.existing s)) :
      Reslots st within (.growSeed k)
        { st.slots with
          seeds := st.slots.seeds.set k none, sinks := st.slots.sinks ++ [some s] } []
  | cloneSub {name : SubName} {h : HandleRef} (found : st.sub? within name = some h) :
      Reslots st within (.cloneSub name)
        { st.slots with subs := st.slots.subs ++ [some h] } []
  | dropChannel {k : Nat} {c : ChannelRef} (found : st.channel? k = some c) :
      Reslots st within (.dropChannel k)
        { st.slots with channels := st.slots.channels.set k none } []
  | withSubscription {k : Nat} {r : Receiver} {name : SubName} {h : HandleRef}
      (found : st.receiver? k = some r) (named : st.sub? within name = some h) :
      Reslots st within (.withSubscription k name)
        { st.slots with
          receivers := st.slots.receivers.set k (some { r with subscription := some h }) } []
  | cloneGate {k : Nat} {g : GateRef} (found : st.gate? k = some g) :
      Reslots st within (.cloneGate k)
        { st.slots with gates := st.slots.gates ++ [some g] } []

/-- What a step makes before it subscribes to the sink in the slot `k`: the store, the consumer,
and how the reply will be found. -/
inductive Readies (st : Store α ε) (k : Nat) :
    Step α ε → Store α ε → Consumer α ε → Closing α ε → Prop
  | scripted (hooks : Hooks α ε) :
      Readies st k (.subscribe k hooks.onSubscribe hooks.onNext hooks.onComplete hooks.onError)
        (st.addSub none) (.scripted st.slots.subs.length hooks)
        (.enrolled st.slots.subs.length st.handles.length)
  | valueOnly (onNext : List (Step α ε)) :
      Readies st k (.subscribeFn k onNext) (st.addSub none)
        (.valueOnly st.slots.subs.length onNext) (.fill st.slots.subs.length st.handles.length)
  | newChannel (initial : Option UInt64) :
      Readies st k (.subscribeChannel k initial) (st.newChannel initial).2
        (.channel st.channels.length) (.receive st.handles.length st.channels.length)
  | newGate :
      Readies st k (.gate k) st.newGate.2 (.gate st.gates.length) (.keepGate st.gates.length)
  | attachChannel {j : Nat} {c : ChannelRef} (found : st.channel? j = some c) :
      Readies st k (.attachChannel k j)
        (st.modifySlots fun x => { x with channels := x.channels.set j none })
        (.channel c) (.attach st.handles.length)
  | attachGate {j : Nat} {g : GateRef} (found : st.gate? j = some g) :
      Readies st k (.attachGate k j) st (.gate g) (.attach st.handles.length)

/-- How a step comes out: its effect, and how its reply is found. -/
inductive Performs (st : Store α ε) (within : Option Nat) :
    Step α ε → Effect α ε × Closing α ε → Prop
  /-- A slot is empty, or something is only looked at. -/
  | still (step : Step α ε) {r : Reply α ε} (mute : r.handsOver = []) :
      Performs st within step (st.settle r)
  | founding (label : Option String) :
      Performs st within (.newSink label)
        ((st.addNewSink (label.getD Sink.standardLabel)).settle (.sink st.slots.sinks.length))
  | foundingStandard :
      Performs st within .defaultSink
        ((st.addNewSink Sink.standardLabel).settle (.sink st.slots.sinks.length))
  | sprouting {k : Nat} {label : String} (found : st.seed? k = some (.fresh label)) :
      Performs st within (.growSeed k)
        (((st.modifySlots fun x => { x with seeds := x.seeds.set k none }).addNewSink label).settle
          (.sink st.slots.sinks.length))
  | reslotting {step : Step α ε} {slots : Slots} {tasks : List (Task α ε)} {r : Reply α ε}
      (reslots : st.Reslots within step slots tasks) (mute : r.handsOver = []) :
      Performs st within step (⟨{ st with slots }, [], tasks⟩, .reply r)
  | ending {step : Step α ε} {k : Nat} {s : SinkRef} {o : Outcome α ε}
      (ends : step.ending? = some (k, o)) (found : st.sink? k = some s) :
      Performs st within step ((st.terminate s o).2, .reply (.flag (st.terminate s o).1))
  | subscribing {step : Step α ε} {k : Nat} {s : SinkRef} {st' : Store α ε}
      {consumer : Consumer α ε} {closing : Closing α ε} (found : st.sink? k = some s)
      (readies : st.Readies k step st' consumer closing) :
      Performs st within step ((st'.subscribe s consumer).2, closing)
  | requesting {name : SubName} {h : HandleRef} (found : st.sub? within name = some h)
      (n : UInt64) :
      Performs st within (.request name n) (st.request h n, .reply .done)
  | cancelling {name : SubName} {h : HandleRef} (found : st.sub? within name = some h) :
      Performs st within (.cancel name) (st.cancel h, .reply .done)
  | cancellingAttached {k : Nat} {r : Receiver} {h : HandleRef} (found : st.receiver? k = some r)
      (attached : r.subscription = some h) :
      Performs st within (.receiverCancel k) (st.cancel h, .reply .done)
  | opening (initial : Option UInt64) :
      Performs st within (.newChannel initial)
        ((((st.newChannel initial).2.modifySlots fun x =>
            { x with channels := x.channels ++ [some st.channels.length] }).addReceiver
              { channel := st.channels.length, subscription := none }).settle
          (.channel st.slots.channels.length st.slots.receivers.length))
  | openingGate :
      Performs st within .newGate
        ((st.newGate.2.addGate st.gates.length).settle (.gate st.slots.gates.length))
  /-- A callback of a channel is made past every sink. -/
  | signalling {k : Nat} {c : ChannelRef} (found : st.channel? k = some c) (call : DirectCall α ε)
      (h : HandleRef) (signal : Signal α ε) :
      Performs st within (.signalChannel k call)
        (((st.react (.channel c) h signal).after [.direct (.channel c) signal]).followedBy
          [.hangUp c], .reply .done)
  | signallingGate {k : Nat} {g : GateRef} (found : st.gate? k = some g) (call : DirectCall α ε)
      (h : HandleRef) (signal : Signal α ε) :
      Performs st within (.signalGate k call)
        (((st.react (.gate g) h signal).after [.direct (.gate g) signal]).followedBy [],
          .reply .done)
  | taking {step : Step α ε} {k : Nat} {x : Receiver} {rest : List (Signal α ε)} {r : Reply α ε}
      (receives : step.receiver? = some k) (found : st.receiver? k = some x)
      (queue : st.queue x.channel = r.handsOver ++ rest) :
      Performs st within step
        (⟨st.modifyChannel x.channel fun y => { y with queue := rest },
          [.received x.channel r.handsOver], []⟩, .reply r)
  | hangingUp {k : Nat} {x : Receiver} (found : st.receiver? k = some x) :
      Performs st within (.dropReceiver k)
        (((st.modifyChannel x.channel fun y =>
            { y with queue := [], receiving := false }).modifySlots fun y =>
              { y with receivers := y.receivers.set k none }).settle .done)

namespace Performs

variable {st : Store α ε} {within : Option Nat} {step : Step α ε}

/-- A step that names a slot with nothing in it does nothing. -/
theorem with? {β : Type} {found : Option β} {act : β → Effect α ε × Closing α ε}
    (performs : ∀ b, found = some b → st.Performs within step (act b)) :
    st.Performs within step (st.with? found act) := by
  cases found with
  | none => exact .still step rfl
  | some b => exact performs b rfl

theorem ending_of {k : Nat} {o : Outcome α ε} (ends : step.ending? = some (k, o)) :
    st.Performs within step (st.ending k o) :=
  with? fun _ found => .ending ends found

/-- A step that receives takes the oldest signal, or finds nothing pending. -/
theorem receive {k : Nat} {x : Receiver} (receives : step.receiver? = some k)
    (found : st.receiver? k = some x) (agenda : List (Task α ε)) {otherwise : Reply α ε}
    (mute : otherwise.handsOver = []) :
    st.Performs within step (st.receive agenda x.channel otherwise) := by
  unfold Store.receive
  split
  · rename_i signal rest pending
    have queue : st.queue x.channel = (Reply.received signal).handsOver ++ rest := pending
    exact .taking receives found queue
  · refine .still step ?_
    split
    · exact mute
    · rfl

theorem signalChannel {k : Nat} {c : ChannelRef} (found : st.channel? k = some c)
    (call : DirectCall α ε) :
    st.Performs within (.signalChannel k call) (st.directly within (.channel c) call) := by
  cases call with
  | subscribed name => exact with? fun h _ => .signalling found _ h .subscribed
  | next v => exact .signalling found _ 0 (.next v)
  | complete => exact .signalling found _ 0 .complete
  | error e => exact .signalling found _ 0 (.error e)

theorem signalGate {k : Nat} {g : GateRef} (found : st.gate? k = some g)
    (call : DirectCall α ε) :
    st.Performs within (.signalGate k call) (st.directly within (.gate g) call) := by
  cases call with
  | subscribed name => exact with? fun h _ => .signallingGate found _ h .subscribed
  | next v => exact .signallingGate found _ 0 (.next v)
  | complete => exact .signallingGate found _ 0 .complete
  | error e => exact .signallingGate found _ 0 (.error e)

end Performs

theorem perform_performs (st : Store α ε) (agenda : List (Task α ε)) (within : Option Nat)
    (step : Step α ε) : st.Performs within step (st.perform agenda within step) := by
  cases step with
  | newSink label => exact .founding label
  | defaultSink => exact .foundingStandard
  | cloneSink sink => exact .with? fun s found => .reslotting (.cloneSink found) rfl
  | dropSink sink => exact .with? fun s found => .reslotting (.dropSink found) rfl
  | seed source =>
      refine .with? fun seed found => .reslotting (.seed ?_) rfl
      rintro s rfl
      cases source with
      | existing sink =>
          obtain ⟨s', at_, same⟩ := Option.map_eq_some_iff.1 found
          cases same
          exact ⟨sink, at_⟩
      | fresh label => cases found
      | standard => cases found
  | growSeed k =>
      refine .with? fun seed found => ?_
      cases seed with
      | existing s => exact .reslotting (.growSeed found) rfl
      | fresh label => exact .sprouting found
  | succeed sink value => cases value <;> exact .ending_of rfl
  | complete sink => exact .ending_of rfl
  | fail sink error => exact .ending_of rfl
  | inspect | pretty | outcome | termination | count | subState | subPretty | receiverState
  | gateState => exact .with? fun _ _ => .still _ rfl
  | sameSink => exact .with? fun _ _ => .with? fun _ _ => .still _ rfl
  | subscribe sink onSubscribe onNext onComplete onError =>
      exact .with? fun s found =>
        .subscribing found (.scripted { onSubscribe, onNext, onComplete, onError })
  | subscribeFn sink onNext => exact .with? fun s found => .subscribing found (.valueOnly _)
  | subscribeChannel sink initial =>
      exact .with? fun s found => .subscribing found (.newChannel _)
  | gate sink => exact .with? fun s found => .subscribing found .newGate
  | attachChannel sink channel =>
      exact .with? fun s found => .with? fun c taken => .subscribing found (.attachChannel taken)
  | attachGate sink gate =>
      exact .with? fun s found => .with? fun g taken => .subscribing found (.attachGate taken)
  | request sub n => exact .with? fun h found => .requesting found n
  | cancel sub => exact .with? fun h found => .cancelling found
  | cloneSub sub => exact .with? fun h found => .reslotting (.cloneSub found) rfl
  | newChannel initial => exact .opening initial
  | signalChannel channel call => exact .with? fun c found => .signalChannel found call
  | dropChannel channel => exact .with? fun c found => .reslotting (.dropChannel found) rfl
  | withSubscription receiver sub =>
      exact .with? fun r found => .with? fun h named =>
        .reslotting (.withSubscription found named) rfl
  | recv receiver | tryRecv receiver | recvTimeout receiver limit =>
      exact .with? fun r found => .receive rfl found agenda rfl
  | drain receiver =>
      refine .with? fun r found => ?_
      have queue : st.queue r.channel = (Reply.signals (st.queue r.channel)).handsOver ++ [] :=
        (List.append_nil _).symm
      exact .taking rfl found queue
  | receiverCancel receiver =>
      refine .with? fun r found => ?_
      cases attached : r.subscription with
      | some h => exact .cancellingAttached found attached
      | none => exact .still _ rfl
  | dropReceiver receiver => exact .with? fun r found => .hangingUp found
  | newGate => exact .openingGate
  | cloneGate gate => exact .with? fun g found => .reslotting (.cloneGate found) rfl
  | signalGate gate call => exact .with? fun g found => .signalGate found call
  | unknown name => exact .still _ rfl

end Store

end OneShot
