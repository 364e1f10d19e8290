/-
# OneShot.Perform -- the steps of a script

`Store.perform` does a step: it looks up the slots that the step names, makes the
call, and says how the reply is found when the call is over.  A step that names a
slot with nothing in it does nothing and answers so.  `Store.conclude` finds
the reply, and makes the slots that only exist from then on.
-/
import OneShot.Calls

namespace OneShot

set_option autoImplicit false

namespace Store

variable {α ε : Type}

/-! ## Slots -/

def addSink (st : Store α ε) (s : SinkRef) : Store α ε :=
  st.modifySlots fun x => { x with sinks := x.sinks ++ [some s] }

def addSub (st : Store α ε) (sub : Option HandleRef) : Store α ε :=
  st.modifySlots fun x => { x with subs := x.subs ++ [sub] }

def addReceiver (st : Store α ε) (r : Receiver) : Store α ε :=
  st.modifySlots fun x => { x with receivers := x.receivers ++ [some r] }

def addGate (st : Store α ε) (g : GateRef) : Store α ε :=
  st.modifySlots fun x => { x with gates := x.gates ++ [some g] }

/-- A new sink in a new slot. -/
def addNewSink (st : Store α ε) (label : String) : Store α ε :=
  { st with sinks := st.sinks ++ [Sink.ofLabel label] }.addSink st.sinks.length

def newChannel (st : Store α ε) (initial : Option UInt64) : ChannelRef × Store α ε :=
  (st.channels.length,
    { st with
      channels := st.channels ++
        [{ initial := initial.getD Channel.standardDemand, queue := [], receiving := true }] })

def newGate (st : Store α ε) : GateRef × Store α ε :=
  (st.gates.length, { st with gates := st.gates ++ [false] })

/-! ## Steps -/

def settle (st : Store α ε) (r : Reply α ε) : Effect α ε × Closing α ε :=
  (.quiet st, .reply r)

/-- Does what a step does with the thing in a slot, if there is one. -/
def with? {β : Type} (st : Store α ε) (found : Option β)
    (act : β → Effect α ε × Closing α ε) : Effect α ε × Closing α ε :=
  match found with
  | some b => act b
  | none => st.settle .noSlot

/-- What a callback made by a step holds on to while it runs. -/
def holding : DirectTarget → List (Task α ε)
  | .channel c => [.hangUp c]
  | .gate _ => []

/-- A callback made by a step.  An acknowledgment needs a subscription to hand over. -/
def directly (st : Store α ε) (within : Option Nat) (target : DirectTarget)
    (call : DirectCall α ε) : Effect α ε × Closing α ε :=
  let made (signal : Signal α ε) (reaction : Effect α ε) : Effect α ε × Closing α ε :=
    ((reaction.after [.direct target signal]).followedBy (holding target), .reply .done)
  let heard (signal : Signal α ε) : Effect α ε × Closing α ε :=
    made signal (st.hear target.consumer signal)
  match call with
  | .subscribed name =>
      st.with? (st.sub? within name) fun sub =>
        made .subscribed (st.acknowledge target.consumer sub)
  | .next v => heard (.next v)
  | .complete => heard .complete
  | .error e => heard (.error e)

/-- The sending end of a channel exists: in a slot, as the consumer of a handle that is
alive, or in the midst of a callback that a step makes. -/
def connected (st : Store α ε) (agenda : List (Task α ε)) (c : ChannelRef) : Bool :=
  st.hasSender c || agenda.any (Task.sendsOn c)

/-- The oldest signal, taken out of the queue.  With nothing pending, a receiver is told
that the sending end is gone, or, while it exists, `otherwise`. -/
def receive (st : Store α ε) (agenda : List (Task α ε)) (c : ChannelRef)
    (otherwise : Reply α ε) : Effect α ε × Closing α ε :=
  match st.queue c with
  | signal :: rest =>
      (⟨st.modifyChannel c fun x => { x with queue := rest }, [.received c [signal]], []⟩,
        .reply (.received signal))
  | [] =>
      st.settle (if st.connected agenda c then otherwise else .refused .disconnected)

def ending (st : Store α ε) (sink : Nat) (outcome : Outcome α ε) :
    Effect α ε × Closing α ε :=
  st.with? (st.sink? sink) fun s =>
    let (won, effect) := st.terminate s outcome
    (effect, .reply (.flag won))

/-- Does a step; `agenda` is what is left to do behind it. -/
def perform (st : Store α ε) (agenda : List (Task α ε)) (within : Option Nat) :
    Step α ε → Effect α ε × Closing α ε
  | .newSink label =>
      (st.addNewSink (label.getD Sink.standardLabel)).settle (.sink st.slots.sinks.length)
  | .defaultSink => (st.addNewSink Sink.standardLabel).settle (.sink st.slots.sinks.length)
  | .cloneSink sink =>
      st.with? (st.sink? sink) fun s => (st.addSink s).settle (.sink st.slots.sinks.length)
  | .dropSink sink =>
      st.with? (st.sink? sink) fun s =>
        (⟨st.modifySlots fun x => { x with sinks := x.sinks.set sink none }, [], [.giveUp s]⟩,
          .reply .done)
  | .seed source =>
      let seed? : Option Seed :=
        match source with
        | .existing sink => (st.sink? sink).map .existing
        | .fresh label => some (.fresh label)
        | .standard => some (.fresh Sink.standardLabel)
      st.with? seed? fun seed =>
        (st.modifySlots fun x => { x with seeds := x.seeds ++ [some seed] }).settle
          (.seed st.slots.seeds.length (st.seedShape seed))
  | .growSeed k =>
      st.with? (st.seed? k) fun seed =>
        let grown := st.modifySlots fun x => { x with seeds := x.seeds.set k none }
        match seed with
        | .existing s => (grown.addSink s).settle (.sink st.slots.sinks.length)
        | .fresh label => (grown.addNewSink label).settle (.sink st.slots.sinks.length)
  | .succeed sink value => st.ending sink (.ofSuccess value)
  | .complete sink => st.ending sink .empty
  | .fail sink error => st.ending sink (.error error)
  | .inspect sink => st.with? (st.sink? sink) fun s => st.settle (.sinkView (st.sinkView s))
  | .pretty sink => st.with? (st.sink? sink) fun s => st.settle (.text (st.sinkView s).shape)
  | .outcome sink =>
      st.with? (st.sink? sink) fun s => st.settle (.outcome (st.registry s).outcome?)
  | .termination sink =>
      st.with? (st.sink? sink) fun s => st.settle (.termination (st.registry s).termination)
  | .count sink =>
      st.with? (st.sink? sink) fun s => st.settle (.count (st.registry s).handles.length)
  | .sameSink sink other =>
      st.with? (st.sink? other) fun t =>
        st.with? (st.sink? sink) fun s => st.settle (.flag (s == t))
  | .subscribe sink onSubscribe onNext onComplete onError =>
      st.with? (st.sink? sink) fun s =>
        let k := st.slots.subs.length
        let (h, effect) := (st.addSub none).subscribe s
          (.scripted k { onSubscribe, onNext, onComplete, onError })
        (effect, .enrolled k h)
  | .subscribeFn sink onNext =>
      st.with? (st.sink? sink) fun s =>
        let k := st.slots.subs.length
        let (h, effect) := (st.addSub none).subscribe s (.valueOnly k onNext)
        (effect, .fill k h)
  | .subscribeChannel sink initial =>
      st.with? (st.sink? sink) fun s =>
        let (c, made) := st.newChannel initial
        let (h, effect) := made.subscribe s (.channel c)
        (effect, .receive h c)
  | .gate sink =>
      st.with? (st.sink? sink) fun s =>
        let (g, made) := st.newGate
        let (_, effect) := made.subscribe s (.gate g)
        (effect, .keepGate g)
  | .request sub n =>
      st.with? (st.sub? within sub) fun h => (st.request h n, .reply .done)
  | .cancel sub => st.with? (st.sub? within sub) fun h => (st.cancel h, .reply .done)
  | .cloneSub sub =>
      st.with? (st.sub? within sub) fun h =>
        (st.addSub (some h)).settle (.sub st.slots.subs.length)
  | .subState sub =>
      st.with? (st.sub? within sub) fun h => st.settle (.subView (st.subView h))
  | .subPretty sub =>
      st.with? (st.sub? within sub) fun h => st.settle (.text (st.subView h).shape)
  | .newChannel initial =>
      let (c, made) := st.newChannel initial
      let slotted := made.modifySlots fun x => { x with channels := x.channels ++ [some c] }
      (slotted.addReceiver { channel := c, subscription := none }).settle
        (.channel st.slots.channels.length st.slots.receivers.length)
  | .signalChannel channel call =>
      st.with? (st.channel? channel) fun c =>
        st.directly within (.channel c) call
  | .attachChannel sink channel =>
      st.with? (st.sink? sink) fun s =>
        st.with? (st.channel? channel) fun c =>
          let taken := st.modifySlots fun x => { x with channels := x.channels.set channel none }
          let (h, effect) := taken.subscribe s (.channel c)
          (effect, .attach h)
  | .dropChannel channel =>
      st.with? (st.channel? channel) fun _ =>
        (st.modifySlots fun x => { x with channels := x.channels.set channel none }).settle .done
  | .withSubscription receiver sub =>
      st.with? (st.receiver? receiver) fun r =>
        st.with? (st.sub? within sub) fun h =>
          (st.modifySlots fun x =>
            { x with
              receivers := x.receivers.set receiver (some { r with subscription := some h }) }).settle
            .done
  | .recv receiver =>
      st.with? (st.receiver? receiver) fun r => st.receive agenda r.channel .blocked
  | .tryRecv receiver =>
      st.with? (st.receiver? receiver) fun r =>
        st.receive agenda r.channel (.refused .empty)
  | .recvTimeout receiver limit =>
      st.with? (st.receiver? receiver) fun r =>
        st.receive agenda r.channel (.refused (.timeout limit))
  | .drain receiver =>
      st.with? (st.receiver? receiver) fun r =>
        (⟨st.modifyChannel r.channel fun x => { x with queue := [] },
            [.received r.channel (st.queue r.channel)], []⟩,
          .reply (.signals (st.queue r.channel)))
  | .receiverCancel receiver =>
      st.with? (st.receiver? receiver) fun r =>
        match r.subscription with
        | some h => (st.cancel h, .reply .done)
        | none => st.settle .done
  | .receiverState receiver =>
      st.with? (st.receiver? receiver) fun r => st.settle (.receiverView (st.receiverView r))
  | .dropReceiver receiver =>
      st.with? (st.receiver? receiver) fun r =>
        ((st.modifyChannel r.channel fun x => { x with queue := [], receiving := false }).modifySlots
          fun x => { x with receivers := x.receivers.set receiver none }).settle .done
  | .newGate =>
      let (g, made) := st.newGate
      (made.addGate g).settle (.gate st.slots.gates.length)
  | .cloneGate gate =>
      st.with? (st.gate? gate) fun g => (st.addGate g).settle (.gate st.slots.gates.length)
  | .attachGate sink gate =>
      st.with? (st.sink? sink) fun s =>
        st.with? (st.gate? gate) fun g =>
          let (h, effect) := st.subscribe s (.gate g)
          (effect, .attach h)
  | .signalGate gate call =>
      st.with? (st.gate? gate) fun g =>
        st.directly within (.gate g) call
  | .gateState gate =>
      st.with? (st.gate? gate) fun g => st.settle (.gateView (st.gateClosed g))
  | .unknown _ => st.settle .unknownStep

/-- The reply of a step whose call is over, and the slots that it makes. -/
def conclude (st : Store α ε) : Closing α ε → Store α ε × Reply α ε
  | .reply r => (st, r)
  | .enrolled k h => (st, .enrolled k (st.handleId h) (!st.alive h))
  | .fill k h =>
      (st.modifySlots fun x => { x with subs := x.subs.set k (some h) },
        .enrolled k (st.handleId h) (!st.alive h))
  | .attach h =>
      (st.addSub (some h), .enrolled st.slots.subs.length (st.handleId h) (!st.alive h))
  | .receive h c =>
      ((st.addSub (some h)).addReceiver { channel := c, subscription := some h },
        .enrolledChannel st.slots.subs.length st.slots.receivers.length (st.handleId h)
          (!st.alive h))
  | .keepGate g => (st.addGate g, .gate st.slots.gates.length)

end Store

end OneShot
