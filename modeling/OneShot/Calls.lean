/-
# OneShot.Calls -- subscribing, asking, cancelling, ending, hearing

The calls of the library on its store.  Each is one `Effect`.

* `subscribe` makes a handle and starts its acknowledgment; when that callback has
  returned, `enrol` puts the handle into the registry, or replays the outcome if
  the sink has ended meanwhile.
* `terminate` is won by the first call on a sink.  The winner freezes the
  registry and offers the outcome to the handles that stood in it, in order.
* `deliver` is that offer.  A value needs demand: without it the value is parked.
  Completion and errors need none.  A cancelled handle hears nothing.
* `request` records demand, or serves a parked value.
* `cancel` is final; it discards a parked value and takes the handle out of the
  registry.

`acknowledge` and `hear` are what a consumer does with a signal.
-/
import OneShot.Task

namespace OneShot

set_option autoImplicit false

namespace Store

variable {α ε : Type}

/-- Demand on a handle.  A released handle is out of reach; zero is refused. -/
def request (st : Store α ε) (h : HandleRef) (n : UInt64) : Effect α ε :=
  match st.handles[h]? with
  | none => .quiet st
  | some handle =>
      if handle.released then .quiet st
      else if n = 0 then
        ⟨st, [.requesting h n, .noticed (.zeroDemand h)], [.letGo [h]]⟩
      else
        match handle.phase with
        | .idle =>
            ⟨st.modifyHandle h fun x => { x with phase := .requested },
              [.requesting h n], [.letGo [h]]⟩
        | .parked =>
            let served := st.modifyHandle h fun x =>
              { x with phase := .served, parked := none, keepAlive := false }
            match handle.parked with
            | some (.value v) =>
                ⟨served, [.requesting h n, .noticed (.demandMet h)],
                  [.notify h (.next v), .letGo [h]]⟩
            | some _ => ⟨served, [.requesting h n, .noticed (.demandMet h)], [.letGo [h]]⟩
            | none => ⟨served, [.requesting h n], [.letGo [h]]⟩
        | .requested | .served | .cancelled => ⟨st, [.requesting h n], [.letGo [h]]⟩

/-- Takes a handle out of its sink's registry, if it is there. -/
def unregister (st : Store α ε) (s : SinkRef) (h : HandleRef) : Store α ε × List (Event α ε) :=
  if (st.registry s).handles.contains h then
    (st.modifySink s fun x => { x with registry := x.registry.erase h },
      [.noticed (.removed s h)])
  else (st, [])

/-- Only the call that finds the handle not yet cancelled changes anything. -/
def cancel (st : Store α ε) (h : HandleRef) : Effect α ε :=
  match st.handles[h]? with
  | none => .quiet st
  | some handle =>
      if handle.released then .quiet st
      else if handle.phase = .cancelled then ⟨st, [.cancelling h], [.letGo [h]]⟩
      else
        let cancelled := st.modifyHandle h fun x =>
          { x with phase := .cancelled, parked := none, keepAlive := false }
        let (left, removal) := cancelled.unregister handle.sink h
        ⟨left, .cancelling h :: .noticed (.cancelled h) :: removal, [.letGo [h]]⟩

/-! ## Consumers -/

/-- A signal goes to the end of a channel's queue, unless its receiver is gone or
the queue is full; then it is discarded. -/
def forward (st : Store α ε) (c : ChannelRef) (signal : Signal α ε) :
    Store α ε × List (Event α ε) :=
  match st.channels[c]? with
  | none => (st, [])
  | some channel =>
      if !channel.receiving then (st, [.noticed (.receiverGone c)])
      else if Channel.capacity ≤ channel.queue.length then (st, [.noticed (.channelFull c)])
      else (st.modifyChannel c fun x => { x with queue := x.queue ++ [signal] }, [])

/-- A gate closes once. -/
def close (st : Store α ε) (g : GateRef) : Store α ε × List (Event α ε) :=
  if st.gateClosed g then (st, [])
  else ({ st with gates := st.gates.set g true }, [.noticed (.gateClosed g)])

def runHook (slot : Nat) (steps : List (Step α ε)) : List (Task α ε) :=
  steps.map (.perform (some slot))

/-- What a consumer does when it is acknowledged and handed its subscription.  A
script finds the subscription in its slot.  The others ask at once: for everything,
for the channel's initial demand if there is one, or for the one value. -/
def acknowledge (st : Store α ε) (consumer : Consumer α ε) (sub : HandleRef) : Effect α ε :=
  match consumer with
  | .scripted slot hooks =>
      ⟨st.modifySlots fun x => { x with subs := x.subs.set slot (some sub) }, [],
        runHook slot hooks.onSubscribe⟩
  | .valueOnly _ _ => st.request sub Channel.standardDemand
  | .channel c =>
      let (told, events) := st.forward c .subscribed
      let initial := (told.channels[c]?.map Channel.initial).getD 0
      if initial = 0 then ⟨told, events, []⟩ else (told.request sub initial).after events
  | .gate _ => st.request sub 1

/-- What a consumer does with a signal after its acknowledgment. -/
def hear (st : Store α ε) (consumer : Consumer α ε) (signal : Signal α ε) : Effect α ε :=
  match consumer, signal with
  | .scripted slot hooks, signal => ⟨st, [], runHook slot (hooks.on signal)⟩
  | .valueOnly slot onNext, .next _ => ⟨st, [], runHook slot onNext⟩
  | .valueOnly _ _, .error _ => ⟨st, [.noticed .errorUnheard], []⟩
  | .valueOnly _ _, .subscribed | .valueOnly _ _, .complete => .quiet st
  | .channel c, signal => let (told, events) := st.forward c signal; ⟨told, events, []⟩
  | .gate _, .subscribed => .quiet st
  | .gate g, .next _ | .gate g, .complete | .gate g, .error _ =>
      let (shut, events) := st.close g
      ⟨shut, events, []⟩

/-- Starts a callback of a handle's consumer. -/
def notify (st : Store α ε) (h : HandleRef) (signal : Signal α ε) : Effect α ε :=
  match st.handles[h]? with
  | none => .quiet st
  | some handle =>
      let reaction :=
        match signal with
        | .subscribed => st.acknowledge handle.consumer h
        | _ => st.hear handle.consumer signal
      (reaction.after [.began h signal]).followedBy [.finish h signal]

/-! ## Sinks -/

/-- Offers the outcome of its sink to a handle. -/
def deliver (st : Store α ε) (h : HandleRef) (outcome : Outcome α ε) : Effect α ε :=
  Effect.after [.attempted h outcome] <|
    match st.phase h, outcome with
    | .cancelled, _ => ⟨st, [.noticed (.suppressed h)], []⟩
    | _, .empty => ⟨st, [], [.notify h .complete]⟩
    | _, .error e => ⟨st, [], [.notify h (.error e)]⟩
    | .requested, .value v =>
        ⟨st.modifyHandle h fun x => { x with phase := .served }, [], [.notify h (.next v)]⟩
    | .idle, .value v =>
        ⟨st.modifyHandle h fun x =>
            { x with phase := .parked, parked := some (.value v), keepAlive := true },
          [.noticed (.valueParked h)], []⟩
    | .parked, .value _ | .served, .value _ => .quiet st

/-- After its acknowledgment a handle joins the registry, or hears the outcome that
the sink has already ended with.  A handle that was cancelled meanwhile leaves the
registry at once. -/
def enrol (st : Store α ε) (h : HandleRef) : Effect α ε :=
  match st.handles[h]? with
  | none => .quiet st
  | some handle =>
      let s := handle.sink
      match st.registry s with
      | .frozen outcome => ⟨st, [.noticed (.replaying s h)], [.deliver h outcome]⟩
      | .live waiting =>
          let joined := st.modifySink s fun x => { x with registry := .live (waiting ++ [h]) }
          let (left, removal) :=
            if handle.phase = .cancelled then joined.unregister s h else (joined, [])
          ⟨left, .noticed (.registered s h) :: removal, []⟩

/-- What follows a callback: enrolment after the acknowledgment, completion after a
value unless the consumer has cancelled. -/
def finish (st : Store α ε) (h : HandleRef) (signal : Signal α ε) : Effect α ε :=
  Effect.after [.ended h signal] <|
    match signal with
    | .subscribed => st.enrol h
    | .next _ => if st.phase h = .cancelled then .quiet st else ⟨st, [], [.notify h .complete]⟩
    | .complete | .error _ => .quiet st

/-- Subscribes a consumer: the new handle, and what the call does. -/
def subscribe (st : Store α ε) (s : SinkRef) (consumer : Consumer α ε) :
    HandleRef × Effect α ε :=
  let h := st.handles.length
  let id : HandleId := ⟨(st.sinks[s]?.map Sink.nextId).getD 0⟩
  let made := { st.modifySink s fun x => { x with nextId := x.nextId + 1 } with
    handles := st.handles ++ [Handle.new s id consumer] }
  (h, ⟨made, [.subscribing s h], [.notify h .subscribed, .letGo [h], .giveUp s]⟩)

/-- Ends a sink, if no call has done so before; the answer is whether this one did. -/
def terminate (st : Store α ε) (s : SinkRef) (outcome : Outcome α ε) : Bool × Effect α ε :=
  match st.sinks[s]? with
  | none => (false, .quiet st)
  | some sink =>
      if sink.flag = .pending then
        let waiting := sink.registry.handles
        let frozen := st.modifySink s fun x =>
          { x with flag := outcome.termination, registry := .frozen outcome }
        (true,
          ⟨frozen,
            [.terminating s outcome true,
             .noticed (.terminated s outcome.termination waiting.length)],
            waiting.map (.deliver · outcome) ++ [.letGo waiting, .giveUp s]⟩)
      else
        (false,
          ⟨st,
            [.terminating s outcome false,
             .noticed (.ignored s outcome.termination sink.flag)],
            [.giveUp s]⟩)

end Store

end OneShot
