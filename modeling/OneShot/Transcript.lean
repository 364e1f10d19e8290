/-
# OneShot.Transcript -- what a run reports

For each step of the script itself, a transcript has its reply and the lines that
were written while it ran.  A consumer made by `subscribe` reports each callback
when it starts, one made by `subscribeFn` only a value; both report the steps of
their hooks with what these answered, and that they were let go.  Channels and
gates report nothing.  Notices are reported on request, as log lines.
-/
import OneShot.Machine

namespace OneShot

set_option autoImplicit false

variable {α ε : Type}

inductive Level
  | trace
  | debug
  | warn
  deriving DecidableEq, Repr

def Level.name : Level → String
  | trace => "trace"
  | debug => "debug"
  | warn => "warn"

/-- A field of a log line. -/
inductive LogValue
  | text (s : String)
  | number (n : Nat)
  deriving DecidableEq, Repr

structure LogLine where
  level : Level
  message : String
  fields : List (String × LogValue)
  deriving DecidableEq, Repr

namespace Store

def sinkField (st : Store α ε) (s : SinkRef) : String × LogValue :=
  ("sink", .text ((st.sinks[s]?.map Sink.label).getD ""))

def handleField (st : Store α ε) (h : HandleRef) : String × LogValue :=
  ("handle", .text (st.handleId h).text)

/-- A notice in words.  Labels and numbers never change, so any later store will do. -/
def logLine (st : Store α ε) : Notice → LogLine
  | .ignored s attempted current =>
      ⟨.trace, "sink already terminated; ignoring",
        [st.sinkField s, ("attempted", .text attempted.name), ("current", .text current.name)]⟩
  | .terminated s termination subscribers =>
      ⟨.debug, "sink terminated",
        [st.sinkField s, ("termination", .text termination.name),
          ("subscribers", .number subscribers)]⟩
  | .registered s h => ⟨.trace, "subscriber registered", [st.sinkField s, st.handleField h]⟩
  | .removed s h => ⟨.trace, "subscriber removed", [st.sinkField s, st.handleField h]⟩
  | .replaying s h => ⟨.trace, "replaying cached outcome", [st.sinkField s, st.handleField h]⟩
  | .zeroDemand h =>
      ⟨.warn, "request(0) violates the subscription protocol; ignored", [st.handleField h]⟩
  | .demandMet h => ⟨.trace, "demand received, emitting parked value", [st.handleField h]⟩
  | .cancelled h => ⟨.trace, "subscription cancelled", [st.handleField h]⟩
  | .suppressed h =>
      ⟨.trace, "delivery suppressed, subscription cancelled", [st.handleField h]⟩
  | .valueParked h => ⟨.trace, "value parked until demand", [st.handleField h]⟩
  | .errorUnheard => ⟨.debug, "error signal reached a value-only subscriber", []⟩
  | .channelFull _ =>
      ⟨.warn, "signal channel full; more than one terminal signal was emitted", []⟩
  | .receiverGone _ => ⟨.trace, "signal receiver dropped; discarding signal", []⟩
  | .gateClosed _ => ⟨.trace, "gate closed", []⟩

end Store

/-- One line of a report; numbers are subscription slots. -/
inductive Line (α ε : Type)
  | callback (slot : Nat) (signal : Signal α ε)
  | did (slot : Nat) (step : Step α ε) (reply : Reply α ε)
  | dropped (slot : Nat)
  | log (line : LogLine)

/-- Whether a consumer reports that it hears a signal, and under which slot. -/
def Consumer.reports? : Consumer α ε → Signal α ε → Option Nat
  | .scripted slot _, _ => some slot
  | .valueOnly slot _, .next _ => some slot
  | _, _ => none

/-- The line that an event writes, if it writes one. -/
def Store.line? (st : Store α ε) (logging : Bool) : Event α ε → Option (Line α ε)
  | .began h signal =>
      (st.handles[h]?.bind fun x => x.consumer.reports? signal).map (.callback · signal)
  | .answered (some slot) step reply => some (.did slot step reply)
  | .dropped h => (st.handles[h]?.bind fun x => x.consumer.slot?).map .dropped
  | .noticed notice => if logging then some (.log (st.logLine notice)) else none
  | _ => none

structure Entry (α ε : Type) where
  reply : Reply α ε
  lines : List (Line α ε)

/-- Cuts a history at the answers of the script's own steps; `pending` are the lines
since the last one, latest first. -/
def Store.entries (st : Store α ε) (logging : Bool) :
    List (Line α ε) → List (Event α ε) → List (Entry α ε)
  | _, [] => []
  | pending, .answered none _ reply :: rest =>
      ⟨reply, pending.reverse⟩ :: st.entries logging [] rest
  | pending, event :: rest =>
      match st.line? logging event with
      | some line => st.entries logging (line :: pending) rest
      | none => st.entries logging pending rest

/-- The report of a run. -/
def Machine.transcript (m : Machine α ε) (logging : Bool) : List (Entry α ε) :=
  m.store.entries logging [] m.history

end OneShot
