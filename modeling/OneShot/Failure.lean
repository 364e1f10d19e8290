/-
# OneShot.Failure -- the errors of sinks and receivers

A `Failure` is what a producer reports or what a receiver runs into.  It can
hold an error of someone else's (`foreign`) or another failure (`wrapped`).  Such
a layer is transparent: the failure is displayed as what it holds, and its chain
of sources is the chain of what it holds, in which neither the layer nor what it
holds has an entry.  Only the outline (`Failure.shape`) shows the layers.
-/
import OneShot.Text.Duration
import OneShot.Text.Shape

namespace OneShot

set_option autoImplicit false

open Text

/-- What an error has to say down the chain of its causes: its message, and the messages of
what caused it, nearest first. -/
structure Cause where
  message : String
  causes : List String
  deriving DecidableEq, Repr

/-- The outline of an error that is nothing but a record of its message and of its cause. -/
def Cause.recordShape (message : String) : List String → Shape
  | [] => .record "Foreign" [("message", .string message), ("cause", .option none)]
  | cause :: rest =>
      .record "Foreign"
        [("message", .string message), ("cause", .option (some (recordShape cause rest)))]

/-- An error from outside.  It outlines itself as it likes; one that has nothing else to show is
outlined as a record. -/
structure Foreign extends Cause where
  outline : Layouts := (Cause.recordShape message causes).layouts
  deriving DecidableEq, Repr

def Foreign.shape (e : Foreign) : Shape := .laidOut e.outline

inductive Failure
  | failed (message : String)
  | foreign (e : Foreign)
  | wrapped (inner : Failure)
  | disconnected
  | empty
  | timeout (limit : Duration)
  deriving DecidableEq, Repr

/-- The kinds that a failure can be told apart by from outside. -/
inductive Failure.Kind
  | failed
  | external
  | disconnected
  | empty
  | timeout
  deriving DecidableEq, Repr

namespace Failure

def kind : Failure → Kind
  | failed _ => .failed
  | foreign _ | wrapped _ => .external
  | disconnected => .disconnected
  | empty => .empty
  | timeout _ => .timeout

/-- The message. -/
def display : Failure → String
  | failed message => "Producer failed: " ++ message
  | foreign e => e.message
  | wrapped inner => inner.display
  | disconnected => "Signal channel disconnected"
  | empty => "Signal channel empty"
  | timeout limit => "No signal received within " ++ limit.text

/-- The messages down the chain of sources. -/
def sources : Failure → List String
  | foreign e => e.causes
  | wrapped inner => inner.sources
  | _ => []

def shape : Failure → Shape
  | failed message => .tuple "Failed" [.string message]
  | foreign e => .tuple "External" [e.shape]
  | wrapped inner => .tuple "External" [inner.shape]
  | disconnected => .atom "Disconnected"
  | empty => .atom "Empty"
  | timeout limit => .tuple "Timeout" [.atom limit.text]

/-- The error from outside that a failure holds directly. -/
def foreign? : Failure → Option Foreign
  | foreign e => some e
  | _ => none

end Failure

end OneShot
