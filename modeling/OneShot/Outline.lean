/-
# OneShot.Outline -- the outlines of outcomes, signals and summaries
-/
import OneShot.Outcome
import OneShot.Text.Shape

namespace OneShot

set_option autoImplicit false

open Text

variable {α ε : Type}

/-- `f` and `g` outline the payloads. -/
def Outcome.shape (f : α → Shape) (g : ε → Shape) : Outcome α ε → Shape
  | .value v => .tuple "Value" [f v]
  | .empty => .atom "Empty"
  | .error e => .tuple "Error" [g e]

def Signal.shape (f : α → Shape) (g : ε → Shape) : Signal α ε → Shape
  | .subscribed => .atom "Subscribed"
  | .next v => .tuple "Next" [f v]
  | .complete => .atom "Complete"
  | .error e => .tuple "Error" [g e]

def Termination.shape (t : Termination) : Shape := .atom t.name

def Stats.shape (s : Stats) : Shape :=
  .record "SinkStats"
    [("label", .string s.label),
     ("termination", s.termination.shape),
     ("subscribers", .nat s.subscribers.toNat)]

def HandleId.text (id : HandleId) : String := Numeral.decimal id.number.toNat

/-- A handle's number; it stays on one line in every layout. -/
def HandleId.shape (id : HandleId) : Shape := .atom ("HandleId(" ++ id.text ++ ")")

end OneShot
