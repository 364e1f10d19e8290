/-
# OneShot.Text.Shape -- values laid out for a reader

A `Shape` is the outline of a value: an atom, a record with named fields, a
constructor with positional parts, or a list.  It has two layouts.  `Shape.line`
keeps everything on one line.  `Shape.lines` gives each field, part and item
lines of its own, four spaces deeper than what holds it and closed by a comma;
an atom is one line in both, and so is whatever has no fields, parts or items.
What outlines itself in a way of its own is given by its two layouts.
-/
import OneShot.Text.Quoted

namespace OneShot.Text

set_option autoImplicit false

/-- A value laid out on one line, and on several. -/
structure Layouts where
  line : String
  lines : List String
  deriving DecidableEq, Repr

inductive Shape
  | atom (text : String)
  | record (name : String) (fields : List (String × Shape))
  | tuple (name : String) (parts : List Shape)
  | list (items : List Shape)
  | laidOut (layouts : Layouts)

namespace Shape

def string (s : String) : Shape := atom (quoted s)
def nat (n : Nat) : Shape := atom (Numeral.decimal n)
def bool (b : Bool) : Shape := atom (if b then "true" else "false")

/-- A value that may be absent. -/
def option : Option Shape → Shape
  | some s => tuple "Some" [s]
  | none => atom "None"

def commaSeparated (pieces : List String) : String := ", ".intercalate pieces

mutual

def line : Shape → String
  | atom text => text
  | record name [] => name
  | record name fields => name ++ " \x7b " ++ commaSeparated (lineFields fields) ++ " \x7d"
  | tuple name [] => name
  | tuple name parts => name ++ "(" ++ commaSeparated (lineAll parts) ++ ")"
  | list items => "[" ++ commaSeparated (lineAll items) ++ "]"
  | laidOut layouts => layouts.line

def lineAll : List Shape → List String
  | [] => []
  | s :: rest => s.line :: lineAll rest

def lineFields : List (String × Shape) → List String
  | [] => []
  | f :: rest => lineField f :: lineFields rest

def lineField : String × Shape → String
  | (name, s) => name ++ ": " ++ s.line

end

/-- An element of a larger layout: deeper by four spaces, with a comma at its end. -/
def element : List String → List String
  | [] => []
  | [last] => ["    " ++ last ++ ","]
  | l :: rest => ("    " ++ l) :: element rest

/-- A field's name stands before its first line. -/
def labelled (name : String) : List String → List String
  | [] => [name ++ ": "]
  | l :: rest => (name ++ ": " ++ l) :: rest

mutual

def lines : Shape → List String
  | atom text => [text]
  | record name [] => [name]
  | record name fields => (name ++ " \x7b") :: linesFields fields ++ ["\x7d"]
  | tuple name [] => [name]
  | tuple name parts => (name ++ "(") :: linesAll parts ++ [")"]
  | list [] => ["[]"]
  | list items => "[" :: linesAll items ++ ["]"]
  | laidOut layouts => layouts.lines

def linesAll : List Shape → List String
  | [] => []
  | s :: rest => element s.lines ++ linesAll rest

def linesFields : List (String × Shape) → List String
  | [] => []
  | f :: rest => linesField f ++ linesFields rest

def linesField : String × Shape → List String
  | (name, s) => element (labelled name s.lines)

end

def layouts (s : Shape) : Layouts := { line := s.line, lines := s.lines }

/-- The layout with a line for each part. -/
def pretty (s : Shape) : String := "\n".intercalate s.lines

end Shape

end OneShot.Text
