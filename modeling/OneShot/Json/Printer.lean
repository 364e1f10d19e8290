/-
# OneShot.Json.Printer -- JSON text without blanks

`Json.chars` writes a value with no blank between its parts.  In a string, the
quote, the backslash and the characters below space are escaped, five of them with
a letter of their own; everything else stands for itself.
-/
import OneShot.Json.Basic
import OneShot.Text.Shortest

namespace OneShot.Json

set_option autoImplicit false

open Text

/-- The letter that stands behind a backslash for a character. -/
def letter? : Char → Option Char
  | '"' => some '"'
  | '\\' => some '\\'
  | '\x08' => some 'b'
  | '\x0c' => some 'f'
  | '\n' => some 'n'
  | '\r' => some 'r'
  | '\t' => some 't'
  | _ => none

def escaped (c : Char) : List Char :=
  match letter? c with
  | some l => ['\\', l]
  | none => if c.toNat < 0x20 then '\\' :: 'u' :: Numeral.padded 16 4 c.toNat else [c]

def stringChars (s : String) : List Char := '"' :: s.toList.flatMap escaped ++ ['"']

def intChars (n : Int) : List Char :=
  if n < 0 then '-' :: Numeral.chars 10 n.natAbs else Numeral.chars 10 n.natAbs

mutual

def chars : Json → List Char
  | null => ['n', 'u', 'l', 'l']
  | bool true => ['t', 'r', 'u', 'e']
  | bool false => ['f', 'a', 'l', 's', 'e']
  | int n => intChars n
  | float bits => Shortest.chars bits
  | string s => stringChars s
  | array items => '[' :: itemChars items
  | object members => '\x7b' :: memberChars members

/-- The items and the closing bracket; the first has no comma before it. -/
def itemChars : List Json → List Char
  | [] => [']']
  | v :: rest => v.chars ++ moreItems rest

def moreItems : List Json → List Char
  | [] => [']']
  | v :: rest => ',' :: v.chars ++ moreItems rest

def memberChars : List (String × Json) → List Char
  | [] => ['\x7d']
  | m :: rest => oneMember m ++ moreMembers rest

def moreMembers : List (String × Json) → List Char
  | [] => ['\x7d']
  | m :: rest => ',' :: oneMember m ++ moreMembers rest

def oneMember : String × Json → List Char
  | (key, v) => stringChars key ++ ':' :: v.chars

end

/-- The compact text. -/
def compact (v : Json) : String := String.ofList v.chars

end OneShot.Json
