/-
# OneShot.Json.Parser -- from text to a draft

`Draft.ofChars` reads a whole document.  Blanks are space, tab, line feed and
carriage return.  Each scanner answers with what it found and with the text that
follows, or with no text if nothing can be read beyond a break.

A string is first cut into `Piece`s: characters, and code units that were written in
hexadecimal.  A loose reader is content with that; a strict one puts the two units
of a surrogate pair together and takes a lone one for malformed.
-/
import OneShot.Json.Number

namespace OneShot.Json

set_option autoImplicit false

def isBlank (c : Char) : Bool := c = ' ' || c = '\n' || c = '\t' || c = '\r'

def skipBlanks (cs : List Char) : List Char := cs.dropWhile isBlank

/-! ## Words -/

/-- The rest of a word after its first letter. -/
def scanWord (v : Json) : List Char → List Char → Found Json × Option (List Char)
  | [], rest => (.ok v, some rest)
  | _ :: _, [] => (.broken .cutShort, none)
  | w :: ws, c :: cs => if w = c then scanWord v ws cs else (.broken .malformed, none)

/-! ## Strings -/

inductive Piece
  | char (c : Char)
  | unit (n : Nat)
  deriving DecidableEq, Repr

/-- The character that a letter behind a backslash stands for. -/
def unletter? : Char → Option Char
  | '"' => some '"'
  | '\\' => some '\\'
  | '/' => some '/'
  | 'b' => some '\x08'
  | 'f' => some '\x0c'
  | 'n' => some '\n'
  | 'r' => some '\r'
  | 't' => some '\t'
  | _ => none

def hexDigit? (c : Char) : Option Nat :=
  let n := c.toNat
  if 48 ≤ n ∧ n ≤ 57 then some (n - 48)
  else if 97 ≤ n ∧ n ≤ 102 then some (n - 87)
  else if 65 ≤ n ∧ n ≤ 70 then some (n - 55)
  else none

/-- Four hexadecimal digits. -/
def hexUnit? : List Char → Option (Nat × List Char)
  | a :: b :: c :: d :: rest =>
      match hexDigit? a, hexDigit? b, hexDigit? c, hexDigit? d with
      | some a, some b, some c, some d => some (((a * 16 + b) * 16 + c) * 16 + d, rest)
      | _, _, _, _ => none
  | _ => none

/-- The bytes of the text are fewer than four digits need. -/
def endsWithinUnit (cs : List Char) : Bool :=
  (String.ofList (cs.take 4)).utf8ByteSize < 4

/-- Cuts the text behind an opening quote into pieces, up to the closing quote.  The
first argument bounds their number. -/
def scanPieces : Nat → List Char → List Piece × Except Break (List Char)
  | 0, _ => ([], .error .cutShort)
  | _ + 1, [] => ([], .error .cutShort)
  | _ + 1, '"' :: rest => ([], .ok rest)
  | _ + 1, ['\\'] => ([], .error .cutShort)
  | bound + 1, '\\' :: 'u' :: rest =>
      match hexUnit? rest with
      | some (n, after) =>
          let (pieces, stop) := scanPieces bound after
          (.unit n :: pieces, stop)
      | none => ([], .error (if endsWithinUnit rest then .cutShort else .malformed))
  | bound + 1, '\\' :: l :: rest =>
      match unletter? l with
      | some c =>
          let (pieces, stop) := scanPieces bound rest
          (.char c :: pieces, stop)
      | none => ([], .error .malformed)
  | bound + 1, c :: rest =>
      if c.toNat < 0x20 then ([], .error .malformed)
      else
        let (pieces, stop) := scanPieces bound rest
        (.char c :: pieces, stop)

def isLead (n : Nat) : Bool := 0xD800 ≤ n && n < 0xDC00
def isTrail (n : Nat) : Bool := 0xDC00 ≤ n && n < 0xE000

/-- The character of a surrogate pair. -/
def pairChar (lead trail : Nat) : Char :=
  Char.ofNat (0x10000 + (lead - 0xD800) * 0x400 + (trail - 0xDC00))

/-- Puts pieces together.  A lead unit that nothing follows is for the end of the string
to judge. -/
def assemble (atEnd : Break) : List Piece → Except Break (List Char)
  | [] => .ok []
  | .char c :: rest => return c :: (← assemble atEnd rest)
  | .unit n :: rest =>
      if isLead n then
        match rest with
        | [] => .error atEnd
        | .unit m :: after =>
            if isTrail m then return pairChar n m :: (← assemble atEnd after)
            else .error .malformed
        | .char _ :: _ => .error .malformed
      else if isTrail n then .error .malformed
      else return Char.ofNat n :: (← assemble atEnd rest)

/-- The string behind an opening quote. -/
def scanString (cs : List Char) : Found String × Option (List Char) :=
  match scanPieces (cs.length + 1) cs with
  | (pieces, .ok rest) =>
      ({ strict := (assemble .malformed pieces).map String.ofList, loose := none }, some rest)
  | (pieces, .error b) =>
      ({ strict := (assemble b pieces).bind fun _ => .error b, loose := some b }, none)

/-! ## Values -/

mutual

/-- The value at the head of the text; the first argument bounds the work. -/
def scanValue : Nat → List Char → Draft × Option (List Char)
  | 0, _ => (.missing .cutShort, none)
  | bound + 1, cs =>
      match skipBlanks cs with
      | [] => (.missing .cutShort, none)
      | c :: rest =>
          if c = '"' then
            let (found, after) := scanString rest
            (.string found, after)
          else if c = '[' then
            let (items, after) := scanItems bound true rest
            (.array items, after)
          else if c = '\x7b' then
            let (members, after) := scanMembers bound true rest
            (.object members, after)
          else if c = 'n' then
            let (found, after) := scanWord .null ['u', 'l', 'l'] rest
            (.scalar found, after)
          else if c = 't' then
            let (found, after) := scanWord (.bool true) ['r', 'u', 'e'] rest
            (.scalar found, after)
          else if c = 'f' then
            let (found, after) := scanWord (.bool false) ['a', 'l', 's', 'e'] rest
            (.scalar found, after)
          else if c = '-' ∨ c.isDigit then
            let (found, after) := Number.scan (c :: rest)
            (.scalar found, after)
          else (.missing .malformed, none)

/-- The items up to the bracket; a comma stands before each but the first. -/
def scanItems : Nat → Bool → List Char → Items × Option (List Char)
  | 0, _, _ => (.broken .cutShort, none)
  | bound + 1, first, cs =>
      match skipBlanks cs with
      | [] => (.broken .cutShort, none)
      | c :: rest =>
          if c = ']' then (.closed, some rest)
          else if first then scanItem bound (c :: rest)
          else if c = ',' then scanItem bound rest
          else (.broken .malformed, none)

def scanItem : Nat → List Char → Items × Option (List Char)
  | 0, _ => (.broken .cutShort, none)
  | bound + 1, cs =>
      match scanValue bound cs with
      | (d, some after) =>
          let (items, rest) := scanItems bound false after
          (.item d items, rest)
      | (d, none) => (.item d (.broken .malformed), none)

/-- The members up to the brace; a comma stands before each but the first. -/
def scanMembers : Nat → Bool → List Char → Members × Option (List Char)
  | 0, _, _ => (.broken .cutShort, none)
  | bound + 1, first, cs =>
      match skipBlanks cs with
      | [] => (.broken .cutShort, none)
      | c :: rest =>
          if c = '\x7d' then (.closed, some rest)
          else if first then
            if c = '"' then scanMember bound rest else (.broken .malformed, none)
          else if c = ',' then
            match skipBlanks rest with
            | '"' :: after => scanMember bound after
            | [] => (.dangling .cutShort, none)
            | _ => (.dangling .malformed, none)
          else (.broken .malformed, none)

/-- A member whose key's opening quote has been read, and the members behind it. -/
def scanMember : Nat → List Char → Members × Option (List Char)
  | 0, _ => (.broken .cutShort, none)
  | bound + 1, cs =>
      match scanString cs with
      | (key, none) => (.member key none (.missing .malformed) (.broken .malformed), none)
      | (key, some after) =>
          match skipBlanks after with
          | ':' :: rest =>
              match scanValue bound rest with
              | (d, some after) =>
                  let (members, rest) := scanMembers bound false after
                  (.member key none d members, rest)
              | (d, none) => (.member key none d (.broken .malformed), none)
          | [] => (.member key (some .cutShort) (.missing .cutShort) (.broken .cutShort), none)
          | _ :: _ =>
              (.member key (some .malformed) (.missing .malformed) (.broken .malformed), none)

end

/-- A whole document: its value, and whether anything but blanks follows it. -/
structure Document where
  value : Draft
  trailing : Bool

def Document.ofString (text : String) : Document :=
  let cs := text.toList
  let (value, after) := scanValue (3 * cs.length + 3) cs
  { value, trailing := after.any fun rest => !(skipBlanks rest).isEmpty }

/-- The value of a document that can be read to its end. -/
def parse? (text : String) : Option Json :=
  let doc := Document.ofString text
  match doc.value.read .document with
  | .ok v => if doc.trailing then none else some v
  | .error _ => none

end OneShot.Json
