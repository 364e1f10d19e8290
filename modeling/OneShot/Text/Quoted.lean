/-
# OneShot.Text.Quoted -- strings as diagnostics write them

A quoted string stands between double quotes.  A quote and a backslash get a
backslash; line feed, carriage return, tab and the null character have a letter;
every other character without a glyph of its own is its code point in hexadecimal
between braces.  All else stands for itself, a single quote and text beyond ASCII too.
-/
import OneShot.Text.Numeral
import OneShot.Text.Invisible

namespace OneShot.Text

set_option autoImplicit false

def quotedChar (c : Char) : List Char :=
  match c with
  | '"' => ['\\', '"']
  | '\\' => ['\\', '\\']
  | '\n' => ['\\', 'n']
  | '\r' => ['\\', 'r']
  | '\t' => ['\\', 't']
  | '\x00' => ['\\', '0']
  | c => if isInvisible c then "\\u\x7b".toList ++ Numeral.chars 16 c.toNat ++ ['\x7d'] else [c]

/-- A string between quotes. -/
def quoted (s : String) : String :=
  String.ofList ('"' :: s.toList.flatMap quotedChar ++ ['"'])

end OneShot.Text
