import Lox.Text.Glyphless

/-!
# Quoted text

Text in double quotes. Quotes and backslashes take a backslash, four controls have a letter, and a
character without a glyph of its own is written as its code point in hexadecimal.
-/

namespace Lox.Text

/-- One character of quoted text. -/
def escape (c : Char) : List Char :=
  match c with
  | '"' => ['\\', '"']
  | '\\' => ['\\', '\\']
  | '\n' => ['\\', 'n']
  | '\r' => ['\\', 'r']
  | '\t' => ['\\', 't']
  | '\x00' => ['\\', '0']
  | c =>
    if isGlyphless c then ['\\', 'u', '\x7b'] ++ Nat.toDigits 16 c.toNat ++ ['\x7d']
    else [c]

/-- The text in double quotes. -/
def quote (text : List Char) : List Char := '"' :: text.flatMap escape ++ ['"']

def quoted (text : String) : String := String.ofList (quote text.toList)

end Lox.Text
