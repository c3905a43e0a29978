import Lox.Text.Lines

/-!
# Printed text

A buffer collects the texts that are printed, each followed by a line feed. An output either writes to
the buffer or discards what it is given.
-/

namespace Lox

/-- Text collected in memory. -/
structure Buffer where
  contents : String := ""
  deriving DecidableEq, Inhabited

namespace Buffer

def println (b : Buffer) (text : String) : Buffer := ⟨(b.contents ++ text).push '\n'⟩

def clear (_ : Buffer) : Buffer := ⟨""⟩

def lines (b : Buffer) : List String := (Text.lines b.contents.toList).map String.ofList

end Buffer

/-- Where printed text goes. -/
inductive Output where
  /-- To the buffer, which several outputs may share. -/
  | buffer
  /-- Nowhere. -/
  | silent
  deriving DecidableEq, Inhabited

def Output.println : Output → String → Buffer → Buffer
  | .buffer, text, b => b.println text
  | .silent, _, b => b

end Lox
