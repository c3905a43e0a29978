import Lox.Text.Quoted

/-!
# Log filters

A log filter is a list of directives, separated by commas. A directive is a level, a target, or a
target and its level with an equals sign between them. Only the last kind can be wrong: what stands
after the equals sign must be a level.

This stands in for the parser of a logging library, and only a host uses it: no run depends on it. It knows no
spans and no fields, so it takes any equals sign for one between a target and its level.
-/

namespace Lox.LogFilter

def levels : List String := ["off", "error", "warn", "info", "debug", "trace"]

/-- Whether a text is a level: a name of any case, its number, or nothing. -/
def isLevel (text : List Char) : Bool :=
  text.isEmpty ||
    (levels.map String.toList).contains (text.map Char.toLower) ||
    (match text with
      | [c] => '0' ≤ c && c ≤ '5'
      | _ => false)

/-- Whether a directive is right. -/
def isDirective (text : List Char) : Bool :=
  match text.dropWhile (· != '=') with
  | _ :: level => isLevel level
  | [] => true

/-- Whether a filter is right. -/
def isValid (filter : String) : Bool := (filter.toList.splitOn ',').all isDirective

/-- The message about a filter that is wrong. -/
def complaint (filter : String) : String := "invalid log filter " ++ Text.quoted filter

end Lox.LogFilter
