import Lox.Value.Basic
import Lox.Number.Text

/-!
# The texts of a value

`Value.text` is what `print` writes. `Value.debug` names the kind of the value as well; the two also
differ in the word for infinity.
-/

namespace Lox.Value

/-- The text that `print` writes. -/
def text : Value → String
  | nil => "nil"
  | bool true => "true"
  | bool false => "false"
  | number x => String.ofList (x.write Number.longInfinity)
  | string s => s
  | callable f => if f.isNative then "<native fn>" else "<fn " ++ f.name ++ ">"

/-- The text that shows the kind of the value too; strings stand in it as they are. -/
def debug : Value → String
  | nil => "Value::Nil"
  | bool true => "Value::Bool(true)"
  | bool false => "Value::Bool(false)"
  | number x => "Value::Number(" ++ String.ofList (x.write Number.shortInfinity) ++ ")"
  | string s => "Value::String('" ++ s ++ "')"
  | callable f => "Value::Callable(" ++ f.name ++ ")"

end Lox.Value
