import Lox.Syntax.Basic
import Lox.Number.Text

/-!
# The printer of syntax trees

A tree is printed as an S-expression: a list that starts with the operator or the kind of the node,
then its parts, each after one space. String literals stand in quotes as they are, without escapes.
Each printer puts the text of its tree in front of the text that is to follow.
-/

namespace Lox

/-- A position as `line:offset`. -/
def Pos.text (pos : Pos) : String := s!"{pos.line}:{pos.offset}"

def Literal.text : Literal → List Char
  | .number x => x.write Number.shortInfinity
  | .string s => '"' :: s.toList ++ ['"']
  | .bool true => "true".toList
  | .bool false => "false".toList
  | .nil => "nil".toList

def UnaryOp.token : UnaryOp → String
  | .not => "!"
  | .negate => "-"

def BinaryOp.token : BinaryOp → String
  | .equal => "=="
  | .notEqual => "!="
  | .less => "<"
  | .lessEqual => "<="
  | .greater => ">"
  | .greaterEqual => ">="
  | .add => "+"
  | .subtract => "-"
  | .multiply => "*"
  | .divide => "/"

def LogicalOp.token : LogicalOp → String
  | .and => "and"
  | .or => "or"

mutual

/-- An expression in front of `rest`. -/
def Expr.write : Expr → List Char → List Char
  | .literal _ x, rest => x.text ++ rest
  | .group _ e, rest => "(group ".toList ++ e.write (')' :: rest)
  | .unary _ op e, rest => '(' :: op.token.toList ++ ' ' :: e.write (')' :: rest)
  | .binary _ op l r, rest => '(' :: op.token.toList ++ ' ' :: l.write (' ' :: r.write (')' :: rest))
  | .logical _ op l r, rest => '(' :: op.token.toList ++ ' ' :: l.write (' ' :: r.write (')' :: rest))
  | .variable _ x, rest => "(ident ".toList ++ x.toList ++ ')' :: rest
  | .assign _ x e, rest => "(= ".toList ++ x.toList ++ ' ' :: e.write (')' :: rest)
  | .call _ f args, rest => "(call ".toList ++ f.write (Expr.writeList args (')' :: rest))

def Expr.writeList : List Expr → List Char → List Char
  | [], rest => rest
  | e :: es, rest => ' ' :: e.write (Expr.writeList es rest)

end

def writeParams (params : List String) : List Char := [' '].intercalate (params.map String.toList)

mutual

/-- A statement in front of `rest`. -/
def Stmt.write : Stmt → List Char → List Char
  | .expression _ e, rest => "(; ".toList ++ e.write (')' :: rest)
  | .print _ e, rest => "(print ".toList ++ e.write (')' :: rest)
  | .declare _ x none, rest => "(var ".toList ++ x.toList ++ ')' :: rest
  | .declare _ x (some e), rest => "(var ".toList ++ x.toList ++ ' ' :: e.write (')' :: rest)
  | .block _ b, rest => "(block".toList ++ Stmt.writeList b (')' :: rest)
  | .cond _ e t none, rest => "(if ".toList ++ e.write (' ' :: t.write (')' :: rest))
  | .cond _ e t (some o), rest =>
    "(if-else ".toList ++ e.write (' ' :: t.write (' ' :: o.write (')' :: rest)))
  | .loop _ e b, rest => "(while ".toList ++ e.write (' ' :: b.write (')' :: rest))
  | .function _ x ps b, rest =>
    "(fun ".toList ++ x.toList ++ " (".toList ++ writeParams ps ++
      ')' :: Stmt.writeList b (')' :: rest)
  | .return _ none, rest => "(return)".toList ++ rest
  | .return _ (some e), rest => "(return ".toList ++ e.write (')' :: rest)

def Stmt.writeList : List Stmt → List Char → List Char
  | [], rest => rest
  | s :: ss, rest => ' ' :: s.write (Stmt.writeList ss rest)

end

def Expr.text (e : Expr) : String := String.ofList (e.write [])

def Stmt.text (s : Stmt) : String := String.ofList (s.write [])

end Lox
