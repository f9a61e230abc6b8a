import Skript.Vocabulary

/-!
# Programs

Expressions and statements as trees. Every node keeps the line that a fault in it is reported on.
-/
namespace Skript

/-- A value written out in a script. -/
inductive Literal where
  | num (value : Int64)
  | dec (value : Float)
  | str (value : String)
  | chr (value : Char)
  | bool (value : Bool)
  deriving DecidableEq

/-- A quoted text of one character is a character. -/
def Literal.ofText (s : String) : Literal :=
  match s.toList with
  | [c] => .chr c
  | _ => .str s

inductive Expr where
  | literal (value : Literal) (line : Nat)
  | var (name : String) (line : Nat)
  | binary (left : Expr) (op : Operator) (right : Expr) (line : Nat)
  | call (name : String) (arguments : List Expr) (line : Nat)
  | input (prompt : Option String) (kind : Option Kind) (line : Nat)
  | length (operand : Expr) (line : Nat)

def Expr.line : Expr → Nat
  | literal _ line | var _ line | binary _ _ _ line | call _ _ line | input _ _ line
  | length _ line => line

mutual

inductive Statement where
  | function (name : String) (params : List String) (body : List Statement) (line : Nat)
  | ret (value : Expr) (line : Nat)
  | print (operand : Expr) (line : Nat)
  | choose (choice : Choice)
  | loop (init : Statement) (condition : Expr) (update : Statement) (body : List Statement)
      (line : Nat)
  | declare (name : String) (kind : Kind) (line : Nat)
  | assignTyped (name : String) (kind : Kind) (value : Expr) (line : Nat)
  | assign (name : String) (value : Expr) (line : Nat)
  | expr (operand : Expr) (line : Nat)

/-- A condition, the block to run if it holds, and what to do otherwise. -/
inductive Choice where
  | mk (condition : Expr) (body : List Statement) (otherwise : Otherwise) (line : Nat)

inductive Otherwise where
  | nothing
  | block (body : List Statement)
  | elseIf (choice : Choice)

end

/-- A function as the table of functions holds it. -/
structure Definition where
  name : String
  params : List String
  body : List Statement
  line : Nat

/-- Whether the statement is directly a `return`. -/
def Statement.isReturn : Statement → Bool
  | ret .. => true
  | _ => false

end Skript
