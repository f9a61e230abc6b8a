import Skript.Script

/-!
# Dumps

Tokens, programs, values and faults written out in full on one line, for those who want to see what
a script was read as. A part is shown by its name, with its own parts named in braces or listed in
brackets.
-/
namespace Skript

namespace Dump

/-- A name and its parts by name. -/
def node (name : String) (parts : List (String × String)) : String :=
  name ++ " \x7b " ++ ", ".intercalate (parts.map fun (part, shown) => part ++ ": " ++ shown) ++
    " \x7d"

/-- A name and its only part. -/
def wrap (name shown : String) : String :=
  name ++ "(" ++ shown ++ ")"

def list (shown : List String) : String :=
  "[" ++ ", ".intercalate shown ++ "]"

def option : Option String → String
  | some shown => wrap "Some" shown
  | none => "None"

def bool (b : Bool) : String :=
  if b then "true" else "false"

def nat (n : Nat) : String :=
  String.ofList (Integer.digits n)

end Dump

open Dump

def Kind.dump : Kind → String
  | num => "Num"
  | dec => "Dec"
  | str => "Str"
  | chr => "Chr"
  | bool => "Bool"

def Operator.dump : Operator → String
  | add => "Add"
  | sub => "Sub"
  | mul => "Mul"
  | div => "Div"
  | less => "Less"
  | greater => "Greater"
  | lessEqual => "LessEqual"
  | greaterEqual => "GreaterEqual"
  | equal => "Equal"
  | notEqual => "NotEqual"

def Keyword.dump : Keyword → String
  | print => "Print"
  | cond => "If"
  | elseIf => "Elf"
  | otherwise => "Else"
  | loop => "For"
  | func => "Func"
  | ret => "Return"
  | input => "Input"
  | len => "Len"

def Symbol.dump : Symbol → String
  | equalEqual => "EqualEqual"
  | bangEqual => "BangEqual"
  | lessEqual => "LessEqual"
  | greaterEqual => "GreaterEqual"
  | equals => "Equals"
  | less => "Less"
  | greater => "Greater"
  | plus => "Plus"
  | minus => "Minus"
  | star => "Star"
  | slash => "Slash"
  | leftParen => "LParen"
  | rightParen => "RParen"
  | leftBrace => "LBrace"
  | rightBrace => "RBrace"
  | comma => "Comma"
  | semicolon => "Semicolon"

def Filler.dump : Filler → String
  | comment => "Comment"
  | newLine => "NewLine"
  | blanks => "Ignored"

/-- The name of a token, without what it carries. -/
def Token.name : Token → String
  | decimal _ => "Decimal"
  | integer _ => "Integer"
  | str _ => "Str"
  | bool _ => "Bool"
  | keyword k => k.dump
  | kind k => "Type" ++ k.dump
  | identifier _ => "Identifier"
  | symbol s => s.dump
  | filler f => f.dump
  | endOfInput => "EndOfInput"

def Token.dump (t : Token) : String :=
  match t with
  | decimal x => wrap t.name (Decimal.text x)
  | integer n => wrap t.name (Integer.text n)
  | str s => wrap t.name (Text.quotedString s)
  | bool b => wrap t.name (Dump.bool b)
  | identifier name => wrap t.name (Text.quotedString name)
  | _ => t.name

def Literal.dump : Literal → String
  | num n => wrap "Integer" (Integer.text n)
  | dec x => wrap "Decimal" (Decimal.text x)
  | str s => wrap "Str" (Text.quotedString s)
  | chr c => wrap "Character" (Text.quotedChar c)
  | bool b => wrap "Bool" (Dump.bool b)

def Value.dump : Value → String
  | num n => wrap "Integer" (Integer.text n)
  | dec x => wrap "Decimal" (Decimal.text x)
  | str s => wrap "Str" (Text.quotedString s)
  | chr c => wrap "Char" (option (c.map Text.quotedChar))
  | bool b => wrap "Bool" (Dump.bool b)

mutual

def Expr.dump : Expr → String
  | .literal value line => node "Literal" [("value", value.dump), ("line", nat line)]
  | .var name line => node "Variable" [("name", Text.quotedString name), ("line", nat line)]
  | .binary left op right line =>
      node "BinaryOp"
        [("left", left.dump), ("op", op.dump), ("right", right.dump), ("line", nat line)]
  | .call name arguments line =>
      node "FunctionCall"
        [ ("name", Text.quotedString name), ("arguments", list (Expr.dumpAll arguments)),
          ("line", nat line) ]
  | .input prompt kind line =>
      node "Input"
        [ ("prompt", option (prompt.map Text.quotedString)), ("ty", option (kind.map Kind.dump)),
          ("line", nat line) ]
  | .length operand line => node "Length" [("expr", operand.dump), ("line", nat line)]

def Expr.dumpAll : List Expr → List String
  | [] => []
  | e :: es => e.dump :: Expr.dumpAll es

end

mutual

def Statement.dump : Statement → String
  | .function name params body line =>
      wrap "Function" (node "FunctionDef"
        [ ("name", Text.quotedString name), ("params", list (params.map Text.quotedString)),
          ("body", list (Statement.dumpAll body)), ("line", nat line) ])
  | .ret value line => node "Return" [("value", value.dump), ("line", nat line)]
  | .print operand line => node "Print" [("expr", operand.dump), ("line", nat line)]
  | .choose choice => wrap "If" choice.dump
  | .loop init condition update body line =>
      wrap "For" (node "ForLoop"
        [ ("init", init.dump), ("condition", condition.dump), ("update", update.dump),
          ("body", list (Statement.dumpAll body)), ("line", nat line) ])
  | .declare name kind line =>
      node "Declaration"
        [("name", Text.quotedString name), ("ty", kind.dump), ("line", nat line)]
  | .assignTyped name kind value line =>
      node "TypedAssignment"
        [ ("name", Text.quotedString name), ("ty", kind.dump), ("value", value.dump),
          ("line", nat line) ]
  | .assign name value line =>
      node "Assignment"
        [("name", Text.quotedString name), ("value", value.dump), ("line", nat line)]
  | .expr operand line => node "Expression" [("expr", operand.dump), ("line", nat line)]

def Choice.dump : Choice → String
  | .mk condition body otherwise line =>
      node "IfStatement"
        [ ("condition", condition.dump), ("body", list (Statement.dumpAll body)),
          ("else_branch", otherwise.dump), ("line", nat line) ]

def Otherwise.dump : Otherwise → String
  | .nothing => "None"
  | .block body => wrap "Block" (list (Statement.dumpAll body))
  | .elseIf choice => wrap "ElseIf" choice.dump

def Statement.dumpAll : List Statement → List String
  | [] => []
  | s :: ss => s.dump :: Statement.dumpAll ss

end

def SourceCause.name : SourceCause → String
  | unexpectedCharacter .. => "UnexpectedCharacter"
  | integerOutOfRange _ => "IntegerOutOfRange"
  | unexpectedToken .. => "UnexpectedToken"
  | unexpectedEnd _ => "UnexpectedEndOfInput"
  | kindInExpression _ => "TypeInExpression"

def SourceCause.parts : SourceCause → List (String × String)
  | unexpectedCharacter c offset => [("character", Text.quotedChar c), ("offset", nat offset)]
  | integerOutOfRange literal => [("literal", Text.quotedString literal)]
  | unexpectedToken expected found =>
      [ ("expected", Text.quotedString expected.text),
        ("found", Text.quotedString found.describe) ]
  | unexpectedEnd expected => [("expected", Text.quotedString expected.text)]
  | kindInExpression kind => [("name", Text.quotedString kind.name)]

def RunCause.name : RunCause → String
  | unknownVariable _ => "UnknownVariable"
  | unknownFunction _ => "UnknownFunction"
  | builtinRedefinition _ => "BuiltinFunctionRedefinition"
  | typeMismatch _ => "TypeMismatch"
  | argumentCount .. => "ArgumentCountMismatch"
  | conversion _ => "ConversionError"
  | divisionByZero => "DivisionByZero"
  | overflow => "Overflow"
  | missingValue => "MissingValue"
  | callDepth _ => "RecursionLimit"
  | inputUnavailable => "InputUnavailable"
  | console _ => "Io"
  | capacity => "panic"

def RunCause.parts : RunCause → List (String × String)
  | unknownVariable name | unknownFunction name | builtinRedefinition name =>
      [("name", Text.quotedString name)]
  | typeMismatch clash => [("details", Text.quotedString clash.message)]
  | argumentCount name expected found =>
      [("name", Text.quotedString name), ("expected", nat expected), ("found", nat found)]
  | conversion misreading => [("details", Text.quotedString misreading.message)]
  | divisionByZero | overflow | missingValue | inputUnavailable | capacity => []
  | callDepth limit => [("depth", nat limit)]
  | console trouble => [("details", Text.quotedString trouble.message)]

namespace ScriptFault

/-- The name of the fault's cause. -/
def name : ScriptFault → String
  | source f => f.cause.name
  | run f => f.cause.name

def dump : ScriptFault → String
  | source f => node f.cause.name (f.cause.parts ++ [("line", nat f.line)])
  | run f => node f.cause.name (f.cause.parts ++ [("line", nat f.line)])

end ScriptFault

end Skript
