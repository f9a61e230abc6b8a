import Skript.Program
import Skript.Proofs.Patterns

/-!
# Printing programs

A program as the text of a script. Tokens have single blanks between them, and every statement of a
program or a block has a semicolon after it. An operand of an operator is put into parentheses only
if it would be taken apart without them. Quotes and the words of a choice have two spellings each,
of which a style picks one.

Not every program can be read back: a negative integer has no literal, a text of one character is
read as a character, and a name that is no word or a reserved one is read as something else.
Decimals are left out.
-/
namespace Skript

structure Style where
  quote : Char
  isQuote : quote = '"' ∨ quote = '\''
  /-- The word before the last block of a choice. -/
  otherwise : String
  isOtherwise : otherwise = "el" ∨ otherwise = "else"
  /-- Whether a further condition of a choice opens with one word or with two. -/
  joins : Bool

/-! ### Tokens -/

/-- A character in the body of a text literal. -/
def writtenChar (quote c : Char) : List Char :=
  if c = '\n' then ['\\', 'n']
  else if c = '\t' then ['\\', 't']
  else if c = quote ∨ c = '\\' then ['\\', c]
  else [c]

namespace Token

def written (style : Style) : Token → List Char
  | str s => style.quote :: (s.toList.flatMap (writtenChar style.quote) ++ [style.quote])
  | keyword .otherwise => style.otherwise.toList
  | t => t.text.toList

/-- Tokens with blanks between them. -/
def spaced (style : Style) (ts : List Token) : List Char :=
  [' '].intercalate (ts.map (written style))

/-- Tokens in parentheses, if these are needed. -/
def grouped (needed : Bool) (ts : List Token) : List Token :=
  if needed then symbol .leftParen :: (ts ++ [symbol .rightParen]) else ts

def braced (ts : List Token) : List Token :=
  symbol .leftBrace :: (ts ++ [symbol .rightBrace])

def commaSeparated (items : List (List Token)) : List Token :=
  [symbol .comma].intercalate items

end Token

def Operator.symbol : Operator → Symbol
  | add => .plus
  | sub => .minus
  | mul => .star
  | div => .slash
  | less => .less
  | greater => .greater
  | lessEqual => .lessEqual
  | greaterEqual => .greaterEqual
  | equal => .equalEqual
  | notEqual => .bangEqual

/-! ### Expressions -/

def Literal.token : Literal → Token
  | num k => .integer k
  | dec x => .decimal x
  | str s => .str s
  | chr c => .str (String.singleton c)
  | bool b => .bool b

/-- Operators of a higher rank bind tighter. -/
def Operator.rank : Operator → Nat
  | less | greater | lessEqual | greaterEqual | equal | notEqual => 0
  | add | sub => 1
  | mul | div => 2

namespace Expr

/-- Whether the expression is an operation that binds weaker than those of the operator. -/
def isWeaker (op : Operator) : Expr → Bool
  | binary _ inner _ _ => inner.rank < op.rank
  | _ => false

/-- Whether the expression is an operation that binds no tighter than those of the operator. -/
def isNoTighter (op : Operator) : Expr → Bool
  | binary _ inner _ _ => inner.rank ≤ op.rank
  | _ => false

/-- What stands between the parentheses of an input expression. -/
def inputTokens (prompt : Option String) (kind : Option Kind) : List Token :=
  Token.commaSeparated
    ((prompt.toList.map fun s => [.str s]) ++ kind.toList.map fun k => [.kind k])

mutual

def tokens : Expr → List Token
  | .literal value _ => [value.token]
  | .var name _ => [.identifier name]
  | .binary left op right _ =>
      Token.grouped (left.isWeaker op) left.tokens ++
        .symbol op.symbol :: Token.grouped (right.isNoTighter op) right.tokens
  | .call name arguments _ =>
      .identifier name :: .symbol .leftParen ::
        (Token.commaSeparated (tokensOfEach arguments) ++ [.symbol .rightParen])
  | .input prompt kind _ =>
      .keyword .input :: .symbol .leftParen :: (inputTokens prompt kind ++ [.symbol .rightParen])
  | .length operand _ =>
      .keyword .len :: .symbol .leftParen :: (operand.tokens ++ [.symbol .rightParen])

def tokensOfEach : List Expr → List (List Token)
  | [] => []
  | e :: es => e.tokens :: tokensOfEach es

end

end Expr

/-! ### Statements -/

section

variable (style : Style)

mutual

def Statement.tokens : Statement → List Token
  | .function name params body _ =>
      .keyword .func :: .identifier name :: .symbol .leftParen ::
        (Token.commaSeparated (params.map fun param => [.identifier param]) ++
          .symbol .rightParen :: Token.braced (Statement.tokensOfAll body))
  | .ret value _ => .keyword .ret :: value.tokens
  | .print operand _ =>
      .keyword .print :: .symbol .leftParen :: (operand.tokens ++ [.symbol .rightParen])
  | .choose choice => .keyword .cond :: choice.tokens
  | .loop init condition update body _ =>
      .keyword .loop :: .symbol .leftParen ::
        (init.tokens ++ .symbol .semicolon :: (condition.tokens ++ .symbol .semicolon ::
          (update.tokens ++ .symbol .rightParen :: Token.braced (Statement.tokensOfAll body))))
  | .declare name kind _ => [.kind kind, .identifier name]
  | .assignTyped name kind value _ =>
      .kind kind :: .identifier name :: .symbol .equals :: value.tokens
  | .assign name value _ => .identifier name :: .symbol .equals :: value.tokens
  | .expr operand _ => operand.tokens

def Statement.tokensOfAll : List Statement → List Token
  | [] => []
  | s :: ss => s.tokens ++ .symbol .semicolon :: Statement.tokensOfAll ss

def Choice.tokens : Choice → List Token
  | .mk condition body otherwise _ =>
      condition.tokens ++ (Token.braced (Statement.tokensOfAll body) ++ otherwise.tokens)

def Otherwise.tokens : Otherwise → List Token
  | .nothing => []
  | .block body => .keyword .otherwise :: Token.braced (Statement.tokensOfAll body)
  | .elseIf choice =>
      if style.joins then .keyword .elseIf :: choice.tokens
      else .keyword .otherwise :: .keyword .cond :: choice.tokens

end

/-- The text of a program. -/
def Script.print (ss : List Statement) : String :=
  String.ofList (Token.spaced style (Statement.tokensOfAll style ss))

end

/-! ### What can be printed -/

/-- Words that are not reserved. -/
def isName (name : String) : Bool :=
  match name.toList with
  | [] => false
  | c :: cs => CharClass.wordStart.contains c && cs.all CharClass.wordChar.contains &&
      (TokenRule.reservedWords.lookup name).isNone

def Literal.isPrintable : Literal → Bool
  | num k => 0 ≤ k
  | dec _ => false
  | str s => s.toList.length ≠ 1
  | chr _ | bool _ => true

mutual

def Expr.isPrintable : Expr → Bool
  | .literal value _ => value.isPrintable
  | .var name _ => isName name
  | .binary left _ right _ => left.isPrintable && right.isPrintable
  | .call name arguments _ => isName name && Expr.arePrintable arguments
  | .input .. => true
  | .length operand _ => operand.isPrintable

def Expr.arePrintable : List Expr → Bool
  | [] => true
  | e :: es => e.isPrintable && Expr.arePrintable es

end

mutual

def Statement.isPrintable : Statement → Bool
  | .function name params body _ =>
      isName name && params.all isName && Statement.arePrintable body
  | .ret value _ => value.isPrintable
  | .print operand _ => operand.isPrintable
  | .choose choice => choice.isPrintable
  | .loop init condition update body _ =>
      init.isPrintable && condition.isPrintable && update.isPrintable && Statement.arePrintable body
  | .declare name _ _ => isName name
  | .assignTyped name _ value _ | .assign name value _ => isName name && value.isPrintable
  | .expr operand _ => operand.isPrintable

def Statement.arePrintable : List Statement → Bool
  | [] => true
  | s :: ss => s.isPrintable && Statement.arePrintable ss

def Choice.isPrintable : Choice → Bool
  | .mk condition body otherwise _ =>
      condition.isPrintable && Statement.arePrintable body && otherwise.isPrintable

def Otherwise.isPrintable : Otherwise → Bool
  | .nothing => true
  | .block body => Statement.arePrintable body
  | .elseIf choice => choice.isPrintable

end

end Skript
