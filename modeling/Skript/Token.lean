import Skript.Decimal.Layout
import Skript.Integer
import Skript.Text.Quoted
import Skript.Vocabulary

/-!
# Tokens

The words and signs that a script is made of. Comments, line breaks and blanks are tokens too,
but no script is read from them. A lexeme is a token with the line on which it starts.
-/
namespace Skript

/-- Words with a fixed meaning. -/
inductive Keyword where
  | print
  | cond
  | elseIf
  | otherwise
  | loop
  | func
  | ret
  | input
  | len
  deriving DecidableEq, Repr

namespace Keyword

def all : List Keyword :=
  [print, cond, elseIf, otherwise, loop, func, ret, input, len]

def text : Keyword → String
  | print => "drucken"
  | cond => "if"
  | elseIf => "elf"
  | otherwise => "el"
  | loop => "for"
  | func => "func"
  | ret => "return"
  | input => "eingabe"
  | len => "len"

end Keyword

/-- Operators, brackets and separators. -/
inductive Symbol where
  | equalEqual
  | bangEqual
  | lessEqual
  | greaterEqual
  | equals
  | less
  | greater
  | plus
  | minus
  | star
  | slash
  | leftParen
  | rightParen
  | leftBrace
  | rightBrace
  | comma
  | semicolon
  deriving DecidableEq, Repr

namespace Symbol

def all : List Symbol :=
  [ equalEqual, bangEqual, lessEqual, greaterEqual, equals, less, greater, plus, minus, star, slash,
    leftParen, rightParen, leftBrace, rightBrace, comma, semicolon ]

def text : Symbol → String
  | equalEqual => "=="
  | bangEqual => "!="
  | lessEqual => "<="
  | greaterEqual => ">="
  | equals => "="
  | less => "<"
  | greater => ">"
  | plus => "+"
  | minus => "-"
  | star => "*"
  | slash => "/"
  | leftParen => "("
  | rightParen => ")"
  | leftBrace => "\x7b"
  | rightBrace => "\x7d"
  | comma => ","
  | semicolon => ";"

/-- The operator that the symbol stands for between two operands. -/
def operator? : Symbol → Option Operator
  | plus => some .add
  | minus => some .sub
  | star => some .mul
  | slash => some .div
  | less => some .less
  | greater => some .greater
  | lessEqual => some .lessEqual
  | greaterEqual => some .greaterEqual
  | equalEqual => some .equal
  | bangEqual => some .notEqual
  | _ => none

end Symbol

/-- What separates words and means nothing itself. -/
inductive Filler where
  | comment
  | newLine
  | blanks
  deriving DecidableEq, Repr

def Filler.all : List Filler := [.comment, .newLine, .blanks]

inductive Token where
  | decimal (value : Float)
  | integer (value : Int64)
  | str (value : String)
  | bool (value : Bool)
  | keyword (word : Keyword)
  | kind (named : Kind)
  | identifier (name : String)
  | symbol (sign : Symbol)
  | filler (sort : Filler)
  | endOfInput
  deriving DecidableEq

namespace Token

/-- The tokens that carry nothing but what they are. -/
def plain : List Token :=
  Keyword.all.map keyword ++ Kind.all.map kind ++ Symbol.all.map symbol ++ Filler.all.map filler ++
    [endOfInput]

/-- The words that are not identifiers. The last branch of a choice has two spellings. -/
def words : List (String × Token) :=
  [ ("true", bool true), ("false", bool false), ("drucken", keyword .print), ("if", keyword .cond),
    ("elf", keyword .elseIf), ("el", keyword .otherwise), ("else", keyword .otherwise),
    ("for", keyword .loop), ("func", keyword .func), ("return", keyword .ret),
    ("eingabe", keyword .input), ("len", keyword .len), ("num", kind .num), ("dec", kind .dec),
    ("str", kind .str), ("chr", kind .chr), ("bool", kind .bool) ]

/-- The token of a word: the reserved one, or an identifier. -/
def ofWord (word : String) : Token :=
  (words.lookup word).getD (identifier word)

/-- The token as it is shown in messages. -/
def text : Token → String
  | decimal x => Decimal.text x
  | integer n => Integer.text n
  | str s => Text.quotedString s
  | bool b => if b then "true" else "false"
  | keyword k => k.text
  | kind k => k.name
  | identifier name => name
  | symbol s => s.text
  | filler _ => ""
  | endOfInput => "end of input"

/-- How a message names the token it found. -/
def describe (t : Token) : String :=
  match t with
  | endOfInput => t.text
  | str _ | integer _ | decimal _ => "literal " ++ t.text
  | _ => "'" ++ t.text ++ "'"

def operator? : Token → Option Operator
  | symbol s => s.operator?
  | _ => none

def kind? : Token → Option Kind
  | kind k => some k
  | _ => none

end Token

structure Lexeme where
  token : Token
  line : Nat
  deriving DecidableEq

end Skript
