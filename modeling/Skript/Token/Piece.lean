import Skript.Decimal.Reading
import Skript.Token

/-!
# Cutting a text into pieces

A script is cut from left to right, every piece as long as it can be. The pieces in order spell
the text that they were cut from; where no piece starts, cutting stops and the rest is left over.
-/
namespace Skript

inductive Piece where
  | decimal (whole fraction : List Char)
  | integer (digits : List Char)
  /-- A text literal; its body may hold any escaped character but a line break. -/
  | quoted (quote : Char) (body : List Char)
  | word (chars : List Char)
  | symbol (sign : Symbol)
  | comment (body : List Char)
  | newLine
  | blanks (chars : List Char)
  deriving DecidableEq

namespace Piece

/-- The characters of the piece, as they stand in the text. -/
def chars : Piece → List Char
  | decimal whole fraction => whole ++ '.' :: fraction
  | integer digits => digits
  | quoted quote body => quote :: body ++ [quote]
  | word chars => chars
  | symbol sign => sign.text.toList
  | comment body => '/' :: '/' :: body
  | newLine => ['\n']
  | blanks chars => chars

/-- The number of bytes of the piece in the encoded text. -/
def bytes (p : Piece) : Nat :=
  p.chars.foldr (fun c n => c.utf8Size + n) 0

def isWordStart (c : Char) : Bool :=
  c.isAlpha || c = '_'

def isWordChar (c : Char) : Bool :=
  c.isAlphanum || c = '_'

/-- Blanks within a line. -/
def isInlineBlank (c : Char) : Bool :=
  c = ' ' || c = '\t' || c = '\r' || c = '\x0c'

/-- Whether a comment goes on with `c`. -/
def isCommentChar (c : Char) : Bool :=
  c ≠ '\n' && c ≠ '\r'

/-- The body of a text literal whose opening quote was just passed, up to its closing quote. A
backslash escapes the next character. The literal ends on the line it starts on. -/
def quotedBody? (quote : Char) : List Char → Option (List Char)
  | [] => none
  | '\\' :: c :: cs =>
      if c = '\n' then none else (quotedBody? quote cs).map fun body => '\\' :: c :: body
  | c :: cs =>
      if c = quote then some []
      else if c = '\\' ∨ c = '\n' then none
      else (quotedBody? quote cs).map fun body => c :: body

/-- The number at the front of a text that starts with a digit. A point belongs to it only if a
digit follows. -/
def number (cs : List Char) : Piece :=
  let whole := cs.takeWhile Char.isDigit
  match cs.dropWhile Char.isDigit with
  | '.' :: rest =>
      let fraction := rest.takeWhile Char.isDigit
      if fraction.isEmpty then integer whole else decimal whole fraction
  | _ => integer whole

/-- The longest symbol at the front of a text. -/
def symbolAt? : List Char → Option Symbol
  | '=' :: '=' :: _ => some .equalEqual
  | '!' :: '=' :: _ => some .bangEqual
  | '<' :: '=' :: _ => some .lessEqual
  | '>' :: '=' :: _ => some .greaterEqual
  | '=' :: _ => some .equals
  | '<' :: _ => some .less
  | '>' :: _ => some .greater
  | '+' :: _ => some .plus
  | '-' :: _ => some .minus
  | '*' :: _ => some .star
  | '/' :: _ => some .slash
  | '(' :: _ => some .leftParen
  | ')' :: _ => some .rightParen
  | '\x7b' :: _ => some .leftBrace
  | '\x7d' :: _ => some .rightBrace
  | ',' :: _ => some .comma
  | ';' :: _ => some .semicolon
  | _ => none

/-- The longest piece at the front of a text. -/
def at? : List Char → Option Piece
  | [] => none
  | c :: cs =>
      if c.isDigit then some (number (c :: cs))
      else if isWordStart c then some (word (c :: cs.takeWhile isWordChar))
      else if c = '"' ∨ c = '\'' then (quotedBody? c cs).map (quoted c)
      else if c = '\n' then some newLine
      else if isInlineBlank c then some (blanks (c :: cs.takeWhile isInlineBlank))
      else if c = '/' ∧ cs.head? = some '/' then some (comment (cs.tail.takeWhile isCommentChar))
      else (symbolAt? (c :: cs)).map symbol

/-- Cuts a text of which the first `skip` characters belong to the piece before. -/
def cutAfter : Nat → List Char → List Piece × List Char
  | _, [] => ([], [])
  | skip + 1, _ :: cs => cutAfter skip cs
  | 0, c :: cs =>
      match at? (c :: cs) with
      | none => ([], c :: cs)
      | some p =>
          let (ps, rest) := cutAfter (p.chars.length - 1) cs
          (p :: ps, rest)

/-- The pieces of a text, and what is left where no piece starts. -/
def cut (cs : List Char) : List Piece × List Char :=
  cutAfter 0 cs

/-- The character that a backslash and `c` stand for. -/
def escaped? (c : Char) : Option Char :=
  if c = 'n' then some '\n'
  else if c = 't' then some '\t'
  else if c = '"' ∨ c = '\'' ∨ c = '\\' then some c
  else none

/-- The text that the body of a literal stands for. A backslash before any other character is
kept. -/
def unescape : List Char → List Char
  | '\\' :: c :: cs =>
      match escaped? c with
      | some d => d :: unescape cs
      | none => '\\' :: c :: unescape cs
  | c :: cs => c :: unescape cs
  | [] => []

/-- The token of a piece. Only an integer that does not fit has none. -/
def token? : Piece → Option Token
  | decimal whole fraction => some (.decimal (Decimal.ofDigits whole fraction))
  | integer digits => (Integer.read? digits).map .integer
  | quoted _ body => some (.str (String.ofList (unescape body)))
  | word chars => some (.ofWord (String.ofList chars))
  | symbol sign => some (.symbol sign)
  | comment _ => some (.filler .comment)
  | newLine => some (.filler .newLine)
  | blanks _ => some (.filler .blanks)

/-- The line after a piece that starts on `line`: only the line break itself ends a line. -/
def lineAfter (line : Nat) : Piece → Nat
  | newLine => line + 1
  | _ => line

end Piece

end Skript
