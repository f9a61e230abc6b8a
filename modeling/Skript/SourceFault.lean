import Skript.Token

/-!
# Faults in a script's text

A script that cannot be read has one fault: the first one, with its line.
-/
namespace Skript

/-- What a script could have gone on with. -/
inductive Expectation where
  | symbol (sign : Symbol)
  | commaOr (closing : Symbol)
  | identifier
  | expression
  | kind
  deriving DecidableEq, Repr

def Expectation.text : Expectation → String
  | symbol s => "'" ++ s.text ++ "'"
  | commaOr s => "',' or '" ++ s.text ++ "'"
  | identifier => "identifier"
  | expression => "expression"
  | kind => "type"

inductive SourceCause where
  /-- No token starts here. The offset counts bytes from the start of the script. -/
  | unexpectedCharacter (character : Char) (offset : Nat)
  | integerOutOfRange (literal : String)
  | unexpectedToken (expected : Expectation) (found : Token)
  | unexpectedEnd (expected : Expectation)
  /-- The name of a kind stands where a value is wanted. -/
  | kindInExpression (kind : Kind)
  deriving DecidableEq

def SourceCause.message : SourceCause → String
  | unexpectedCharacter c offset =>
      let shown := Text.quotedChar c
      s!"Unexpected character {shown} at position {offset}"
  | integerOutOfRange literal => s!"Integer literal {literal} is out of range"
  | unexpectedToken expected found =>
      let wanted := expected.text
      let got := found.describe
      s!"Expected {wanted}, found {got}"
  | unexpectedEnd expected =>
      let wanted := expected.text
      s!"Unexpected end of input, expected {wanted}"
  | kindInExpression kind =>
      let name := kind.name
      s!"Type keyword '{name}' cannot be used as an expression"

structure SourceFault where
  cause : SourceCause
  line : Nat
  deriving DecidableEq

def SourceFault.message (f : SourceFault) : String :=
  let cause := f.cause.message
  let line := f.line
  s!"Error on line {line}: {cause}."

/-- The fault of finding a lexeme in place of what is expected. -/
def SourceFault.unexpected (expected : Expectation) (found : Lexeme) : SourceFault :=
  match found.token with
  | .endOfInput => ⟨.unexpectedEnd expected, found.line⟩
  | t => ⟨.unexpectedToken expected t, found.line⟩

/-- The fault of having no lexeme left, not even the one that ends the input. -/
def SourceFault.nothingLeft (expected : Expectation) : SourceFault :=
  ⟨.unexpectedEnd expected, 0⟩

end Skript
