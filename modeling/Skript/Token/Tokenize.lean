import Skript.SourceFault
import Skript.Token.Piece

/-!
# From text to lexemes

Every piece that is more than a filler becomes a lexeme, and one more marks the end of the input.
-/
namespace Skript

namespace Lexeme

/-- The lexemes of pieces that start on `line`, `offset` bytes into the script; `rest` is what no
piece could be cut from. -/
def ofPieces (line offset : Nat) (rest : List Char) : List Piece → Except SourceFault (List Lexeme)
  | [] =>
      match rest with
      | [] => .ok [⟨.endOfInput, line⟩]
      | c :: _ => .error ⟨.unexpectedCharacter c offset, line⟩
  | p :: ps =>
      match p.token? with
      | none => .error ⟨.integerOutOfRange (String.ofList p.chars), line⟩
      | some (.filler _) => ofPieces (p.lineAfter line) (offset + p.bytes) rest ps
      | some t => do
          let ls ← ofPieces (p.lineAfter line) (offset + p.bytes) rest ps
          return ⟨t, line⟩ :: ls

end Lexeme

/-- The lexemes of a script, closed by one for the end of the input. -/
def tokenize (source : String) : Except SourceFault (List Lexeme) :=
  let (pieces, rest) := Piece.cut source.toList
  Lexeme.ofPieces 1 0 rest pieces

end Skript
