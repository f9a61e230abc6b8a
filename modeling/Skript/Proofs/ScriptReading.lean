import Skript.Proofs.AcceptedPrograms
import Skript.Proofs.MaximalMunch
import Skript.Script

/-!
# What reading a script comes to

A script is read into a program exactly if longest matches take it apart to its end and the tokens
of these spell the program.
-/
namespace Skript

open Grammar Piece

/-- No piece stands for the end of the input. -/
theorem Piece.token?_ne_endOfInput {p : Piece} {t : Token} (h : p.token? = some t) :
    t ≠ .endOfInput := by
  rintro rfl
  cases p with
  | integer digits =>
    obtain ⟨k, -, hk⟩ := Option.map_eq_some_iff.1 h
    cases hk
  | word chars =>
    have hwords : ∀ word ∈ Token.words, word.2 ≠ .endOfInput := by decide
    have hword : Token.ofWord (String.ofList chars) = .endOfInput := Option.some.inj h
    obtain hreserved | ⟨-, hname⟩ := ofWord_cases (String.ofList chars)
    · exact hwords _ hreserved hword
    · cases hname.symm.trans hword
  | _ => cases h

theorem unended_lexemes {t : Token} (h : t ≠ .endOfInput) (line : Nat) :
    Unended (t.lexemes line) := by
  cases t with
  | endOfInput => exact absurd rfl h
  | _ => simp [Token.lexemes]

theorem Scans.unended {cs rest : List Char} {taken : List (List Char × Token)}
    (h : Scans cs taken rest) (before : List Char) : Unended (placed before taken) := by
  induction h generalizing before with
  | stop => exact unended_nil
  | @take lexeme cs rest rule t taken longest token next ih =>
    obtain ⟨p, -, -, ht⟩ := piece_of_longest longest token
    exact unended_append.2 ⟨unended_lexemes (token?_ne_endOfInput ht) _, ih _⟩

theorem Script.read_of_untokenized {source : String} {fault : SourceFault}
    (h : tokenize source = .error fault) : Script.read source = .error fault := by
  rw [Script.read, h]
  rfl

theorem Script.read_of_tokenize {source : String} {ls : List Lexeme}
    (h : tokenize source = .ok ls) : Script.read source = parse ls := by
  rw [Script.read, h]
  rfl

theorem Script.read_eq_ok_iff {source : String} {ss : List Statement} :
    Script.read source = .ok ss ↔ ∃ taken, Scans source.toList taken [] ∧
      DerivesSequence greedyJoin (placed [] taken) ss := by
  constructor
  · intro h
    cases htokens : tokenize source with
    | error fault =>
      rw [Script.read, htokens] at h
      cases h
    | ok ls =>
      obtain ⟨taken, hscans⟩ := scans_of_tokenize htokens
      rw [Script.read, tokenize_of_scans hscans] at h
      exact ⟨taken, hscans, (parse_eq_ok_iff (hscans.unended [])).1 h⟩
  · rintro ⟨taken, hscans, hsequence⟩
    rw [Script.read, tokenize_of_scans hscans]
    exact parse_of_greedy hsequence _

end Skript
