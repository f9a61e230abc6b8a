import Skript.Proofs.Concatenation
import Skript.Proofs.MovedLines
import Skript.Proofs.Session

/-!
# Reported lines

Every fault is reported on a line of the script. A line comes into being where a piece of the script
is cut off, and is only carried along from there. So a way of moving lines that leaves those of the
lexemes alone cannot move the line of a fault, neither of one that is found in reading nor of one
that is met in running. Of lexemes that end the input, nothing behind the end is ever looked at.
-/
namespace Skript

/-! ### The lines of lexemes -/

theorem line_of_mem_lexemes {t : Token} {line : Nat} {l : Lexeme} (h : l ∈ t.lexemes line) :
    l.line = line := by
  cases t with
  | filler sort => cases h
  | _ => rw [List.mem_singleton.1 h]

/-- Pieces have their lexemes on the lines that they take up. -/
theorem line_of_mem_placed {before : List Char} {taken : List (List Char × Token)} {l : Lexeme}
    (h : l ∈ placed before taken) :
    lineAfter before ≤ l.line ∧ l.line ≤ lineAfter (before ++ taken.flatMap Prod.fst) := by
  induction taken generalizing before with
  | nil => cases h
  | cons piece taken ih =>
    have hnext := lineAfter_append before piece.1
    have hwhole := lineAfter_append before ((piece :: taken).flatMap Prod.fst)
    rw [placed, List.mem_append] at h
    obtain h | h := h
    · rw [line_of_mem_lexemes h]
      omega
    · have hline := ih h
      rw [List.append_assoc, ← List.flatMap_cons] at hline
      omega

theorem ended_of_tokenize {source : String} {ls : List Lexeme} (h : tokenize source = .ok ls) :
    Ended ls := by
  obtain ⟨taken, hscans⟩ := scans_of_tokenize h
  rw [tokenize_of_scans hscans] at h
  cases h
  exact ⟨⟨.endOfInput, lineAfter source.toList⟩, by simp, rfl⟩

theorem line_of_tokenize {source : String} {ls : List Lexeme} (h : tokenize source = .ok ls)
    {l : Lexeme} (hl : l ∈ ls) : 1 ≤ l.line ∧ l.line ≤ lineAfter source.toList := by
  obtain ⟨taken, hscans⟩ := scans_of_tokenize h
  have hwhole := hscans.flatMap_append
  rw [List.append_nil] at hwhole
  rw [tokenize_of_scans hscans] at h
  cases h
  rw [List.mem_append, List.mem_singleton] at hl
  obtain hl | rfl := hl
  · have hline := line_of_mem_placed hl
    rw [List.nil_append, hwhole] at hline
    exact hline
  · exact ⟨Nat.le_add_right 1 _, Nat.le_refl _⟩

/-- A text that cannot be cut is reported on the line where cutting stops. -/
theorem line_of_tokenize_error {source : String} {fault : SourceFault}
    (h : tokenize source = .error fault) :
    1 ≤ fault.line ∧ fault.line ≤ lineAfter source.toList := by
  obtain ⟨taken, rest, hscans⟩ := scans_exists source.toList
  have hwhole := lineAfter_append (taken.flatMap Prod.fst) rest
  rw [hscans.flatMap_append] at hwhole
  have hline : fault.line = lineAfter (taken.flatMap Prod.fst) := by
    rw [tokenize_eq, lexemesAfter_of_scans hscans, List.nil_append] at h
    cases rest with
    | nil => cases h
    | cons c cs =>
      cases hat : Piece.at? (c :: cs) with
      | none =>
        rw [lexemesAfter_none hat] at h
        cases h
        rfl
      | some p =>
        rw [lexemesAfter_unlexed hat (hscans.stuck p hat)] at h
        cases h
        rfl
  rw [hline]
  exact ⟨Nat.le_add_right 1 _, Nat.le.intro hwhole.symm⟩

/-! ### The lines of faults -/

/-- Moves every line but those of the lexemes. -/
def Lexeme.movingOthers (ls : List Lexeme) (line : Nat) : Nat :=
  if line ∈ ls.map Lexeme.line then line else line + 1

theorem Lexeme.mem_of_movingOthers {ls : List Lexeme} {line : Nat}
    (h : movingOthers ls line = line) : ∃ l ∈ ls, l.line = line := by
  unfold movingOthers at h
  split at h
  · next hmem => exact List.mem_map.1 hmem
  · omega

theorem Lexeme.map_movingOthers (ls : List Lexeme) : ls.map (mapLine (movingOthers ls)) = ls := by
  have hkept : ∀ l ∈ ls, mapLine (movingOthers ls) l = l := by
    intro l hl
    have hmem : l.line ∈ ls.map Lexeme.line := List.mem_map_of_mem hl
    rw [mapLine, movingOthers, if_pos hmem]
  calc
    ls.map (mapLine (movingOthers ls)) = ls.map id := List.map_congr_left hkept
    _ = ls := List.map_id ls

/-- Reading gives no line but those of the lexemes. -/
theorem parse_movingOthers {ls : List Lexeme} (h : Ended ls) :
    parse ls = ((parse ls).map (List.map (Statement.mapLine (Lexeme.movingOthers ls)))).mapError
      (SourceFault.mapLine (Lexeme.movingOthers ls)) := by
  have hparse := parse_mapLine (Lexeme.movingOthers ls) h
  rwa [Lexeme.map_movingOthers] at hparse

theorem line_of_parse_error {ls : List Lexeme} (h : Ended ls) {fault : SourceFault}
    (hparse : parse ls = .error fault) : ∃ l ∈ ls, l.line = fault.line := by
  have hkept := parse_movingOthers h
  rw [hparse] at hkept
  have hfault : fault = fault.mapLine (Lexeme.movingOthers ls) := Except.error.inj hkept
  exact Lexeme.mem_of_movingOthers (congrArg SourceFault.line hfault).symm

theorem mapLine_of_parse {ls : List Lexeme} (h : Ended ls) {ss : List Statement}
    (hparse : parse ls = .ok ss) : ss.map (Statement.mapLine (Lexeme.movingOthers ls)) = ss := by
  have hkept := parse_movingOthers h
  rw [hparse] at hkept
  exact (Except.ok.inj hkept).symm

theorem moved_fresh (move : Nat → Nat) (console : Console) :
    (Machine.fresh console).Moved move (.fresh console) := by
  refine ⟨fun name => ?_, rfl, rfl, rfl⟩
  rw [Machine.fresh, Std.TreeMap.getElem?_emptyc, Option.map_none]

/-- A program that has just been read reports no line but those of its lexemes. -/
theorem line_of_run_fault {ls : List Lexeme} (h : Ended ls) {ss : List Statement}
    (hparse : parse ls = .ok ss) {limit : Option Nat} {n : Nat} {console : Console}
    {fault : RunFault} {after : Machine}
    (hrun : (executeAll limit n ss).run (.fresh console) = .finished (.error fault) after) :
    ∃ l ∈ ls, l.line = fault.line := by
  have hmatch := matches_executeAll_moved (Lexeme.movingOthers ls) limit n ss _ _
    (moved_fresh _ console)
  rw [mapLine_of_parse h hparse, hrun] at hmatch
  cases hmatch with
  | error faults _ => exact Lexeme.mem_of_movingOthers (congrArg RunFault.line faults).symm
  | excusedFault excused => exact excused.elim

/-! ### Scripts -/

theorem Script.line_of_read_error {source : String} {fault : SourceFault}
    (h : Script.read source = .error fault) :
    1 ≤ fault.line ∧ fault.line ≤ lineAfter source.toList := by
  cases htokens : tokenize source with
  | error other =>
    rw [Script.read, htokens] at h
    cases h
    exact line_of_tokenize_error htokens
  | ok ls =>
    rw [Script.read, htokens] at h
    obtain ⟨l, hl, hline⟩ := line_of_parse_error (ended_of_tokenize htokens) h
    rw [← hline]
    exact line_of_tokenize htokens hl

theorem Script.line_of_run_fault {source : String} {ss : List Statement}
    (h : Script.read source = .ok ss) {limit : Option Nat} {n : Nat} {console : Console}
    {fault : RunFault} {after : Machine}
    (hrun : (executeAll limit n ss).run (.fresh console) = .finished (.error fault) after) :
    1 ≤ fault.line ∧ fault.line ≤ lineAfter source.toList := by
  cases htokens : tokenize source with
  | error other =>
    rw [Script.read, htokens] at h
    cases h
  | ok ls =>
    rw [Script.read, htokens] at h
    obtain ⟨l, hl, hline⟩ := Skript.line_of_run_fault (ended_of_tokenize htokens) h hrun
    rw [← hline]
    exact line_of_tokenize htokens hl

/-- A fault is reported on one of the lines of the script, the first of which is 1. The lexemes of a
script are never used up in reading: nothing is missing behind the last one, and nothing that stands
there makes a difference. -/
theorem reported_lines_lie_in_the_script (source : String) :
    (∀ fuel console fault after,
      Script.run fuel source (.fresh console) = .finished (.error fault) after →
        1 ≤ fault.line ∧ fault.line ≤ 1 + source.toList.count '\n') ∧
    ∀ ls, tokenize source = .ok ls →
      (∀ expected, parse ls ≠ .error (.nothingLeft expected)) ∧
      ∀ rest, parse (ls ++ rest) = parse ls := by
  constructor
  · intro fuel console fault after h
    cases hread : Script.read source with
    | error found =>
      rw [Script.run, hread] at h
      cases h
      exact Script.line_of_read_error hread
    | ok ss =>
      rw [Script.run, hread] at h
      dsimp only at h
      cases hrun : (executeAll (some callLimit) fuel ss).run (.fresh console) with
      | outOfFuel =>
        rw [hrun] at h
        cases h
      | finished result last =>
        rw [hrun] at h
        cases result with
        | ok v => cases h
        | error met =>
          cases h
          exact Script.line_of_run_fault hread hrun
  · intro ls htokens
    have hended := ended_of_tokenize htokens
    refine ⟨fun expected hparse => ?_, fun rest => parse_append_of_ended hended rest⟩
    -- A lexeme that is missing would be reported on line 0.
    obtain ⟨l, hl, hline⟩ := line_of_parse_error hended hparse
    have hfirst := (line_of_tokenize htokens hl).1
    rw [hline] at hfirst
    cases hfirst

/-- A block that is not closed is reported on the last line, which is empty. A brace behind the end
of the input does not close it. -/
theorem open_block_is_reported_on_the_last_line :
    let source := "if true \x7b\nx = 1\n"
    let fault : SourceFault := ⟨.unexpectedEnd (.symbol .rightBrace), 3⟩
    let ls : List Lexeme := [⟨.keyword .cond, 1⟩, ⟨.bool true, 1⟩, ⟨.symbol .leftBrace, 1⟩,
      ⟨.identifier "x", 2⟩, ⟨.symbol .equals, 2⟩, ⟨.integer 1, 2⟩, ⟨.endOfInput, 3⟩]
    Script.run 0 source (.fresh {}) = .finished (.error (.source fault)) (.fresh {}) ∧
    3 ≤ 1 + source.toList.count '\n' ∧ tokenize source = .ok ls ∧
    parse (ls ++ [⟨.symbol .rightBrace, 4⟩]) = .error fault := by
  intro source fault ls
  obtain ⟨hlines, hreading⟩ := reported_lines_lie_in_the_script source
  have htokens : tokenize source = .ok ls := by decide
  have hparse : parse ls = .error fault := rfl
  have hrun : Script.run 0 source (.fresh {}) = .finished (.error (.source fault)) (.fresh {}) := by
    rw [Script.run, Script.read, htokens]
    rfl
  refine ⟨hrun, (hlines 0 {} _ _ hrun).2, htokens, ?_⟩
  rw [(hreading ls htokens).2, hparse]

end Skript
