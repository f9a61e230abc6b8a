import Skript.Proofs.Lines
import Skript.Proofs.Running
import Skript.Proofs.ScriptReading

/-!
# Scripts one after another

A script, a line break, a semicolon and a second script are read as the two programs one after the
other. No piece goes past the line break, and no statement past the semicolon. So running them
together is running the first and then the second, on later lines.
-/
namespace Skript

open Grammar Piece

/-! ### The lexemes of both -/

/-- What is at the front of a text and does not hold `c` is at the front of what stands before
`c`. -/
theorem prefix_of_notMem {piece before after : List Char} {c : Char}
    (h : piece <+: before ++ c :: after) (hc : c ∉ piece) : piece <+: before := by
  by_cases hlength : piece.length ≤ before.length
  · exact List.prefix_of_prefix_length_le h (List.prefix_append before _) hlength
  · have hlonger : before ++ [c] <+: piece := by
      refine List.prefix_of_prefix_length_le ⟨after, by simp⟩ h ?_
      rw [List.length_append, List.length_singleton]
      omega
    exact absurd (hlonger.subset (by simp)) hc

theorem Longest.before_lineBreak {cs lexeme : List Char} {rule : TokenRule}
    (h : Longest cs lexeme rule) (after : List Char) :
    Longest (cs ++ '\n' :: after) lexeme rule := by
  refine ⟨h.listed, h.front.trans (List.prefix_append cs _), h.spelled, ?_, h.fixedFirst⟩
  intro other hother piece hfront hpiece
  -- A longer piece would have to match across the line break.
  obtain hnone | rfl := TokenRule.lineBreak_alone hother hpiece
  · exact h.longest other hother piece (prefix_of_notMem hfront hnone) hpiece
  · obtain ⟨p, hat, rfl, -⟩ := longest_iff.1 h
    exact List.length_pos_iff.2 (chars_ne_nil hat)

theorem Scans.append_lineBreak {cs rest after : List Char} {taken taken' : List (List Char × Token)}
    (h : Scans cs taken []) (h' : Scans ('\n' :: after) taken' rest) :
    Scans (cs ++ '\n' :: after) (taken ++ taken') rest := by
  -- By induction on the first scan, which has to be seen to end where its text does.
  generalize hend : ([] : List Char) = ending at h
  induction h with
  | stop =>
    subst hend
    exact h'
  | take longest token _ ih =>
    have hlongest := longest.before_lineBreak after
    rw [List.append_assoc] at hlongest ⊢
    exact .take hlongest token (ih hend)

theorem Scans.lineBreak_semicolon {cs rest : List Char} {taken : List (List Char × Token)}
    (h : Scans cs taken rest) : Scans ('\n' :: ';' :: cs)
      ((['\n'], .filler .newLine) :: ([';'], .symbol .semicolon) :: taken) rest := by
  have hsemicolon : Scans (';' :: cs) (([';'], .symbol .semicolon) :: taken) rest :=
    h.take_piece (p := .symbol .semicolon) rfl rfl
  exact hsemicolon.take_piece (p := .newLine) rfl rfl

theorem lineAfter_append (before cs : List Char) :
    lineAfter (before ++ cs) = lineAfter before + cs.count '\n' := by
  rw [lineAfter, lineAfter, List.count_append]
  omega

theorem placed_append (before : List Char) (taken taken' : List (List Char × Token)) :
    placed before (taken ++ taken') =
      placed before taken ++ placed (before ++ taken.flatMap Prod.fst) taken' := by
  induction taken generalizing before with
  | nil => rw [List.flatMap_nil, List.append_nil, List.nil_append, placed, List.nil_append]
  | cons piece taken ih =>
    rw [List.cons_append, placed, placed, ih, List.flatMap_cons, List.append_assoc,
      List.append_assoc]

theorem map_lexemes (t : Token) (move : Nat → Nat) (line : Nat) :
    (t.lexemes line).map (Lexeme.mapLine move) = t.lexemes (move line) := by
  cases t <;> rfl

/-- Pieces that stand further down have their lexemes as many lines further down. -/
theorem placed_further {before further : List Char} {k : Nat}
    (h : lineAfter further = lineAfter before + k) (taken : List (List Char × Token)) :
    placed further taken = (placed before taken).map (Lexeme.mapLine (· + k)) := by
  induction taken generalizing before further with
  | nil => rfl
  | cons piece taken ih =>
    have hnext : lineAfter (further ++ piece.1) = lineAfter (before ++ piece.1) + k := by
      rw [lineAfter_append, lineAfter_append, h]
      omega
    rw [placed, placed, List.map_append, map_lexemes, ih hnext, h]

/-! ### The statements of both -/

theorem greedyJoin_before_semicolon {s : Statement} {p q r : List Lexeme} {line : Nat}
    (h : greedyJoin s p q) : greedyJoin s p (q ++ ⟨.symbol .semicolon, line⟩ :: r) := by
  intro hopen
  cases q with
  | nil => exact stops_of_closes rfl
  | cons l q => exact stops_append.2 (h hopen)

theorem Grammar.DerivesSequence.append : ∀ {p q : List Lexeme} {ss ss' : List Statement}
    {line : Nat}, DerivesSequence greedyJoin p ss →
    DerivesSequence greedyJoin (⟨.symbol .semicolon, line⟩ :: q) ss' →
    DerivesSequence greedyJoin (p ++ ⟨.symbol .semicolon, line⟩ :: q) (ss ++ ss')
  | _, _, _, _, _, .done, hq => hq
  | _, _, _, _, _, .semicolon l hp, hq => .semicolon l (hp.append hq)
  | _, _, _, _, _, .statement hs hp hjoin, hq => by
    rw [List.append_assoc]
    exact .statement hs (hp.append hq) (greedyJoin_before_semicolon hjoin)

theorem Script.read_append {first second : String} {ss ss' : List Statement}
    (h : Script.read first = .ok ss) (h' : Script.read second = .ok ss') :
    Script.read (first ++ "\n;" ++ second) =
      .ok (ss ++ ss'.map (Statement.mapLine (· + (first.toList.count '\n' + 1)))) := by
  obtain ⟨taken, hscans, hsequence⟩ := Script.read_eq_ok_iff.1 h
  obtain ⟨taken', hscans', hsequence'⟩ := Script.read_eq_ok_iff.1 h'
  refine Script.read_eq_ok_iff.2 ⟨taken ++ (['\n'], .filler .newLine) ::
    ([';'], .symbol .semicolon) :: taken', ?_, ?_⟩
  · have htext : (first ++ "\n;" ++ second).toList =
        first.toList ++ '\n' :: ';' :: second.toList := by simp
    rw [htext]
    exact hscans.append_lineBreak hscans'.lineBreak_semicolon
  · have hwhole : taken.flatMap Prod.fst = first.toList := by
      simpa using hscans.flatMap_append
    have hfurther : lineAfter (first.toList ++ ['\n'] ++ [';']) =
        lineAfter [] + (first.toList.count '\n' + 1) := by
      simp [lineAfter]
    rw [placed_append, List.nil_append, hwhole, placed, placed, placed_further hfurther]
    refine hsequence.append (.semicolon _ ?_)
    rw [← Statement.mapLines_eq]
    exact hsequence'.mapLine

/-! ### Running both -/

/-- Two scripts that can be read are read together as their statements one after the other, the
second ones as many lines further down as the first script and the line break take up. Run together,
they fail as the first does; else they do what the second does then, and if this has no statements,
their result is that of the first. -/
theorem scripts_run_one_after_another (first second : String) (ss ss' : List Statement)
    (hfirst : Script.read first = .ok ss) (hsecond : Script.read second = .ok ss') :
    let moved := ss'.map (Statement.mapLine (· + (first.toList.count '\n' + 1)))
    Script.read (first ++ "\n;" ++ second) = .ok (ss ++ moved) ∧
    ∀ fuel m, Script.run fuel (first ++ "\n;" ++ second) m =
      match Script.run fuel first m with
      | .finished (.ok result) after =>
          if ss'.isEmpty then .finished (.ok result) after
          else ((executeAll (some callLimit) fuel moved).run after).mapError .run
      | failed => failed := by
  intro moved
  have hread : Script.read (first ++ "\n;" ++ second) = .ok (ss ++ moved) :=
    Script.read_append hfirst hsecond
  refine ⟨hread, fun fuel m => ?_⟩
  rw [Script.run, Script.run, hread, hfirst]
  dsimp only
  rw [executeAll, Exec.lastOf_append, Exec.run_bind, executeAll]
  cases (Exec.lastOf (execute (some callLimit) fuel) none ss).run m with
  | outOfFuel => rfl
  | finished result after =>
    cases result with
    | error fault => rfl
    | ok result =>
      dsimp only [Outcome.mapError, Except.mapError]
      cases ss' with
      | nil => rfl
      | cons s ss' =>
        rw [if_neg (by simp), executeAll, Exec.lastOf_of_ne_nil _ result none (by simp [moved])]

/-- The second script opens with a minus, which would carry on the last expression of the first; its
division is on its second line, the fourth of both. -/
theorem minus_after_semicolon_starts_anew :
    let first := "num n = 2\nn"
    let second := "-n\n/ 0"
    let declared := [.assignTyped "n" .num (.literal (.num 2) 1) 1, .expr (.var "n" 2) 2]
    let quotient line := Statement.expr
      (.binary (.binary (.literal (.num 0) line) .sub (.var "n" line) line) .div
        (.literal (.num 0) (line + 1)) (line + 1)) (line + 1)
    Script.read first = .ok declared ∧ Script.read second = .ok [quotient 1] ∧
    Script.read (first ++ "\n;" ++ second) = .ok (declared ++ [quotient 3]) ∧
    Script.run 9 (first ++ "\n;" ++ second) {} = .finished (.error (.run ⟨.divisionByZero, 4⟩))
      { environment := Environment.empty.declare "n" .num (.num 2) } := by
  intro first second declared quotient
  have hfirst : Script.read first = .ok declared := by
    have htokens : tokenize first = .ok [⟨.kind .num, 1⟩, ⟨.identifier "n", 1⟩,
        ⟨.symbol .equals, 1⟩, ⟨.integer 2, 1⟩, ⟨.identifier "n", 2⟩, ⟨.endOfInput, 2⟩] := by decide
    rw [Script.read, htokens]
    rfl
  have hsecond : Script.read second = .ok [quotient 1] := by
    have htokens : tokenize second = .ok [⟨.symbol .minus, 1⟩, ⟨.identifier "n", 1⟩,
        ⟨.symbol .slash, 2⟩, ⟨.integer 0, 2⟩, ⟨.endOfInput, 2⟩] := by decide
    rw [Script.read, htokens]
    rfl
  have hcount : first.toList.count '\n' = 1 := by decide
  obtain ⟨hread, hrun⟩ := scripts_run_one_after_another first second _ _ hfirst hsecond
  rw [hcount] at hread hrun
  refine ⟨hfirst, hsecond, hread, (hrun 9 {}).trans ?_⟩
  rw [Script.run, hfirst]
  rfl

end Skript
