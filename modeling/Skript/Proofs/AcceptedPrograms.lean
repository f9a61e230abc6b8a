import Skript.Proofs.GreedyReading
import Skript.Proofs.Reading

/-!
# The parser accepts exactly its grammar

What the parser gives is a program that its lexemes spell, and it gives one whenever there is one:
where the grammar leaves a choice, the parser reads greedily, and a greedy reading exists whenever
any reading does. On which lines the tokens stand makes no difference to whether they are accepted.
-/
namespace Skript

namespace Grammar

variable {α : Type} {p q : List Lexeme}

/-- The tokens spell a program, on whatever lines they stand. -/
def IsProgram (tokens : List Token) : Prop :=
  ∃ ts ss, ts.map Lexeme.token = tokens ∧ Program ts ss

/-! ### Lines do not matter -/

/-- The same tokens, on lines of their own. -/
def SameTokens (q p : List Lexeme) : Prop :=
  q.map Lexeme.token = p.map Lexeme.token

theorem sameTokens_nil : SameTokens q [] ↔ q = [] :=
  List.map_eq_nil_iff

theorem sameTokens_cons {t : Token} {line : Nat} :
    SameTokens q (⟨t, line⟩ :: p) ↔ ∃ k r, q = ⟨t, k⟩ :: r ∧ SameTokens r p := by
  constructor
  · intro h
    obtain ⟨⟨_, k⟩, r, rfl, rfl, hr⟩ := List.map_eq_cons_iff.1 h
    exact ⟨k, r, rfl, hr⟩
  · rintro ⟨k, r, rfl, hr⟩
    exact congrArg (t :: ·) hr

theorem sameTokens_append {p₁ p₂ : List Lexeme} :
    SameTokens q (p₁ ++ p₂) ↔ ∃ q₁ q₂, q = q₁ ++ q₂ ∧ SameTokens q₁ p₁ ∧ SameTokens q₂ p₂ := by
  rw [SameTokens, List.map_append]
  exact List.map_eq_append_iff

theorem exists_listed_of_sameTokens {D : List Lexeme → α → Prop}
    {items : List (List Lexeme × α)} (h : CommaSeparated items p)
    (hitems : ∀ item ∈ items, ∀ q, SameTokens q item.1 → ∃ a, D q a) (hq : SameTokens q p) :
    ∃ as, as.length = items.length ∧ Listed D q as := by
  induction h generalizing q with
  | none =>
    cases sameTokens_nil.1 hq
    exact ⟨[], rfl, [], .none, by simp, rfl⟩
  | one item =>
    obtain ⟨a, ha⟩ := hitems item List.mem_cons_self q hq
    exact ⟨[a], rfl, Listed.one ha⟩
  | more item line _ ih =>
    obtain ⟨q₁, r, rfl, hq₁, hr⟩ := sameTokens_append.1 hq
    obtain ⟨comma, q₂, rfl, hq₂⟩ := sameTokens_cons.1 hr
    obtain ⟨a, ha⟩ := hitems item List.mem_cons_self q₁ hq₁
    obtain ⟨as, hlength, has⟩ := ih
      (fun other hother => hitems other (List.mem_cons_of_mem item hother)) hq₂
    refine ⟨a :: as, congrArg (· + 1) hlength, Listed.cons comma ha ?_ has⟩
    rintro rfl
    cases hlength

theorem exists_names_of_sameTokens {params : List String} (h : Listed Name p params)
    (hq : SameTokens q p) : ∃ params', Listed Name q params' := by
  obtain ⟨items, hsep, hnames, -⟩ := h
  have hitems : ∀ item ∈ items, ∀ q, SameTokens q item.1 → ∃ name, Name q name := by
    intro item hitem q hq
    obtain ⟨line, hname⟩ := hnames item hitem
    rw [hname] at hq
    obtain ⟨k, r, rfl, hr⟩ := sameTokens_cons.1 hq
    cases sameTokens_nil.1 hr
    exact ⟨item.2, k, rfl⟩
  obtain ⟨params', -, hparams⟩ := exists_listed_of_sameTokens hsep hitems hq
  exact ⟨params', hparams⟩

theorem exists_input_of_sameTokens {prompt : Option String} {kind : Option Kind}
    (h : InputArguments p prompt kind) (hq : SameTokens q p) : InputArguments q prompt kind := by
  cases h <;> simp only [sameTokens_cons, sameTokens_nil] at hq
  · cases hq
    exact .none
  · obtain ⟨l₁, _, rfl, rfl⟩ := hq
    exact .prompt _ l₁
  · obtain ⟨l₁, _, rfl, l₂, _, rfl, l₃, _, rfl, rfl⟩ := hq
    exact .promptAndKind _ _ l₁ l₂ l₃
  · obtain ⟨l₁, _, rfl, rfl⟩ := hq
    exact .kind _ l₁

theorem Derives.exists_of_sameTokens {phrase : Phrase} {e : Expr} (h : Derives phrase p e)
    (hq : SameTokens q p) : ∃ e', Derives phrase q e' := by
  induction h generalizing q with
  | first _ ih =>
    obtain ⟨e', h'⟩ := ih hq
    exact ⟨e', h'.first⟩
  | link line _ hsign _ ihp ihq =>
    obtain ⟨q₁, r, rfl, hq₁, hr⟩ := sameTokens_append.1 hq
    obtain ⟨l, q₂, rfl, hq₂⟩ := sameTokens_cons.1 hr
    obtain ⟨left, hleft⟩ := ihp hq₁
    obtain ⟨right, hright⟩ := ihq hq₂
    exact ⟨_, hleft.link l hsign hright⟩
  | minus line _ ih =>
    obtain ⟨l, r, rfl, hr⟩ := sameTokens_cons.1 hq
    obtain ⟨e', h'⟩ := ih hr
    exact ⟨_, h'.minus l⟩
  | plain _ ih =>
    obtain ⟨e', h'⟩ := ih hq
    exact ⟨e', h'.plain⟩
  | literal line hv =>
    simp only [sameTokens_cons, sameTokens_nil] at hq
    obtain ⟨l, _, rfl, rfl⟩ := hq
    exact ⟨_, .literal l hv⟩
  | var name line =>
    simp only [sameTokens_cons, sameTokens_nil] at hq
    obtain ⟨l, _, rfl, rfl⟩ := hq
    exact ⟨_, .var name l⟩
  | call name line l₁ l₂ hp _ ih =>
    simp only [sameTokens_cons, sameTokens_append, sameTokens_nil] at hq
    obtain ⟨l, _, rfl, k₁, _, rfl, q, _, rfl, hq, k₂, _, rfl, rfl⟩ := hq
    obtain ⟨args, -, items, hsep, hitems, -⟩ :=
      exists_listed_of_sameTokens hp (fun item hitem q hq => ih item hitem hq) hq
    exact ⟨_, .call name l k₁ k₂ hsep hitems⟩
  | group l₁ l₂ _ ih =>
    simp only [sameTokens_cons, sameTokens_append, sameTokens_nil] at hq
    obtain ⟨k₁, _, rfl, q, _, rfl, hq, k₂, _, rfl, rfl⟩ := hq
    obtain ⟨e', h'⟩ := ih hq
    exact ⟨e', .group k₁ k₂ h'⟩
  | input line l₁ l₂ h =>
    simp only [sameTokens_cons, sameTokens_append, sameTokens_nil] at hq
    obtain ⟨l, _, rfl, k₁, _, rfl, q, _, rfl, hq, k₂, _, rfl, rfl⟩ := hq
    exact ⟨_, .input l k₁ k₂ (exists_input_of_sameTokens h hq)⟩
  | length line l₁ l₂ _ ih =>
    simp only [sameTokens_cons, sameTokens_append, sameTokens_nil] at hq
    obtain ⟨l, _, rfl, k₁, _, rfl, q, _, rfl, hq, k₂, _, rfl, rfl⟩ := hq
    obtain ⟨e', h'⟩ := ih hq
    exact ⟨_, .length l k₁ k₂ h'⟩

mutual

theorem DerivesStatement.exists_of_sameTokens : ∀ {p : List Lexeme} {s : Statement},
    DerivesStatement anyJoin p s → ∀ {q : List Lexeme}, SameTokens q p →
    ∃ s', DerivesStatement anyJoin q s'
  | _, _, .function name line l₁ l₂ l₃ hp hb, q, hq => by
    simp only [sameTokens_cons, sameTokens_append] at hq
    obtain ⟨l, _, rfl, k₁, _, rfl, k₂, _, rfl, q, _, rfl, hq, k₃, b, rfl, hb'⟩ := hq
    obtain ⟨params, hparams⟩ := exists_names_of_sameTokens hp hq
    obtain ⟨body, hbody⟩ := hb.exists_of_sameTokens hb'
    exact ⟨_, .function name l k₁ k₂ k₃ hparams hbody⟩
  | _, _, .ret line h, q, hq => by
    obtain ⟨l, r, rfl, hr⟩ := sameTokens_cons.1 hq
    obtain ⟨e, he⟩ := h.exists_of_sameTokens hr
    exact ⟨_, .ret l he⟩
  | _, _, .print line l₁ l₂ h, q, hq => by
    simp only [sameTokens_cons, sameTokens_append, sameTokens_nil] at hq
    obtain ⟨l, _, rfl, k₁, _, rfl, q, _, rfl, hq, k₂, _, rfl, rfl⟩ := hq
    obtain ⟨e, he⟩ := h.exists_of_sameTokens hq
    exact ⟨_, .print l k₁ k₂ he⟩
  | _, _, .choose h, q, hq => by
    obtain ⟨l, r, rfl, hr⟩ := sameTokens_cons.1 hq
    obtain ⟨c, hc⟩ := h.exists_of_sameTokens l hr
    exact ⟨_, .choose hc⟩
  | _, _, .loop line l₁ l₂ l₃ l₄ hi hc hu hb, q, hq => by
    simp only [sameTokens_cons, sameTokens_append] at hq
    obtain ⟨l, _, rfl, k₁, _, rfl, i, _, rfl, hi', k₂, _, rfl, c, _, rfl, hc', k₃, _, rfl, u, _, rfl,
      hu', k₄, b, rfl, hb'⟩ := hq
    obtain ⟨init, hinit⟩ := hi.exists_of_sameTokens hi'
    obtain ⟨condition, hcondition⟩ := hc.exists_of_sameTokens hc'
    obtain ⟨update, hupdate⟩ := hu.exists_of_sameTokens hu'
    obtain ⟨body, hbody⟩ := hb.exists_of_sameTokens hb'
    exact ⟨_, .loop l k₁ k₂ k₃ k₄ hinit hcondition hupdate hbody⟩
  | _, _, .declare name k line l₁, q, hq => by
    simp only [sameTokens_cons, sameTokens_nil] at hq
    obtain ⟨l, _, rfl, k₁, _, rfl, rfl⟩ := hq
    exact ⟨_, .declare name k l k₁⟩
  | _, _, .assignTyped name k line l₁ l₂ h, q, hq => by
    simp only [sameTokens_cons] at hq
    obtain ⟨l, _, rfl, k₁, _, rfl, k₂, q, rfl, hq⟩ := hq
    obtain ⟨e, he⟩ := h.exists_of_sameTokens hq
    exact ⟨_, .assignTyped name k l k₁ k₂ he⟩
  | _, _, .assign name line l₁ h, q, hq => by
    simp only [sameTokens_cons] at hq
    obtain ⟨k₁, _, rfl, l, q, rfl, hq⟩ := hq
    obtain ⟨e, he⟩ := h.exists_of_sameTokens hq
    exact ⟨_, .assign name l k₁ he⟩
  | _, _, .expr h, q, hq => by
    obtain ⟨e, he⟩ := h.exists_of_sameTokens hq
    exact ⟨_, .expr he⟩

theorem DerivesBlock.exists_of_sameTokens : ∀ {p : List Lexeme} {ss : List Statement},
    DerivesBlock anyJoin p ss → ∀ {q : List Lexeme}, SameTokens q p →
    ∃ ss', DerivesBlock anyJoin q ss'
  | _, _, .braces l₁ l₂ h, q, hq => by
    simp only [sameTokens_cons, sameTokens_append, sameTokens_nil] at hq
    obtain ⟨k₁, _, rfl, q, _, rfl, hq, k₂, _, rfl, rfl⟩ := hq
    obtain ⟨ss, hss⟩ := h.exists_of_sameTokens hq
    exact ⟨ss, .braces k₁ k₂ hss⟩

theorem DerivesSequence.exists_of_sameTokens : ∀ {p : List Lexeme} {ss : List Statement},
    DerivesSequence anyJoin p ss → ∀ {q : List Lexeme}, SameTokens q p →
    ∃ ss', DerivesSequence anyJoin q ss'
  | _, _, .done, q, hq => by
    cases sameTokens_nil.1 hq
    exact ⟨[], .done⟩
  | _, _, .semicolon line h, q, hq => by
    obtain ⟨l, r, rfl, hr⟩ := sameTokens_cons.1 hq
    obtain ⟨ss, hss⟩ := h.exists_of_sameTokens hr
    exact ⟨ss, .semicolon l hss⟩
  | _, _, .statement hs hss _, q, hq => by
    obtain ⟨q₁, q₂, rfl, hq₁, hq₂⟩ := sameTokens_append.1 hq
    obtain ⟨s, hs'⟩ := hs.exists_of_sameTokens hq₁
    obtain ⟨ss, hss'⟩ := hss.exists_of_sameTokens hq₂
    exact ⟨s :: ss, .statement hs' hss' trivial⟩

theorem DerivesChoice.exists_of_sameTokens : ∀ {line : Nat} {p : List Lexeme} {c : Choice},
    DerivesChoice anyJoin line p c → ∀ (l : Nat) {q : List Lexeme}, SameTokens q p →
    ∃ c', DerivesChoice anyJoin l q c'
  | _, _, _, .mk line hp hb hr, l, q, hq => by
    simp only [sameTokens_append] at hq
    obtain ⟨q, _, rfl, hq, b, r, rfl, hb', hr'⟩ := hq
    obtain ⟨e, he⟩ := hp.exists_of_sameTokens hq
    obtain ⟨body, hbody⟩ := hb.exists_of_sameTokens hb'
    obtain ⟨o, ho⟩ := hr.exists_of_sameTokens hr'
    exact ⟨_, .mk l he hbody ho⟩

theorem DerivesTail.exists_of_sameTokens : ∀ {p : List Lexeme} {o : Otherwise},
    DerivesTail anyJoin p o → ∀ {q : List Lexeme}, SameTokens q p → ∃ o', DerivesTail anyJoin q o'
  | _, _, .nothing, q, hq => by
    cases sameTokens_nil.1 hq
    exact ⟨_, .nothing⟩
  | _, _, .elseIf h, q, hq => by
    obtain ⟨l, r, rfl, hr⟩ := sameTokens_cons.1 hq
    obtain ⟨c, hc⟩ := h.exists_of_sameTokens l hr
    exact ⟨_, .elseIf hc⟩
  | _, _, .otherwiseIf l₁ h, q, hq => by
    simp only [sameTokens_cons] at hq
    obtain ⟨k₁, _, rfl, l, q, rfl, hq⟩ := hq
    obtain ⟨c, hc⟩ := h.exists_of_sameTokens l hq
    exact ⟨_, .otherwiseIf k₁ hc⟩
  | _, _, .otherwise l₁ hb, q, hq => by
    obtain ⟨k₁, b, rfl, hb'⟩ := sameTokens_cons.1 hq
    obtain ⟨body, hbody⟩ := hb.exists_of_sameTokens hb'
    exact ⟨_, .otherwise k₁ hbody⟩

end

end Grammar

open Grammar

/-- Lexemes without an end of input are all that stands before the first one. -/
theorem Grammar.eq_of_append_end {ts p rest : List Lexeme} {last : Nat} (hts : Unended ts)
    (hp : Unended p) (h : ts ++ [⟨.endOfInput, last⟩] = p ++ rest)
    (hend : ∀ l ∈ rest.head?, l.token = .endOfInput) : ts = p := by
  obtain ⟨r, rfl, hr⟩ | ⟨r, rfl, hr⟩ := List.append_eq_append_iff.1 h
  · cases r with
    | nil => rw [List.append_nil]
    | cons l r =>
      obtain ⟨rfl, -⟩ := List.cons.inj hr
      exact absurd rfl (hp ⟨.endOfInput, last⟩ (by simp))
  · cases r with
    | nil => rw [List.append_nil]
    | cons l r =>
      subst hr
      exact absurd (hend l rfl) (hts l (by simp))

/-- Nothing but programs is accepted, and what is given is spelled by the lexemes before the end. -/
theorem exists_program_of_parse {ls : List Lexeme} {ss : List Statement} (h : parse ls = .ok ss) :
    ∃ p rest, ls = p ++ rest ∧ Program p ss ∧ ∀ l ∈ rest.head?, l.token = .endOfInput := by
  have hdepth : ls.length < parseDepth ls := by
    rw [parseDepth]
    omega
  cases hrun : (Parse.program (Parse.statement (parseDepth ls)) (parseDepth ls)).run ls with
  | error fault =>
    rw [parse, hrun] at h
    cases h
  | ok out =>
    obtain ⟨ss', rest⟩ := out
    rw [parse, hrun] at h
    cases h
    obtain ⟨p, hsplit, hp, hend⟩ :=
      Parse.run_program_ok _ (Parse.yields_statement _) hdepth hrun
    exact ⟨p, rest, hsplit, hp, hend⟩

theorem program_of_parse {ts : List Lexeme} {last : Nat} {ss : List Statement} (hts : Unended ts)
    (h : parse (ts ++ [⟨.endOfInput, last⟩]) = .ok ss) : Program ts ss := by
  obtain ⟨p, rest, hsplit, hp, hend⟩ := exists_program_of_parse h
  rwa [eq_of_append_end hts hp.unended hsplit hend]

/-- The parser gives the one program that is read greedily up to the first end of the input, or up
to the end of the lexemes if there is none. -/
theorem parse_eq_ok_iff_greedy {ls : List Lexeme} {ss : List Statement} :
    parse ls = .ok ss ↔ ∃ p rest, ls = p ++ rest ∧ DerivesSequence greedyJoin p ss ∧
      ∀ l ∈ rest.head?, l.token = .endOfInput := by
  constructor
  · intro h
    obtain ⟨p, rest, rfl, hp, hend⟩ := exists_program_of_parse h
    obtain ⟨ss', hss'⟩ := hp.exists_greedy
    rw [parse_append_of_greedy hss' hend] at h
    cases h
    exact ⟨p, rest, rfl, hss', hend⟩
  · rintro ⟨p, rest, rfl, hp, hend⟩
    exact parse_append_of_greedy hp hend

theorem parse_eq_ok_iff {ts : List Lexeme} {last : Nat} {ss : List Statement} (hts : Unended ts) :
    parse (ts ++ [⟨.endOfInput, last⟩]) = .ok ss ↔ DerivesSequence greedyJoin ts ss := by
  refine ⟨fun h => ?_, fun h => parse_of_greedy h last⟩
  obtain ⟨p, rest, hsplit, hp, hend⟩ := parse_eq_ok_iff_greedy.1 h
  rwa [eq_of_append_end hts hp.unended hsplit hend]

/-- For lexemes without an end of input, put before one, parsing succeeds exactly if the tokens
spell a program, on whatever lines they stand, and what it gives is the tree of a derivation. -/
theorem parse_accepts_exactly_the_grammar (ts : List Lexeme) (last : Nat)
    (hts : ∀ l ∈ ts, l.token ≠ .endOfInput) :
    ((∃ ss, parse (ts ++ [⟨.endOfInput, last⟩]) = .ok ss) ↔ IsProgram (ts.map Lexeme.token)) ∧
    ∀ ss, parse (ts ++ [⟨.endOfInput, last⟩]) = .ok ss → Program ts ss := by
  refine ⟨⟨?_, ?_⟩, fun ss h => program_of_parse hts h⟩
  · rintro ⟨ss, h⟩
    exact ⟨ts, ss, rfl, program_of_parse hts h⟩
  · rintro ⟨ts', ss, htokens, h⟩
    obtain ⟨ss', h'⟩ := h.exists_of_sameTokens htokens.symm
    obtain ⟨greedy, hgreedy⟩ := h'.exists_greedy
    exact ⟨greedy, parse_of_greedy hgreedy last⟩

/-- `x - y (z)`: one statement, two or three, as the grammar has it. -/
def Grammar.crowded : List Lexeme :=
  [⟨.identifier "x", 1⟩, ⟨.symbol .minus, 1⟩, ⟨.identifier "y", 1⟩, ⟨.symbol .leftParen, 1⟩,
    ⟨.identifier "z", 1⟩, ⟨.symbol .rightParen, 1⟩]

theorem crowded_lexemes_are_one_statement :
    (∀ l ∈ crowded, l.token ≠ .endOfInput) ∧
    Program crowded [.expr (.binary (.var "x" 1) .sub (.call "y" [.var "z" 1] 1) 1) 1] ∧
    ¬ IsProgram [.identifier "x", .symbol .equals] := by
  refine ⟨by decide, (parse_accepts_exactly_the_grammar crowded 1 (by decide)).2 _ rfl, fun h => ?_⟩
  obtain ⟨ss, hss⟩ := (parse_accepts_exactly_the_grammar
    [⟨.identifier "x", 1⟩, ⟨.symbol .equals, 1⟩] 1 (by decide)).1.2 h
  cases hss

end Skript
