import Skript.Proofs.GreedyGrammar

/-!
# Readers find every greedy derivation

Given enough depth and lexemes that do not carry the phrase on, a reader takes exactly the lexemes
of the phrase and gives exactly the tree of its derivation. A phrase of `k` lexemes is read within
a depth of `10 * k`, less what the readers around it have already used of its first lexeme.
-/
namespace Skript

/-- The tokens that end an expression before them, whatever it ends in. -/
def Token.closes : Token → Bool
  | symbol .comma | symbol .rightParen | symbol .leftBrace | symbol .rightBrace => true
  | symbol .semicolon | endOfInput => true
  | _ => false

/-- The tokens that do nothing but carry on a statement. -/
def Token.resumes : Token → Bool
  | symbol .equals | keyword .elseIf | keyword .otherwise => true
  | _ => false

open Grammar

theorem Grammar.stops_of_closes {phrase : Phrase} {p rest : List Lexeme} {l : Lexeme}
    (h : l.token.closes) : Stops phrase p (l :: rest) := by
  obtain ⟨t, line⟩ := l
  constructor
  · rintro _ ⟨⟩ op hop
    cases t with
    | symbol sign => cases sign <;> first | cases hop; done | cases h
    | _ => cases hop
  · rintro _ ⟨⟩ hparen
    cases hparen
    cases h

namespace Parse

variable {α β : Type} {x : Parse α} {f : α → Parse β} {g : α → β} {a : α}
variable {p ls rest : List Lexeme}

theorem run_bind_of_ok (h : x.run ls = .ok (a, rest)) : (x >>= f).run ls = (f a).run rest := by
  rw [run_bind, h]

theorem run_map_of_ok (h : x.run ls = .ok (a, rest)) : (g <$> x).run ls = .ok (g a, rest) :=
  run_bind_of_ok h

@[simp] theorem run_expect (sign : Symbol) (line : Nat) :
    (expect sign).run (⟨.symbol sign, line⟩ :: ls) = .ok (line, ls) :=
  if_pos rfl

@[simp] theorem run_identifier (name : String) (line : Nat) :
    identifier.run (⟨.identifier name, line⟩ :: ls) = .ok (name, ls) := rfl

theorem run_closed {line : Nat}
    (h : x.run (p ++ ⟨.symbol .rightParen, line⟩ :: rest) =
      .ok (a, ⟨.symbol .rightParen, line⟩ :: rest)) :
    (closed x).run (p ++ ⟨.symbol .rightParen, line⟩ :: rest) = .ok (a, rest) := by
  rw [closed, run_bind_of_ok h, run_bind_of_ok (run_expect .rightParen line)]
  rfl

theorem run_parenthesized {l₁ l₂ : Nat}
    (h : x.run (p ++ ⟨.symbol .rightParen, l₂⟩ :: rest) =
      .ok (a, ⟨.symbol .rightParen, l₂⟩ :: rest)) :
    (parenthesized x).run (⟨.symbol .leftParen, l₁⟩ :: (p ++ ⟨.symbol .rightParen, l₂⟩ :: rest)) =
      .ok (a, rest) := by
  rw [parenthesized, run_bind_of_ok (run_expect .leftParen l₁)]
  exact run_closed h

/-! ### Lists -/

/-- The reader takes each item off a list, with the comma or the closing symbol still to come. -/
def ReadsItems (x : Parse α) (closing : Symbol) (items : List (List Lexeme × α)) : Prop :=
  ∀ item ∈ items, ∀ (l : Lexeme) (rest : List Lexeme),
    l.token = .symbol .comma ∨ l.token = .symbol closing →
    x.run (item.1 ++ l :: rest) = .ok (item.2, l :: rest)

theorem run_items {closing : Symbol} {items : List (List Lexeme × α)} (line : Nat)
    (hsep : CommaSeparated items p) (hne : items ≠ []) (hitems : ReadsItems x closing items)
    (hclosing : closing ≠ .comma) {n : Nat} (hn : 2 * items.length ≤ n) :
    (Parse.items x closing n).run (p ++ ⟨.symbol closing, line⟩ :: rest) =
      .ok (items.map Prod.snd, rest) := by
  induction hsep generalizing n with
  | none => exact absurd rfl hne
  | one item =>
    obtain ⟨n, rfl⟩ : ∃ m, n = m + 2 := Nat.exists_eq_add_of_le' hn
    have hitem := hitems item (List.mem_singleton_self item) ⟨.symbol closing, line⟩ rest (.inr rfl)
    have hafter : (itemsAfter x closing (n + 1)).run (⟨.symbol closing, line⟩ :: rest) =
        .ok ([], rest) := by
      simp [itemsAfter, hclosing]
    rw [Parse.items, run_bind_of_ok hitem, run_bind_of_ok hafter]
    rfl
  | @more q next items item comma hq ih =>
    rw [List.length_cons] at hn
    obtain ⟨n, rfl⟩ : ∃ m, n = m + 2 := Nat.exists_eq_add_of_le' (by omega)
    have hitem := hitems item List.mem_cons_self ⟨.symbol .comma, comma⟩
      (q ++ ⟨.symbol closing, line⟩ :: rest) (.inl rfl)
    have hrest := ih (List.cons_ne_nil next items)
      (fun other hother => hitems other (List.mem_cons_of_mem item hother)) (n := n) (by omega)
    have hafter : (itemsAfter x closing (n + 1)).run
        (⟨.symbol .comma, comma⟩ :: (q ++ ⟨.symbol closing, line⟩ :: rest)) =
        .ok ((next :: items).map Prod.snd, rest) := by
      rw [← hrest]
      simp [itemsAfter]
    rw [List.append_assoc, List.cons_append, Parse.items, run_bind_of_ok hitem,
      run_bind_of_ok hafter]
    rfl

theorem run_commaSeparated {closing : Symbol} {items : List (List Lexeme × α)} (line : Nat)
    (hsep : CommaSeparated items p) (hitems : ReadsItems x closing items)
    (hstarts : ∀ item ∈ items, ∃ l q, item.1 = l :: q ∧ l.token ≠ .symbol closing)
    (hclosing : closing ≠ .comma) {n : Nat} (hn : 2 * items.length ≤ n) :
    (commaSeparated x closing n).run (p ++ ⟨.symbol closing, line⟩ :: rest) =
      .ok (items.map Prod.snd, rest) := by
  cases items with
  | nil =>
    cases hsep
    simp [commaSeparated]
  | cons item items =>
    obtain ⟨l, q, hitem, hl⟩ := hstarts item List.mem_cons_self
    obtain ⟨r, rfl⟩ : ∃ r, p = l :: r := by
      cases hsep with
      | one => exact ⟨q, hitem⟩
      | more => exact ⟨_, by rw [hitem, List.cons_append]⟩
    rw [← run_items line hsep (List.cons_ne_nil item items) hitems hclosing hn]
    simp [commaSeparated, hl]

/-! ### Expressions -/

/-- The reader of a sort of expressions. -/
def reader : Phrase → Nat → Parse Expr
  | .chain level, n => chain n level
  | .unary, n => unary n
  | .primary, n => primary n

/-- How much of the depth that its first lexeme brings along may be used up when a phrase is
reached. -/
def slack : Phrase → Nat
  | .chain .relational => 1
  | .chain .additive => 3
  | .chain .multiplicative => 5
  | .unary => 7
  | .primary => 8

theorem operand_succ (n : Nat) (level : Level) :
    operand (n + 1) level = reader (.operand level) n := by
  cases level <;> rfl

theorem slack_operand (level : Level) : slack (.operand level) = slack (.chain level) + 2 := by
  cases level <;> rfl

theorem slack_le (phrase : Phrase) : slack phrase ≤ 8 := by
  rcases phrase with (_ | _ | _) | _ | _ <;> decide

/-- What reading a phrase comes to. A chain is left where an operator of its own level may still
carry it on, so that longer chains can build on it. -/
def Reads : Phrase → List Lexeme → Expr → Prop
  | .chain level, p, e => ∀ n rest, 10 * p.length ≤ n + slack (.chain level) →
      Stops (.operand level) p rest → ∃ k, n ≤ k + p.length ∧
        (chain n level).run (p ++ rest) = (chainAfter k level e).run rest
  | phrase, p, e => ∀ n rest, 10 * p.length ≤ n + slack phrase → Stops phrase p rest →
      (reader phrase n).run (p ++ rest) = .ok (e, rest)

theorem operand_absorbs {level other : Level} (h : (Phrase.chain level).absorbs other = false) :
    (Phrase.operand level).absorbs other = false := by
  cases level <;> cases other <;> first | rfl | cases h

theorem stops_operand {level : Level} (h : Stops (.chain level) p rest) :
    Stops (.operand level) p rest :=
  ⟨fun l hl op hop => operand_absorbs (h.operator l hl op hop), h.call⟩

theorem run_chainAfter {level : Level} {e : Expr} (h : Stops (.chain level) p rest) (n : Nat) :
    (chainAfter n level e).run rest = .ok (e, rest) := by
  cases n with
  | zero => rfl
  | succ n =>
    cases rest with
    | nil => rfl
    | cons l rest =>
      simp only [chainAfter]
      split
      · rfl
      · next op hop =>
        have habsorbs := h.operator l rfl op hop
        rw [if_neg]
        rintro rfl
        revert habsorbs
        cases op.level <;> decide

theorem run_chainAfter_operator {level : Level} {left : Expr} {t : Token} {op : Operator}
    (ht : t.operator? = some op) (hlevel : op.level = level) (n line : Nat) :
    (chainAfter (n + 1) level left).run (⟨t, line⟩ :: ls) =
      (chainLink n level left op line).run ls := by
  simp [chainAfter, ht, hlevel]

/-- A phrase that what follows does not carry on is read as it stands. -/
theorem Reads.run {phrase : Phrase} {e : Expr} (h : Reads phrase p e) {n : Nat}
    (hn : 10 * p.length ≤ n + slack phrase) (hstops : Stops phrase p rest) :
    (reader phrase n).run (p ++ rest) = .ok (e, rest) := by
  cases phrase with
  | chain level =>
    obtain ⟨k, -, hrun⟩ := h n rest hn (stops_operand hstops)
    exact hrun.trans (run_chainAfter hstops k)
  | unary => exact h n rest hn hstops
  | primary => exact h n rest hn hstops

theorem reads_first {level : Level} {e : Expr} (hne : p ≠ []) (h : Reads (.operand level) p e) :
    Reads (.chain level) p e := by
  intro n rest hn hstops
  have hlength := List.length_pos_iff.2 hne
  have hslack := slack_le (.operand level)
  rw [slack_operand] at hslack
  obtain ⟨n, rfl⟩ : ∃ m, n = m + 2 := Nat.exists_eq_add_of_le' (by omega)
  have hrun := h.run (n := n) (by rw [slack_operand]; omega) hstops
  rw [← operand_succ] at hrun
  exact ⟨n + 1, by omega, by rw [chain, run_bind_of_ok hrun]⟩

theorem reads_link {level : Level} {q : List Lexeme} {left right : Expr} {t : Token}
    {op : Operator} (line : Nat) (hq_ne : q ≠ []) (hp : Reads (.chain level) p left)
    (ht : t.operator? = some op) (hlevel : op.level = level)
    (hq : Reads (.operand level) q right) :
    Reads (.chain level) (p ++ ⟨t, line⟩ :: q) (.binary left op right line) := by
  intro n rest hn hstops
  have hq_length := List.length_pos_iff.2 hq_ne
  have hslack := slack_le (.operand level)
  rw [slack_operand] at hslack
  simp only [List.length_append, List.length_cons] at hn ⊢
  have hbefore : Stops (.operand level) p (⟨t, line⟩ :: (q ++ rest)) := by
    constructor
    · rintro _ ⟨⟩ op' hop'
      cases hop'.symm.trans ht
      rw [hlevel]
      cases level <;> rfl
    · rintro _ ⟨⟩ rfl
      cases ht
  obtain ⟨k, hk, hrun⟩ := hp n (⟨t, line⟩ :: (q ++ rest)) (by omega) hbefore
  obtain ⟨k, rfl⟩ : ∃ m, k = m + 3 := Nat.exists_eq_add_of_le' (by omega)
  have hafter : Stops (.operand level) q rest :=
    Stops.of_append (p := [_]) hq_ne (Stops.of_append (List.cons_ne_nil _ _) hstops)
  have hright := hq.run (n := k) (by rw [slack_operand]; omega) hafter
  rw [← operand_succ] at hright
  refine ⟨k + 1, by omega, ?_⟩
  rw [List.append_assoc, List.cons_append, hrun, run_chainAfter_operator ht hlevel, chainLink,
    run_bind_of_ok hright]

theorem reads_minus {e : Expr} (line : Nat) (hne : p ≠ []) (h : Reads .unary p e) :
    Reads .unary (⟨.symbol .minus, line⟩ :: p)
      (.binary (.literal (.num 0) line) .sub e line) := by
  intro n rest hn hstops
  rw [List.length_cons, slack] at hn
  obtain ⟨n, rfl⟩ : ∃ m, n = m + 1 := Nat.exists_eq_add_of_le' (by omega)
  have hrest : Stops .unary p rest := Stops.of_append (p := [_]) hne hstops
  exact run_map_of_ok (h n rest (by rw [slack]; omega) hrest)

theorem reads_plain {e : Expr} (hp : Derives .primary p e) (h : Reads .primary p e) :
    Reads .unary p e := by
  intro n rest hn hstops
  have hlength := List.length_pos_iff.2 hp.ne_nil
  rw [slack] at hn
  obtain ⟨n, rfl⟩ : ∃ m, n = m + 1 := Nat.exists_eq_add_of_le' (by omega)
  have hrun := h n rest (by rw [slack]; omega) ⟨hstops.operator, hstops.call⟩
  obtain ⟨⟨t, line⟩, q, rfl, -⟩ := hp.starts
  have ht : t ≠ .symbol .minus := by
    rintro rfl
    cases hp with
    | literal _ hv => cases hv
  refine Eq.trans ?_ hrun
  simp [reader, unary, ht]

theorem reads_literal {t : Token} {v : Literal} (line : Nat) (hv : t.literal? = some v) :
    Reads .primary [⟨t, line⟩] (.literal v line) := by
  intro n rest hn _
  rw [List.length_singleton, slack] at hn
  obtain ⟨n, rfl⟩ : ∃ m, n = m + 1 := Nat.exists_eq_add_of_le' (by omega)
  cases t <;> cases hv <;> rfl

theorem reads_var (name : String) (line : Nat) :
    Reads .primary [⟨.identifier name, line⟩] (.var name line) := by
  intro n rest hn hstops
  rw [List.length_singleton, slack] at hn
  obtain ⟨n, rfl⟩ : ∃ m, n = m + 1 := Nat.exists_eq_add_of_le' (by omega)
  cases rest with
  | nil => rfl
  | cons l rest =>
    obtain ⟨t, l₁⟩ := l
    have ht : t ≠ .symbol .leftParen := fun hparen => hstops.call _ rfl hparen ⟨name, line, rfl⟩
    simp only [reader, primary, List.singleton_append]
    simp [ht]

/-- An expression before a closing token is read as it stands. -/
theorem Reads.run_before {e : Expr} {l : Lexeme} (h : Reads .expression p e) (hl : l.token.closes)
    {n : Nat} (hn : 10 * p.length ≤ n + 1) :
    (chain n .relational).run (p ++ l :: rest) = .ok (e, l :: rest) :=
  h.run hn (stops_of_closes hl)

theorem reads_call {items : List (List Lexeme × Expr)} (name : String) (line l₁ l₂ : Nat)
    (hp : CommaSeparated items p) (hitems : ∀ item ∈ items, Derives .expression item.1 item.2)
    (h : ∀ item ∈ items, Reads .expression item.1 item.2) :
    Reads .primary
      (⟨.identifier name, line⟩ :: ⟨.symbol .leftParen, l₁⟩ :: (p ++ [⟨.symbol .rightParen, l₂⟩]))
      (.call name (items.map Prod.snd) line) := by
  intro n rest hn _
  have hcount := hp.length_le
  simp only [List.length_cons, List.length_append, List.length_nil, slack] at hn
  obtain ⟨n, rfl⟩ : ∃ m, n = m + 1 := Nat.exists_eq_add_of_le' (by omega)
  have hreads : ReadsItems (chain n .relational) .rightParen items := by
    intro item hitem l rest hl
    have hlength := hp.length_item_le hitem
    refine (h item hitem).run_before ?_ (by omega)
    obtain hl | hl := hl <;> rw [hl] <;> rfl
  have hstarts : ∀ item ∈ items, ∃ l q, item.1 = l :: q ∧ l.token ≠ .symbol .rightParen := by
    intro item hitem
    obtain ⟨l, q, hq, hl⟩ := (hitems item hitem).starts
    refine ⟨l, q, hq, fun hparen => ?_⟩
    rw [hparen] at hl
    cases hl
  simp only [List.cons_append, List.append_assoc, List.nil_append]
  exact run_map_of_ok (run_commaSeparated l₂ hp hreads hstarts (by decide) (by omega))

theorem reads_group {e : Expr} (l₁ l₂ : Nat) (h : Reads .expression p e) :
    Reads .primary (⟨.symbol .leftParen, l₁⟩ :: (p ++ [⟨.symbol .rightParen, l₂⟩])) e := by
  intro n rest hn _
  simp only [List.length_cons, List.length_append, List.length_nil, slack] at hn
  obtain ⟨n, rfl⟩ : ∃ m, n = m + 1 := Nat.exists_eq_add_of_le' (by omega)
  simp only [List.cons_append, List.append_assoc, List.nil_append]
  exact run_closed (h.run_before rfl (by omega))

theorem reads_length {e : Expr} (line l₁ l₂ : Nat) (h : Reads .expression p e) :
    Reads .primary
      (⟨.keyword .len, line⟩ :: ⟨.symbol .leftParen, l₁⟩ :: (p ++ [⟨.symbol .rightParen, l₂⟩]))
      (.length e line) := by
  intro n rest hn _
  simp only [List.length_cons, List.length_append, List.length_nil, slack] at hn
  obtain ⟨n, rfl⟩ : ∃ m, n = m + 1 := Nat.exists_eq_add_of_le' (by omega)
  simp only [List.cons_append, List.append_assoc, List.nil_append]
  exact run_map_of_ok (run_parenthesized (h.run_before rfl (by omega)))

theorem reads_input {prompt : Option String} {kind : Option Kind} (line l₁ l₂ : Nat)
    (h : InputArguments p prompt kind) :
    Reads .primary
      (⟨.keyword .input, line⟩ :: ⟨.symbol .leftParen, l₁⟩ :: (p ++ [⟨.symbol .rightParen, l₂⟩]))
      (.input prompt kind line) := by
  intro n rest hn _
  simp only [List.length_cons, List.length_append, List.length_nil, slack] at hn
  obtain ⟨n, rfl⟩ : ∃ m, n = m + 1 := Nat.exists_eq_add_of_le' (by omega)
  have harguments : inputArguments.run (p ++ ⟨.symbol .rightParen, l₂⟩ :: rest) =
      .ok ((prompt, kind), ⟨.symbol .rightParen, l₂⟩ :: rest) := by
    cases h <;> rfl
  simp only [List.cons_append, List.append_assoc, List.nil_append]
  exact run_bind_of_ok (run_parenthesized harguments)

/-- Every derivation of an expression is found. -/
theorem reads_of_derives {phrase : Phrase} {e : Expr} (h : Derives phrase p e) :
    Reads phrase p e := by
  induction h with
  | first h ih => exact reads_first h.ne_nil ih
  | link line _ hsign hq ihp ihq =>
    obtain ⟨ht, hlevel⟩ := operator?_of_mem hsign
    exact reads_link line hq.ne_nil ihp ht hlevel ihq
  | minus line h ih => exact reads_minus line h.ne_nil ih
  | plain h ih => exact reads_plain h ih
  | literal line hv => exact reads_literal line hv
  | var name line => exact reads_var name line
  | call name line l₁ l₂ hp hitems ih => exact reads_call name line l₁ l₂ hp hitems ih
  | group l₁ l₂ _ ih => exact reads_group l₁ l₂ ih
  | input line l₁ l₂ h => exact reads_input line l₁ l₂ h
  | length line l₁ l₂ _ ih => exact reads_length line l₁ l₂ ih

theorem run_expression {e : Expr} (h : Derives .expression p e) {n : Nat}
    (hn : 10 * p.length ≤ n + 1) (hstops : Stops .expression p rest) :
    (expression n).run (p ++ rest) = .ok (e, rest) :=
  (reads_of_derives h).run hn hstops

/-! ### Statements -/

theorem resumes_of_starts {t : Token} (h : t.startsStatement) : t.resumes = false := by
  cases t with
  | keyword word => cases word <;> first | rfl | cases h
  | symbol sign => cases sign <;> first | rfl | cases h
  | _ => rfl

/-- What follows neither carries on the statement's expression nor resumes the statement. -/
structure Follows (s : Statement) (p rest : List Lexeme) : Prop where
  greedy : greedyJoin s p rest
  resumes : ∀ l ∈ rest.head?, l.token.resumes = false

theorem follows_of_closes {s : Statement} {l : Lexeme} (h : l.token.closes) :
    Follows s p (l :: rest) := by
  refine ⟨fun _ => stops_of_closes h, ?_⟩
  rintro _ ⟨⟩
  obtain ⟨t, line⟩ := l
  cases t with
  | symbol sign => cases sign <;> first | rfl | cases h
  | endOfInput => rfl
  | _ => cases h

theorem follows_of_closed {s : Statement} (h : ∀ l ∈ rest.head?, l.token.closes) :
    Follows s p rest := by
  cases rest with
  | nil => exact ⟨fun _ => stops_nil, by simp⟩
  | cons l rest => exact follows_of_closes (h l rfl)

/-- A statement in a sequence is followed by the next one, or by what follows the sequence. -/
theorem follows_of_sequence {s : Statement} {q : List Lexeme} {ss : List Statement}
    (hq : DerivesSequence greedyJoin q ss) (hjoin : greedyJoin s p q)
    (hrest : ∀ l ∈ rest.head?, l.token.closes) : Follows s p (q ++ rest) := by
  cases hq with
  | done => exact follows_of_closed hrest
  | semicolon line _ => exact follows_of_closes rfl
  | statement hq _ _ =>
    obtain ⟨k, q, rfl, hk⟩ := hq.starts
    refine ⟨fun hopen => ?_, ?_⟩
    · rw [List.cons_append, List.cons_append, List.append_assoc]
      exact stops_append.2 (stops_append.1 (hjoin hopen))
    · rintro _ ⟨⟩
      exact resumes_of_starts hk

theorem stops_of_block {b : List Lexeme} {ss : List Statement} {phrase : Phrase}
    (hb : DerivesBlock greedyJoin b ss) : Stops phrase p (b ++ rest) := by
  cases hb
  exact stops_of_closes rfl

/-- What starts as an expression and holds no equals sign is read as one. -/
theorem run_statement_expression {e : Expr} (h : Derives .expression p e)
    (hrest : ∀ l ∈ rest.head?, l.token.resumes = false) (n : Nat) :
    (statement (n + 1)).run (p ++ rest) =
      ((fun e => Statement.expr e e.line) <$> expression n).run (p ++ rest) := by
  have hforeign := h.not_foreign
  obtain ⟨⟨t, line⟩, q, rfl, ht⟩ := h.starts
  simp only [statement, List.cons_append]
  split
  iterate 6
    · next heq =>
      cases heq
      cases ht
  · next name l₁ l₂ ls heq =>
    exfalso
    cases q with
    | nil =>
      cases heq
      cases hrest _ rfl
    | cons k q =>
      cases heq
      cases hforeign _ (List.mem_cons_of_mem _ List.mem_cons_self)
  · rfl

theorem run_statement_func (n line : Nat) : (statement (n + 1)).run (⟨.keyword .func, line⟩ :: ls) =
    (functionAfter (statement n) n line).run ls := rfl

theorem run_statement_loop (n line : Nat) : (statement (n + 1)).run (⟨.keyword .loop, line⟩ :: ls) =
    (loopAfter (statement n) n line).run ls := rfl

theorem run_names {params : List String} {n : Nat} (line : Nat) (hp : Listed Name p params)
    (hn : 2 * p.length + 2 ≤ n) :
    (commaSeparated identifier .rightParen n).run (p ++ ⟨.symbol .rightParen, line⟩ :: rest) =
      .ok (params, rest) := by
  obtain ⟨items, hsep, hnames, rfl⟩ := hp
  have hcount := hsep.length_le
  refine run_commaSeparated line hsep ?_ ?_ (by decide) (by omega)
  · rintro item hitem l rest -
    obtain ⟨k, hname⟩ := hnames item hitem
    rw [hname]
    rfl
  · intro item hitem
    obtain ⟨k, hname⟩ := hnames item hitem
    exact ⟨_, [], hname, by simp⟩

/-- A reader of sequences, which passes semicolons, stops before `rest` and leaves `out`. -/
structure ReadsSequence (read : Parse Statement) (x : Nat → Parse (List Statement))
    (rest out : List Lexeme) : Prop where
  closes : ∀ l ∈ rest.head?, l.token.closes
  stop : ∀ n, (x (n + 1)).run rest = .ok ([], out)
  semicolon : ∀ n line ls, (x (n + 1)).run (⟨.symbol .semicolon, line⟩ :: ls) = (x n).run ls
  statement : ∀ n (k : Lexeme) ls, k.token.startsStatement →
    (x (n + 1)).run (k :: ls) = (do
      let first ← read
      let rest ← x n
      return first :: rest : Parse (List Statement)).run (k :: ls)

theorem readsSequence_blockAfter (read : Parse Statement) (line last : Nat) (rest : List Lexeme) :
    ReadsSequence read (blockAfter read line) (⟨.symbol .rightBrace, last⟩ :: rest) rest where
  closes := by rintro _ ⟨⟩; rfl
  stop _ := rfl
  semicolon _ _ _ := rfl
  statement n k ls hk := by
    simp only [blockAfter]
    split
    · next heq => cases heq
    iterate 3
      · next heq =>
        cases heq
        cases hk
    · rfl

theorem readsSequence_program (read : Parse Statement)
    (hrest : ∀ l ∈ rest.head?, l.token = .endOfInput) :
    ReadsSequence read (program read) rest rest where
  closes l hl := by rw [hrest l hl]; rfl
  stop n := by
    cases rest with
    | nil => rfl
    | cons l rest =>
      obtain ⟨t, line⟩ := l
      cases hrest _ rfl
      rfl
  semicolon _ _ _ := rfl
  statement n k ls hk := by
    simp only [program]
    split
    · next heq => cases heq
    iterate 2
      · next heq =>
        cases heq
        cases hk
    · rfl

theorem run_otherwise_nothing {read : Parse Statement} {n : Nat}
    (hrest : ∀ l ∈ rest.head?, l.token.resumes = false) :
    (otherwise read (n + 1)).run rest = .ok (.nothing, rest) := by
  simp only [otherwise]
  split
  iterate 3
    · cases hrest _ rfl
  · rfl

mutual

theorem run_statement : ∀ {p : List Lexeme} {s : Statement}, DerivesStatement greedyJoin p s →
    ∀ {n : Nat} {rest : List Lexeme}, 10 * p.length ≤ n → Follows s p rest →
    (statement n).run (p ++ rest) = .ok (s, rest)
  | _, _, .function name line l₁ l₂ l₃ hp hb, n, rest, hn, _ => by
    simp only [List.length_cons, List.length_append] at hn
    obtain ⟨n, rfl⟩ : ∃ m, n = m + 1 := Nat.exists_eq_add_of_le' (by omega)
    simp only [List.cons_append, List.append_assoc]
    rw [run_statement_func, functionAfter, run_bind_of_ok (run_identifier name l₁),
      run_bind_of_ok (run_expect .leftParen l₂), run_bind_of_ok (run_names l₃ hp (by omega)),
      run_bind_of_ok (run_block hb (by omega) (by omega))]
    rfl
  | _, _, .ret line h, n, rest, hn, hfollows => by
    rw [List.length_cons] at hn
    obtain ⟨n, rfl⟩ : ∃ m, n = m + 1 := Nat.exists_eq_add_of_le' (by omega)
    have hstops := Stops.of_append (p := [_]) h.ne_nil (hfollows.greedy rfl)
    exact run_map_of_ok (run_expression h (by omega) hstops)
  | _, _, .print line l₁ l₂ h, n, rest, hn, _ => by
    simp only [List.length_cons, List.length_append] at hn
    obtain ⟨n, rfl⟩ : ∃ m, n = m + 1 := Nat.exists_eq_add_of_le' (by omega)
    simp only [List.cons_append, List.append_assoc, List.nil_append]
    exact run_map_of_ok (run_parenthesized (run_expression h (by omega) (stops_of_closes rfl)))
  | _, _, .choose h, n, rest, hn, hfollows => by
    rw [List.length_cons] at hn
    obtain ⟨n, rfl⟩ : ∃ m, n = m + 1 := Nat.exists_eq_add_of_le' (by omega)
    exact run_map_of_ok (run_choice h (by omega) (by omega) hfollows.resumes)
  | _, _, .loop line l₁ l₂ l₃ l₄ hp hq hr hb, n, rest, hn, _ => by
    simp only [List.length_cons, List.length_append] at hn
    obtain ⟨n, rfl⟩ : ∃ m, n = m + 1 := Nat.exists_eq_add_of_le' (by omega)
    simp only [List.cons_append, List.append_assoc]
    rw [run_statement_loop, loopAfter, run_bind_of_ok (run_expect .leftParen l₁),
      run_bind_of_ok (run_statement hp (by omega) (follows_of_closes rfl)),
      run_bind_of_ok (run_expect .semicolon l₂),
      run_bind_of_ok (run_expression hq (by omega) (stops_of_closes rfl)),
      run_bind_of_ok (run_expect .semicolon l₃),
      run_bind_of_ok (run_statement hr (by omega) (follows_of_closes rfl)),
      run_bind_of_ok (run_expect .rightParen l₄),
      run_bind_of_ok (run_block hb (by omega) (by omega))]
    rfl
  | _, _, .declare name k line l₁, n, rest, hn, hfollows => by
    simp only [List.length_cons, List.length_nil] at hn
    obtain ⟨n, rfl⟩ : ∃ m, n = m + 1 := Nat.exists_eq_add_of_le' (by omega)
    change (initialValue n k name line).run rest = _
    cases rest with
    | nil => rfl
    | cons l rest =>
      obtain ⟨t, l₂⟩ := l
      have ht : t ≠ .symbol .equals := by
        rintro rfl
        cases hfollows.resumes _ rfl
      simp [initialValue, ht]
  | _, _, .assignTyped name k line l₁ l₂ h, n, rest, hn, hfollows => by
    simp only [List.length_cons] at hn
    obtain ⟨n, rfl⟩ : ∃ m, n = m + 1 := Nat.exists_eq_add_of_le' (by omega)
    have hstops := Stops.of_append (p := [_, _, _]) h.ne_nil (hfollows.greedy rfl)
    exact run_map_of_ok (run_expression h (by omega) hstops)
  | _, _, .assign name line l₁ h, n, rest, hn, hfollows => by
    simp only [List.length_cons] at hn
    obtain ⟨n, rfl⟩ : ∃ m, n = m + 1 := Nat.exists_eq_add_of_le' (by omega)
    have hstops := Stops.of_append (p := [_, _]) h.ne_nil (hfollows.greedy rfl)
    exact run_map_of_ok (run_expression h (by omega) hstops)
  | _, _, .expr h, n, rest, hn, hfollows => by
    have hlength := List.length_pos_iff.2 h.ne_nil
    obtain ⟨n, rfl⟩ : ∃ m, n = m + 1 := Nat.exists_eq_add_of_le' (by omega)
    rw [run_statement_expression h hfollows.resumes]
    exact run_map_of_ok (run_expression h (by omega) (hfollows.greedy rfl))

theorem run_block : ∀ {p : List Lexeme} {ss : List Statement}, DerivesBlock greedyJoin p ss →
    ∀ {m n : Nat} {rest : List Lexeme}, 10 * p.length ≤ m → p.length ≤ n →
    (block (statement m) n).run (p ++ rest) = .ok (ss, rest)
  | _, _, .braces l₁ l₂ hp, m, n, rest, hm, hn => by
    simp only [List.length_cons, List.length_append, List.length_nil] at hm hn
    simp only [List.cons_append, List.append_assoc, List.nil_append]
    rw [block, run_bind_of_ok (run_expect .leftBrace l₁)]
    exact run_sequence hp (readsSequence_blockAfter _ l₁ l₂ rest) (by omega) (by omega)

theorem run_sequence : ∀ {p : List Lexeme} {ss : List Statement}, DerivesSequence greedyJoin p ss →
    ∀ {m n : Nat} {x : Nat → Parse (List Statement)} {rest out : List Lexeme},
    ReadsSequence (statement m) x rest out → 10 * p.length ≤ m → p.length < n →
    (x n).run (p ++ rest) = .ok (ss, out)
  | _, _, .done, m, n, x, rest, out, hx, _, hn => by
    obtain ⟨n, rfl⟩ : ∃ k, n = k + 1 := Nat.exists_eq_add_of_le' hn
    exact hx.stop n
  | _, _, .semicolon line hp, m, n, x, rest, out, hx, hm, hn => by
    rw [List.length_cons] at hm hn
    obtain ⟨n, rfl⟩ : ∃ k, n = k + 1 := Nat.exists_eq_add_of_le' (by omega)
    rw [List.cons_append, hx.semicolon]
    exact run_sequence hp hx (by omega) (by omega)
  | _, _, .statement hp hq hjoin, m, n, x, rest, out, hx, hm, hn => by
    have hlength := List.length_pos_iff.2 hp.ne_nil
    rw [List.length_append] at hm hn
    obtain ⟨n, rfl⟩ : ∃ k, n = k + 1 := Nat.exists_eq_add_of_le' (by omega)
    have hfollows := follows_of_sequence hq hjoin hx.closes
    have hfirst := run_statement hp (n := m) (by omega) hfollows
    have hrest := run_sequence hq hx (n := n) (by omega) (by omega)
    obtain ⟨k, p, rfl, hk⟩ := hp.starts
    rw [List.append_assoc, List.cons_append, hx.statement n k _ hk]
    rw [List.cons_append] at hfirst
    rw [run_bind_of_ok hfirst, run_bind_of_ok hrest]
    rfl

theorem run_choice : ∀ {line : Nat} {p : List Lexeme} {c : Choice},
    DerivesChoice greedyJoin line p c → ∀ {m n : Nat} {rest : List Lexeme},
    10 * p.length ≤ m → 10 * p.length ≤ n → (∀ l ∈ rest.head?, l.token.resumes = false) →
    (choice (statement m) n line).run (p ++ rest) = .ok (c, rest)
  | _, _, _, .mk line hp hb hr, m, n, rest, hm, hn, hrest => by
    have hlength := List.length_pos_iff.2 hp.ne_nil
    simp only [List.length_append] at hm hn
    obtain ⟨n, rfl⟩ : ∃ k, n = k + 1 := Nat.exists_eq_add_of_le' (by omega)
    rw [List.append_assoc, List.append_assoc, choice,
      run_bind_of_ok (run_expression hp (by omega) (stops_of_block hb)),
      run_bind_of_ok (run_block hb (by omega) (by omega)),
      run_bind_of_ok (run_otherwise hr (by omega) (by omega) hrest)]
    rfl

theorem run_otherwise : ∀ {p : List Lexeme} {o : Otherwise}, DerivesTail greedyJoin p o →
    ∀ {m n : Nat} {rest : List Lexeme}, 10 * p.length ≤ m → 10 * p.length ≤ n →
    (∀ l ∈ rest.head?, l.token.resumes = false) →
    (otherwise (statement m) n).run (p ++ rest) = .ok (o, rest)
  | _, _, .nothing, m, n, rest, _, _, hrest => by
    cases n with
    | zero => rfl
    | succ n => exact run_otherwise_nothing hrest
  | _, _, .elseIf h, m, n, rest, hm, hn, hrest => by
    rw [List.length_cons] at hm hn
    obtain ⟨n, rfl⟩ : ∃ k, n = k + 1 := Nat.exists_eq_add_of_le' (by omega)
    exact run_map_of_ok (run_choice h (by omega) (by omega) hrest)
  | _, _, .otherwiseIf l₁ h, m, n, rest, hm, hn, hrest => by
    simp only [List.length_cons] at hm hn
    obtain ⟨n, rfl⟩ : ∃ k, n = k + 1 := Nat.exists_eq_add_of_le' (by omega)
    exact run_map_of_ok (run_choice h (by omega) (by omega) hrest)
  | _, _, .otherwise l₁ hb, m, n, rest, hm, hn, _ => by
    rw [List.length_cons] at hm hn
    obtain ⟨n, rfl⟩ : ∃ k, n = k + 1 := Nat.exists_eq_add_of_le' (by omega)
    have hrun : (block (statement m) n).run (_ ++ rest) = .ok (_, rest) :=
      run_block hb (by omega) (by omega)
    cases hb with
    | braces l₂ l₃ hp => exact run_map_of_ok hrun

end

end Parse

/-- A program that is read greedily is what its lexemes are parsed to, up to the end of the input or
of the lexemes. -/
theorem parse_append_of_greedy {ts rest : List Lexeme} {ss : List Statement}
    (h : DerivesSequence greedyJoin ts ss) (hrest : ∀ l ∈ rest.head?, l.token = .endOfInput) :
    parse (ts ++ rest) = .ok ss := by
  have hdepth : 10 * ts.length + 9 < parseDepth (ts ++ rest) := by
    simp only [parseDepth, List.length_append]
    omega
  rw [parse, Parse.run_sequence h (Parse.readsSequence_program _ hrest) (by omega) (by omega)]
  rfl

theorem parse_of_greedy {ts : List Lexeme} {ss : List Statement}
    (h : DerivesSequence greedyJoin ts ss) (last : Nat) :
    parse (ts ++ [⟨.endOfInput, last⟩]) = .ok ss := by
  refine parse_append_of_greedy h ?_
  rintro _ ⟨⟩
  rfl

end Skript
