import Skript.Proofs.Grammar

/-!
# Statements that go on as long as they can

A program is read greedily if no statement stands before lexemes that would carry on the expression
it ends in: an operator, or an opening parenthesis after a name. Such a reading always exists. Where
a statement is followed by what carries it on, the two are one statement, because the levels of
operators only group a row of operands and never refuse one.
-/
namespace Skript

/-- Statements that end in an expression, with nothing to close it. -/
def Statement.isOpen : Statement → Bool
  | ret .. | assignTyped .. | assign .. | expr .. => true
  | _ => false

/-- The only operator with which a statement can start is the minus. -/
theorem Token.eq_minus_of_operator {t : Token} {op : Operator} (h : t.startsStatement)
    (hop : t.operator? = some op) : t = .symbol .minus := by
  cases t with
  | symbol sign => cases sign with
    | minus => rfl
    | leftParen => cases hop
    | _ => cases h
  | _ => cases hop

namespace Grammar

/-- The lexemes spell some expression of this sort. -/
def Derivable (phrase : Phrase) (p : List Lexeme) : Prop :=
  ∃ e, Derives phrase p e

def EndsInName (p : List Lexeme) : Prop :=
  ∃ name line, p.getLast? = some ⟨.identifier name, line⟩

/-! ### Rows of operands -/

/-- Operands with operators of any level between them. -/
inductive Row : List Lexeme → Prop
  | one : Derives .unary p e → Row p
  | more {t : Token} {op : Operator} (line : Nat) : Row p → t.operator? = some op →
      Derives .unary q e → Row (p ++ ⟨t, line⟩ :: q)

variable {p q r w : List Lexeme} {phrase : Phrase} {e : Expr}

@[simp] theorem endsInName_append (hq : q ≠ []) : EndsInName (p ++ q) ↔ EndsInName q := by
  rw [EndsInName, EndsInName, List.getLast?_append, List.getLast?_eq_some_getLast hq, Option.some_or]

theorem Row.append {t : Token} {op : Operator} (line : Nat) (hp : Row p)
    (ht : t.operator? = some op) (hq : Row q) : Row (p ++ ⟨t, line⟩ :: q) := by
  induction hq with
  | one hq => exact hp.more line ht hq
  | @more q r e t' op' l _ ht' hr ih =>
    have hrow := ih.more l ht' hr
    rwa [List.append_assoc, List.cons_append] at hrow

theorem Derives.row (h : Derives phrase p e) : Row p := by
  induction h with
  | first _ ih => exact ih
  | link line _ hsign _ ihp ihq => exact ihp.append line (operator?_of_mem hsign).1 ihq
  | minus line h _ => exact .one (h.minus line)
  | plain h _ => exact .one h.plain
  | literal line h => exact .one (.plain (.literal line h))
  | var name line => exact .one (.plain (.var name line))
  | call name line l₁ l₂ h hitems _ => exact .one (.plain (.call name line l₁ l₂ h hitems))
  | group l₁ l₂ h _ => exact .one (.plain (.group l₁ l₂ h))
  | input line l₁ l₂ h => exact .one (.plain (.input line l₁ l₂ h))
  | length line l₁ l₂ h _ => exact .one (.plain (.length line l₁ l₂ h))

theorem Derives.operand_of_unary (h : Derives .unary p e) (level : Level) :
    Derives (.operand level) p e := by
  have hproduct : Derives (.operand .multiplicative) p e := h
  have hsum : Derives (.operand .additive) p e := hproduct.first
  cases level with
  | relational => exact hsum.first
  | additive => exact hsum
  | multiplicative => exact hproduct

/-- A chain goes on with an operator of its own level. -/
theorem Derivable.link {t : Token} {op : Operator} (line : Nat)
    (hp : Derivable (.chain op.level) p) (ht : t.operator? = some op) (hq : Derives .unary q e) :
    Derivable (.chain op.level) (p ++ ⟨t, line⟩ :: q) := by
  obtain ⟨left, hp⟩ := hp
  obtain ⟨sign, rfl, hsign⟩ := exists_sign ht
  exact ⟨_, hp.link line hsign (hq.operand_of_unary op.level)⟩

/-- What carries on the operands of a chain carries on the chain, through its last operand. -/
theorem Derivable.under {level : Level}
    (h : ∀ p, Derivable (.operand level) p → Derivable (.operand level) (p ++ r))
    (hp : Derivable (.chain level) p) : Derivable (.chain level) (p ++ r) := by
  obtain ⟨e, hp⟩ := hp
  cases hp with
  | first hp =>
    obtain ⟨e', hp'⟩ := h _ ⟨_, hp⟩
    exact ⟨e', hp'.first⟩
  | link line hp hsign hq =>
    obtain ⟨e', hq'⟩ := h _ ⟨_, hq⟩
    have hlink := hp.link line hsign hq'
    rw [← List.cons_append, ← List.append_assoc] at hlink
    exact ⟨_, hlink⟩

/-- Every row of operands is an expression. -/
theorem Row.derivable (h : Row p) : Derivable .expression p := by
  induction h with
  | one h => exact ⟨_, (h.operand_of_unary .relational).first⟩
  | @more p q e t op line _ ht hq ih =>
    have hlink : ∀ p, Derivable (.chain op.level) p →
        Derivable (.chain op.level) (p ++ ⟨t, line⟩ :: q) := fun p hp => hp.link line ht hq
    cases hop : op.level with
    | relational =>
      rw [hop] at hlink
      exact hlink p ih
    | additive =>
      rw [hop] at hlink
      exact ih.under hlink
    | multiplicative =>
      rw [hop] at hlink
      exact ih.under fun p hp => hp.under hlink

theorem Row.ne_nil (h : Row p) : p ≠ [] := by
  cases h with
  | one h => exact h.ne_nil
  | more => simp

/-- A leading minus may be taken for an operator: what follows it is a row of its own. -/
theorem Row.of_minus {line : Nat} (h : Row (⟨.symbol .minus, line⟩ :: p)) : Row p := by
  generalize hr : (⟨.symbol .minus, line⟩ : Lexeme) :: p = r at h
  induction h generalizing p with
  | one h =>
    subst hr
    cases h with
    | minus _ h => exact .one h
    | plain h =>
      cases h with
      | literal _ hv => cases hv
  | @more p' q e t op l hp' ht hq ih =>
    cases p' with
    | nil => exact absurd rfl hp'.ne_nil
    | cons k p' =>
      cases hr
      exact (ih rfl).more l ht hq

/-- A row that opens with a parenthesis goes on, once this is closed, in a way that carries on
every row. -/
theorem Row.of_group {line : Nat} (h : Row (⟨.symbol .leftParen, line⟩ :: p)) :
    ∃ w closing r, p = w ++ ⟨.symbol .rightParen, closing⟩ :: r ∧ Derivable .expression w ∧
      ∀ q, Row q → Row (q ++ r) := by
  generalize hr : (⟨.symbol .leftParen, line⟩ : Lexeme) :: p = r at h
  induction h generalizing p with
  | one h =>
    subst hr
    cases h with
    | plain h =>
      cases h with
      | literal _ hv => cases hv
      | @group w _ _ closing h =>
        refine ⟨w, closing, [], rfl, ⟨_, h⟩, fun q hq => ?_⟩
        rwa [List.append_nil]
  | @more p' q e t op l hp' ht hq ih =>
    cases p' with
    | nil => exact absurd rfl hp'.ne_nil
    | cons k p' =>
      cases hr
      obtain ⟨w, closing, r, rfl, hw, hcarry⟩ := ih rfl
      refine ⟨w, closing, r ++ ⟨t, l⟩ :: q, by simp, hw, fun q' hq' => ?_⟩
      rw [← List.append_assoc]
      exact (hcarry q' hq').more l ht hq

/-- An operand that ends in a name ends in a variable, which parentheses turn into a call. -/
theorem Derives.call_of_name (l₁ l₂ : Nat) (h : Derives .unary p e) (hname : EndsInName p)
    (hw : Derivable .expression w) : Derivable .unary
      (p ++ ⟨.symbol .leftParen, l₁⟩ :: (w ++ [⟨.symbol .rightParen, l₂⟩])) := by
  generalize hphrase : Phrase.unary = phrase at h
  induction h with
  | first | link => cases hphrase
  | minus line h ih =>
    rw [← List.singleton_append, endsInName_append h.ne_nil] at hname
    obtain ⟨e', h'⟩ := ih hname rfl
    exact ⟨_, h'.minus line⟩
  | plain h _ =>
    obtain ⟨name, l, hlast⟩ := hname
    cases h with
    | literal line hv =>
      cases hlast
      cases hv
    | var name line =>
      obtain ⟨arg, hw⟩ := hw
      exact ⟨_, .plain (.call name line l₁ l₂ (.one (w, arg)) (by simpa using hw))⟩
    | call | group | input | length => simp [List.getLast?_cons, List.getLast?_append] at hlast
  | literal | var | call | group | input | length => cases hphrase

theorem Row.call_of_name (l₁ l₂ : Nat) (h : Row p) (hname : EndsInName p)
    (hw : Derivable .expression w) :
    Row (p ++ ⟨.symbol .leftParen, l₁⟩ :: (w ++ [⟨.symbol .rightParen, l₂⟩])) := by
  cases h with
  | one h =>
    obtain ⟨e', h'⟩ := h.call_of_name l₁ l₂ hname hw
    exact .one h'
  | @more p q e t op line hp ht hq =>
    rw [endsInName_append (List.cons_ne_nil _ _), ← List.singleton_append,
      endsInName_append hq.ne_nil] at hname
    obtain ⟨e', hq'⟩ := hq.call_of_name l₁ l₂ hname hw
    have hrow := hp.more line ht hq'
    rwa [← List.cons_append, ← List.append_assoc] at hrow

/-! ### Where statements end -/

/-- Whether operators of this level may stand in the phrase outside parentheses. -/
def Phrase.absorbs : Phrase → Level → Bool
  | .chain .relational, _ => true
  | .chain .additive, level => level ≠ .relational
  | .chain .multiplicative, level => level = .multiplicative
  | .unary, _ | .primary, _ => false

/-- What follows does not carry on a phrase of this sort that is spelled by `p`. -/
structure Stops (phrase : Phrase) (p rest : List Lexeme) : Prop where
  operator : ∀ l ∈ rest.head?, ∀ op, l.token.operator? = some op → phrase.absorbs op.level = false
  call : ∀ l ∈ rest.head?, l.token = .symbol .leftParen → ¬ EndsInName p

/-- No statement stands before what carries on the expression it ends in. -/
def greedyJoin : Join := fun s p q => s.isOpen → Stops .expression p q

/-- Where a phrase ends is a matter of its last part only. -/
theorem Stops.of_append {rest : List Lexeme} (hq : q ≠ []) (h : Stops phrase (p ++ q) rest) :
    Stops phrase q rest :=
  ⟨h.operator, fun l hl hparen hname => h.call l hl hparen ((endsInName_append hq).2 hname)⟩

theorem stops_nil : Stops phrase p [] where
  operator := by simp
  call := by simp

/-- A statement that ends in an expression stays one if this is replaced by another. -/
theorem DerivesStatement.exists_expression {join : Join} {s : Statement}
    (h : DerivesStatement join p s) (hs : s.isOpen) : ∃ before q, p = before ++ q ∧ Row q ∧
      ∀ r, Row r → ∃ s', DerivesStatement join (before ++ r) s' := by
  cases h with
  | ret line h =>
    refine ⟨[_], _, rfl, h.row, fun r hr => ?_⟩
    obtain ⟨e', hr⟩ := hr.derivable
    exact ⟨_, .ret line hr⟩
  | assignTyped name k line l₁ l₂ h =>
    refine ⟨[_, _, _], _, rfl, h.row, fun r hr => ?_⟩
    obtain ⟨e', hr⟩ := hr.derivable
    exact ⟨_, .assignTyped name k line l₁ l₂ hr⟩
  | assign name line l₁ h =>
    refine ⟨[_, _], _, rfl, h.row, fun r hr => ?_⟩
    obtain ⟨e', hr⟩ := hr.derivable
    exact ⟨_, .assign name line l₁ hr⟩
  | expr h =>
    refine ⟨[], _, rfl, h.row, fun r hr => ?_⟩
    obtain ⟨e', hr⟩ := hr.derivable
    exact ⟨_, .expr hr⟩
  | function | print | choose | loop | declare => cases hs

/-- Only an expression can open with an operator or a parenthesis. -/
theorem DerivesStatement.row_of_symbol {join : Join} {s : Statement} {sign : Symbol} {line : Nat}
    (h : DerivesStatement join (⟨.symbol sign, line⟩ :: p) s) :
    Row (⟨.symbol sign, line⟩ :: p) := by
  cases h with
  | expr h => exact h.row

/-- Two rows are one where the second opens with a minus, or with a parenthesis after a name. -/
theorem Row.carry_on {l : Lexeme} (hp : Row p) (hq : Row (l :: q))
    (h : l.token = .symbol .minus ∨ l.token = .symbol .leftParen ∧ EndsInName p) :
    Row (p ++ l :: q) := by
  obtain ⟨t, line⟩ := l
  obtain rfl | ⟨rfl, hname⟩ := h
  · exact hp.append line rfl hq.of_minus
  · obtain ⟨w, closing, r, rfl, hw, hcarry⟩ := hq.of_group
    have hrow := hcarry _ (hp.call_of_name line closing hname hw)
    simpa using hrow

/-- A statement and one that carries on its expression are one statement. -/
theorem DerivesStatement.carry_on {join : Join} {s₁ s₂ : Statement}
    (hp : DerivesStatement join p s₁) (hopen : s₁.isOpen) (hq : DerivesStatement join q s₂)
    (hstops : ¬ Stops .expression p q) : ∃ s, DerivesStatement join (p ++ q) s := by
  obtain ⟨before, p, rfl, hrow, hreplace⟩ := hp.exists_expression hopen
  obtain ⟨⟨t, line⟩, q, rfl, hstart⟩ := hq.starts
  have hcarry : t = .symbol .minus ∨ t = .symbol .leftParen ∧ EndsInName p := by
    refine Classical.byContradiction fun hno => hstops ⟨?_, ?_⟩
    · rintro l ⟨⟩ op hop
      exact absurd (.inl (Token.eq_minus_of_operator hstart hop)) hno
    · rintro l ⟨⟩ hparen hname
      rw [endsInName_append hrow.ne_nil] at hname
      exact hno (.inr ⟨hparen, hname⟩)
  have hq_row : Row (⟨t, line⟩ :: q) := by
    obtain rfl | ⟨rfl, -⟩ := hcarry
    · exact hq.row_of_symbol
    · exact hq.row_of_symbol
  rw [List.append_assoc]
  exact hreplace _ (hrow.carry_on hq_row hcarry)

/-! ### Greedy readings -/

theorem stops_append {l : Lexeme} : Stops phrase p (l :: (q ++ r)) ↔ Stops phrase p (l :: q) :=
  ⟨fun h => ⟨h.operator, h.call⟩, fun h => ⟨h.operator, h.call⟩⟩

/-- A statement before a sequence makes a sequence, whether or not it has to take in some of the
statements that follow. -/
theorem exists_sequence_append : ∀ {p q : List Lexeme} {s : Statement} {ss : List Statement},
    DerivesStatement greedyJoin p s → DerivesSequence greedyJoin q ss →
    ∃ ss', DerivesSequence greedyJoin (p ++ q) ss'
  | _, _, _, _, hp, .done => ⟨_, .statement hp .done fun _ => stops_nil⟩
  | _, _, _, _, hp, .semicolon line hq => by
    refine ⟨_, .statement hp (.semicolon line hq) fun _ => ⟨?_, ?_⟩⟩
    · rintro l ⟨⟩ op ⟨⟩
    · rintro l ⟨⟩ ⟨⟩
  | p, _, s, _, hp, .statement (p := q) hq hr hjoin => by
    by_cases hgreedy : s.isOpen → Stops .expression p q
    · refine ⟨_, .statement hp (.statement hq hr hjoin) fun hopen => ?_⟩
      obtain ⟨l, q, rfl, -⟩ := hq.starts
      exact stops_append.2 (hgreedy hopen)
    · obtain ⟨hopen, hstops⟩ := Classical.not_imp.1 hgreedy
      obtain ⟨s', hpq⟩ := hp.carry_on hopen hq hstops
      obtain ⟨ss', h⟩ := exists_sequence_append hpq hr
      rw [List.append_assoc] at h
      exact ⟨ss', h⟩

mutual

theorem DerivesStatement.exists_greedy :
    ∀ {p : List Lexeme} {s : Statement}, DerivesStatement anyJoin p s →
      ∃ s', DerivesStatement greedyJoin p s'
  | _, _, .function name line l₁ l₂ l₃ hp hb =>
    let ⟨_, hb'⟩ := hb.exists_greedy
    ⟨_, .function name line l₁ l₂ l₃ hp hb'⟩
  | _, _, .ret line h => ⟨_, .ret line h⟩
  | _, _, .print line l₁ l₂ h => ⟨_, .print line l₁ l₂ h⟩
  | _, _, .choose h =>
    let ⟨_, h'⟩ := h.exists_greedy
    ⟨_, .choose h'⟩
  | _, _, .loop line l₁ l₂ l₃ l₄ hp hq hr hb =>
    let ⟨_, hp'⟩ := hp.exists_greedy
    let ⟨_, hr'⟩ := hr.exists_greedy
    let ⟨_, hb'⟩ := hb.exists_greedy
    ⟨_, .loop line l₁ l₂ l₃ l₄ hp' hq hr' hb'⟩
  | _, _, .declare name k line l₁ => ⟨_, .declare name k line l₁⟩
  | _, _, .assignTyped name k line l₁ l₂ h => ⟨_, .assignTyped name k line l₁ l₂ h⟩
  | _, _, .assign name line l₁ h => ⟨_, .assign name line l₁ h⟩
  | _, _, .expr h => ⟨_, .expr h⟩

theorem DerivesBlock.exists_greedy :
    ∀ {p : List Lexeme} {ss : List Statement}, DerivesBlock anyJoin p ss →
      ∃ ss', DerivesBlock greedyJoin p ss'
  | _, _, .braces l₁ l₂ hp =>
    let ⟨_, hp'⟩ := hp.exists_greedy
    ⟨_, .braces l₁ l₂ hp'⟩

/-- Every program can be read greedily. -/
theorem DerivesSequence.exists_greedy :
    ∀ {p : List Lexeme} {ss : List Statement}, DerivesSequence anyJoin p ss →
      ∃ ss', DerivesSequence greedyJoin p ss'
  | _, _, .done => ⟨_, .done⟩
  | _, _, .semicolon line hp =>
    let ⟨_, hp'⟩ := hp.exists_greedy
    ⟨_, .semicolon line hp'⟩
  | _, _, .statement hp hq _ =>
    let ⟨_, hp'⟩ := hp.exists_greedy
    let ⟨_, hq'⟩ := hq.exists_greedy
    exists_sequence_append hp' hq'

theorem DerivesChoice.exists_greedy :
    ∀ {line : Nat} {p : List Lexeme} {c : Choice}, DerivesChoice anyJoin line p c →
      ∃ c', DerivesChoice greedyJoin line p c'
  | _, _, _, .mk line hp hb hr =>
    let ⟨_, hb'⟩ := hb.exists_greedy
    let ⟨_, hr'⟩ := hr.exists_greedy
    ⟨_, .mk line hp hb' hr'⟩

theorem DerivesTail.exists_greedy :
    ∀ {p : List Lexeme} {o : Otherwise}, DerivesTail anyJoin p o →
      ∃ o', DerivesTail greedyJoin p o'
  | _, _, .nothing => ⟨_, .nothing⟩
  | _, _, .elseIf h =>
    let ⟨_, h'⟩ := h.exists_greedy
    ⟨_, .elseIf h'⟩
  | _, _, .otherwiseIf l₁ h =>
    let ⟨_, h'⟩ := h.exists_greedy
    ⟨_, .otherwiseIf l₁ h'⟩
  | _, _, .otherwise l₁ hb =>
    let ⟨_, hb'⟩ := hb.exists_greedy
    ⟨_, .otherwise l₁ hb'⟩

end

end Grammar

end Skript
