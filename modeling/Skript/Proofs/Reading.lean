import Skript.Proofs.Grammar

/-!
# Readers keep to the grammar

Whatever a reader gives is the tree of a derivation of the lexemes it took. This holds for every
depth: a reader that runs out of depth may stop early or fail, but it makes nothing up.
-/
namespace Skript

open Grammar

namespace Parse

variable {α β : Type} {x : Parse α} {D : List Lexeme → α → Prop} {E : List Lexeme → β → Prop}

/-- The lexemes that the reader takes stand in the relation to what it gives. -/
def Yields (x : Parse α) (D : List Lexeme → α → Prop) : Prop :=
  ∀ ⦃ls : List Lexeme⦄ ⦃a : α⦄ ⦃rest : List Lexeme⦄,
    x.run ls = .ok (a, rest) → ∃ p, ls = p ++ rest ∧ D p a

theorem Yields.mono {D' : List Lexeme → α → Prop} (hx : Yields x D)
    (h : ∀ p a, D p a → D' p a) : Yields x D' := by
  intro ls a rest hrun
  obtain ⟨p, hls, hp⟩ := hx hrun
  exact ⟨p, hls, h p a hp⟩

theorem yields_pure {a : α} (h : D [] a) : Yields (pure a) D := by
  intro ls b rest hrun
  cases hrun
  exact ⟨[], rfl, h⟩

theorem yields_fail (fault : SourceFault) : Yields (fail fault) D := by
  intro ls a rest hrun
  cases hrun

theorem Yields.bind {f : α → Parse β} (hx : Yields x D)
    (hf : ∀ p a, D p a → Yields (f a) fun q b => E (p ++ q) b) : Yields (x >>= f) E := by
  intro ls b rest hrun
  rw [run_bind] at hrun
  split at hrun
  · next a mid hmid =>
    obtain ⟨p, rfl, hp⟩ := hx hmid
    obtain ⟨q, rfl, hq⟩ := hf p a hp hrun
    exact ⟨p ++ q, (List.append_assoc p q rest).symm, hq⟩
  · cases hrun

theorem Yields.map {g : α → β} (hx : Yields x D) (h : ∀ p a, D p a → E p (g a)) :
    Yields (g <$> x) E := by
  refine Yields.bind hx fun p a hp => yields_pure ?_
  rw [List.append_nil]
  exact h p a hp

/-- A reader that comes in once a lexeme is passed. -/
theorem Yields.passed {l : Lexeme} {ls : List Lexeme} {a : α} {rest : List Lexeme}
    (hx : Yields x fun p a => D (l :: p) a) (hrun : x.run ls = .ok (a, rest)) :
    ∃ p, l :: ls = p ++ rest ∧ D p a := by
  obtain ⟨p, rfl, hp⟩ := hx hrun
  exact ⟨l :: p, rfl, hp⟩

theorem Yields.passedTwo {l k : Lexeme} {ls : List Lexeme} {a : α} {rest : List Lexeme}
    (hx : Yields x fun p a => D (l :: k :: p) a) (hrun : x.run ls = .ok (a, rest)) :
    ∃ p, l :: k :: ls = p ++ rest ∧ D p a := by
  obtain ⟨p, rfl, hp⟩ := hx hrun
  exact ⟨l :: k :: p, rfl, hp⟩

/-- A phrase and the symbol that closes it. -/
def Closed (closing : Symbol) (D : List Lexeme → α → Prop) (p : List Lexeme) (a : α) : Prop :=
  ∃ q line, p = q ++ [⟨.symbol closing, line⟩] ∧ D q a

theorem yields_expect (sign : Symbol) :
    Yields (expect sign) fun p line => p = [⟨.symbol sign, line⟩] := by
  intro ls line rest hrun
  cases ls with
  | nil => cases hrun
  | cons l ls =>
    simp only [expect] at hrun
    split at hrun
    · next hl =>
      cases hrun
      obtain ⟨t, line⟩ := l
      cases hl
      exact ⟨_, rfl, rfl⟩
    · cases hrun

theorem yields_identifier : Yields identifier Name := by
  intro ls name rest hrun
  simp only [identifier] at hrun
  split at hrun
  · cases hrun
  · next line _ =>
    cases hrun
    exact ⟨[_], rfl, line, rfl⟩
  · cases hrun

theorem yields_kind : Yields kind fun p k => ∃ line, p = [⟨.kind k, line⟩] := by
  intro ls k rest hrun
  simp only [kind] at hrun
  split at hrun
  · cases hrun
  · next line _ =>
    cases hrun
    exact ⟨[_], rfl, line, rfl⟩
  · cases hrun

theorem yields_closed (hx : Yields x D) : Yields (closed x) (Closed .rightParen D) := by
  refine hx.bind fun p a hp => (yields_expect .rightParen).bind fun q line hq => ?_
  subst hq
  refine yields_pure ⟨p, line, ?_, hp⟩
  rw [List.append_nil]

theorem yields_parenthesized (hx : Yields x D) : Yields (parenthesized x) fun p a =>
    ∃ q l₁ l₂, p = ⟨.symbol .leftParen, l₁⟩ :: (q ++ [⟨.symbol .rightParen, l₂⟩]) ∧ D q a := by
  refine (yields_expect .leftParen).bind fun p l₁ hp => (yields_closed hx).mono ?_
  rintro _ a ⟨q, l₂, rfl, hq⟩
  subst hp
  exact ⟨q, l₁, l₂, rfl, hq⟩

/-! ### Lists -/

mutual

theorem yields_items (hx : Yields x D) (closing : Symbol) : ∀ n, Yields (items x closing n)
    fun p as => as ≠ [] ∧ Closed closing (Listed D) p as
  | 0 => yields_fail _
  | n + 1 => by
    refine hx.bind fun p a hp => (yields_itemsAfter hx closing n).bind fun q as hq => ?_
    refine yields_pure ?_
    rw [List.append_nil]
    refine ⟨List.cons_ne_nil a as, ?_⟩
    obtain ⟨rfl, line, rfl⟩ | ⟨comma, q, rfl, has, r, line, rfl, hr⟩ := hq
    · exact ⟨p, line, rfl, Listed.one hp⟩
    · exact ⟨_, line, by simp, Listed.cons comma hp has hr⟩

theorem yields_itemsAfter (hx : Yields x D) (closing : Symbol) : ∀ n,
    Yields (itemsAfter x closing n) fun p as =>
      (as = [] ∧ ∃ line, p = [⟨.symbol closing, line⟩]) ∨
      ∃ comma q, p = ⟨.symbol .comma, comma⟩ :: q ∧ as ≠ [] ∧ Closed closing (Listed D) q as
  | 0 => yields_fail _
  | n + 1 => by
    intro ls as rest hrun
    cases ls with
    | nil => cases hrun
    | cons l ls =>
      obtain ⟨t, line⟩ := l
      simp only [itemsAfter] at hrun
      split at hrun
      · next ht =>
        obtain ⟨p, rfl, hp⟩ := yields_items hx closing n hrun
        cases ht
        exact ⟨_ :: p, rfl, .inr ⟨line, p, rfl, hp⟩⟩
      · split at hrun
        · next ht =>
          cases hrun
          cases ht
          exact ⟨[_], rfl, .inl ⟨rfl, line, rfl⟩⟩
        · cases hrun

end

theorem yields_commaSeparated (hx : Yields x D) (closing : Symbol) (n : Nat) :
    Yields (commaSeparated x closing n) (Closed closing (Listed D)) := by
  have hitems := (yields_items hx closing n).mono fun p as h => h.2
  intro ls as rest hrun
  cases ls with
  | nil => exact hitems hrun
  | cons l ls =>
    obtain ⟨t, line⟩ := l
    simp only [commaSeparated] at hrun
    split at hrun
    · next ht =>
      cases hrun
      cases ht
      exact ⟨[_], rfl, [], line, rfl, [], .none, by simp, rfl⟩
    · exact hitems hrun

/-! ### Expressions -/

theorem yields_inputArguments :
    Yields inputArguments fun p arguments => InputArguments p arguments.1 arguments.2 := by
  intro ls arguments rest hrun
  simp only [inputArguments] at hrun
  split at hrun
  · next s l₁ l₂ ls =>
    obtain ⟨p, rfl, ⟨k, l₃, rfl, rfl⟩⟩ := yields_kind.map
      (E := fun p a => ∃ k line, p = [⟨.kind k, line⟩] ∧ a = (some s, some k))
      (fun p k ⟨line, hp⟩ => ⟨k, line, hp, rfl⟩) hrun
    exact ⟨[_, _, _], rfl, .promptAndKind s k l₁ l₂ l₃⟩
  · next s line _ _ =>
    cases hrun
    exact ⟨[_], rfl, .prompt s line⟩
  · next k line _ =>
    cases hrun
    exact ⟨[_], rfl, .kind k line⟩
  · cases hrun
    exact ⟨[], rfl, .none⟩

theorem yields_inputAfter (line : Nat) :
    Yields (inputAfter line) fun p e => Derives .primary (⟨.keyword .input, line⟩ :: p) e := by
  refine (yields_parenthesized yields_inputArguments).bind ?_
  rintro p arguments ⟨q, l₁, l₂, rfl, hq⟩
  refine yields_pure ?_
  rw [List.append_nil]
  exact .input line l₁ l₂ hq

mutual

theorem yields_chain : ∀ n level, Yields (chain n level) (Derives (.chain level))
  | 0, _ => yields_fail _
  | n + 1, level => (yields_operand n level).bind fun _ _ hp => yields_chainAfter n level hp.first

theorem yields_operand : ∀ n level, Yields (operand n level) (Derives (.operand level))
  | 0, _ => yields_fail _
  | n + 1, .relational => yields_chain n .additive
  | n + 1, .additive => yields_chain n .multiplicative
  | n + 1, .multiplicative => yields_unary n

theorem yields_chainAfter : ∀ n level {p : List Lexeme} {left : Expr},
    Derives (.chain level) p left →
    Yields (chainAfter n level left) fun q e => Derives (.chain level) (p ++ q) e
  | 0, _, _, _, hp => yields_pure (by rwa [List.append_nil])
  | n + 1, level, p, left, hp => by
    have hstop : Derives (.chain level) (p ++ []) left := by rwa [List.append_nil]
    intro ls e rest hrun
    cases ls with
    | nil =>
      cases hrun
      exact ⟨[], rfl, hstop⟩
    | cons l ls =>
      simp only [chainAfter] at hrun
      split at hrun
      · cases hrun
        exact ⟨[], rfl, hstop⟩
      · next op hop =>
        split at hrun
        · next hlevel =>
          obtain ⟨q, rfl, hq⟩ := yields_chainLink n level hp hop hlevel l.line hrun
          exact ⟨l :: q, rfl, hq⟩
        · cases hrun
          exact ⟨[], rfl, hstop⟩

theorem yields_chainLink : ∀ n level {p : List Lexeme} {left : Expr} {t : Token} {op : Operator},
    Derives (.chain level) p left → t.operator? = some op → op.level = level → ∀ line,
    Yields (chainLink n level left op line) fun q e =>
      Derives (.chain level) (p ++ ⟨t, line⟩ :: q) e
  | 0, _, _, _, _, _, _, _, _, _ => yields_fail _
  | n + 1, level, p, left, t, op, hp, hop, hlevel, line => by
    subst hlevel
    obtain ⟨sign, rfl, hsign⟩ := exists_sign hop
    refine (yields_operand n op.level).bind fun q right hq => ?_
    refine (yields_chainAfter n op.level (hp.link line hsign hq)).mono fun r e hr => ?_
    simpa using hr

theorem yields_unary : ∀ n, Yields (unary n) (Derives .unary)
  | 0 => yields_fail _
  | n + 1 => by
    intro ls e rest hrun
    simp only [unary] at hrun
    split at hrun
    · next line _ =>
      exact ((yields_unary n).map fun _ _ hp => hp.minus line).passed hrun
    · exact ((yields_primary n).mono fun _ _ hp => hp.plain) hrun

theorem yields_primary : ∀ n, Yields (primary n) (Derives .primary)
  | 0 => yields_fail _
  | n + 1 => by
    have hexpression := yields_chain n .relational
    intro ls e rest hrun
    simp only [primary] at hrun
    split at hrun
    · cases hrun
    iterate 4
      · next line _ =>
        cases hrun
        exact ⟨[_], rfl, .literal line rfl⟩
    · next l₁ _ =>
      refine Yields.passed ((yields_closed hexpression).mono ?_) hrun
      rintro _ e ⟨p, l₂, rfl, hp⟩
      exact .group l₁ l₂ hp
    · next name line l₁ _ =>
      refine Yields.passedTwo ((yields_commaSeparated hexpression .rightParen n).map ?_) hrun
      rintro _ args ⟨p, l₂, rfl, items, hsep, hitems, rfl⟩
      exact .call name line l₁ l₂ hsep hitems
    · next name line _ _ =>
      cases hrun
      exact ⟨[_], rfl, .var name line⟩
    · next line _ => exact (yields_inputAfter line).passed hrun
    · next line _ =>
      refine Yields.passed ((yields_parenthesized hexpression).map ?_) hrun
      rintro _ e ⟨p, l₁, l₂, rfl, hp⟩
      exact .length line l₁ l₂ hp
    · cases hrun
    · cases hrun

end

/-! ### Statements -/

section Statements

variable {read : Parse Statement} (hread : Yields read (DerivesStatement anyJoin))

include hread

theorem yields_blockAfter (line : Nat) : ∀ n,
    Yields (blockAfter read line n) (Closed .rightBrace (DerivesSequence anyJoin))
  | 0 => yields_fail _
  | n + 1 => by
    have ih := yields_blockAfter line n
    intro ls ss rest hrun
    simp only [blockAfter] at hrun
    split at hrun
    · cases hrun
    · next l₁ _ =>
      refine Yields.passed (ih.mono ?_) hrun
      rintro _ ss ⟨p, l₂, rfl, hp⟩
      exact ⟨_, l₂, rfl, hp.semicolon l₁⟩
    · next l₂ _ =>
      cases hrun
      exact ⟨[_], rfl, [], l₂, rfl, .done⟩
    · cases hrun
    · refine Yields.bind hread (fun p s hp => ih.bind ?_) hrun
      rintro _ ss ⟨q, l₂, rfl, hq⟩
      refine yields_pure ⟨p ++ q, l₂, ?_, .statement hp hq trivial⟩
      simp

theorem yields_block (n : Nat) : Yields (block read n) (DerivesBlock anyJoin) := by
  refine (yields_expect .leftBrace).bind fun p l₁ hp => (yields_blockAfter hread l₁ n).mono ?_
  rintro _ ss ⟨q, l₂, rfl, hq⟩
  subst hp
  exact .braces l₁ l₂ hq

mutual

theorem yields_choice : ∀ n line, Yields (choice read n line) (DerivesChoice anyJoin line)
  | 0, _ => yields_fail _
  | n + 1, line => by
    refine (yields_chain n .relational).bind fun p e hp => ?_
    refine (yields_block hread n).bind fun b body hb => ?_
    refine (yields_otherwise n).bind fun r o hr => yields_pure ?_
    rw [List.append_nil]
    exact .mk line hp hb hr

theorem yields_otherwise : ∀ n, Yields (otherwise read n) (DerivesTail anyJoin)
  | 0 => yields_pure .nothing
  | n + 1 => by
    intro ls o rest hrun
    simp only [otherwise] at hrun
    split at hrun
    · next line _ => exact ((yields_choice n line).map fun _ _ hp => .elseIf hp).passed hrun
    · next l₁ line _ =>
      exact ((yields_choice n line).map fun _ _ hp => .otherwiseIf l₁ hp).passedTwo hrun
    · next l₁ _ _ => exact ((yields_block hread n).map fun _ _ hp => .otherwise l₁ hp).passed hrun
    · cases hrun
      exact ⟨[], rfl, .nothing⟩

end

theorem yields_functionAfter (n line : Nat) : Yields (functionAfter read n line) fun p s =>
    DerivesStatement anyJoin (⟨.keyword .func, line⟩ :: p) s := by
  refine yields_identifier.bind fun p name ⟨l₁, hp⟩ => ?_
  refine (yields_expect .leftParen).bind fun q l₂ hq => ?_
  refine (yields_commaSeparated yields_identifier .rightParen n).bind ?_
  rintro _ params ⟨r, l₃, rfl, hr⟩
  refine (yields_block hread n).bind fun b body hb => yields_pure ?_
  subst hp hq
  simpa using DerivesStatement.function name line l₁ l₂ l₃ hr hb

theorem yields_loopAfter (n line : Nat) : Yields (loopAfter read n line) fun p s =>
    DerivesStatement anyJoin (⟨.keyword .loop, line⟩ :: p) s := by
  refine (yields_expect .leftParen).bind fun p₁ l₁ h₁ => ?_
  refine hread.bind fun p init hp => ?_
  refine (yields_expect .semicolon).bind fun p₂ l₂ h₂ => ?_
  refine (yields_chain n .relational).bind fun q condition hq => ?_
  refine (yields_expect .semicolon).bind fun p₃ l₃ h₃ => ?_
  refine hread.bind fun r update hr => ?_
  refine (yields_expect .rightParen).bind fun p₄ l₄ h₄ => ?_
  refine (yields_block hread n).bind fun b body hb => yields_pure ?_
  subst h₁ h₂ h₃ h₄
  simpa using DerivesStatement.loop line l₁ l₂ l₃ l₄ hp hq hr hb

end Statements

theorem yields_declarationAfter (n : Nat) (k : Kind) (line : Nat) :
    Yields (declarationAfter n k line) fun p s =>
      DerivesStatement anyJoin (⟨.kind k, line⟩ :: p) s := by
  refine yields_identifier.bind fun p name ⟨l₁, hp⟩ => ?_
  subst hp
  intro ls s rest hrun
  simp only [initialValue] at hrun
  split at hrun
  · next l₂ _ =>
    exact ((yields_chain n .relational).map fun _ _ hp => .assignTyped name k line l₁ l₂ hp).passed
      hrun
  · cases hrun
    exact ⟨[], rfl, .declare name k line l₁⟩

theorem yields_statement : ∀ n, Yields (statement n) (DerivesStatement anyJoin)
  | 0 => yields_fail _
  | n + 1 => by
    have hexpression := yields_chain n .relational
    have hread := yields_statement n
    intro ls s rest hrun
    simp only [statement] at hrun
    split at hrun
    · next line _ => exact (yields_functionAfter hread n line).passed hrun
    · next line _ => exact (hexpression.map fun _ _ hp => .ret line hp).passed hrun
    · next line _ =>
      refine Yields.passed ((yields_parenthesized hexpression).map ?_) hrun
      rintro _ e ⟨p, l₁, l₂, rfl, hp⟩
      exact .print line l₁ l₂ hp
    · next line _ => exact ((yields_choice hread n line).map fun _ _ hp => .choose hp).passed hrun
    · next line _ => exact (yields_loopAfter hread n line).passed hrun
    · next k line _ => exact (yields_declarationAfter n k line).passed hrun
    · next name l₁ line _ =>
      exact (hexpression.map fun _ _ hp => .assign name line l₁ hp).passedTwo hrun
    · exact (hexpression.map fun _ _ hp => .expr hp) hrun

/-- With enough depth a program ends only where the input does. -/
theorem run_program_ok : ∀ n {read : Parse Statement} {ls rest : List Lexeme} {ss : List Statement},
    Yields read (DerivesStatement anyJoin) → ls.length < n →
    (program read n).run ls = .ok (ss, rest) →
    ∃ p, ls = p ++ rest ∧ Program p ss ∧ ∀ l ∈ rest.head?, l.token = .endOfInput
  | 0, _, _, _, _, _, hn, _ => absurd hn (Nat.not_lt_zero _)
  | n + 1, read, ls, rest, ss, hread, hn, hrun => by
    simp only [program] at hrun
    split at hrun
    · cases hrun
      exact ⟨[], rfl, .done, by simp⟩
    · next line ls =>
      obtain ⟨p, rfl, hp, hend⟩ := run_program_ok n hread (by simpa using hn) hrun
      exact ⟨_ :: p, rfl, hp.semicolon line, hend⟩
    · cases hrun
      exact ⟨[], rfl, .done, by simp⟩
    · rw [run_bind] at hrun
      split at hrun
      · next s mid hmid =>
        obtain ⟨p, rfl, hp⟩ := hread hmid
        rw [run_bind] at hrun
        split at hrun
        · next ss' last hlast =>
          cases hrun
          have hlength : mid.length < n := by
            obtain ⟨l, q, rfl, -⟩ := hp.starts
            simp only [List.cons_append, List.length_cons, List.length_append] at hn
            omega
          obtain ⟨q, rfl, hq, hend⟩ := run_program_ok n hread hlength hlast
          exact ⟨p ++ q, by simp, .statement hp hq trivial, hend⟩
        · cases hrun
      · cases hrun

end Parse

end Skript
