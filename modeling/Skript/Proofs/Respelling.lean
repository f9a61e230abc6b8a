import Skript.Proofs.AcceptedPrograms

/-!
# Two spellings of a further choice

Where a choice goes on with a further condition, the keyword for this may be written as one word or
as two. Whichever is written, the lexemes spell the same program, and nothing else in a program can
tell the spellings apart: expressions hold no such keyword, and a statement is not carried on by it.
-/
namespace Skript

namespace Grammar

/-- The second lexemes are the first ones, with any of the `elf` among them written as `el` and `if`
on the same line. -/
inductive Respelled : List Lexeme → List Lexeme → Prop
  | nil : Respelled [] []
  | keep (l : Lexeme) : Respelled p q → Respelled (l :: p) (l :: q)
  | split (line : Nat) : Respelled p q →
      Respelled (⟨.keyword .elseIf, line⟩ :: p)
        (⟨.keyword .otherwise, line⟩ :: ⟨.keyword .cond, line⟩ :: q)

variable {p q rest rest' : List Lexeme} {phrase : Phrase}

theorem Respelled.refl (p : List Lexeme) : Respelled p p := by
  induction p with
  | nil => exact .nil
  | cons l p ih => exact .keep l ih

theorem respelled_nil : Respelled [] q ↔ q = [] := by
  constructor
  · rintro ⟨⟩
    rfl
  · rintro rfl
    exact .nil

theorem respelled_cons {t : Token} {line : Nat} (ht : t ≠ .keyword .elseIf) :
    Respelled (⟨t, line⟩ :: p) q ↔ ∃ r, q = ⟨t, line⟩ :: r ∧ Respelled p r := by
  constructor
  · intro h
    cases h with
    | keep _ h => exact ⟨_, rfl, h⟩
    | split => exact absurd rfl ht
  · rintro ⟨r, rfl, h⟩
    exact .keep _ h

theorem Respelled.append {p₁ p₂ q₁ q₂ : List Lexeme} (h₁ : Respelled p₁ q₁)
    (h₂ : Respelled p₂ q₂) : Respelled (p₁ ++ p₂) (q₁ ++ q₂) := by
  induction h₁ with
  | nil => exact h₂
  | keep l _ ih => exact .keep l ih
  | split line _ ih => exact .split line ih

theorem respelled_append {p₁ p₂ : List Lexeme} :
    Respelled (p₁ ++ p₂) q ↔ ∃ q₁ q₂, q = q₁ ++ q₂ ∧ Respelled p₁ q₁ ∧ Respelled p₂ q₂ := by
  constructor
  · intro h
    induction p₁ generalizing q with
    | nil => exact ⟨[], q, rfl, .nil, h⟩
    | cons l p₁ ih =>
      cases h with
      | keep _ h =>
        obtain ⟨q₁, q₂, rfl, h₁, h₂⟩ := ih h
        exact ⟨l :: q₁, q₂, rfl, .keep l h₁, h₂⟩
      | split line h =>
        obtain ⟨q₁, q₂, rfl, h₁, h₂⟩ := ih h
        exact ⟨_ :: _ :: q₁, q₂, rfl, .split line h₁, h₂⟩
  · rintro ⟨q₁, q₂, rfl, h₁, h₂⟩
    exact h₁.append h₂

/-- Without an `elf` there is nothing to respell. -/
theorem Respelled.eq (h : Respelled p q) (hp : ∀ l ∈ p, l.token ≠ .keyword .elseIf) : q = p := by
  induction h with
  | nil => rfl
  | keep l _ ih => rw [ih fun k hk => hp k (List.mem_cons_of_mem l hk)]
  | split line _ _ => exact absurd rfl (hp _ List.mem_cons_self)

theorem Derives.eq_of_respelled {e : Expr} (h : Derives phrase p e) (hq : Respelled p q) :
    q = p := by
  refine hq.eq fun l hl helse => ?_
  have hforeign := h.not_foreign l hl
  rw [helse] at hforeign
  cases hforeign

theorem eq_of_respelled_names {params : List String} (h : Listed Name p params)
    (hq : Respelled p q) : q = p := by
  refine hq.eq fun l hl helse => ?_
  obtain htoken | ⟨name, htoken⟩ := token_of_names h hl
  · rw [htoken] at helse
    cases helse
  · rw [htoken] at helse
    cases helse

/-! ### Where statements end -/

theorem Respelled.endsInName (h : Respelled p q) (hq : EndsInName q) : EndsInName p := by
  induction h with
  | nil => exact hq
  | @keep p q l h ih =>
    cases h with
    | nil => exact hq
    | keep | split =>
      rw [← List.singleton_append, endsInName_append (List.cons_ne_nil _ _)] at hq ⊢
      exact ih hq
  | @split p q line h ih =>
    cases h with
    | nil =>
      obtain ⟨name, k, hlast⟩ := hq
      cases hlast
    | keep | split =>
      rw [← List.singleton_append, endsInName_append (List.cons_ne_nil _ _),
        ← List.singleton_append, endsInName_append (List.cons_ne_nil _ _)] at hq
      rw [← List.singleton_append, endsInName_append (List.cons_ne_nil _ _)]
      exact ih hq

/-- Neither spelling carries an expression on. -/
theorem Stops.respelled (h : Stops phrase p rest) (hp : Respelled p q)
    (hrest : Respelled rest rest') : Stops phrase q rest' := by
  cases hrest with
  | nil => exact stops_nil
  | keep l _ =>
    constructor
    · rintro _ ⟨⟩ op hop
      exact h.operator l rfl op hop
    · rintro _ ⟨⟩ hparen hname
      exact h.call l rfl hparen (hp.endsInName hname)
  | split line _ =>
    constructor
    · rintro _ ⟨⟩ op ⟨⟩
    · rintro _ ⟨⟩ ⟨⟩

/-! ### Derivations -/

mutual

theorem DerivesStatement.respelled : ∀ {p : List Lexeme} {s : Statement},
    DerivesStatement greedyJoin p s → ∀ {q : List Lexeme}, Respelled p q →
    DerivesStatement greedyJoin q s
  | _, _, .function name line l₁ l₂ l₃ hp hb, q, hq => by
    simp (disch := simp) only [respelled_cons, respelled_append] at hq
    obtain ⟨_, rfl, _, rfl, _, rfl, q, _, rfl, hq, b, rfl, hb'⟩ := hq
    cases eq_of_respelled_names hp hq
    exact .function name line l₁ l₂ l₃ hp (hb.respelled hb')
  | _, _, .ret line h, q, hq => by
    obtain ⟨r, rfl, hr⟩ := (respelled_cons (by simp)).1 hq
    cases h.eq_of_respelled hr
    exact .ret line h
  | _, _, .print line l₁ l₂ h, q, hq => by
    simp (disch := simp) only [respelled_cons, respelled_append, respelled_nil] at hq
    obtain ⟨_, rfl, _, rfl, q, _, rfl, hq, _, rfl, rfl⟩ := hq
    cases h.eq_of_respelled hq
    exact .print line l₁ l₂ h
  | _, _, .choose h, q, hq => by
    obtain ⟨r, rfl, hr⟩ := (respelled_cons (by simp)).1 hq
    exact .choose (h.respelled hr)
  | _, _, .loop line l₁ l₂ l₃ l₄ hi hc hu hb, q, hq => by
    simp (disch := simp) only [respelled_cons, respelled_append] at hq
    obtain ⟨_, rfl, _, rfl, i, _, rfl, hi', _, rfl, c, _, rfl, hc', _, rfl, u, _, rfl, hu', b, rfl,
      hb'⟩ := hq
    cases hc.eq_of_respelled hc'
    exact .loop line l₁ l₂ l₃ l₄ (hi.respelled hi') hc (hu.respelled hu') (hb.respelled hb')
  | _, _, .declare name k line l₁, q, hq => by
    simp (disch := simp) only [respelled_cons, respelled_nil] at hq
    obtain ⟨_, rfl, _, rfl, rfl⟩ := hq
    exact .declare name k line l₁
  | _, _, .assignTyped name k line l₁ l₂ h, q, hq => by
    simp (disch := simp) only [respelled_cons] at hq
    obtain ⟨_, rfl, _, rfl, q, rfl, hq⟩ := hq
    cases h.eq_of_respelled hq
    exact .assignTyped name k line l₁ l₂ h
  | _, _, .assign name line l₁ h, q, hq => by
    simp (disch := simp) only [respelled_cons] at hq
    obtain ⟨_, rfl, q, rfl, hq⟩ := hq
    cases h.eq_of_respelled hq
    exact .assign name line l₁ h
  | _, _, .expr h, q, hq => by
    cases h.eq_of_respelled hq
    exact .expr h

theorem DerivesBlock.respelled : ∀ {p : List Lexeme} {ss : List Statement},
    DerivesBlock greedyJoin p ss → ∀ {q : List Lexeme}, Respelled p q →
    DerivesBlock greedyJoin q ss
  | _, _, .braces l₁ l₂ h, q, hq => by
    simp (disch := simp) only [respelled_cons, respelled_append, respelled_nil] at hq
    obtain ⟨_, rfl, q, _, rfl, hq, _, rfl, rfl⟩ := hq
    exact .braces l₁ l₂ (h.respelled hq)

theorem DerivesSequence.respelled : ∀ {p : List Lexeme} {ss : List Statement},
    DerivesSequence greedyJoin p ss → ∀ {q : List Lexeme}, Respelled p q →
    DerivesSequence greedyJoin q ss
  | _, _, .done, q, hq => by
    cases respelled_nil.1 hq
    exact .done
  | _, _, .semicolon line h, q, hq => by
    obtain ⟨r, rfl, hr⟩ := (respelled_cons (by simp)).1 hq
    exact .semicolon line (h.respelled hr)
  | _, _, .statement hs hss hjoin, q, hq => by
    obtain ⟨q₁, q₂, rfl, hq₁, hq₂⟩ := respelled_append.1 hq
    exact .statement (hs.respelled hq₁) (hss.respelled hq₂) fun hopen =>
      (hjoin hopen).respelled hq₁ hq₂

theorem DerivesChoice.respelled : ∀ {line : Nat} {p : List Lexeme} {c : Choice},
    DerivesChoice greedyJoin line p c → ∀ {q : List Lexeme}, Respelled p q →
    DerivesChoice greedyJoin line q c
  | _, _, _, .mk line h hb hr, q, hq => by
    simp only [respelled_append] at hq
    obtain ⟨q, _, rfl, hq, b, r, rfl, hb', hr'⟩ := hq
    cases h.eq_of_respelled hq
    exact .mk line h (hb.respelled hb') (hr.respelled hr')

theorem DerivesTail.respelled : ∀ {p : List Lexeme} {o : Otherwise},
    DerivesTail greedyJoin p o → ∀ {q : List Lexeme}, Respelled p q → DerivesTail greedyJoin q o
  | _, _, .nothing, q, hq => by
    cases respelled_nil.1 hq
    exact .nothing
  | _, _, .elseIf h, q, hq => by
    cases hq with
    | keep _ hq => exact .elseIf (h.respelled hq)
    | split _ hq => exact .otherwiseIf _ (h.respelled hq)
  | _, _, .otherwiseIf l₁ h, q, hq => by
    simp (disch := simp) only [respelled_cons] at hq
    obtain ⟨_, rfl, q, rfl, hq⟩ := hq
    exact .otherwiseIf l₁ (h.respelled hq)
  | _, _, .otherwise l₁ hb, q, hq => by
    obtain ⟨b, rfl, hb'⟩ := (respelled_cons (by simp)).1 hq
    exact .otherwise l₁ (hb.respelled hb')

end

end Grammar

open Grammar

/-- Lexemes that are accepted stand for the same program in every spelling. -/
theorem parse_of_respelled {ls ls' : List Lexeme} {ss : List Statement} (h : Respelled ls ls')
    (hparse : parse ls = .ok ss) : parse ls' = .ok ss := by
  obtain ⟨p, rest, rfl, hp, hend⟩ := parse_eq_ok_iff_greedy.1 hparse
  obtain ⟨p', rest', rfl, hp', hrest⟩ := respelled_append.1 h
  refine parse_append_of_greedy (hp.respelled hp') ?_
  cases hrest with
  | nil => simp
  | keep l _ => exact hend
  | split line _ => cases hend _ rfl

end Skript
