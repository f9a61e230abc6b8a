import Skript.Proofs.Reading

/-!
# Readers look one lexeme ahead

What a reader makes of the lexemes that it takes depends on these and on the next one, and on
nothing that follows. An assignment is told from an expression by its second lexeme, which is looked
at before the first one is taken; but then the first one is taken in any case, so that even there
no more than one lexeme is looked at that is not taken.
-/
namespace Skript

namespace Parse

variable {α β : Type} {x : Parse α}

/-- Fewer lexemes are left whenever the reader succeeds. -/
def Advances (x : Parse α) : Prop :=
  ∀ ⦃ls : List Lexeme⦄ ⦃a : α⦄ ⦃rest : List Lexeme⦄,
    x.run ls = .ok (a, rest) → rest.length < ls.length

theorem Yields.advances (hx : Yields x fun p _ => p ≠ []) : Advances x := by
  intro ls a rest hrun
  obtain ⟨p, rfl, hp⟩ := hx hrun
  have hpos := List.length_pos_iff.2 hp
  rw [List.length_append]
  omega

/-- Where the reader stops before a lexeme, it does so whatever follows that lexeme. -/
def OneAhead (x : Parse α) : Prop :=
  ∀ ⦃p : List Lexeme⦄ ⦃a : α⦄ ⦃t : Lexeme⦄ ⦃rest : List Lexeme⦄,
    x.run (p ++ t :: rest) = .ok (a, t :: rest) →
    ∀ rest', x.run (p ++ t :: rest') = .ok (a, t :: rest')

/-- The reader takes lexemes from the front and looks one ahead. -/
structure Local (x : Parse α) : Prop where
  suffix : Yields x fun _ _ => True
  oneAhead : OneAhead x

theorem Local.nil (hx : Local x) {a : α} {rest : List Lexeme} (h : x.run [] = .ok (a, rest)) :
    rest = [] := by
  obtain ⟨p, hp, -⟩ := hx.suffix h
  exact (List.append_eq_nil_iff.1 hp.symm).2

theorem Local.pure (a : α) : Local (Pure.pure a : Parse α) where
  suffix := yields_pure trivial
  oneAhead := by
    intro p b t rest hrun rest'
    obtain ⟨rfl, hp⟩ := Prod.mk.inj (Except.ok.inj hrun)
    rw [List.append_left_eq_self.1 hp]
    rfl

theorem Local.fail (fault : SourceFault) : Local (Parse.fail fault : Parse α) where
  suffix := yields_fail fault
  oneAhead := by
    intro p a t rest hrun
    cases hrun

/-- The first part stops before a lexeme that the second one takes, or where the second one stops. -/
theorem Local.bind {f : α → Parse β} (hx : Local x) (hf : ∀ a, Local (f a)) : Local (x >>= f) where
  suffix := hx.suffix.bind fun _ a _ => (hf a).suffix.mono fun _ _ h => h
  oneAhead := by
    intro p b t rest hrun rest'
    rw [run_bind] at hrun
    cases hfirst : x.run (p ++ t :: rest) with
    | error fault =>
      rw [hfirst] at hrun
      cases hrun
    | ok out =>
      obtain ⟨a, mid⟩ := out
      rw [hfirst] at hrun
      obtain ⟨p₁, hp₁, -⟩ := hx.suffix hfirst
      obtain ⟨p₂, rfl, -⟩ := (hf a).suffix hrun
      rw [← List.append_assoc, List.append_cancel_right_eq] at hp₁
      subst hp₁
      have hsecond := (hf a).oneAhead hrun rest'
      suffices hx' : x.run (p₁ ++ p₂ ++ t :: rest') = .ok (a, p₂ ++ t :: rest') by
        rw [run_bind, hx']
        exact hsecond
      rw [List.append_assoc] at hfirst ⊢
      cases p₂ with
      | nil => exact hx.oneAhead hfirst rest'
      | cons l p₂ => exact hx.oneAhead hfirst (p₂ ++ t :: rest')

theorem Local.map {g : α → β} (hx : Local x) : Local (g <$> x) :=
  hx.bind fun a => .pure (g a)

/-- The reader with a lexeme before those that it is given. -/
def after (l : Lexeme) (x : Parse α) : Parse α :=
  ⟨fun ls => x.run (l :: ls)⟩

theorem Local.after {l : Lexeme} (hx : Local x) (hadvances : Advances x) : Local (after l x) where
  suffix := by
    intro ls a rest hrun
    obtain ⟨p, hp, -⟩ := hx.suffix hrun
    have hlength := hadvances hrun
    cases p with
    | nil =>
      cases hp
      exact absurd hlength (Nat.lt_irrefl _)
    | cons k p =>
      cases hp
      exact ⟨p, rfl, trivial⟩
  oneAhead := fun p _ _ _ hrun => hx.oneAhead (p := l :: p) hrun

/-- A reader is made up of what it does with each first lexeme: it takes the lexeme and goes on, or
does as another reader does. -/
theorem Local.of_cases (hnil : ∀ a rest, x.run [] = .ok (a, rest) → rest = [])
    (hcons : ∀ l, Local (Parse.after l x) ∨ ∃ y, Local y ∧ ∀ ls, x.run (l :: ls) = y.run (l :: ls)) :
    Local x := by
  constructor
  · intro ls a rest hrun
    cases ls with
    | nil => exact ⟨[], (hnil a rest hrun).symm, trivial⟩
    | cons l ls =>
      obtain hafter | ⟨y, hy, hxy⟩ := hcons l
      · obtain ⟨p, rfl, -⟩ := hafter.suffix hrun
        exact ⟨l :: p, rfl, trivial⟩
      · rw [hxy] at hrun
        exact hy.suffix hrun
  · intro p a t rest hrun rest'
    cases p with
    | nil =>
      obtain hafter | ⟨y, hy, hxy⟩ := hcons t
      · obtain ⟨p, hp, -⟩ := hafter.suffix hrun
        have hlength := congrArg List.length hp
        rw [List.length_append, List.length_cons] at hlength
        omega
      · rw [List.nil_append, hxy] at hrun ⊢
        exact hy.oneAhead (p := []) hrun rest'
    | cons l p =>
      obtain hafter | ⟨y, hy, hxy⟩ := hcons l
      · exact hafter.oneAhead hrun rest'
      · rw [List.cons_append, hxy] at hrun ⊢
        exact hy.oneAhead (p := l :: p) hrun rest'

/-- The lexeme is taken, and another reader goes on. -/
theorem Local.taking {y : Parse α} {l : Lexeme} (hy : Local y)
    (h : ∀ ls, x.run (l :: ls) = y.run ls) : Local (Parse.after l x) := by
  have hsame : Parse.after l x = y := congrArg Parse.mk (funext h)
  rwa [hsame]

theorem local_expect (sign : Symbol) : Local (expect sign) := by
  refine .of_cases nofun fun l => ?_
  by_cases hl : l.token = .symbol sign
  · exact .inl ((Local.pure l.line).taking fun ls => if_pos hl)
  · exact .inr ⟨_, .fail (.unexpected (.symbol sign) l), fun ls => if_neg hl⟩

theorem local_identifier : Local identifier := by
  refine .of_cases nofun fun ⟨t, line⟩ => ?_
  cases t with
  | identifier name => exact .inl (.pure name)
  | _ => exact .inr ⟨_, .fail (.unexpected .identifier ⟨_, line⟩), fun _ => rfl⟩

theorem local_kind : Local kind := by
  refine .of_cases nofun fun ⟨t, line⟩ => ?_
  cases t with
  | kind k => exact .inl (.pure k)
  | _ => exact .inr ⟨_, .fail (.unexpected .kind ⟨_, line⟩), fun _ => rfl⟩

theorem local_closed (hx : Local x) : Local (closed x) :=
  hx.bind fun a => (local_expect .rightParen).bind fun _ => .pure a

theorem local_parenthesized (hx : Local x) : Local (parenthesized x) :=
  (local_expect .leftParen).bind fun _ => local_closed hx

/-! ### Lists -/

mutual

theorem local_items (hx : Local x) (closing : Symbol) : ∀ n, Local (items x closing n)
  | 0 => .fail _
  | n + 1 => hx.bind fun a => (local_itemsAfter hx closing n).bind fun as => .pure (a :: as)

theorem local_itemsAfter (hx : Local x) (closing : Symbol) : ∀ n, Local (itemsAfter x closing n)
  | 0 => .fail _
  | n + 1 => by
    refine .of_cases nofun fun l => ?_
    by_cases hcomma : l.token = .symbol .comma
    · exact .inl ((local_items hx closing n).taking fun ls => if_pos hcomma)
    by_cases hclosing : l.token = .symbol closing
    · exact .inl ((Local.pure []).taking fun ls => (if_neg hcomma).trans (if_pos hclosing))
    · exact .inr ⟨_, .fail (.unexpected (.commaOr closing) l),
        fun ls => (if_neg hcomma).trans (if_neg hclosing)⟩

end

theorem local_commaSeparated (hx : Local x) (closing : Symbol) (n : Nat) :
    Local (commaSeparated x closing n) := by
  have hitems := local_items hx closing n
  refine .of_cases (fun _ _ hrun => hitems.nil hrun) fun l => ?_
  by_cases hclosing : l.token = .symbol closing
  · exact .inl ((Local.pure []).taking fun ls => if_pos hclosing)
  · exact .inr ⟨_, hitems, fun ls => if_neg hclosing⟩

/-! ### Expressions -/

theorem local_inputArguments : Local inputArguments := by
  refine .of_cases (fun _ _ hrun => by cases hrun; rfl) fun ⟨t, line⟩ => ?_
  cases t with
  | str prompt =>
    refine .inl (.of_cases (fun _ _ hrun => by cases hrun; rfl) fun ⟨t, line⟩ => ?_)
    have hprompt := Local.pure (some prompt, (none : Option Kind))
    cases t with
    | symbol sign =>
      cases sign with
      | comma => exact .inl (local_kind.map.taking fun _ => rfl)
      | _ => exact .inr ⟨_, hprompt, fun _ => rfl⟩
    | _ => exact .inr ⟨_, hprompt, fun _ => rfl⟩
  | kind k => exact .inl (.pure (none, some k))
  | _ => exact .inr ⟨_, .pure (none, none), fun _ => rfl⟩

theorem local_inputAfter (line : Nat) : Local (inputAfter line) :=
  (local_parenthesized local_inputArguments).bind fun arguments =>
    .pure (Expr.input arguments.1 arguments.2 line)

mutual

theorem local_chain : ∀ n level, Local (chain n level)
  | 0, _ => .fail _
  | n + 1, level => (local_operand n level).bind fun left => local_chainAfter n level left

theorem local_operand : ∀ n level, Local (operand n level)
  | 0, _ => .fail _
  | n + 1, .relational => local_chain n .additive
  | n + 1, .additive => local_chain n .multiplicative
  | n + 1, .multiplicative => local_unary n

theorem local_chainAfter : ∀ n level left, Local (chainAfter n level left)
  | 0, _, left => .pure left
  | n + 1, level, left => by
    refine .of_cases (fun _ _ hrun => by cases hrun; rfl) fun l => ?_
    cases hop : l.token.operator? with
    | none => exact .inr ⟨_, .pure left, fun ls => by simp only [chainAfter, hop]; rfl⟩
    | some op =>
      by_cases hlevel : op.level = level
      · refine .inl ((local_chainLink n level left op l.line).taking fun ls => ?_)
        simp only [chainAfter, hop, if_pos hlevel]
      · refine .inr ⟨_, .pure left, fun ls => ?_⟩
        simp only [chainAfter, hop, if_neg hlevel]
        rfl

theorem local_chainLink : ∀ n level left op line, Local (chainLink n level left op line)
  | 0, _, _, _, _ => .fail _
  | n + 1, level, left, op, line => (local_operand n level).bind fun right =>
      local_chainAfter n level (.binary left op right line)

theorem local_unary : ∀ n, Local (unary n)
  | 0 => .fail _
  | n + 1 => by
    have hprimary := local_primary n
    refine .of_cases (fun _ _ hrun => hprimary.nil hrun) fun ⟨t, line⟩ => ?_
    cases t with
    | symbol sign =>
      cases sign with
      | minus => exact .inl ((local_unary n).map.taking fun _ => rfl)
      | _ => exact .inr ⟨_, hprimary, fun _ => rfl⟩
    | _ => exact .inr ⟨_, hprimary, fun _ => rfl⟩

theorem local_primary : ∀ n, Local (primary n)
  | 0 => .fail _
  | n + 1 => by
    have hexpression := local_chain n .relational
    have hunexpected : ∀ l : Lexeme, Local (Parse.fail (.unexpected .expression l) : Parse Expr) :=
      fun l => .fail _
    refine .of_cases nofun fun ⟨t, line⟩ => ?_
    cases t with
    | decimal v => exact .inl (.pure (Expr.literal (.dec v) line))
    | integer k => exact .inl (.pure (Expr.literal (.num k) line))
    | str s => exact .inl (.pure (Expr.literal (.ofText s) line))
    | bool b => exact .inl (.pure (Expr.literal (.bool b) line))
    | symbol sign =>
      cases sign with
      | leftParen => exact .inl (local_closed hexpression)
      | _ => exact .inr ⟨_, hunexpected ⟨_, line⟩, fun _ => rfl⟩
    | identifier name =>
      -- a name is taken before the parenthesis that makes it a call is looked for
      refine .inl (.of_cases (fun _ _ hrun => by cases hrun; rfl) fun ⟨t, l₁⟩ => ?_)
      have hvar := Local.pure (Expr.var name line)
      cases t with
      | symbol sign =>
        cases sign with
        | leftParen =>
          exact .inl ((local_commaSeparated hexpression .rightParen n).map.taking fun _ => rfl)
        | _ => exact .inr ⟨_, hvar, fun _ => rfl⟩
      | _ => exact .inr ⟨_, hvar, fun _ => rfl⟩
    | keyword word =>
      cases word with
      | input => exact .inl (local_inputAfter line)
      | len => exact .inl ((local_parenthesized hexpression).map.taking fun _ => rfl)
      | _ => exact .inr ⟨_, hunexpected ⟨_, line⟩, fun _ => rfl⟩
    | kind k => exact .inr ⟨_, .fail ⟨.kindInExpression k, line⟩, fun _ => rfl⟩
    | _ => exact .inr ⟨_, hunexpected ⟨_, line⟩, fun _ => rfl⟩

end

theorem local_expression (n : Nat) : Local (expression n) :=
  local_chain n .relational

/-! ### Statements -/

section Statements

variable {read : Parse Statement} (hread : Local read)

include hread

theorem local_blockAfter (line : Nat) : ∀ n, Local (blockAfter read line n)
  | 0 => .fail _
  | n + 1 => by
    have ih := local_blockAfter line n
    have hstatement : Local (do
        let first ← read
        let rest ← blockAfter read line n
        return first :: rest : Parse (List Statement)) :=
      hread.bind fun s => ih.bind fun ss => .pure (s :: ss)
    refine .of_cases nofun fun ⟨t, l⟩ => ?_
    cases t with
    | symbol sign =>
      cases sign with
      | semicolon => exact .inl ih
      | rightBrace => exact .inl (.pure [])
      | _ => exact .inr ⟨_, hstatement, fun _ => rfl⟩
    | endOfInput => exact .inr ⟨_, .fail ⟨.unexpectedEnd (.symbol .rightBrace), l⟩, fun _ => rfl⟩
    | _ => exact .inr ⟨_, hstatement, fun _ => rfl⟩

theorem local_block (n : Nat) : Local (block read n) :=
  (local_expect .leftBrace).bind fun line => local_blockAfter hread line n

mutual

theorem local_choice : ∀ n line, Local (choice read n line)
  | 0, _ => .fail _
  | n + 1, line => (local_expression n).bind fun condition =>
      (local_block hread n).bind fun body =>
        (local_otherwise n).bind fun rest => .pure (Choice.mk condition body rest line)

theorem local_otherwise : ∀ n, Local (otherwise read n)
  | 0 => .pure _
  | n + 1 => by
    have hnothing := Local.pure Otherwise.nothing
    have hblock : Local (Otherwise.block <$> block read n) := (local_block hread n).map
    have hchoice : ∀ line, Local (Otherwise.elseIf <$> choice read n line) :=
      fun line => (local_choice n line).map
    refine .of_cases (fun _ _ hrun => by cases hrun; rfl) fun ⟨t, line⟩ => ?_
    cases t with
    | keyword word =>
      cases word with
      | elseIf => exact .inl (hchoice line)
      | otherwise =>
        refine .inl (.of_cases (fun _ _ hrun => hblock.nil hrun) fun ⟨t, line⟩ => ?_)
        cases t with
        | keyword word =>
          cases word with
          | cond => exact .inl (hchoice line)
          | _ => exact .inr ⟨_, hblock, fun _ => rfl⟩
        | _ => exact .inr ⟨_, hblock, fun _ => rfl⟩
      | _ => exact .inr ⟨_, hnothing, fun _ => rfl⟩
    | _ => exact .inr ⟨_, hnothing, fun _ => rfl⟩

end

theorem local_functionAfter (n line : Nat) : Local (functionAfter read n line) :=
  local_identifier.bind fun name =>
    (local_expect .leftParen).bind fun _ =>
      (local_commaSeparated local_identifier .rightParen n).bind fun params =>
        (local_block hread n).bind fun body => .pure (Statement.function name params body line)

theorem local_loopAfter (n line : Nat) : Local (loopAfter read n line) :=
  (local_expect .leftParen).bind fun _ => hread.bind fun init =>
    (local_expect .semicolon).bind fun _ => (local_expression n).bind fun condition =>
      (local_expect .semicolon).bind fun _ => hread.bind fun update =>
        (local_expect .rightParen).bind fun _ => (local_block hread n).bind fun body =>
          .pure (Statement.loop init condition update body line)

end Statements

theorem local_declarationAfter (n : Nat) (k : Kind) (line : Nat) :
    Local (declarationAfter n k line) := by
  refine local_identifier.bind fun name => ?_
  refine .of_cases (fun _ _ hrun => by cases hrun; rfl) fun ⟨t, l⟩ => ?_
  have hdeclare := Local.pure (Statement.declare name k line)
  cases t with
  | symbol sign =>
    cases sign with
    | equals => exact .inl ((local_expression n).map.taking fun _ => rfl)
    | _ => exact .inr ⟨_, hdeclare, fun _ => rfl⟩
  | _ => exact .inr ⟨_, hdeclare, fun _ => rfl⟩

theorem local_statement : ∀ n, Local (statement n)
  | 0 => .fail _
  | n + 1 => by
    have hread := local_statement n
    have hexpression := local_expression n
    have halone : Local ((fun e => Statement.expr e e.line) <$> expression n) := hexpression.map
    refine .of_cases (fun _ _ hrun => halone.nil hrun) fun ⟨t, line⟩ => ?_
    cases t with
    | keyword word =>
      cases word with
      | func => exact .inl (local_functionAfter hread n line)
      | ret => exact .inl (hexpression.map.taking fun _ => rfl)
      | print => exact .inl ((local_parenthesized hexpression).map.taking fun _ => rfl)
      | cond => exact .inl ((local_choice hread n line).map.taking fun _ => rfl)
      | loop => exact .inl (local_loopAfter hread n line)
      | _ => exact .inr ⟨_, halone, fun _ => rfl⟩
    | kind k => exact .inl (local_declarationAfter n k line)
    | identifier name =>
      -- the name is taken in any case: as the target of an assignment, or by the expression
      have htaken : Local (after ⟨.identifier name, line⟩
          ((fun e => Statement.expr e e.line) <$> expression n)) := by
        have hyields : Yields ((fun e => Statement.expr e e.line) <$> expression n)
            fun p _ => p ≠ [] := (yields_chain n .relational).map fun _ _ hp => hp.ne_nil
        exact halone.after hyields.advances
      refine .inl (.of_cases (fun _ _ hrun => htaken.nil hrun) fun ⟨t, l₁⟩ => ?_)
      cases t with
      | symbol sign =>
        cases sign with
        | equals => exact .inl (hexpression.map.taking fun _ => rfl)
        | _ => exact .inr ⟨_, htaken, fun _ => rfl⟩
      | _ => exact .inr ⟨_, htaken, fun _ => rfl⟩
    | _ => exact .inr ⟨_, halone, fun _ => rfl⟩

end Parse

end Skript
