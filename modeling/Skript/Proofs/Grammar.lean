import Skript.Program.Parse

/-!
# The grammar of scripts

A phrase of a script as a relation between the lexemes that spell it and the tree it stands for.
The relations are given by the rules of a context-free grammar and say nothing about how a phrase
is found: operators of one level are grouped from the left, a leading minus is a subtraction from
zero, and parentheses leave no trace in the tree.

Statements need no separator between them, so one list of lexemes can have several trees. The
relations for statements therefore take the joins they allow as a parameter.
-/
namespace Skript

namespace Token

/-- The literal that a single token stands for. -/
def literal? : Token → Option Literal
  | decimal x => some (.dec x)
  | integer k => some (.num k)
  | str s => some (.ofText s)
  | bool b => some (.bool b)
  | _ => none

/-- The tokens with which an expression can start. -/
def startsExpression : Token → Bool
  | decimal _ | integer _ | str _ | bool _ | identifier _ => true
  | keyword .input | keyword .len => true
  | symbol .leftParen | symbol .minus => true
  | _ => false

/-- The tokens with which a statement can start. -/
def startsStatement : Token → Bool
  | keyword .func | keyword .ret | keyword .print | keyword .cond | keyword .loop | kind _ => true
  | t => t.startsExpression

/-- Tokens that never stand in an expression. -/
def isForeign : Token → Bool
  | endOfInput | symbol .equals | keyword .elseIf => true
  | _ => false

end Token

namespace Grammar

variable {α : Type}

/-- Items with commas between them, each with the lexemes that spell it. -/
inductive CommaSeparated : List (List Lexeme × α) → List Lexeme → Prop
  | none : CommaSeparated [] []
  | one (item : List Lexeme × α) : CommaSeparated [item] item.1
  | more {next : List Lexeme × α} {items : List (List Lexeme × α)} (item : List Lexeme × α)
      (line : Nat) : CommaSeparated (next :: items) q →
      CommaSeparated (item :: next :: items) (item.1 ++ ⟨.symbol .comma, line⟩ :: q)

/-- Any number of phrases with commas between them. -/
def Listed (D : List Lexeme → α → Prop) (p : List Lexeme) (as : List α) : Prop :=
  ∃ items : List (List Lexeme × α),
    CommaSeparated items p ∧ (∀ item ∈ items, D item.1 item.2) ∧ as = items.map Prod.snd

def Name (p : List Lexeme) (name : String) : Prop :=
  ∃ line, p = [⟨.identifier name, line⟩]

/-- What may stand between the parentheses of an input expression. -/
inductive InputArguments : List Lexeme → Option String → Option Kind → Prop
  | none : InputArguments [] none none
  | prompt (s : String) (line : Nat) : InputArguments [⟨.str s, line⟩] (some s) none
  | promptAndKind (s : String) (k : Kind) (l₁ l₂ l₃ : Nat) :
      InputArguments [⟨.str s, l₁⟩, ⟨.symbol .comma, l₂⟩, ⟨.kind k, l₃⟩] (some s) (some k)
  | kind (k : Kind) (line : Nat) : InputArguments [⟨.kind k, line⟩] none (some k)

/-- The sorts of expressions: a chain of operators of one level, an operand with any number of
minus signs before it, or an operand alone. -/
inductive Phrase where
  | chain (level : Level)
  | unary
  | primary
  deriving DecidableEq

namespace Phrase

abbrev expression : Phrase := chain .relational

/-- What stands between the operators of a chain. -/
def operand : Level → Phrase
  | .relational => chain .additive
  | .additive => chain .multiplicative
  | .multiplicative => unary

end Phrase

/-- The operators of each level, with their signs. -/
def operators : Level → List (Symbol × Operator)
  | .relational =>
      [(.less, .less), (.greater, .greater), (.lessEqual, .lessEqual),
        (.greaterEqual, .greaterEqual), (.equalEqual, .equal), (.bangEqual, .notEqual)]
  | .additive => [(.plus, .add), (.minus, .sub)]
  | .multiplicative => [(.star, .mul), (.slash, .div)]

/-- `Derives phrase p e`: the lexemes `p` spell the expression `e` as a phrase of this sort. -/
inductive Derives : Phrase → List Lexeme → Expr → Prop
  | first : Derives (.operand level) p e → Derives (.chain level) p e
  | link {sign : Symbol} {op : Operator} (line : Nat) :
      Derives (.chain level) p left → (sign, op) ∈ operators level →
      Derives (.operand level) q right →
      Derives (.chain level) (p ++ ⟨.symbol sign, line⟩ :: q) (.binary left op right line)
  | minus (line : Nat) : Derives .unary p e →
      Derives .unary (⟨.symbol .minus, line⟩ :: p)
        (.binary (.literal (.num 0) line) .sub e line)
  | plain : Derives .primary p e → Derives .unary p e
  | literal {t : Token} (line : Nat) : t.literal? = some v →
      Derives .primary [⟨t, line⟩] (.literal v line)
  | var (name : String) (line : Nat) :
      Derives .primary [⟨.identifier name, line⟩] (.var name line)
  | call {items : List (List Lexeme × Expr)} (name : String) (line l₁ l₂ : Nat) :
      CommaSeparated items p → (∀ item ∈ items, Derives .expression item.1 item.2) →
      Derives .primary
        (⟨.identifier name, line⟩ :: ⟨.symbol .leftParen, l₁⟩ :: (p ++ [⟨.symbol .rightParen, l₂⟩]))
        (.call name (items.map Prod.snd) line)
  | group (l₁ l₂ : Nat) : Derives .expression p e →
      Derives .primary (⟨.symbol .leftParen, l₁⟩ :: (p ++ [⟨.symbol .rightParen, l₂⟩])) e
  | input (line l₁ l₂ : Nat) : InputArguments p prompt kind →
      Derives .primary
        (⟨.keyword .input, line⟩ :: ⟨.symbol .leftParen, l₁⟩ :: (p ++ [⟨.symbol .rightParen, l₂⟩]))
        (.input prompt kind line)
  | length (line l₁ l₂ : Nat) : Derives .expression p e →
      Derives .primary
        (⟨.keyword .len, line⟩ :: ⟨.symbol .leftParen, l₁⟩ :: (p ++ [⟨.symbol .rightParen, l₂⟩]))
        (.length e line)

/-- Whether a statement, spelled by the first lexemes, may stand directly before the others. -/
abbrev Join := Statement → List Lexeme → List Lexeme → Prop

/-- Every statement may stand before everything. -/
def anyJoin : Join := fun _ _ _ => True

mutual

/-- `DerivesStatement join p s`: the lexemes `p` spell the statement `s`, with only such joins of
statements inside it as `join` allows. -/
inductive DerivesStatement (join : Join) : List Lexeme → Statement → Prop
  | function (name : String) (line l₁ l₂ l₃ : Nat) :
      Listed Name p params → DerivesBlock join b body →
      DerivesStatement join
        (⟨.keyword .func, line⟩ :: ⟨.identifier name, l₁⟩ :: ⟨.symbol .leftParen, l₂⟩ ::
          (p ++ ⟨.symbol .rightParen, l₃⟩ :: b))
        (.function name params body line)
  | ret (line : Nat) : Derives .expression p e →
      DerivesStatement join (⟨.keyword .ret, line⟩ :: p) (.ret e line)
  | print (line l₁ l₂ : Nat) : Derives .expression p e →
      DerivesStatement join
        (⟨.keyword .print, line⟩ :: ⟨.symbol .leftParen, l₁⟩ :: (p ++ [⟨.symbol .rightParen, l₂⟩]))
        (.print e line)
  | choose : DerivesChoice join line p c →
      DerivesStatement join (⟨.keyword .cond, line⟩ :: p) (.choose c)
  | loop (line l₁ l₂ l₃ l₄ : Nat) :
      DerivesStatement join p init → Derives .expression q condition →
      DerivesStatement join r update → DerivesBlock join b body →
      DerivesStatement join
        (⟨.keyword .loop, line⟩ :: ⟨.symbol .leftParen, l₁⟩ :: (p ++ ⟨.symbol .semicolon, l₂⟩ ::
          (q ++ ⟨.symbol .semicolon, l₃⟩ :: (r ++ ⟨.symbol .rightParen, l₄⟩ :: b))))
        (.loop init condition update body line)
  | declare (name : String) (k : Kind) (line l₁ : Nat) :
      DerivesStatement join [⟨.kind k, line⟩, ⟨.identifier name, l₁⟩] (.declare name k line)
  | assignTyped (name : String) (k : Kind) (line l₁ l₂ : Nat) :
      Derives .expression p e →
      DerivesStatement join
        (⟨.kind k, line⟩ :: ⟨.identifier name, l₁⟩ :: ⟨.symbol .equals, l₂⟩ :: p)
        (.assignTyped name k e line)
  | assign (name : String) (line l₁ : Nat) : Derives .expression p e →
      DerivesStatement join (⟨.identifier name, l₁⟩ :: ⟨.symbol .equals, line⟩ :: p)
        (.assign name e line)
  | expr {e : Expr} : Derives .expression p e → DerivesStatement join p (.expr e e.line)

inductive DerivesBlock (join : Join) : List Lexeme → List Statement → Prop
  | braces (l₁ l₂ : Nat) : DerivesSequence join p ss →
      DerivesBlock join (⟨.symbol .leftBrace, l₁⟩ :: (p ++ [⟨.symbol .rightBrace, l₂⟩])) ss

/-- Statements one after another, with semicolons anywhere between them. -/
inductive DerivesSequence (join : Join) : List Lexeme → List Statement → Prop
  | done : DerivesSequence join [] []
  | semicolon (line : Nat) : DerivesSequence join p ss →
      DerivesSequence join (⟨.symbol .semicolon, line⟩ :: p) ss
  | statement : DerivesStatement join p s →
      DerivesSequence join q ss → join s p q → DerivesSequence join (p ++ q) (s :: ss)

/-- A choice without its opening keyword, which stands on `line`. -/
inductive DerivesChoice (join : Join) : Nat → List Lexeme → Choice → Prop
  | mk (line : Nat) :
      Derives .expression p e → DerivesBlock join b body → DerivesTail join r o →
      DerivesChoice join line (p ++ (b ++ r)) (.mk e body o line)

/-- What follows the block of a choice. A further condition has two spellings. -/
inductive DerivesTail (join : Join) : List Lexeme → Otherwise → Prop
  | nothing : DerivesTail join [] .nothing
  | elseIf : DerivesChoice join line p c →
      DerivesTail join (⟨.keyword .elseIf, line⟩ :: p) (.elseIf c)
  | otherwiseIf (l₁ : Nat) : DerivesChoice join line p c →
      DerivesTail join (⟨.keyword .otherwise, l₁⟩ :: ⟨.keyword .cond, line⟩ :: p) (.elseIf c)
  | otherwise (l₁ : Nat) : DerivesBlock join b body →
      DerivesTail join (⟨.keyword .otherwise, l₁⟩ :: b) (.block body)

end

/-- `Program ts ss`: the lexemes `ts` spell the program `ss`. -/
def Program : List Lexeme → List Statement → Prop :=
  DerivesSequence anyJoin

/-! ### The signs of operators -/

theorem operator?_of_mem {level : Level} {sign : Symbol} {op : Operator}
    (h : (sign, op) ∈ operators level) :
    (Token.symbol sign).operator? = some op ∧ op.level = level := by
  have hlisted : ∀ entry ∈ operators level,
      (Token.symbol entry.1).operator? = some entry.2 ∧ entry.2.level = level := by
    cases level <;> decide
  exact hlisted _ h

theorem exists_sign {t : Token} {op : Operator} (h : t.operator? = some op) :
    ∃ sign, t = .symbol sign ∧ (sign, op) ∈ operators op.level := by
  cases t with
  | symbol sign =>
    refine ⟨sign, rfl, ?_⟩
    cases sign <;> cases h <;> decide
  | _ => cases h

/-! ### The lexemes of a phrase -/

variable {p q : List Lexeme}

theorem CommaSeparated.mem {items : List (List Lexeme × α)} (h : CommaSeparated items p)
    {l : Lexeme} (hl : l ∈ p) : l.token = .symbol .comma ∨ ∃ item ∈ items, l ∈ item.1 := by
  induction h with
  | none => cases hl
  | one item => exact .inr ⟨item, List.mem_singleton_self item, hl⟩
  | more item line _ ih =>
    rcases List.mem_append.1 hl with hl | hl
    · exact .inr ⟨item, List.mem_cons_self, hl⟩
    rcases List.mem_cons.1 hl with rfl | hl
    · exact .inl rfl
    obtain hcomma | ⟨other, hother, hl⟩ := ih hl
    · exact .inl hcomma
    · exact .inr ⟨other, List.mem_cons_of_mem item hother, hl⟩

theorem CommaSeparated.length_le {items : List (List Lexeme × α)} (h : CommaSeparated items p) :
    items.length ≤ p.length + 1 := by
  induction h with
  | none => exact Nat.zero_le _
  | one item => simp
  | more item line _ ih =>
    simp only [List.length_cons, List.length_append] at ih ⊢
    omega

theorem CommaSeparated.length_item_le {items : List (List Lexeme × α)}
    (h : CommaSeparated items p) {item : List Lexeme × α} (hitem : item ∈ items) :
    item.1.length ≤ p.length := by
  induction h with
  | none => cases hitem
  | one other =>
    cases List.mem_singleton.1 hitem
    exact Nat.le_refl _
  | more other line _ ih =>
    simp only [List.length_append, List.length_cons]
    rcases List.mem_cons.1 hitem with rfl | hitem
    · omega
    · have hle := ih hitem
      omega

theorem Listed.one {D : List Lexeme → α → Prop} {a : α} (h : D p a) : Listed D p [a] :=
  ⟨[(p, a)], .one (p, a), by simpa using h, rfl⟩

theorem Listed.cons {D : List Lexeme → α → Prop} {a : α} {as : List α} (line : Nat) (h : D p a)
    (has : as ≠ []) (hq : Listed D q as) :
    Listed D (p ++ ⟨.symbol .comma, line⟩ :: q) (a :: as) := by
  obtain ⟨items, hsep, hitems, rfl⟩ := hq
  cases items with
  | nil => exact absurd rfl has
  | cons next items =>
    refine ⟨(p, a) :: next :: items, .more (p, a) line hsep, ?_, rfl⟩
    exact List.forall_mem_cons.2 ⟨h, hitems⟩

theorem InputArguments.not_foreign {prompt : Option String} {kind : Option Kind}
    (h : InputArguments p prompt kind) : ∀ l ∈ p, l.token.isForeign = false := by
  cases h <;> simp [Token.isForeign]

/-- An expression is not empty, and its first lexeme shows that it is one. -/
theorem Derives.starts {phrase : Phrase} {e : Expr} (h : Derives phrase p e) :
    ∃ l q, p = l :: q ∧ l.token.startsExpression := by
  induction h with
  | first _ ih => exact ih
  | link line _ _ _ ih _ =>
    obtain ⟨l, q, rfl, hl⟩ := ih
    exact ⟨l, _, rfl, hl⟩
  | minus line _ _ => exact ⟨_, _, rfl, rfl⟩
  | plain _ ih => exact ih
  | @literal v t line hv =>
    refine ⟨_, _, rfl, ?_⟩
    cases t <;> first | rfl | cases hv
  | var | call | group | input | length => exact ⟨_, _, rfl, rfl⟩

theorem Derives.ne_nil {phrase : Phrase} {e : Expr} (h : Derives phrase p e) : p ≠ [] := by
  obtain ⟨l, q, rfl, -⟩ := h.starts
  exact List.cons_ne_nil l q

/-- No expression holds an equals sign, the keyword of a further choice or the end of the input. -/
theorem Derives.not_foreign {phrase : Phrase} {e : Expr} (h : Derives phrase p e) :
    ∀ l ∈ p, l.token.isForeign = false := by
  induction h with
  | first _ ih => exact ih
  | @link level p left q right sign op line _ hsign _ ihp ihq =>
    have ht : (Token.symbol sign).isForeign = false := by
      have hop := (operator?_of_mem hsign).1
      cases sign <;> first | rfl | cases hop
    intro l hl
    simp only [List.mem_append, List.mem_cons] at hl
    rcases hl with hl | rfl | hl
    · exact ihp l hl
    · exact ht
    · exact ihq l hl
  | minus line _ ih => simpa [Token.isForeign] using ih
  | plain _ ih => exact ih
  | @literal v t line hv =>
    have ht : t.isForeign = false := by cases t <;> first | rfl | cases hv
    simpa using ht
  | var name line => simp [Token.isForeign]
  | @call p items name line l₁ l₂ hp _ ih =>
    have hitems : ∀ l ∈ p, l.token.isForeign = false := by
      intro l hl
      obtain hcomma | ⟨item, hitem, hl⟩ := hp.mem hl
      · rw [hcomma]
        rfl
      · exact ih item hitem l hl
    simpa [or_imp, forall_and, Token.isForeign] using hitems
  | group l₁ l₂ _ ih => simpa [or_imp, forall_and, Token.isForeign] using ih
  | input line l₁ l₂ hp => simpa [or_imp, forall_and, Token.isForeign] using hp.not_foreign
  | length line l₁ l₂ _ ih => simpa [or_imp, forall_and, Token.isForeign] using ih

theorem DerivesStatement.starts {join : Join} {s : Statement} (h : DerivesStatement join p s) :
    ∃ l q, p = l :: q ∧ l.token.startsStatement := by
  cases h with
  | expr he =>
    obtain ⟨l, q, rfl, hl⟩ := he.starts
    refine ⟨l, q, rfl, ?_⟩
    unfold Token.startsStatement
    split <;> first | rfl | exact hl
  | _ => exact ⟨_, _, rfl, rfl⟩

theorem DerivesStatement.ne_nil {join : Join} {s : Statement} (h : DerivesStatement join p s) :
    p ≠ [] := by
  obtain ⟨l, q, rfl, -⟩ := h.starts
  exact List.cons_ne_nil l q

/-- The lexemes do not hold the end of the input. -/
def Unended (p : List Lexeme) : Prop :=
  ∀ l ∈ p, l.token ≠ .endOfInput

@[simp] theorem unended_nil : Unended [] :=
  fun _ hl => absurd hl List.not_mem_nil

@[simp] theorem unended_cons {l : Lexeme} :
    Unended (l :: p) ↔ l.token ≠ .endOfInput ∧ Unended p :=
  List.forall_mem_cons

@[simp] theorem unended_append : Unended (p ++ q) ↔ Unended p ∧ Unended q :=
  List.forall_mem_append

theorem Derives.unended {phrase : Phrase} {e : Expr} (h : Derives phrase p e) : Unended p := by
  intro l hl hend
  have hforeign := h.not_foreign l hl
  rw [hend] at hforeign
  cases hforeign

theorem token_of_names {params : List String} (h : Listed Name p params) {l : Lexeme}
    (hl : l ∈ p) : l.token = .symbol .comma ∨ ∃ name, l.token = .identifier name := by
  obtain ⟨items, hp, hitems, _⟩ := h
  obtain hcomma | ⟨item, hitem, hl⟩ := hp.mem hl
  · exact .inl hcomma
  · obtain ⟨line, hname⟩ := hitems item hitem
    rw [hname, List.mem_singleton] at hl
    subst hl
    exact .inr ⟨item.2, rfl⟩

theorem unended_of_names {params : List String} (h : Listed Name p params) : Unended p := by
  intro l hl hend
  obtain htoken | ⟨name, htoken⟩ := token_of_names h hl
  · rw [htoken] at hend
    cases hend
  · rw [htoken] at hend
    cases hend

mutual

theorem DerivesStatement.unended {join : Join} :
    ∀ {p : List Lexeme} {s : Statement}, DerivesStatement join p s → Unended p
  | _, _, .function _ _ _ _ _ hp hb => by simp [unended_of_names hp, hb.unended]
  | _, _, .ret _ he => by simp [he.unended]
  | _, _, .print _ _ _ he => by simp [he.unended]
  | _, _, .choose hc => by simp [hc.unended]
  | _, _, .loop _ _ _ _ _ hi he hu hb => by
    simp [hi.unended, he.unended, hu.unended, hb.unended]
  | _, _, .declare _ _ _ _ => by simp
  | _, _, .assignTyped _ _ _ _ _ he => by simp [he.unended]
  | _, _, .assign _ _ _ he => by simp [he.unended]
  | _, _, .expr he => he.unended

theorem DerivesBlock.unended {join : Join} :
    ∀ {p : List Lexeme} {ss : List Statement}, DerivesBlock join p ss → Unended p
  | _, _, .braces _ _ hp => by simp [hp.unended]

theorem DerivesSequence.unended {join : Join} :
    ∀ {p : List Lexeme} {ss : List Statement}, DerivesSequence join p ss → Unended p
  | _, _, .done => by simp
  | _, _, .semicolon _ hp => by simp [hp.unended]
  | _, _, .statement hp hq _ => by simp [hp.unended, hq.unended]

theorem DerivesChoice.unended {join : Join} :
    ∀ {line : Nat} {p : List Lexeme} {c : Choice}, DerivesChoice join line p c → Unended p
  | _, _, _, .mk _ he hb ho => by simp [he.unended, hb.unended, ho.unended]

theorem DerivesTail.unended {join : Join} :
    ∀ {p : List Lexeme} {o : Otherwise}, DerivesTail join p o → Unended p
  | _, _, .nothing => by simp
  | _, _, .elseIf hc => by simp [hc.unended]
  | _, _, .otherwiseIf _ hc => by simp [hc.unended]
  | _, _, .otherwise _ hb => by simp [hb.unended]

end

end Grammar

end Skript
