import Skript.Proofs.Lines
import Skript.Proofs.PrintedTokens
import Skript.Proofs.ScriptReading

/-!
# Printed programs are read back

The tokens of a printed program spell it by the rules of the grammar. Parentheses stand exactly
where an operand is not of the sort of phrase that its place asks for, and the semicolons keep every
statement from being carried on by the next.
-/
namespace Skript

open Grammar

/-- Tokens that stand on one line. -/
def onLine (line : Nat) (ts : List Token) : List Lexeme :=
  ts.map (Lexeme.mk · line)

@[simp] theorem onLine_nil (line : Nat) : onLine line [] = [] := rfl

@[simp] theorem onLine_cons (line : Nat) (t : Token) (ts : List Token) :
    onLine line (t :: ts) = ⟨t, line⟩ :: onLine line ts := rfl

@[simp] theorem onLine_append (line : Nat) (ts us : List Token) :
    onLine line (ts ++ us) = onLine line ts ++ onLine line us := List.map_append

/-! ### Expressions -/

/-- The rank of the operators of a level. -/
def Level.rank : Level → Nat
  | relational => 0
  | additive => 1
  | multiplicative => 2

theorem Operator.rank_level (op : Operator) : op.level.rank = op.rank := by
  cases op <;> rfl

/-- The tightest sort of phrase that a printed expression is. -/
def Expr.phrase : Expr → Phrase
  | binary _ op _ _ => .chain op.level
  | _ => .primary

namespace Grammar

variable {p : List Lexeme} {e tree : Expr} {level other : Level} {op : Operator}

/-- A chain of some level is also one of every weaker level. -/
theorem Derives.weaken (h : Derives (.chain other) p tree) (hle : level.rank ≤ other.rank) :
    Derives (.chain level) p tree := by
  have hsum : Derives (.chain .multiplicative) p tree → Derives (.chain .additive) p tree :=
    fun h => .first h
  have hrelation : Derives (.chain .additive) p tree → Derives (.chain .relational) p tree :=
    fun h => .first h
  cases other with
  | relational =>
    cases level with
    | relational => exact h
    | additive | multiplicative => exact absurd hle (by decide)
  | additive =>
    cases level with
    | relational => exact hrelation h
    | additive => exact h
    | multiplicative => exact absurd hle (by decide)
  | multiplicative =>
    cases level with
    | relational => exact hrelation (hsum h)
    | additive => exact hsum h
    | multiplicative => exact h

theorem Derives.operand_of_tighter (h : Derives (.chain other) p tree)
    (hlt : level.rank < other.rank) : Derives (.operand level) p tree := by
  have hweaken : ∀ next : Level, next.rank ≤ other.rank → Derives (.chain next) p tree :=
    fun next hle => h.weaken hle
  cases level with
  | relational => exact hweaken .additive hlt
  | additive => exact hweaken .multiplicative hlt
  | multiplicative => cases other <;> exact absurd hlt (by decide)

/-- An operand alone may stand in any place. -/
theorem Derives.operand_of_primary (h : Derives .primary p tree) : Derives (.operand level) p tree :=
  h.plain.operand_of_unary level

theorem Derives.operand_of_phrase (h : Derives e.phrase p tree)
    (hrank : e.isNoTighter op = false) : Derives (.operand op.level) p tree := by
  cases e with
  | binary left inner right line =>
    have hlt : op.rank < inner.rank := Nat.lt_of_not_le (of_decide_eq_false hrank)
    rw [← op.rank_level, ← inner.rank_level] at hlt
    exact h.operand_of_tighter hlt
  | _ => exact h.operand_of_primary

theorem Derives.chain_of_phrase (h : Derives e.phrase p tree) (hrank : e.isWeaker op = false) :
    Derives (.chain op.level) p tree := by
  cases e with
  | binary left inner right line =>
    have hle : op.rank ≤ inner.rank := Nat.le_of_not_lt (of_decide_eq_false hrank)
    rw [← op.rank_level, ← inner.rank_level] at hle
    exact h.weaken hle
  | _ => exact h.operand_of_primary.first

theorem Derives.expression_of_phrase (h : Derives e.phrase p tree) :
    Derives .expression p tree := by
  have hless : e.isWeaker .less = false := by cases e <;> rfl
  exact h.chain_of_phrase hless

end Grammar

variable {line : Nat}

section

variable {e tree : Expr} {ts : List Token}

theorem derives_group (h : Derives e.phrase (onLine line ts) tree) :
    Derives .primary (onLine line (Token.grouped true ts)) tree := by
  rw [Token.grouped, if_pos rfl, onLine_cons, onLine_append]
  exact h.expression_of_phrase.group line line

/-- A left operand, with parentheses if it binds weaker. -/
theorem derives_left (h : Derives e.phrase (onLine line ts) tree) (op : Operator) :
    Derives (.chain op.level) (onLine line (Token.grouped (e.isWeaker op) ts)) tree := by
  cases hrank : e.isWeaker op with
  | true => exact (derives_group h).operand_of_primary.first
  | false => exact h.chain_of_phrase hrank

/-- A right operand, with parentheses if it binds no tighter. -/
theorem derives_right (h : Derives e.phrase (onLine line ts) tree) (op : Operator) :
    Derives (.operand op.level) (onLine line (Token.grouped (e.isNoTighter op) ts)) tree := by
  cases hrank : e.isNoTighter op with
  | true => exact (derives_group h).operand_of_primary
  | false => exact h.operand_of_phrase hrank

end

theorem Operator.mem_operators (op : Operator) : (op.symbol, op) ∈ operators op.level := by
  cases op <;> decide

theorem Literal.literal?_token {v : Literal} (h : v.isPrintable) : v.token.literal? = some v := by
  cases v with
  | dec => cases h
  | str s =>
    refine congrArg some ?_
    unfold ofText
    split
    · next c hc => simp [isPrintable, hc] at h
    · rfl
  | chr c => simp [token, Token.literal?, ofText]
  | num | bool => rfl

theorem commaSeparated_onLine {α : Type} (items : List (List Token × α)) :
    CommaSeparated (items.map fun item => (onLine line item.1, item.2))
      (onLine line (Token.commaSeparated (items.map Prod.fst))) := by
  induction items with
  | nil => exact .none
  | cons item items ih =>
    cases items with
    | nil =>
      simpa [Token.commaSeparated] using CommaSeparated.one (onLine line item.1, item.2)
    | cons next items =>
      simpa [Token.commaSeparated, List.intercalate_cons_cons] using
        CommaSeparated.more (onLine line item.1, item.2) line ih

theorem inputArguments_onLine (prompt : Option String) (kind : Option Kind) :
    InputArguments (onLine line (Expr.inputTokens prompt kind)) prompt kind := by
  cases prompt with
  | none =>
    cases kind with
    | none => exact .none
    | some k => exact .kind k line
  | some s =>
    cases kind with
    | none => exact .prompt s line
    | some k => exact .promptAndKind s k line line line

theorem Expr.tokensOfEach_eq (es : List Expr) : tokensOfEach es = es.map tokens := by
  induction es with
  | nil => rfl
  | cons e es ih => rw [tokensOfEach, ih, List.map_cons]

theorem derives_call (name : String) {arguments : List Expr}
    (h : ∀ e ∈ arguments,
      Derives .expression (onLine line e.tokens) (e.mapLine fun _ => line)) (l : Nat) :
    Derives .primary (onLine line (Expr.call name arguments l).tokens)
      ((Expr.call name arguments l).mapLine fun _ => line) := by
  have hsep : CommaSeparated _ (onLine line _) :=
    commaSeparated_onLine (arguments.map fun e => (e.tokens, e.mapLine fun _ => line))
  have hcall := Derives.call name line line line hsep (by simpa using h)
  simpa [Expr.tokens, Expr.tokensOfEach_eq, Expr.mapLine, Expr.mapLines_eq, Function.comp_def]
    using hcall

mutual

theorem derives_tokens : ∀ (e : Expr), e.isPrintable →
    Derives e.phrase (onLine line e.tokens) (e.mapLine fun _ => line)
  | .literal v _, h => .literal line (Literal.literal?_token h)
  | .var name _, _ => .var name line
  | .binary left op right _, h => by
    obtain ⟨hleft, hright⟩ := Bool.and_eq_true_iff.1 h
    rw [Expr.tokens, onLine_append]
    -- The chain of an operator takes chains of its own level on the left, but not on the right.
    exact (derives_left (derives_tokens left hleft) op).link line op.mem_operators
      (derives_right (derives_tokens right hright) op)
  | .call name arguments l, h =>
    derives_call name (derives_each arguments (Bool.and_eq_true_iff.1 h).2) l
  | .input prompt kind _, _ => by
    simpa [Expr.tokens, Expr.phrase, Expr.mapLine] using
      Derives.input line line line (inputArguments_onLine prompt kind)
  | .length operand _, h => by
    simpa [Expr.tokens, Expr.phrase, Expr.mapLine] using
      (derives_tokens operand h).expression_of_phrase.length line line line

theorem derives_each : ∀ (es : List Expr), Expr.arePrintable es → ∀ e ∈ es,
    Derives .expression (onLine line e.tokens) (e.mapLine fun _ => line)
  | [], _ => by simp
  | e :: es, h => List.forall_mem_cons.2
    ⟨(derives_tokens e (Bool.and_eq_true_iff.1 h).1).expression_of_phrase,
      derives_each es (Bool.and_eq_true_iff.1 h).2⟩

end

/-! ### Statements -/

theorem listed_params (params : List String) : Listed Name
    (onLine line (Token.commaSeparated (params.map fun param => [.identifier param]))) params := by
  have hsep : CommaSeparated _ (onLine line _) :=
    commaSeparated_onLine (params.map fun param => ([.identifier param], param))
  refine ⟨_, by simpa [Function.comp_def] using hsep, ?_, by simp [Function.comp_def]⟩
  intro item hitem
  obtain ⟨param, -, rfl⟩ := List.mem_map.1 hitem
  exact ⟨line, rfl⟩

theorem derivesBlock_braced {ts : List Token} {ss : List Statement}
    (h : DerivesSequence greedyJoin (onLine line ts) ss) :
    DerivesBlock greedyJoin (onLine line (Token.braced ts)) ss := by
  rw [Token.braced, onLine_cons, onLine_append]
  exact .braces line line h

variable (style : Style)

mutual

theorem derivesStatement_tokens : ∀ (s : Statement), s.isPrintable →
    DerivesStatement greedyJoin (onLine line (s.tokens style)) (s.mapLine fun _ => line)
  | .function name params body _, h => by
    have hbody := derivesBlock_braced (derivesSequence_tokens body (Bool.and_eq_true_iff.1 h).2)
    simpa [Statement.tokens, Statement.mapLine] using
      DerivesStatement.function name line line line line (listed_params params) hbody
  | .ret value _, h => .ret line (derives_tokens value h).expression_of_phrase
  | .print operand _, h => by
    simpa [Statement.tokens, Statement.mapLine] using @DerivesStatement.print greedyJoin _ _
      line line line (derives_tokens operand h).expression_of_phrase
  | .choose choice, h => .choose (derivesChoice_tokens choice h)
  | .loop init condition update body _, h => by
    simp only [Statement.isPrintable, Bool.and_eq_true] at h
    obtain ⟨⟨⟨hinit, hcondition⟩, hupdate⟩, hbody⟩ := h
    simpa [Statement.tokens, Statement.mapLine] using
      DerivesStatement.loop line line line line line (derivesStatement_tokens init hinit)
        (derives_tokens condition hcondition).expression_of_phrase
        (derivesStatement_tokens update hupdate) (derivesBlock_braced (derivesSequence_tokens body hbody))
  | .declare name kind _, _ => .declare name kind line line
  | .assignTyped name kind value _, h => .assignTyped name kind line line line
    (derives_tokens value (Bool.and_eq_true_iff.1 h).2).expression_of_phrase
  | .assign name value _, h => .assign name line line
    (derives_tokens value (Bool.and_eq_true_iff.1 h).2).expression_of_phrase
  | .expr operand _, h => by
    simpa [Statement.tokens, Statement.mapLine] using @DerivesStatement.expr greedyJoin _ _
      (derives_tokens operand h).expression_of_phrase

theorem derivesSequence_tokens : ∀ (ss : List Statement), Statement.arePrintable ss →
    DerivesSequence greedyJoin (onLine line (Statement.tokensOfAll style ss))
      (Statement.mapLines (fun _ => line) ss)
  | [], _ => .done
  | s :: ss, h => by
    obtain ⟨hs, hss⟩ := Bool.and_eq_true_iff.1 h
    rw [Statement.tokensOfAll, onLine_append]
    exact .statement (derivesStatement_tokens s hs)
      (.semicolon line (derivesSequence_tokens ss hss)) fun _ => stops_of_closes rfl

theorem derivesChoice_tokens : ∀ (c : Choice), c.isPrintable →
    DerivesChoice greedyJoin line (onLine line (c.tokens style)) (c.mapLine fun _ => line)
  | .mk condition body otherwise _, h => by
    simp only [Choice.isPrintable, Bool.and_eq_true] at h
    obtain ⟨⟨hcondition, hbody⟩, hotherwise⟩ := h
    simpa [Choice.tokens, Choice.mapLine] using
      DerivesChoice.mk line (derives_tokens condition hcondition).expression_of_phrase
        (derivesBlock_braced (derivesSequence_tokens body hbody)) (derivesTail_tokens otherwise hotherwise)

theorem derivesTail_tokens : ∀ (o : Otherwise), o.isPrintable →
    DerivesTail greedyJoin (onLine line (o.tokens style)) (o.mapLine fun _ => line)
  | .nothing, _ => .nothing
  | .block body, h => .otherwise line (derivesBlock_braced (derivesSequence_tokens body h))
  | .elseIf choice, h => by
    rw [Otherwise.tokens]
    cases style.joins with
    | true => exact .elseIf (derivesChoice_tokens choice h)
    | false => exact .otherwiseIf line (derivesChoice_tokens choice h)

end

/-- The text of a program is read as the program, with all of it on the first line: for every style,
and for every program whose names are words that are not reserved, whose integers are not negative,
which has no decimals and no text literals of one character. -/
theorem printed_programs_are_read_back (style : Style) (ss : List Statement)
    (h : Statement.arePrintable ss) :
    Script.read (Script.print style ss) = .ok (ss.map (Statement.mapLine fun _ => 1)) := by
  obtain ⟨taken, hscans, hplaced⟩ := scans_spaced style (writable_statements style ss h) []
  refine Script.read_eq_ok_iff.2 ⟨taken, ?_, ?_⟩
  · rwa [Script.print, String.toList_ofList]
  · rw [hplaced, ← Statement.mapLines_eq]
    exact derivesSequence_tokens style ss h

/-- Differences, one in parentheses and one not, quotes within quotes, and a choice that goes on. -/
theorem printed_choice_is_read_back :
    let style : Style := ⟨'\'', .inr rfl, "else", .inr rfl, false⟩
    let a := Expr.var "a" 2
    let difference := Expr.binary (.binary a .sub (.literal (.chr '\'') 3) 4) .sub
      (.binary a .sub (.literal (.num 1) 5) 6) 7
    let program : List Statement :=
      [.choose (.mk (.binary difference .less (.length a 8) 9) [.print a 10]
        (.elseIf (.mk (.call "f" [a, .input (some "\n") none 11] 12) []
          (.block [.assign "a" (.literal (.str "") 13) 13]) 14)) 15)]
    Statement.arePrintable program ∧
    Script.print style program =
      "if a - '\\'' - ( a - 1 ) < len ( a ) \x7b drucken ( a ) ; \x7d " ++
      "else if f ( a , eingabe ( '\\n' ) ) \x7b \x7d else \x7b a = '' ; \x7d ;" ∧
    Script.read (Script.print style program) =
      .ok (program.map (Statement.mapLine fun _ => 1)) := by
  dsimp only
  refine ⟨by decide, by decide, printed_programs_are_read_back _ _ (by decide)⟩

end Skript
