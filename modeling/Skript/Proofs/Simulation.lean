import Skript.Proofs.Matching

/-!
# Two programs side by side

Two programs of the same form are run next to each other. Which of their parts belong together is
left open, and so is how their machines are compared. It is enough that parts which belong together
have the same form, with parts that belong together again, and that every single effect of the one
program is matched by that of the other. Loops, blocks, choices and the passing on of faults are
dealt with here once and for all.
-/
namespace Skript

/-- Which parts of two programs belong together. -/
structure Pairing where
  literals : Literal → Literal → Prop
  lines : Nat → Nat → Prop
  /-- The variables that may be looked up. -/
  names : String → Prop
  exprs : Expr → Expr → Prop
  definitions : Definition → Definition → Prop
  statements : Statement → Statement → Prop

/-- The expressions have the same form, and their parts belong together. -/
inductive Expr.SameForm (P : Pairing) : Expr → Expr → Prop
  | literal (values : P.literals v v') : SameForm P (.literal v i) (.literal v' j)
  | var (bound : P.names name) (lines : P.lines i j) :
      SameForm P (.var name i) (.var name j)
  | binary (left : P.exprs l l') (right : P.exprs r r') (lines : P.lines i j) :
      SameForm P (.binary l op r i) (.binary l' op r' j)
  | call (arguments : List.Forall₂ P.exprs as as') (lines : P.lines i j) :
      SameForm P (.call name as i) (.call name as' j)
  | input (lines : P.lines i j) :
      SameForm P (.input prompt kind i) (.input prompt kind j)
  | length (operand : P.exprs e e') (lines : P.lines i j) :
      SameForm P (.length e i) (.length e' j)

/-- An expression has its own form if whatever stands in it belongs to itself. -/
theorem Expr.sameForm_self {P : Pairing} (literals : ∀ v, P.literals v v)
    (lines : ∀ line, P.lines line line) (names : ∀ name, P.names name)
    (exprs : ∀ e, P.exprs e e) (e : Expr) : Expr.SameForm P e e := by
  cases e with
  | literal value line => exact .literal (literals value)
  | var name line => exact .var (names name) (lines line)
  | binary left op right line => exact .binary (exprs left) (exprs right) (lines line)
  | call name arguments line => exact .call (List.forall₂_same.2 fun e _ => exprs e) (lines line)
  | input prompt kind line => exact .input (lines line)
  | length operand line => exact .length (exprs operand) (lines line)

/-- The same for what a choice does otherwise. -/
inductive Otherwise.SameForm (P : Pairing) : Otherwise → Otherwise → Prop
  | nothing : SameForm P .nothing .nothing
  | block (body : List.Forall₂ P.statements ss ss') : SameForm P (.block ss) (.block ss')
  | elseIf (choice : P.statements (.choose c) (.choose c')) : SameForm P (.elseIf c) (.elseIf c')

/-- The same for statements. The line of an expression that stands alone does not matter. -/
inductive Statement.SameForm (P : Pairing) : Statement → Statement → Prop
  | function (definition : P.definitions ⟨name, params, body, i⟩ ⟨name', params', body', j⟩) :
      SameForm P (.function name params body i) (.function name' params' body' j)
  | ret (value : P.exprs e e') (lines : P.lines i j) :
      SameForm P (.ret e i) (.ret e' j)
  | print (operand : P.exprs e e') (lines : P.lines i j) :
      SameForm P (.print e i) (.print e' j)
  | choose (condition : P.exprs e e') (body : List.Forall₂ P.statements ss ss')
      (otherwise : Otherwise.SameForm P o o') (lines : P.lines i j) :
      SameForm P (.choose (.mk e ss o i)) (.choose (.mk e' ss' o' j))
  | loop (init : P.statements s s') (condition : P.exprs e e') (update : P.statements u u')
      (body : List.Forall₂ P.statements ss ss') (lines : P.lines i j) :
      SameForm P (.loop s e u ss i) (.loop s' e' u' ss' j)
  | declare : SameForm P (.declare name kind i) (.declare name kind j)
  | assignTyped (value : P.exprs e e') (lines : P.lines i j) :
      SameForm P (.assignTyped name kind e i) (.assignTyped name kind e' j)
  | assign (value : P.exprs e e') (lines : P.lines i j) :
      SameForm P (.assign name e i) (.assign name e' j)
  | expr (operand : P.exprs e e') : SameForm P (.expr e i) (.expr e' j)

namespace Exec

/-- What expressions do is matched, where values that belong together are related by `V`. The
callers are compared by `C`, the bodies of the functions they call by `D`. -/
structure ExprLaws (P : Pairing) (V : Value → Value → Prop) (C D : Comparison)
    (limit limit' : Option Nat) : Prop where
  exprForm : ∀ {e e'}, P.exprs e e' → Expr.SameForm P e e'
  literal : ∀ {a b}, P.literals a b → V a.toValue b.toValue
  missing : ∀ {line line'}, P.lines line line' →
    C.faults ⟨.missingValue, line⟩ ⟨.missingValue, line'⟩
  lookup : ∀ {name line line'}, P.names name → P.lines line line' →
    Matches C V (lookup name line) (lookup name line')
  binary : ∀ {op l l' r r' line line'}, V l l' → V r r' → P.lines line line' →
    Matches C V (ofExcept line (Value.binary op l r)) (ofExcept line' (Value.binary op l' r'))
  input : ∀ {prompt kind line line'}, P.lines line line' →
    Matches C V (input prompt kind line) (input prompt kind line')
  length : ∀ {v v' line line'}, V v v' → P.lines line line' →
    Matches C V (ofExcept line v.length) (ofExcept line' v'.length)
  call : ∀ {run run' name args args' line line'},
    (∀ s s', P.statements s s' → Matches D (Option.Rel V) (run s) (run' s')) →
    List.Forall₂ V args args' → P.lines line line' →
    Matches C (Option.Rel V) (call limit run name args line) (call limit' run' name args' line')

/-- What statements do is matched as well. -/
structure StatementLaws (P : Pairing) (V : Value → Value → Prop) (C : Comparison)
    (limit limit' : Option Nat) : Prop extends ExprLaws P V C C limit limit' where
  statementForm : ∀ {s s'}, P.statements s s' → Statement.SameForm P s s'
  truthy : ∀ {v v'}, V v v' → v.isTruthy = v'.isTruthy
  print : ∀ {v v' line line'}, V v v' → P.lines line line' →
    Matches C Eq (print v line) (print v' line')
  declare : ∀ {name kind}, Matches C Eq (declare name kind) (declare name kind)
  assignTyped : ∀ {name kind v v' line line'}, V v v' → P.lines line line' →
    Matches C V (assignTyped name kind v line) (assignTyped name kind v' line')
  assign : ∀ {name v v' line line'}, V v v' → P.lines line line' →
    Matches C V (assign name v line) (assign name v' line')
  define : ∀ {d d'}, P.definitions d d' → Matches C Eq (define d) (define d')

variable {P : Pairing} {V : Value → Value → Prop} {C D : Comparison} {limit limit' : Option Nat}

/-- Expressions that belong together match if the statements of the functions they call do. The
second run may have a larger bound, if running out of it is excused. -/
theorem ExprLaws.matches_evaluate (laws : ExprLaws P V C D limit limit') {n : Nat}
    (hs : ∀ i < n, ∀ j, i = j ∨ i ≤ j ∧ C.excused none →
      ∀ s s', P.statements s s' →
        Matches D (Option.Rel V) (execute limit i s) (execute limit' j s'))
    {k : Nat} (hn : n = k ∨ n ≤ k ∧ C.excused none) {e e' : Expr} (he : P.exprs e e') :
    Matches C (Option.Rel V) (evaluate limit n e) (evaluate limit' k e') := by
  induction n generalizing k e e' with
  | zero =>
    rw [evaluate]
    exact Matches.outOfFuel (hn.imp (fun h => by rw [← h, evaluate]) And.right)
  | succ n ih =>
    obtain ⟨k, rfl⟩ : ∃ j, k = j + 1 := Nat.exists_eq_add_one.mpr (by omega)
    have hn' : n = k ∨ n ≤ k ∧ C.excused none := hn.imp (by omega) (And.imp_left (by omega))
    have hv : ∀ {line line' e e'}, P.exprs e e' → P.lines line line' →
        Matches C V (required line (evaluate limit n e)) (required line' (evaluate limit' k e')) :=
      fun he hline => Matches.required (ih (fun i hi => hs i (Nat.lt_succ_of_lt hi)) hn' he)
        (laws.missing hline)
    have hsome : ∀ v v', V v v' → Option.Rel V (some v) (some v') := fun _ _ h => .some h
    cases laws.exprForm he with
    | literal values =>
      rw [evaluate, evaluate]
      exact Matches.pure (.some (laws.literal values))
    | var bound lines =>
      rw [evaluate, evaluate]
      exact Matches.map (laws.lookup bound lines) hsome
    | binary left right lines =>
      rw [evaluate, evaluate]
      refine Matches.bind (hv left lines) fun l l' hl => ?_
      refine Matches.bind (hv right lines) fun r r' hr => ?_
      exact Matches.map (laws.binary hl hr lines) hsome
    | call arguments lines =>
      rw [evaluate, evaluate]
      have hargs := Matches.collect (fun a a' ha => hv ha lines) arguments
      refine Matches.bind hargs fun args args' hargs => ?_
      exact laws.call (hs n (Nat.lt_succ_self n) k hn') hargs lines
    | input lines =>
      rw [evaluate, evaluate]
      exact Matches.map (laws.input lines) hsome
    | length operand lines =>
      rw [evaluate, evaluate]
      refine Matches.bind (hv operand lines) fun v v' hvv => ?_
      exact Matches.map (laws.length hvv lines) hsome

/-- Statements that belong together match. The induction is on the bound, not on the syntax, since
the bodies of functions come from the machine. -/
theorem StatementLaws.matches_execute (laws : StatementLaws P V C limit limit') {n k : Nat}
    (hn : n = k ∨ n ≤ k ∧ C.excused none) {s s' : Statement} (hs : P.statements s s') :
    Matches C (Option.Rel V) (execute limit n s) (execute limit' k s') := by
  induction n using Nat.strongRecOn generalizing k s s' with
  | ind n ih =>
  cases n with
  | zero =>
    rw [execute]
    exact Matches.outOfFuel (hn.imp (fun h => by rw [← h, execute]) And.right)
  | succ n =>
    obtain ⟨k, rfl⟩ : ∃ j, k = j + 1 := Nat.exists_eq_add_one.mpr (by omega)
    have hn' : n = k ∨ n ≤ k ∧ C.excused none := hn.imp (by omega) (And.imp_left (by omega))
    have hstatement : ∀ {s s'}, P.statements s s' →
        Matches C (Option.Rel V) (execute limit n s) (execute limit' k s') :=
      ih n (Nat.lt_succ_self n) hn'
    have hexpr : ∀ {e e'}, P.exprs e e' →
        Matches C (Option.Rel V) (evaluate limit n e) (evaluate limit' k e') :=
      laws.toExprLaws.matches_evaluate
        (fun i hi j hij s s' h => ih i (Nat.lt_succ_of_lt hi) hij h) hn'
    have hv : ∀ {line line' e e'}, P.exprs e e' → P.lines line line' →
        Matches C V (required line (evaluate limit n e)) (required line' (evaluate limit' k e')) :=
      fun he hline => Matches.required (hexpr he) (laws.missing hline)
    have hblock : ∀ {ss ss'}, List.Forall₂ P.statements ss ss' →
        Matches C (Option.Rel V) (lastOf (execute limit n) none ss)
          (lastOf (execute limit' k) none ss') :=
      fun h => Matches.lastOf (fun _ _ hs => hstatement hs) h .none
    have hsome : ∀ v v', V v v' → Option.Rel V (some v) (some v') := fun _ _ h => .some h
    cases laws.statementForm hs with
    | function definition =>
      rw [execute, execute]
      exact Matches.bind (laws.define definition) fun _ _ _ => Matches.pure .none
    | ret value lines =>
      rw [execute, execute]
      exact Matches.map (hv value lines) hsome
    | print operand lines =>
      rw [execute, execute]
      refine Matches.bind (hv operand lines) fun v v' hvv => ?_
      exact Matches.bind (laws.print hvv lines) fun _ _ _ => Matches.pure (.some hvv)
    | choose condition body otherwise lines =>
      rw [execute_choose, execute_choose]
      refine Matches.bind (hv condition lines) fun v v' hvv => ?_
      rw [laws.truthy hvv]
      split
      · exact hblock body
      · cases otherwise with
        | nothing => exact Matches.pure .none
        | block body => exact hblock body
        | elseIf choice => exact hstatement choice
    | loop init condition update body lines =>
      rw [execute, execute]
      refine Matches.bind (hstatement init) fun _ _ _ => ?_
      have hround := Matches.bind (hblock body) fun _ _ _ =>
        Matches.bind (W := Eq) (hstatement update) fun _ _ _ => Matches.pure (a := ()) (b := ()) rfl
      have hcondition := Matches.map (W := Eq) (hv condition lines) fun _ _ h => laws.truthy h
      exact Matches.bind (Matches.repeatWhile hcondition hround hn') fun _ _ _ => Matches.pure .none
    | declare =>
      rw [execute, execute]
      exact Matches.bind laws.declare fun _ _ _ => Matches.pure .none
    | assignTyped value lines =>
      rw [execute, execute]
      refine Matches.bind (hv value lines) fun v v' hvv => ?_
      exact Matches.map (laws.assignTyped hvv lines) hsome
    | assign value lines =>
      rw [execute, execute]
      refine Matches.bind (hv value lines) fun v v' hvv => ?_
      exact Matches.map (laws.assign hvv lines) hsome
    | expr operand =>
      rw [execute, execute]
      exact hexpr operand

theorem StatementLaws.matches_executeAll (laws : StatementLaws P V C limit limit') {n k : Nat}
    (hn : n = k ∨ n ≤ k ∧ C.excused none) {ss ss' : List Statement}
    (hss : List.Forall₂ P.statements ss ss') :
    Matches C (Option.Rel V) (executeAll limit n ss) (executeAll limit' k ss') :=
  Matches.lastOf (fun _ _ hs => laws.matches_execute hn hs) hss .none

end Exec

end Skript
