import Skript.Proofs.Resemblance

/-!
# One program on two machines

The same program is run on two machines that differ in ways it cannot tell: their tables of
functions give the same answers, and their environments agree on the variables that the program
names. The second run may also be allowed more depth than the first.
-/
namespace Skript

mutual

/-- The variables that an expression names itself, in the functions it calls not included. -/
def Expr.variables : Expr → List String
  | .literal _ _ => []
  | .var name _ => [name]
  | .binary left _ right _ => left.variables ++ right.variables
  | .call _ arguments _ => Expr.variablesOfAll arguments
  | .input _ _ _ => []
  | .length operand _ => operand.variables

def Expr.variablesOfAll : List Expr → List String
  | [] => []
  | e :: es => e.variables ++ Expr.variablesOfAll es

end

theorem Expr.mem_variablesOfAll {e : Expr} {es : List Expr} (he : e ∈ es) {name : String}
    (hn : name ∈ e.variables) : name ∈ Expr.variablesOfAll es := by
  induction es with
  | nil => cases he
  | cons d ds ih =>
    rw [Expr.variablesOfAll, List.mem_append]
    obtain rfl | he := List.mem_cons.mp he
    · exact .inl hn
    · exact .inr (ih he)

/-- Tables that give the same answers, now and after the same definition was entered in both. -/
structure TableRelation (T : FunctionTable → FunctionTable → Prop) : Prop where
  lookup : ∀ {a b}, T a b → ∀ name : String, a[name]? = b[name]?
  insert : ∀ {a b}, T a b → ∀ d : Definition, T (a.insert d.name d) (b.insert d.name d)

/-- Tables with the same functions under the same names. -/
def FunctionTable.Same (a b : FunctionTable) : Prop :=
  ∀ name : String, a[name]? = b[name]?

theorem tableRelation_eq : TableRelation Eq where
  lookup h name := by rw [h]
  insert h d := by rw [h]

theorem tableRelation_same : TableRelation FunctionTable.Same where
  lookup h := h
  insert h d name := by
    rw [Std.TreeMap.getElem?_insert, Std.TreeMap.getElem?_insert, h name]

/-- The comparison of runs on machines that are alike. If the first may be `late`, it may run out of
its bound where the second does not. -/
def alike (T : FunctionTable → FunctionTable → Prop) (E : Environment → Environment → Prop)
    (late : Prop) : Comparison where
  machines := Machine.Alike T E
  faults := Eq
  excused fault := fault = none ∧ late

/-- Every part of a program belongs to itself. Of the variables only those in `names` may be looked
up. -/
def Pairing.same (names : String → Prop) : Pairing where
  literals := Eq
  lines := Eq
  names := names
  exprs e e' := e = e' ∧ ∀ name ∈ e.variables, names name
  definitions := Eq
  statements := Eq

namespace Pairing

theorem same_exprForm {names : String → Prop} {e e' : Expr} (h : (same names).exprs e e') :
    Expr.SameForm (same names) e e' := by
  obtain ⟨rfl, hnames⟩ := h
  cases e with
  | literal value line => exact .literal rfl
  | var name line => exact .var (hnames name (by simp [Expr.variables])) rfl
  | binary left op right line =>
    refine .binary ⟨rfl, fun name hn => ?_⟩ ⟨rfl, fun name hn => ?_⟩ rfl
    · exact hnames name (by simp [Expr.variables, hn])
    · exact hnames name (by simp [Expr.variables, hn])
  | call name arguments line =>
    refine .call (List.forall₂_same.mpr fun a ha => ⟨rfl, fun x hx => hnames x ?_⟩) rfl
    rw [Expr.variables]
    exact Expr.mem_variablesOfAll ha hx
  | input prompt kind line => exact .input rfl
  | length operand line =>
    exact .length ⟨rfl, fun name hn => hnames name (by simpa [Expr.variables] using hn)⟩ rfl

/-- All variables may be looked up. -/
abbrev whole : Pairing := same fun _ => True

theorem whole_exprs (e : Expr) : whole.exprs e e := ⟨rfl, fun _ _ => trivial⟩

theorem whole_statements (ss : List Statement) : List.Forall₂ whole.statements ss ss :=
  List.forall₂_same.mpr fun _ _ => rfl

theorem whole_statementForm {s s' : Statement} (h : whole.statements s s') :
    Statement.SameForm whole s s' := by
  obtain rfl : s = s' := h
  cases s with
  | function name params body line => exact .function rfl
  | ret value line => exact .ret (whole_exprs value) rfl
  | print operand line => exact .print (whole_exprs operand) rfl
  | choose choice =>
    obtain ⟨condition, body, otherwise, line⟩ := choice
    refine .choose (whole_exprs condition) (whole_statements body) ?_ rfl
    cases otherwise with
    | nothing => exact .nothing
    | block body => exact .block (whole_statements body)
    | elseIf choice => exact .elseIf rfl
  | loop init condition update body line =>
    exact .loop rfl (whole_exprs condition) rfl (whole_statements body) rfl
  | declare name kind line => exact .declare
  | assignTyped name kind value line => exact .assignTyped (whole_exprs value) rfl
  | assign name value line => exact .assign (whole_exprs value) rfl
  | expr operand line => exact .expr (whole_exprs operand)

end Pairing

/-- A program resembles itself where tables answer alike, if calls are refused alike or excused. -/
theorem TableRelation.lawful {T : FunctionTable → FunctionTable → Prop} (hT : TableRelation T)
    (names : String → Prop) {excused : Option RunFault → Prop} {limit limit' : Option Nat}
    (hdepth : ∀ E line depth, Exec.Matches ((Resemblance.exact Eq T excused).comparison E) Eq
      (Exec.ofExcept line (Exec.checkDepth limit depth))
      (Exec.ofExcept line (Exec.checkDepth limit' depth))) :
    (Resemblance.exact Eq T excused).Lawful (.same names) limit limit' := by
  refine Resemblance.Lawful.exact Pairing.same_exprForm ?_ id ?_ ?_ ?_ ?_ ?_
  · rintro cause line _ rfl
    rfl
  · intro a b hab name
    rw [hT.lookup hab name]
    cases b[name]? with
    | none => exact .none
    | some d => exact .some rfl
  · rintro a b d _ hab rfl
    exact hT.insert hab d
  · rintro d _ rfl
    exact ⟨rfl, rfl, rfl⟩
  · rintro d _ rfl
    exact Pairing.whole_statements _
  · rintro E line _ depth rfl
    exact hdepth E line depth

/-- The resemblance of machines that are alike. -/
abbrev Resemblance.lockstep (T : FunctionTable → FunctionTable → Prop) (late : Prop) :
    Resemblance :=
  .exact Eq T fun fault => fault = none ∧ late

theorem TableRelation.lawful_lockstep {T : FunctionTable → FunctionTable → Prop}
    (hT : TableRelation T) (late : Prop) (names : String → Prop) (limit : Option Nat) :
    (Resemblance.lockstep T late).Lawful (.same names) limit limit :=
  hT.lawful names fun _ _ _ => Exec.Matches.ofExcept _ fun _ _ => rfl

theorem option_rel_eq_iff {α : Type} {a b : Option α} : Option.Rel Eq a b ↔ a = b := by
  constructor
  · intro h
    cases h with
    | none => rfl
    | some h => rw [h]
  · rintro rfl
    cases a with
    | none => exact .none
    | some a => exact .some rfl

namespace Exec

variable {T : FunctionTable → FunctionTable → Prop} {E : Environment → Environment → Prop}
  {late : Prop}

/-- Calls with the same arguments match in any environments of their callers, if statements match in
environments that are equal. -/
theorem matches_call (hT : TableRelation T) (limit : Option Nat)
    {run run' : Statement → Exec (Option Value)}
    (hrun : ∀ s, Matches (alike T Eq late) Eq (run s) (run' s))
    (name : String) (args : List Value) (line : Nat) :
    Matches (alike T E late) Eq (call limit run name args line) (call limit run' name args line) := by
  have hargs : List.Forall₂ Eq args args := List.forall₂_same.mpr fun _ _ => rfl
  have hcall : Matches (alike T E late) (Option.Rel Eq) (call limit run name args line)
      (call limit run' name args line) :=
    (hT.lawful_lockstep late (fun _ => True) limit).matches_call (fun s s' h => by
      subst h
      exact (hrun s).mono fun _ _ => option_rel_eq_iff.2) hargs rfl
  exact hcall.mono fun _ _ => option_rel_eq_iff.1

/-- An expression matches itself in environments that agree on the variables it names. -/
theorem matches_evaluate (hT : TableRelation T) (limit : Option Nat) {n : Nat}
    (hs : ∀ i < n, ∀ j, i = j ∨ i ≤ j ∧ late →
      ∀ s, Matches (alike T Eq late) Eq (execute limit i s) (execute limit j s))
    {k : Nat} (hn : n = k ∨ n ≤ k ∧ late) (e : Expr)
    (hE : ∀ name ∈ e.variables, ∀ a b, E a b → a.get? name = b.get? name) :
    Matches (alike T E late) Eq (evaluate limit n e) (evaluate limit k e) := by
  have laws := (hT.lawful_lockstep late (· ∈ e.variables) limit).exprLaws (E := E)
    fun name hname a b h => option_rel_eq_iff.2 (hE name hname a b h)
  have hexpr : Matches (alike T E late) (Option.Rel Eq) (evaluate limit n e)
      (evaluate limit k e) := by
    refine laws.matches_evaluate ?_ (hn.imp_right fun h => ⟨h.1, rfl, h.2⟩)
      ⟨rfl, fun name hname => hname⟩
    rintro i hi j hij s _ rfl
    have hsame := hs i hi j (hij.imp_right (And.imp_right And.right)) s
    exact hsame.mono fun _ _ => option_rel_eq_iff.2
  exact hexpr.mono fun _ _ => option_rel_eq_iff.1

/-- A statement matches itself on machines whose tables answer alike. -/
theorem matches_execute (hT : TableRelation T) (limit : Option Nat) {n k : Nat}
    (hn : n = k ∨ n ≤ k ∧ late) (s : Statement) :
    Matches (alike T Eq late) Eq (execute limit n s) (execute limit k s) := by
  have laws := (hT.lawful_lockstep late (fun _ => True) limit).statementLaws
    Pairing.whole_statementForm
  have hstatement : Matches (alike T Eq late) (Option.Rel Eq) (execute limit n s)
      (execute limit k s) :=
    laws.matches_execute (hn.imp_right fun h => ⟨h.1, rfl, h.2⟩) rfl
  exact hstatement.mono fun _ _ => option_rel_eq_iff.1

end Exec

end Skript
