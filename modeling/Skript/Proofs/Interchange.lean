import Skript.Proofs.Ending
import Skript.Proofs.Similarity

/-!
# Programs with characters in place of texts

In a program, in the functions it can call and in its variables some characters are exchanged for
the texts that they make up, or the other way round. The program then prints the same, reads the
same and ends in the same way, and its variables and functions differ in nothing else afterwards.
-/
namespace Skript

inductive Literal.Similar : Literal → Literal → Prop
  | same (v : Literal) : Similar v v
  | charText (c : Char) : Similar (.chr c) (.str (String.singleton c))
  | textChar (c : Char) : Similar (.str (String.singleton c)) (.chr c)

/-- Expressions that are the same but for similar literals. -/
inductive Expr.Similar : Expr → Expr → Prop
  | literal (values : v.Similar v') : Similar (.literal v i) (.literal v' i)
  | var : Similar (.var name i) (.var name i)
  | binary (left : Similar l l') (right : Similar r r') :
      Similar (.binary l op r i) (.binary l' op r' i)
  | call (arguments : List.Forall₂ Similar as as') : Similar (.call name as i) (.call name as' i)
  | input : Similar (.input prompt kind i) (.input prompt kind i)
  | length (operand : Similar e e') : Similar (.length e i) (.length e' i)

mutual

/-- Statements that are the same but for similar literals, at any nesting. -/
inductive Statement.Similar : Statement → Statement → Prop
  | function (body : List.Forall₂ Statement.Similar ss ss') :
      Statement.Similar (.function name params ss i) (.function name params ss' i)
  | ret (value : Expr.Similar e e') : Statement.Similar (.ret e i) (.ret e' i)
  | print (operand : Expr.Similar e e') : Statement.Similar (.print e i) (.print e' i)
  | choose (choice : Choice.Similar c c') : Statement.Similar (.choose c) (.choose c')
  | loop (init : Statement.Similar s s') (condition : Expr.Similar e e')
      (update : Statement.Similar u u') (body : List.Forall₂ Statement.Similar ss ss') :
      Statement.Similar (.loop s e u ss i) (.loop s' e' u' ss' i)
  | declare : Statement.Similar (.declare name kind i) (.declare name kind i)
  | assignTyped (value : Expr.Similar e e') :
      Statement.Similar (.assignTyped name kind e i) (.assignTyped name kind e' i)
  | assign (value : Expr.Similar e e') : Statement.Similar (.assign name e i) (.assign name e' i)
  | expr (operand : Expr.Similar e e') : Statement.Similar (.expr e i) (.expr e' i)

inductive Choice.Similar : Choice → Choice → Prop
  | mk (condition : Expr.Similar e e') (body : List.Forall₂ Statement.Similar ss ss')
      (otherwise : Otherwise.Similar o o') : Choice.Similar (.mk e ss o i) (.mk e' ss' o' i)

inductive Otherwise.Similar : Otherwise → Otherwise → Prop
  | nothing : Otherwise.Similar .nothing .nothing
  | block (body : List.Forall₂ Statement.Similar ss ss') :
      Otherwise.Similar (.block ss) (.block ss')
  | elseIf (choice : Choice.Similar c c') : Otherwise.Similar (.elseIf c) (.elseIf c')

end

structure Definition.Similar (d d' : Definition) : Prop where
  name : d.name = d'.name
  params : d.params = d'.params
  body : List.Forall₂ Statement.Similar d.body d'.body
  line : d.line = d'.line

/-- Similar functions under the same names. -/
def FunctionTable.Similar (a b : FunctionTable) : Prop :=
  ∀ name : String, Option.Rel Definition.Similar a[name]? b[name]?

structure Slot.Similar (a b : Slot) : Prop where
  value : a.value.Similar b.value
  declared : a.declared = b.declared

/-- The same variables with similar values and with the same declared kinds. -/
def Environment.Similar (a b : Environment) : Prop :=
  ∀ name, Option.Rel Slot.Similar (a.slot? name) (b.slot? name)

namespace Environment.Similar

variable {a b : Environment}

theorem get? (h : a.Similar b) (name : String) :
    Option.Rel Value.Similar (a.get? name) (b.get? name) := by
  unfold Environment.get?
  have hslot := h name
  generalize a.slot? name = s at hslot ⊢
  generalize b.slot? name = t at hslot ⊢
  cases hslot with
  | none => exact .none
  | some slots => exact .some slots.value

theorem declared? (h : a.Similar b) (name : String) : a.declared? name = b.declared? name := by
  unfold Environment.declared?
  have hslot := h name
  generalize a.slot? name = s at hslot ⊢
  generalize b.slot? name = t at hslot ⊢
  cases hslot with
  | none => rfl
  | some slots => exact slots.declared

theorem empty : Environment.empty.Similar Environment.empty := by
  intro name
  rw [slot?_empty]
  exact .none

theorem set (h : a.Similar b) {v w : Value} (hv : v.Similar w) (name : String) :
    (a.set name v).Similar (b.set name w) := by
  intro other
  rw [slot?_set, slot?_set]
  by_cases hn : name = other
  · rw [if_pos hn, if_pos hn]
    exact .some ⟨hv, h.declared? name⟩
  · rw [if_neg hn, if_neg hn]
    exact h other

theorem declare (h : a.Similar b) {v w : Value} (hv : v.Similar w) (name : String) (kind : Kind) :
    (a.declare name kind v).Similar (b.declare name kind w) := by
  intro other
  rw [slot?_declare, slot?_declare]
  by_cases hn : name = other
  · rw [if_pos hn, if_pos hn]
    exact .some ⟨hv, rfl⟩
  · rw [if_neg hn, if_neg hn]
    exact h other

end Environment.Similar

theorem FunctionTable.Similar.insert {a b : FunctionTable} (h : FunctionTable.Similar a b)
    {d d' : Definition} (hd : d.Similar d') :
    FunctionTable.Similar (a.insert d.name d) (b.insert d'.name d') := by
  intro name
  rw [Std.TreeMap.getElem?_insert, Std.TreeMap.getElem?_insert, hd.name]
  split
  · exact .some hd
  · exact h name

/-- Similar parts belong together. -/
def Pairing.similar : Pairing where
  literals := Literal.Similar
  lines := Eq
  names _ := True
  exprs := Expr.Similar
  definitions := Definition.Similar
  statements := Statement.Similar

theorem Expr.Similar.form {e e' : Expr} (h : e.Similar e') : Expr.SameForm .similar e e' := by
  cases h with
  | literal values => exact .literal values
  | var => exact .var trivial rfl
  | binary left right => exact .binary left right rfl
  | call arguments => exact .call arguments rfl
  | input => exact .input rfl
  | length operand => exact .length operand rfl

theorem Statement.Similar.form {s s' : Statement} (h : s.Similar s') :
    Statement.SameForm .similar s s' := by
  cases h with
  | function body => exact .function ⟨rfl, rfl, body, rfl⟩
  | ret value => exact .ret value rfl
  | print operand => exact .print operand rfl
  | choose choice =>
    obtain ⟨condition, body, otherwise⟩ := choice
    refine .choose condition body ?_ rfl
    cases otherwise with
    | nothing => exact .nothing
    | block body => exact .block body
    | elseIf choice => exact .elseIf (.choose choice)
  | loop init condition update body => exact .loop init condition update body rfl
  | declare => exact .declare
  | assignTyped value => exact .assignTyped value rfl
  | assign value => exact .assign value rfl
  | expr operand => exact .expr operand

theorem Statement.Similar.isReturn {s s' : Statement} (h : s.Similar s') :
    s.isReturn = s'.isReturn := by
  cases h <;> rfl

theorem Literal.Similar.toValue {a b : Literal} (h : a.Similar b) :
    a.toValue.Similar b.toValue := by
  cases h with
  | same => exact .same _
  | charText c => exact .charText c
  | textChar c => exact .textChar c

def Resemblance.similar : Resemblance where
  values := Value.Similar
  causes := RunCause.Similar
  faults := RunFault.Similar
  environments := Environment.Similar
  tables := FunctionTable.Similar
  excused _ := False

/-- Every operation on values, variables and functions respects similarity. -/
theorem Resemblance.lawful_similar (limit : Option Nat) :
    Resemblance.similar.Lawful .similar limit limit where
  exprForm := Expr.Similar.form
  sameValue := .same
  sameCause := .same
  fault hcause hline := ⟨hcause, hline⟩
  literal := Literal.Similar.toValue
  truthy := Value.Similar.isTruthy
  text := Value.Similar.text
  binary := Value.Similar.binary
  length := Value.Similar.length
  builtin hf hargs := Builtin.similar hf hargs
  conform := Value.Similar.conform
  get? := Environment.Similar.get?
  declared? := Environment.Similar.declared?
  empty := Environment.Similar.empty
  set h hv := h.set hv
  declare h hv := h.declare hv
  find h := h
  insert h hd := h.insert hd
  head hd := ⟨hd.name, hd.params, hd.line⟩
  body hd := Statement.forall₂_upToReturn (fun _ _ => Statement.Similar.isReturn) hd.body
  depth depth hline := by
    obtain rfl : _ = _ := hline
    exact Exec.Matches.ofExcept _ fun cause _ => ⟨.same cause, rfl⟩

/-- Similar tables and variables, and all else in common. -/
abbrev Machine.Similar : Machine → Machine → Prop :=
  Machine.Alike FunctionTable.Similar Environment.Similar

open Exec

/-- Of two similar programs on similar machines one ends if and only if the other does. They have
then printed the same and left the same input unread, their results are similar or missing or are
faults of the same sort on the same line, whose messages differ in names of kinds at most, and their
variables and functions are similar again. -/
theorem characters_stand_for_their_texts (limit : Option Nat) (ss ss' : List Statement)
    (m m' : Machine) (hprograms : List.Forall₂ Statement.Similar ss ss') (hmachines : m.Similar m') :
    EndAlike (fun f f' => f.Similar f' ∧ Reworded f.message f'.message)
      (Option.Rel Value.Similar) Machine.Similar
      (fun n => executeAll limit n ss) (fun n => executeAll limit n ss') m m' := by
  have laws := (Resemblance.lawful_similar limit).statementLaws Statement.Similar.form
  have hends := EndAlike.of_matches (fun _ => id) (steady_executeAll limit ss')
    (fun n => laws.matches_executeAll (.inl rfl) hprograms) hmachines
  refine ⟨hends.ends, fun h h' => ?_⟩
  obtain ⟨hresults, hafter⟩ := hends.agree h h'
  refine ⟨?_, hafter⟩
  cases hresults with
  | ok values => exact .ok values
  | error faults => exact .error ⟨faults, faults.message⟩

/-- The literals of the program, a literal in the function it calls and a variable are exchanged;
both programs print the same text and then fail to subtract, one a character from a text and the
other a text from a character. -/
theorem exchanged_characters_only_show_in_the_message :
    let program (v : Literal) : List Statement :=
      [.print (.call "twice" [.literal v 2] 2) 2,
        .expr (.binary (.var "s" 3) .sub (.literal v 3) 3) 3]
    let twice (v : Literal) : Definition :=
      ⟨"twice", ["t"], [.ret (.binary (.var "t" 1) .add (.literal v 1) 1) 1], 1⟩
    let start (v : Literal) (w : Value) : Machine :=
      { environment := Environment.empty.set "s" w
        functions := (∅ : FunctionTable).insert "twice" (twice v) }
    let a : Literal := .chr 'a'
    let a' : Literal := .str (String.singleton 'a')
    let m : Machine := start a (.str (String.singleton 'b'))
    let m' : Machine := start a' (.chr (some 'b'))
    EndAlike (fun f f' => f.Similar f' ∧ Reworded f.message f'.message)
      (Option.Rel Value.Similar) Machine.Similar
      (fun n => executeAll none n (program a)) (fun n => executeAll none n (program a')) m m' ∧
    (∃ after, Ends (fun n => executeAll none n (program a)) m
      (.error ⟨.typeMismatch (.operands .sub .str .chr), 3⟩) after) ∧
    ∃ after, Ends (fun n => executeAll none n (program a')) m'
      (.error ⟨.typeMismatch (.operands .sub .chr .str), 3⟩) after := by
  intro program twice start a a' m m'
  have ha : a.Similar a' := .charText 'a'
  have hprogram : List.Forall₂ Statement.Similar (program a) (program a') :=
    .cons (.print (.call (.cons (.literal ha) .nil)))
      (.cons (.expr (.binary .var (.literal ha))) .nil)
  have htwice : (twice a).Similar (twice a') :=
    ⟨rfl, rfl, .cons (.ret (.binary .var (.literal ha))) .nil, rfl⟩
  have hfunctions : FunctionTable.Similar m.functions m'.functions := by
    refine FunctionTable.Similar.insert (fun name => ?_) htwice
    rw [Std.TreeMap.getElem?_emptyc]
    exact .none
  have hvariables : m.environment.Similar m'.environment :=
    Environment.Similar.empty.set (.textChar 'b') "s"
  refine ⟨?_, ⟨_, 6, rfl⟩, _, 6, rfl⟩
  exact characters_stand_for_their_texts none _ _ m m' hprogram ⟨hfunctions, hvariables, rfl, rfl⟩

end Skript
