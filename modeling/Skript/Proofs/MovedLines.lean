import Skript.Proofs.Ending
import Skript.Proofs.MovedLexemes

/-!
# Lines are only carried along

A line is only there to be reported. When the lexemes of a script are moved to other lines, it is
read as the same program with its lines moved, or has the same fault with its line moved. When the
lines of a program and of the functions it can call are moved, it does the same and ends in the same
way; the fault that it reports and the functions that it leaves are moved along.
-/
namespace Skript

variable (move : Nat → Nat)

def Definition.mapLine (d : Definition) : Definition :=
  ⟨d.name, d.params, d.body.map (Statement.mapLine move), move d.line⟩

def RunFault.mapLine (fault : RunFault) : RunFault :=
  ⟨fault.cause, move fault.line⟩

/-- The second table has the functions of the first, with their lines moved. -/
def FunctionTable.Moved (a b : FunctionTable) : Prop :=
  ∀ name : String, b[name]? = a[name]?.map (Definition.mapLine move)

/-- The lines of the functions are moved and all else is in common. -/
abbrev Machine.Moved : Machine → Machine → Prop :=
  Machine.Alike (FunctionTable.Moved move) Eq

/-- A part belongs to what it becomes when its lines are moved. -/
def Pairing.moved : Pairing where
  literals := Eq
  lines i j := j = move i
  names _ := True
  exprs e e' := e' = e.mapLine move
  definitions d d' := d' = d.mapLine move
  statements s s' := s' = s.mapLine move

def Resemblance.moved : Resemblance :=
  .exact (fun f g => g = f.mapLine move) (FunctionTable.Moved move) fun _ => False

variable {move}

theorem FunctionTable.Moved.insert {a b : FunctionTable} (h : FunctionTable.Moved move a b)
    (d : Definition) :
    FunctionTable.Moved move (a.insert d.name d) (b.insert d.name (d.mapLine move)) := by
  intro name
  rw [Std.TreeMap.getElem?_insert, Std.TreeMap.getElem?_insert, h name]
  split <;> rfl

namespace Pairing

theorem moved_forall₂ (ss : List Statement) :
    List.Forall₂ (moved move).statements ss (ss.map (Statement.mapLine move)) :=
  List.forall₂_map_right_iff.2 (List.forall₂_same.2 fun _ _ => rfl)

theorem moved_exprForm {e e' : Expr} (h : (moved move).exprs e e') :
    Expr.SameForm (moved move) e e' := by
  obtain rfl : e' = e.mapLine move := h
  cases e with
  | literal value line => exact .literal rfl
  | var name line => exact .var trivial rfl
  | binary left op right line => exact .binary rfl rfl rfl
  | call name arguments line =>
    rw [Expr.mapLine, Expr.mapLines_eq]
    exact .call (List.forall₂_map_right_iff.2 (List.forall₂_same.2 fun _ _ => rfl)) rfl
  | input prompt kind line => exact .input rfl
  | length operand line => exact .length rfl rfl

theorem moved_statementForm {s s' : Statement} (h : (moved move).statements s s') :
    Statement.SameForm (moved move) s s' := by
  obtain rfl : s' = s.mapLine move := h
  cases s with
  | function name params body line =>
    rw [Statement.mapLine, Statement.mapLines_eq]
    exact .function rfl
  | ret value line => exact .ret rfl rfl
  | print operand line => exact .print rfl rfl
  | choose choice =>
    obtain ⟨condition, body, otherwise, line⟩ := choice
    rw [Statement.mapLine, Choice.mapLine, Statement.mapLines_eq]
    refine .choose rfl (moved_forall₂ body) ?_ rfl
    cases otherwise with
    | nothing => exact .nothing
    | block body =>
      rw [Otherwise.mapLine, Statement.mapLines_eq]
      exact .block (moved_forall₂ body)
    | elseIf choice => exact .elseIf rfl
  | loop init condition update body line =>
    rw [Statement.mapLine, Statement.mapLines_eq]
    exact .loop rfl rfl rfl (moved_forall₂ body) rfl
  | declare name kind line => exact .declare
  | assignTyped name kind value line => exact .assignTyped rfl rfl
  | assign name value line => exact .assign rfl rfl
  | expr operand line => exact .expr rfl

end Pairing

theorem Statement.isReturn_mapLine (s : Statement) : (s.mapLine move).isReturn = s.isReturn := by
  cases s <;> rfl

/-- No operation looks at a line, and every fault is reported on the line that it is given. -/
theorem Resemblance.lawful_moved (move : Nat → Nat) (limit : Option Nat) :
    (Resemblance.moved move).Lawful (.moved move) limit limit := by
  refine Resemblance.Lawful.exact Pairing.moved_exprForm ?_ id ?_ ?_ ?_ ?_ ?_
  · rintro cause line _ rfl
    rfl
  · intro a b hab name
    rw [hab name]
    cases a[name]? with
    | none => exact .none
    | some d => exact .some rfl
  · rintro a b d _ hab rfl
    exact hab.insert d
  · rintro d _ rfl
    exact ⟨rfl, rfl, rfl⟩
  · rintro d _ rfl
    refine Statement.forall₂_upToReturn ?_ (Pairing.moved_forall₂ d.body)
    rintro s _ rfl
    exact (Statement.isReturn_mapLine s).symm
  · rintro E line _ depth rfl
    cases Exec.checkDepth limit depth with
    | ok => exact Exec.Matches.pure rfl
    | error cause => exact Exec.Matches.fail rfl

open Exec

theorem matches_executeAll_moved (move : Nat → Nat) (limit : Option Nat) (n : Nat)
    (ss : List Statement) : Matches ((Resemblance.moved move).comparison Eq) Eq
      (executeAll limit n ss) (executeAll limit n (ss.map (Statement.mapLine move))) := by
  have laws := (Resemblance.lawful_moved move limit).statementLaws Pairing.moved_statementForm
  exact (laws.matches_executeAll (.inl rfl) (Pairing.moved_forall₂ ss)).mono
    fun _ _ => option_rel_eq_iff.1

/-- Lexemes with an end of input that are moved to other lines are read as the program with its
lines moved, or have the fault with its line moved. A program whose lines are moved ends if and only
if the program does, with the same value or the fault with its line moved, the same variables, input
and output, and the functions with their lines moved. -/
theorem lines_are_only_carried_along (move : Nat → Nat) :
    (∀ ls : List Lexeme, (∃ l ∈ ls, l.token = .endOfInput) →
      parse (ls.map (Lexeme.mapLine move)) =
        ((parse ls).map (List.map (Statement.mapLine move))).mapError (SourceFault.mapLine move)) ∧
    ∀ limit ss m m', m.Moved move m' →
      EndAlike (fun f f' => f' = f.mapLine move) Eq (Machine.Moved move)
        (fun n => executeAll limit n ss)
        (fun n => executeAll limit n (ss.map (Statement.mapLine move))) m m' := by
  refine ⟨fun ls h => parse_mapLine move h, fun limit ss m m' hm => ?_⟩
  exact EndAlike.of_matches (fun _ => id) (steady_executeAll limit _)
    (fun n => matches_executeAll_moved move limit n ss) hm

/-- An assignment ends before its value, and a function that is called prints and then looks for a
variable that is not there: both faults are reported on ten times their line. -/
theorem tenfold_lines_are_reported :
    let move (line : Nat) : Nat := 10 * line
    let ls : List Lexeme := [⟨.identifier "x", 1⟩, ⟨.symbol .equals, 1⟩, ⟨.endOfInput, 2⟩]
    let f : Definition := ⟨"f", [], [.print (.literal (.bool true) 2) 2, .ret (.var "y" 3) 3], 1⟩
    let start (d : Definition) : Machine := { functions := (∅ : FunctionTable).insert "f" d }
    let program : List Statement := [.expr (.call "f" [] 5) 5]
    (∃ l ∈ ls, l.token = .endOfInput) ∧
    parse (ls.map (Lexeme.mapLine move)) = .error ⟨.unexpectedEnd .expression, 20⟩ ∧
    (start f).Moved move (start (f.mapLine move)) ∧
    ∃ after, Ends (fun n => executeAll none n (program.map (Statement.mapLine move)))
      (start (f.mapLine move)) (.error ⟨.unknownVariable "y", 30⟩) after := by
  intro move ls f start program
  obtain ⟨hread, hrun⟩ := lines_are_only_carried_along move
  have hended : ∃ l ∈ ls, l.token = .endOfInput := ⟨⟨.endOfInput, 2⟩, by simp [ls], rfl⟩
  have hparse : parse ls = .error ⟨.unexpectedEnd .expression, 2⟩ := rfl
  have hempty : FunctionTable.Moved move ∅ ∅ := fun name => by
    rw [Std.TreeMap.getElem?_emptyc, Option.map_none]
  have hmoved : (start f).Moved move (start (f.mapLine move)) := ⟨hempty.insert f, rfl, rfl, rfl⟩
  have hends : ∃ after, Ends (fun n => executeAll none n program) (start f)
      (.error ⟨.unknownVariable "y", 3⟩) after := ⟨_, 6, rfl⟩
  refine ⟨hended, ?_, hmoved, ?_⟩
  · rw [hread ls hended, hparse]
    rfl
  · obtain ⟨after, hends⟩ := hends
    have halike := hrun none program _ _ hmoved
    obtain ⟨result, after', hends'⟩ := halike.ends.1 ⟨_, after, hends⟩
    obtain ⟨hresult, -⟩ := halike.agree hends hends'
    cases hresult with
    | error fault =>
      subst fault
      exact ⟨after', hends'⟩

end Skript
