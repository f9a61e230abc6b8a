import Skript.Proofs.CallerFrame
import Skript.Proofs.Ending

/-!
# Assignments change one variable or nothing

An assignment first evaluates its expression, then lets the value take the kind that the variable
has or is to have, and writes last. What the expression calls runs in environments of its own, even
where it assigns to a variable of the same name. So an assignment that fails, at whatever point,
leaves all variables as they were, and one that ends well has written one variable.
-/
namespace Skript

/-- An assignment to a variable, which also declares it if a kind is given. -/
def Statement.assignment (declared : Option Kind) (name : String) (value : Expr) (line : Nat) :
    Statement :=
  match declared with
  | some kind => .assignTyped name kind value line
  | none => .assign name value line

/-- Gives a variable a value, and a kind if one is given. -/
def Environment.store (env : Environment) (declared : Option Kind) (name : String) (v : Value) :
    Environment :=
  match declared with
  | some kind => env.declare name kind v
  | none => env.set name v

namespace Environment

@[simp] theorem get?_store (env : Environment) (declared : Option Kind) (name : String) (v : Value)
    (other : String) :
    (env.store declared name v).get? other = if name = other then some v else env.get? other := by
  cases declared <;> simp [store]

@[simp] theorem declared?_store (env : Environment) (declared : Option Kind) (name : String)
    (v : Value) (other : String) :
    (env.store declared name v).declared? other =
      if name = other then declared.or (env.declared? name) else env.declared? other := by
  cases declared with
  | some kind => simp [store]
  | none =>
    by_cases h : name = other
    · simp [store, h]
    · simp [store, h]

end Environment

namespace Value

theorem conform_of_kind {v : Value} {kind : Kind} (name : String) (h : v.kind = kind) :
    v.conform kind name = .ok v := by
  unfold conform
  exact if_pos h

/-- What is stored in a variable could be stored there again. -/
theorem settle_of_settle {declared : Option Kind} {name : String} {v stored : Value}
    (h : v.settle declared name = .ok stored) : stored.settle declared name = .ok stored := by
  cases declared with
  | none => rfl
  | some kind => exact conform_of_kind name (kind_of_settle h rfl)

end Value

namespace Exec

/-- Assigns a value to a variable, which it declares if a kind is given. -/
def assignValue (declared : Option Kind) (name : String) (v : Value) (line : Nat) : Exec Value :=
  match declared with
  | some kind => assignTyped name kind v line
  | none => assign name v line

theorem run_assignValue (declared : Option Kind) (name : String) (v : Value) (line : Nat)
    (m : Machine) :
    (assignValue declared name v line).run m =
      match v.settle (declared.or (m.environment.declared? name)) name with
      | .ok stored =>
          .finished (.ok stored)
            { m with environment := m.environment.store declared name stored }
      | .error cause => .finished (.error ⟨cause, line⟩) m := by
  cases declared with
  | some kind => exact run_assignTyped name kind v line m
  | none => exact run_assign name v line m

theorem execute_assignment (limit : Option Nat) (n : Nat) (declared : Option Kind) (name : String)
    (e : Expr) (line : Nat) :
    execute limit (n + 1) (.assignment declared name e line) = (do
      let v ← required line (evaluate limit n e)
      some <$> assignValue declared name v line) := by
  cases declared <;> (rw [Statement.assignment, execute]; rfl)

/-- How an assignment on `m` ends whose expression has ended with `given` on `middle`. -/
inductive Assigned (declared : Option Kind) (name : String) (line : Nat) (m middle : Machine) :
    Except RunFault (Option Value) → Except RunFault (Option Value) → Machine → Prop
  | failed (fault : RunFault) :
      Assigned declared name line m middle (.error fault) (.error fault) middle
  | missing :
      Assigned declared name line m middle (.ok none) (.error ⟨.missingValue, line⟩) middle
  | refused {v : Value} {cause : RunCause}
      (refuses : v.settle (declared.or (m.environment.declared? name)) name = .error cause) :
      Assigned declared name line m middle (.ok (some v)) (.error ⟨cause, line⟩) middle
  | stored {v stored : Value}
      (accepts : v.settle (declared.or (m.environment.declared? name)) name = .ok stored) :
      Assigned declared name line m middle (.ok (some v)) (.ok (some stored))
        { middle with environment := m.environment.store declared name stored }

section Outcomes

variable {limit : Option Nat} {declared : Option Kind} {name : String} {e : Expr} {line : Nat}
  {m middle : Machine}

theorem run_assignment {n : Nat} {given result : Except RunFault (Option Value)} {after : Machine}
    (hvalue : (evaluate limit n e).run m = .finished given middle)
    (h : Assigned declared name line m middle given result after) :
    (execute limit (n + 1) (.assignment declared name e line)).run m = .finished result after := by
  have henv : middle.environment = m.environment :=
    (keepsFrame_evaluate limit n e m given middle hvalue).environment
  rw [execute_assignment, run_bind, required, run_bind, hvalue]
  cases h with
  | failed fault => rfl
  | missing => rfl
  | refused refuses =>
    simp only [run_pure, map_eq_pure_bind, run_bind, run_assignValue, henv, refuses]
  | stored accepts =>
    simp only [run_pure, map_eq_pure_bind, run_bind, run_assignValue, henv, accepts]

theorem exists_assigned (declared : Option Kind) (name : String) (line : Nat) (m middle : Machine)
    (given : Except RunFault (Option Value)) :
    ∃ result after, Assigned declared name line m middle given result after := by
  cases given with
  | error fault => exact ⟨_, _, .failed fault⟩
  | ok given =>
    cases given with
    | none => exact ⟨_, _, .missing⟩
    | some v =>
      cases h : v.settle (declared.or (m.environment.declared? name)) name with
      | error cause => exact ⟨_, _, .refused h⟩
      | ok stored => exact ⟨_, _, .stored h⟩

/-- An assignment ends if its expression does, and then in one of the four ways. -/
theorem ends_assignment_iff {result : Except RunFault (Option Value)} {after : Machine} :
    Ends (fun n => execute limit n (.assignment declared name e line)) m result after ↔
      ∃ given middle, Ends (fun n => evaluate limit n e) m given middle ∧
        Assigned declared name line m middle given result after := by
  constructor
  · rintro ⟨_ | n, hn⟩
    · simp only [execute] at hn
      cases hn
    · cases hvalue : (evaluate limit n e).run m with
      | outOfFuel =>
        simp only [execute_assignment, run_bind, required, hvalue] at hn
        cases hn
      | finished given middle =>
        obtain ⟨result', after', h⟩ := exists_assigned declared name line m middle given
        have hrun := run_assignment hvalue h
        rw [hrun] at hn
        cases hn
        exact ⟨given, middle, ⟨n, hvalue⟩, h⟩
  · rintro ⟨given, middle, ⟨n, hvalue⟩, h⟩
    exact ⟨n + 1, run_assignment hvalue h⟩

end Outcomes

end Exec

open Exec

/-- An assignment ends if and only if its expression does. If it fails, all variables have the
values and the kinds that they had. If it ends well, the expression has given a value, and the
variable has the kind that it was declared with, now or before, and holds the value in this kind;
what it holds is the result and would be stored in the same way again, and all else is as the
expression has left it. A value that can take the kind is stored. -/
theorem assignments_change_one_variable_or_nothing (limit : Option Nat) (declared : Option Kind)
    (name : String) (e : Expr) (line : Nat) (m : Machine) :
    let kind := declared.or (m.environment.declared? name)
    let value := fun n => evaluate limit n e
    let assignment := fun n => execute limit n (.assignment declared name e line)
    ((∃ result after, Ends assignment m result after) ↔ ∃ given after, Ends value m given after) ∧
    (∀ fault after, Ends assignment m (.error fault) after → after.environment = m.environment) ∧
    (∀ given after, Ends assignment m (.ok given) after → ∃ v middle stored,
      Ends value m (.ok (some v)) middle ∧ v.settle kind name = .ok stored ∧ given = some stored ∧
      (∀ other, after.environment.get? other =
        if name = other then some stored else m.environment.get? other) ∧
      (∀ other, after.environment.declared? other =
        if name = other then kind else m.environment.declared? other) ∧
      after = { middle with environment := after.environment } ∧
      stored.settle kind name = .ok stored) ∧
    ∀ v middle stored, Ends value m (.ok (some v)) middle → v.settle kind name = .ok stored →
      ∃ after, Ends assignment m (.ok (some stored)) after := by
  intro kind value assignment
  have hframe : ∀ {given middle}, Ends value m given middle →
      middle.environment = m.environment := by
    rintro given middle ⟨n, hn⟩
    exact (keepsFrame_evaluate limit n e m given middle hn).environment
  refine ⟨⟨?_, ?_⟩, ?_, ?_, ?_⟩
  · rintro ⟨result, after, h⟩
    obtain ⟨given, middle, hvalue, -⟩ := ends_assignment_iff.1 h
    exact ⟨given, middle, hvalue⟩
  · rintro ⟨given, middle, hvalue⟩
    obtain ⟨result, after, h⟩ := exists_assigned declared name line m middle given
    exact ⟨result, after, ends_assignment_iff.2 ⟨given, middle, hvalue, h⟩⟩
  · intro fault after h
    obtain ⟨given, middle, hvalue, hassigned⟩ := ends_assignment_iff.1 h
    cases hassigned with
    | failed => exact hframe hvalue
    | missing => exact hframe hvalue
    | refused => exact hframe hvalue
  · intro given after h
    obtain ⟨_, middle, hvalue, hassigned⟩ := ends_assignment_iff.1 h
    cases hassigned with
    | @stored v stored accepts =>
      refine ⟨v, middle, stored, hvalue, accepts, rfl, fun other => ?_, fun other => ?_, rfl, ?_⟩
      · exact Environment.get?_store m.environment declared name stored other
      · exact Environment.declared?_store m.environment declared name stored other
      · exact Value.settle_of_settle accepts
  · intro v middle stored hvalue accepts
    exact ⟨_, ends_assignment_iff.2 ⟨_, middle, hvalue, .stored accepts⟩⟩

/-- The callee assigns to a variable of the same name and gives a character. As a truth value it is
refused, and the number that the variable holds stays; as a text it takes the place of the
number. -/
theorem redeclaration_takes_place_or_not :
    let f : Definition :=
      ⟨"f", [], [.assign "x" (.literal (.chr 'a') 1) 1, .ret (.var "x" 1) 1], 1⟩
    let m : Machine :=
      { environment := Environment.empty.declare "x" .num (.num 7)
        functions := (∅ : FunctionTable).insert "f" f }
    let assignment (kind : Kind) (n : Nat) : Exec (Option Value) :=
      execute (some callLimit) n (.assignment (some kind) "x" (.call "f" [] 2) 2)
    (∃ after, Ends (assignment .bool) m
        (.error ⟨.typeMismatch (.slot (.chr (some 'a')) .bool "x"), 2⟩) after ∧
      after.environment = m.environment) ∧
    ∃ after, Ends (assignment .str) m (.ok (some (.str "a"))) after ∧
      after.environment.get? "x" = some (.str "a") ∧
      after.environment.declared? "x" = some .str := by
  intro f m assignment
  constructor
  · have hfails : ∃ after, Ends (assignment .bool) m
        (.error ⟨.typeMismatch (.slot (.chr (some 'a')) .bool "x"), 2⟩) after := ⟨_, 6, rfl⟩
    obtain ⟨after, hafter⟩ := hfails
    have hatomic := (assignments_change_one_variable_or_nothing (some callLimit) (some .bool) "x"
      (.call "f" [] 2) 2 m).2.1
    exact ⟨after, hafter, hatomic _ after hafter⟩
  · have hends : ∃ after, Ends (assignment .str) m (.ok (some (.str "a"))) after := ⟨_, 6, rfl⟩
    obtain ⟨after, hafter⟩ := hends
    have hexact := (assignments_change_one_variable_or_nothing (some callLimit) (some .str) "x"
      (.call "f" [] 2) 2 m).2.2.1
    obtain ⟨v, middle, stored, -, -, hstored, hget, hdeclared, -⟩ := hexact _ after hafter
    cases hstored
    exact ⟨after, hafter, (hget "x").trans (if_pos rfl), (hdeclared "x").trans (if_pos rfl)⟩

end Skript
