import Skript.Script

/-!
# How single statements run

The run of each writing statement as one equation, and the parts of a call: the machine that the
body starts on, the statements of it that can run and the machine that the caller gets back.
-/
namespace Skript

/-- What an assignment stores in a variable that may have been declared. -/
def Value.settle (declared : Option Kind) (name : String) (v : Value) : Except RunCause Value :=
  match declared with
  | some kind => v.conform kind name
  | none => .ok v

/-- The machine in which the body of a function starts. -/
def Machine.enter (m : Machine) (locals : Environment) : Machine :=
  { m with environment := locals, depth := m.depth + 1 }

/-- The machine that a call leaves to its caller `m` when its body ended in `after`. -/
def Machine.leave (m after : Machine) : Machine :=
  { after with environment := m.environment, depth := after.depth - 1 }

/-- The statements of a body up to the first direct `return`, if there is one. -/
def Statement.upToReturn : List Statement → List Statement
  | [] => []
  | s :: ss => if s.isReturn then [s] else s :: Statement.upToReturn ss

namespace Exec

/-- Of the body of a function nothing runs after the first direct `return`. -/
theorem lastUntil_isReturn {β : Type} (run : Statement → Exec (Option β)) (last : Option β)
    (body : List Statement) :
    lastUntil Statement.isReturn run last body = lastOf run last (Statement.upToReturn body) := by
  induction body generalizing last with
  | nil => rfl
  | cons s ss ih =>
    rw [lastUntil, Statement.upToReturn]
    split
    · exact (bind_pure (run s)).symm
    · exact bind_congr fun b => ih b

theorem lastOf_append {α β : Type} (run : α → Exec (Option β)) (last : Option β)
    (as bs : List α) :
    lastOf run last (as ++ bs) = lastOf run last as >>= fun b => lastOf run b bs := by
  induction as generalizing last with
  | nil => rw [lastOf, pure_bind, List.nil_append]
  | cons a as ih => simp only [List.cons_append, lastOf, bind_assoc, ih]

/-- What was done before only matters where nothing is left to do. -/
theorem lastOf_of_ne_nil {α β : Type} (run : α → Exec (Option β)) (last last' : Option β)
    {as : List α} (h : as ≠ []) : lastOf run last as = lastOf run last' as := by
  cases as with
  | nil => exact absurd rfl h
  | cons a as => rfl

@[simp] theorem run_fail {α : Type} (cause : RunCause) (line : Nat) (m : Machine) :
    (fail cause line : Exec α).run m = .finished (.error ⟨cause, line⟩) m := rfl

@[simp] theorem run_outOfFuel {α : Type} (m : Machine) :
    (outOfFuel : Exec α).run m = .outOfFuel := rfl

theorem run_inCall {α : Type} (locals : Environment) (body : Exec α) (m : Machine) :
    (inCall locals body).run m =
      match body.run (m.enter locals) with
      | .finished result after => .finished result (m.leave after)
      | .outOfFuel => .outOfFuel := rfl

/-- Two computations one after the other that end have failed in the first one, or have ended that
well and gone on. -/
theorem finished_of_bind {α β : Type} {x : Exec α} {f : α → Exec β} {m after : Machine}
    {result : Except RunFault β} (h : (x >>= f).run m = .finished result after) :
    (∃ fault, x.run m = .finished (.error fault) after ∧ result = .error fault) ∨
      ∃ a middle, x.run m = .finished (.ok a) middle ∧
        (f a).run middle = .finished result after := by
  rw [run_bind] at h
  cases hx : x.run m with
  | outOfFuel =>
    rw [hx] at h
    cases h
  | finished first middle =>
    rw [hx] at h
    cases first with
    | error fault =>
      cases h
      exact .inl ⟨fault, rfl, rfl⟩
    | ok a => exact .inr ⟨a, middle, rfl, h⟩

theorem finished_of_inCall {α : Type} {locals : Environment} {body : Exec α} {m after : Machine}
    {result : Except RunFault α} (h : (inCall locals body).run m = .finished result after) :
    ∃ last, body.run (m.enter locals) = .finished result last ∧ after = m.leave last := by
  rw [run_inCall] at h
  cases hbody : body.run (m.enter locals) with
  | outOfFuel =>
    rw [hbody] at h
    cases h
  | finished result last =>
    rw [hbody] at h
    cases h
    exact ⟨last, rfl, rfl⟩

theorem run_lookup {name : String} {v : Value} {m : Machine}
    (h : m.environment.get? name = some v) (line : Nat) :
    (lookup name line).run m = .finished (.ok v) m := by
  simp only [lookup, run_bind, machine, h]
  rfl

theorem run_assignTyped (name : String) (kind : Kind) (v : Value) (line : Nat) (m : Machine) :
    (assignTyped name kind v line).run m =
      match v.conform kind name with
      | .ok stored =>
          .finished (.ok stored) { m with environment := m.environment.declare name kind stored }
      | .error cause => .finished (.error ⟨cause, line⟩) m := by
  unfold assignTyped
  cases v.conform kind name <;> rfl

theorem run_assign (name : String) (v : Value) (line : Nat) (m : Machine) :
    (assign name v line).run m =
      match v.settle (m.environment.declared? name) name with
      | .ok stored =>
          .finished (.ok stored) { m with environment := m.environment.set name stored }
      | .error cause => .finished (.error ⟨cause, line⟩) m := by
  simp only [assign, run_bind, machine, Value.settle]
  cases m.environment.declared? name with
  | none => rfl
  | some kind =>
    dsimp only
    cases v.conform kind name <;> rfl

theorem run_define (d : Definition) (m : Machine) :
    (define d).run m =
      match Builtin.checkName d.name with
      | .ok _ => .finished (.ok ()) { m with functions := m.functions.insert d.name d }
      | .error cause => .finished (.error ⟨cause, d.line⟩) m := by
  unfold define
  cases Builtin.checkName d.name <;> rfl

/-- What a choice does when its condition does not hold. -/
def executeOtherwise (limit : Option Nat) (n : Nat) : Otherwise → Exec (Option Value)
  | .nothing => pure none
  | .block body => lastOf (execute limit n) none body
  | .elseIf choice => execute limit n (.choose choice)

theorem execute_choose (limit : Option Nat) (n : Nat) (condition : Expr) (body : List Statement)
    (otherwise : Otherwise) (line : Nat) :
    execute limit (n + 1) (.choose (.mk condition body otherwise line)) = (do
      let v ← required line (evaluate limit n condition)
      if v.isTruthy then lastOf (execute limit n) none body
      else executeOtherwise limit n otherwise) := by
  cases otherwise <;> rw [execute] <;> rfl

end Exec

end Skript
