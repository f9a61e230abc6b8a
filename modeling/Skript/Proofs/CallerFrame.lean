import Skript.Proofs.Keeping

/-!
# Expressions leave the caller alone

An expression may call functions, and these run statements of every sort, call others and fail at
any point. All of it happens in environments of their own: when the expression has ended, well or
not, the caller's variables and the call depth are what they were, and the console has only been
read from and written to.
-/
namespace Skript

/-- The variables, the call depth and the sink of two machines are the same. -/
structure Machine.SameFrame (m after : Machine) : Prop where
  environment : after.environment = m.environment
  depth : after.depth = m.depth
  sink : m.console.SameSink after.console

namespace Machine

theorem sequential_sameFrame : Sequential SameFrame where
  refl m := ⟨rfl, rfl, .refl m.console⟩
  trans hab hbc := ⟨hbc.environment.trans hab.environment, hbc.depth.trans hab.depth,
    hab.sink.trans hbc.sink⟩

/-- Outside its functions, its input and its output the machine is the old one. -/
theorem SameFrame.eq {m after : Machine} (h : m.SameFrame after) :
    after = { m with
      functions := after.functions
      console := { m.console with
        input := after.console.input
        output := after.console.output } } := by
  obtain ⟨environment, functions, depth, console⟩ := after
  obtain ⟨rfl, rfl, hcapacity, hflushable⟩ := h
  cases console
  simp only at hcapacity hflushable
  rw [hcapacity, hflushable]

end Machine

/-- Every statement that ends brings the depth back to where it was: a call takes away the one
level that it has added, also if its body failed. -/
theorem respected_depth :
    Respected fun m after => after.depth = m.depth ∧ m.console.SameSink after.console where
  refl m := ⟨rfl, .refl m.console⟩
  trans hab hbc := ⟨hbc.1.trans hab.1, hab.2.trans hbc.2⟩
  console _ _ hc := ⟨rfl, hc⟩
  declare m _ _ _ _ := ⟨rfl, .refl m.console⟩
  set m _ _ _ := ⟨rfl, .refl m.console⟩
  define m _ _ := ⟨rfl, .refl m.console⟩
  call m params args after h := by
    obtain ⟨hdepth, hsink⟩ := h
    refine ⟨?_, hsink⟩
    show after.depth - 1 = m.depth
    rw [hdepth]
    exact Nat.add_sub_cancel m.depth 1

namespace Exec

open Machine

/-- A call gives the caller's own environment back, whatever became of the callee's. -/
theorem keepsFrame_call (limit : Option Nat) (n : Nat) (name : String) (args : List Value)
    (line : Nat) : Keeps SameFrame (call limit (execute limit n) name args line) := by
  refine keeps_call sequential_sameFrame respected_depth.toSequential ?_ limit
    (fun s => keeps_execute respected_depth limit n s) name args line
  intro m params args after h
  obtain ⟨hdepth, hsink⟩ := respected_depth.call m params args after h
  exact ⟨rfl, hdepth, hsink⟩

theorem keepsFrame_evaluate (limit : Option Nat) (n : Nat) (e : Expr) :
    Keeps SameFrame (evaluate limit n e) :=
  keeps_evaluate_of_call sequential_sameFrame (fun _ _ hc => ⟨rfl, rfl, hc⟩) limit n
    (fun k _ => keepsFrame_call limit k) e

/-- However an expression, an operand that has to have a value or a call with given arguments ends,
it leaves the machine as it was but for the table of functions, the input and the output. -/
theorem expressions_leave_the_caller_alone (limit : Option Nat) (n : Nat) (m after : Machine)
    (h : (∃ e result, (evaluate limit n e).run m = .finished result after) ∨
      (∃ line e result, (required line (evaluate limit n e)).run m = .finished result after) ∨
      ∃ name args line result,
        (call limit (execute limit n) name args line).run m = .finished result after) :
    after.environment = m.environment ∧ after.depth = m.depth ∧
    after = { m with
      functions := after.functions
      console := { m.console with
        input := after.console.input
        output := after.console.output } } := by
  have hframe : m.SameFrame after := by
    obtain ⟨e, result, hr⟩ | ⟨line, e, result, hr⟩ | ⟨name, args, line, result, hr⟩ := h
    · exact keepsFrame_evaluate limit n e m result after hr
    · exact Keeps.required sequential_sameFrame line (keepsFrame_evaluate limit n e) m _ after hr
    · exact keepsFrame_call limit n name args line m result after hr
  exact ⟨hframe.environment, hframe.depth, hframe.eq⟩

/-- The callee assigns to its own `x`, defines a function and then fails. -/
theorem failed_callee_leaves_the_caller_alone :
    let body : List Statement :=
      [.assign "x" (.literal (.num 2) 1) 1, .function "g" [] [] 1, .expr (.var "y" 1) 1]
    let caller : Machine :=
      { environment := Environment.empty.declare "x" .str (.str "kept")
        functions := (∅ : FunctionTable).insert "f" ⟨"f", [], body, 1⟩
        depth := 3 }
    ∃ after, (evaluate (some callLimit) 4 (.call "f" [] 2)).run caller =
        .finished (.error ⟨.unknownVariable "y", 1⟩) after ∧
      after.functions.contains "g" ∧
      after.environment = caller.environment ∧ after.depth = 3 := by
  intro body caller
  refine ⟨_, rfl, rfl, ?_⟩
  obtain ⟨henv, hdepth, _⟩ := expressions_leave_the_caller_alone (some callLimit) 4 caller _
    (.inl ⟨.call "f" [] 2, _, rfl⟩)
  exact ⟨henv, hdepth⟩

end Exec

end Skript
