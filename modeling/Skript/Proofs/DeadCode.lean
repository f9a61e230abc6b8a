import Skript.Proofs.Passage

/-!
# What a `return` cuts off

A function ends at the first `return` that stands directly in its body. What stands behind it never
runs and may be left out, in all definitions of a program at any nesting and in all functions of the
table. A `return` anywhere else, at top level or in a block, is only a value: what stands behind it
runs like what stands behind any other statement.
-/
namespace Skript

mutual

/-- The statement without what stands behind the first direct `return` in the functions that it
defines. -/
def Statement.truncate : Statement → Statement
  | .function name params body line =>
      .function name params (Statement.upToReturn (Statement.truncateAll body)) line
  | .choose choice => .choose choice.truncate
  | .loop init condition update body line =>
      .loop init.truncate condition update.truncate (Statement.truncateAll body) line
  | .ret value line => .ret value line
  | .print operand line => .print operand line
  | .declare name kind line => .declare name kind line
  | .assignTyped name kind value line => .assignTyped name kind value line
  | .assign name value line => .assign name value line
  | .expr operand line => .expr operand line

def Statement.truncateAll : List Statement → List Statement
  | [] => []
  | s :: ss => s.truncate :: Statement.truncateAll ss

def Choice.truncate : Choice → Choice
  | .mk condition body otherwise line =>
      .mk condition (Statement.truncateAll body) otherwise.truncate line

def Otherwise.truncate : Otherwise → Otherwise
  | .nothing => .nothing
  | .block body => .block (Statement.truncateAll body)
  | .elseIf choice => .elseIf choice.truncate

end

theorem Statement.truncateAll_eq (ss : List Statement) :
    Statement.truncateAll ss = ss.map Statement.truncate := by
  induction ss with
  | nil => rfl
  | cons s ss ih => rw [Statement.truncateAll, ih, List.map_cons]

def Definition.truncate (d : Definition) : Definition :=
  ⟨d.name, d.params, Statement.upToReturn (d.body.map Statement.truncate), d.line⟩

def FunctionTable.truncate (table : FunctionTable) : FunctionTable :=
  table.map fun _ d => d.truncate

/-- The machine with all its functions truncated. -/
def Machine.truncate (m : Machine) : Machine :=
  { m with functions := m.functions.truncate }

/-- The second table has the functions of the first, truncated. -/
def FunctionTable.Truncated (a b : FunctionTable) : Prop :=
  FunctionTable.Same a.truncate b

/-- The functions are truncated and all else is in common. -/
abbrev Machine.Truncated : Machine → Machine → Prop :=
  Machine.Alike FunctionTable.Truncated Eq

/-- A part belongs to what is left of it. -/
def Pairing.truncated : Pairing where
  literals := Eq
  lines := Eq
  names _ := True
  exprs := Eq
  definitions d d' := d' = d.truncate
  statements s s' := s' = s.truncate

def Resemblance.truncated : Resemblance :=
  .exact Eq FunctionTable.Truncated fun _ => False

theorem Machine.truncated_truncate (m : Machine) : m.Truncated m.truncate :=
  ⟨fun _ => rfl, rfl, rfl, rfl⟩

namespace FunctionTable

theorem truncated_iff {a b : FunctionTable} :
    a.Truncated b ↔ ∀ name : String, b[name]? = a[name]?.map Definition.truncate := by
  have htruncate : ∀ name : String, a.truncate[name]? = a[name]?.map Definition.truncate :=
    fun name => Std.TreeMap.getElem?_map
  constructor
  · intro h name
    rw [← h name, htruncate name]
  · intro h name
    rw [h name, htruncate name]

theorem Truncated.insert {a b : FunctionTable} (h : a.Truncated b) (d : Definition) :
    FunctionTable.Truncated (a.insert d.name d) (b.insert d.name d.truncate) := by
  rw [truncated_iff] at h ⊢
  intro name
  rw [Std.TreeMap.getElem?_insert, Std.TreeMap.getElem?_insert, h name]
  by_cases hname : compare d.name name = .eq
  · rw [if_pos hname, if_pos hname, Option.map_some]
  · rw [if_neg hname, if_neg hname]

end FunctionTable

namespace Statement

theorem isReturn_truncate (s : Statement) : s.truncate.isReturn = s.isReturn := by
  cases s <;> rfl

/-- Nothing is left to be cut off the second time. -/
theorem upToReturn_upToReturn (ss : List Statement) :
    upToReturn (upToReturn ss) = upToReturn ss := by
  induction ss with
  | nil => rfl
  | cons s ss ih =>
    by_cases hs : s.isReturn
    · simp [upToReturn, hs]
    · simp [upToReturn, hs, ih]

end Statement

namespace Pairing

theorem truncated_forall₂ (ss : List Statement) :
    List.Forall₂ truncated.statements ss (ss.map Statement.truncate) :=
  List.forall₂_map_right_iff.2 (List.forall₂_same.2 fun _ _ => rfl)

theorem truncated_exprForm {e e' : Expr} (h : truncated.exprs e e') :
    Expr.SameForm truncated e e' := by
  obtain rfl : e = e' := h
  exact Expr.sameForm_self (fun _ => rfl) (fun _ => rfl) (fun _ => trivial) (fun _ => rfl) e

theorem truncated_statementForm {s s' : Statement} (h : truncated.statements s s') :
    Statement.SameForm truncated s s' := by
  obtain rfl : s' = s.truncate := h
  cases s with
  | function name params body line =>
    rw [Statement.truncate, Statement.truncateAll_eq]
    exact .function rfl
  | ret value line => exact .ret rfl rfl
  | print operand line => exact .print rfl rfl
  | choose choice =>
    obtain ⟨condition, body, otherwise, line⟩ := choice
    rw [Statement.truncate, Choice.truncate, Statement.truncateAll_eq]
    refine .choose rfl (truncated_forall₂ body) ?_ rfl
    cases otherwise with
    | nothing => exact .nothing
    | block body =>
      rw [Otherwise.truncate, Statement.truncateAll_eq]
      exact .block (truncated_forall₂ body)
    | elseIf choice => exact .elseIf rfl
  | loop init condition update body line =>
    rw [Statement.truncate, Statement.truncateAll_eq]
    exact .loop rfl rfl rfl (truncated_forall₂ body) rfl
  | declare name kind line => exact .declare
  | assignTyped name kind value line => exact .assignTyped rfl rfl
  | assign name value line => exact .assign rfl rfl
  | expr operand line => exact .expr rfl

end Pairing

/-- What a body runs is the same before and after it is truncated, up to what is left out of the
definitions in it. -/
theorem Resemblance.lawful_truncated (limit : Option Nat) :
    Resemblance.truncated.Lawful .truncated limit limit := by
  refine Resemblance.Lawful.exact Pairing.truncated_exprForm ?_ id ?_ ?_ ?_ ?_ ?_
  · intro cause line line' hline
    have hline : line = line' := hline
    rw [hline]
  · intro a b hab name
    rw [FunctionTable.truncated_iff.1 hab name]
    cases a[name]? with
    | none => exact .none
    | some d => exact .some rfl
  · rintro a b d _ hab rfl
    exact hab.insert d
  · rintro d _ rfl
    exact ⟨rfl, rfl, rfl⟩
  · rintro d _ rfl
    have hreturn : ∀ s s', Pairing.truncated.statements s s' → s.isReturn = s'.isReturn := by
      rintro s _ rfl
      exact (Statement.isReturn_truncate s).symm
    have hbody := Statement.forall₂_upToReturn hreturn (Pairing.truncated_forall₂ d.body)
    rw [Definition.truncate, Statement.upToReturn_upToReturn]
    exact hbody
  · rintro E line _ depth rfl
    exact Exec.Matches.ofExcept _ fun _ _ => rfl

open Exec

theorem matches_executeAll_truncated (limit : Option Nat) (n : Nat) (ss : List Statement) :
    Matches (Resemblance.truncated.comparison Eq) Eq (executeAll limit n ss)
      (executeAll limit n (ss.map Statement.truncate)) := by
  have laws := (Resemblance.lawful_truncated limit).statementLaws Pairing.truncated_statementForm
  have hmatches := laws.matches_executeAll (n := n) (.inl rfl) (Pairing.truncated_forall₂ ss)
  exact hmatches.mono fun _ _ => option_rel_eq_iff.1

/-- Runs the statements before a `return`, then the `return`, and then those behind it. -/
def Exec.runPast (limit : Option Nat) (n : Nat) (before : List Statement) (value : Expr)
    (line : Nat) (behind : List Statement) : Exec (Option Value) := do
  let _ ← executeAll limit n before
  let v ← execute limit n (.ret value line)
  lastOf (execute limit n) v behind

theorem Exec.executeAll_eq_runPast (limit : Option Nat) (n : Nat) (before : List Statement)
    (value : Expr) (line : Nat) (behind : List Statement) :
    executeAll limit n (before ++ .ret value line :: behind) =
      runPast limit n before value line behind := by
  rw [executeAll, lastOf_append]
  rfl

/-- A program ends if and only if it ends with all its functions and those of the machine truncated,
with the same result or fault, the same variables, input and output, and the functions truncated. A
call runs the body of its function up to the first direct `return`, whatever stands in the blocks
before that. A `return` at top level, in a branch of a choice or in the block of a loop is followed
by what stands behind it. -/
theorem only_direct_returns_cut_off :
    (∀ limit ss m m', m.Truncated m' →
      EndAlike Eq Eq Machine.Truncated (fun n => executeAll limit n ss)
        (fun n => executeAll limit n (ss.map Statement.truncate)) m m') ∧
    (∀ limit n name args line m d, Builtin.find? name = none → m.functions[name]? = some d →
      checkArity name d.params.length args.length = .ok () → checkDepth limit m.depth = .ok () →
      (call limit (execute limit n) name args line).run m =
        (inCall (.ofArguments d.params args)
          (executeAll limit n (Statement.upToReturn d.body))).run m) ∧
    ∀ limit n before value line behind,
      let block := before ++ .ret value line :: behind
      let past := runPast limit n before value line behind
      executeAll limit n block = past ∧
      (∀ condition otherwise i,
        execute limit (n + 1) (.choose (.mk condition block otherwise i)) = do
        let v ← required i (evaluate limit n condition)
        if v.isTruthy then past else executeOtherwise limit n otherwise) ∧
      (∀ condition body i,
        execute limit (n + 1) (.choose (.mk condition body (.block block) i)) = do
        let v ← required i (evaluate limit n condition)
        if v.isTruthy then executeAll limit n body else past) ∧
      ∀ init condition update i, execute limit (n + 1) (.loop init condition update block i) = do
        let _ ← execute limit n init
        repeatWhile (Value.isTruthy <$> required i (evaluate limit n condition))
          (do
            let _ ← past
            let _ ← execute limit n update) n
        return none := by
  refine ⟨?_, ?_, ?_⟩
  · intro limit ss m m' hm
    exact EndAlike.of_matches (fun _ => id) (steady_executeAll limit _)
      (fun n => matches_executeAll_truncated limit n ss) hm
  · intro limit n name args line m d hname hd harity hdepth
    rw [run_call_of_defined hname hd harity, hdepth]
    rfl
  · intro limit n before value line behind block past
    have hblock : executeAll limit n block = past :=
      executeAll_eq_runPast limit n before value line behind
    refine ⟨hblock, ?_, ?_, ?_⟩
    · intro condition otherwise i
      rw [execute_choose, ← hblock]
      rfl
    · intro condition body i
      rw [execute_choose, ← hblock]
      rfl
    · intro init condition update i
      rw [execute, ← hblock]
      rfl

/-- The function `f` defines `g` before its own `return` and `h` behind it. The `return` in the
choice does not end it, so that something is printed. -/
theorem truncated_function_still_prints :
    let whole : List Statement :=
      [.function "f" []
        [.function "g" [] [.ret (.literal (.num 1) 2) 2, .print (.literal (.num 2) 2) 2] 2,
          .choose (.mk (.literal (.bool true) 3)
            [.ret (.literal (.num 3) 3) 3, .print (.literal (.bool true) 4) 4] .nothing 3),
          .ret (.call "g" [] 5) 5,
          .function "h" [] [] 6] 1,
        .expr (.call "f" [] 7) 7]
    let cut : List Statement :=
      [.function "f" []
        [.function "g" [] [.ret (.literal (.num 1) 2) 2] 2,
          .choose (.mk (.literal (.bool true) 3)
            [.ret (.literal (.num 3) 3) 3, .print (.literal (.bool true) 4) 4] .nothing 3),
          .ret (.call "g" [] 5) 5] 1,
        .expr (.call "f" [] 7) 7]
    whole.map Statement.truncate = cut ∧ Machine.Truncated {} {} ∧
    ∃ after, Ends (fun n => executeAll (some callLimit) n cut) {} (.ok (some (.num 1))) after ∧
      after.console.output = "true\n".toUTF8.data ∧ after.functions["h"]? = none := by
  intro whole cut
  have hcut : whole.map Statement.truncate = cut := rfl
  have hm : Machine.Truncated {} {} := Machine.truncated_truncate {}
  have hwhole : ∃ after, Ends (fun n => executeAll (some callLimit) n whole) {}
      (.ok (some (.num 1))) after ∧ after.console.output = "true\n".toUTF8.data ∧
      after.functions["h"]? = none := by
    refine ⟨_, ⟨9, rfl⟩, ?_, ?_⟩
    · rfl
    · rfl
  obtain ⟨after, hends, houtput, hh⟩ := hwhole
  have halike := only_direct_returns_cut_off.1 (some callLimit) whole {} {} hm
  rw [hcut] at halike
  obtain ⟨result, last, hlast⟩ := halike.ends.1 ⟨_, after, hends⟩
  obtain ⟨hresult, hmachines⟩ := halike.agree hends hlast
  have htable := FunctionTable.truncated_iff.1 hmachines.functions "h"
  cases hresult with
  | ok value =>
    subst value
    refine ⟨hcut, hm, last, hlast, ?_, ?_⟩
    · rw [← hmachines.console, houtput]
    · rw [htable, hh, Option.map_none]

end Skript
