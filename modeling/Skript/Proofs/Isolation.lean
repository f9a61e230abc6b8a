import Skript.Proofs.Ending

/-!
# What an expression can see

An expression sees of its environment the variables that it names, and the functions it calls see
none of it. Two callers with the same functions, depth and console that agree on those variables
get the same result, fault or lack of a result, and go on with the same functions and console.
-/
namespace Skript.Exec

/-- The run ends on both machines or on neither, and then with the same result, functions and
console. -/
def EndTogether {α : Type} (x : Nat → Exec α) (m₁ m₂ : Machine) : Prop :=
  EndAlike Eq Eq
    (fun a₁ a₂ => FunctionTable.Same a₁.functions a₂.functions ∧ a₁.console = a₂.console) x x m₁ m₂

theorem EndTogether.of_matches {α : Type} {E : Environment → Environment → Prop}
    {x : Nat → Exec α} (hs : Steady x)
    (hx : ∀ n, Matches (alike FunctionTable.Same E False) Eq (x n) (x n)) {m₁ m₂ : Machine}
    (hm : Machine.Alike FunctionTable.Same E m₁ m₂) : EndTogether x m₁ m₂ := by
  have hends := EndAlike.of_matches (C := alike FunctionTable.Same E False)
    (fun _ excused => excused.2) hs hx hm
  exact hends.mono fun _ _ halike => ⟨halike.functions, halike.console⟩

/-- An expression ends on both machines or on neither, with the same result, if they have the same
functions, depth and console and give the same values to the variables that the expression names.
The call of a function with given arguments does so whatever variables the two callers have. -/
theorem expressions_see_only_their_variables (limit : Option Nat) (e : Expr) (m₁ m₂ : Machine)
    (hfunctions : FunctionTable.Same m₁.functions m₂.functions) (hdepth : m₁.depth = m₂.depth)
    (hconsole : m₁.console = m₂.console)
    (hvariables : ∀ name ∈ e.variables,
      m₁.environment.get? name = m₂.environment.get? name) :
    EndTogether (fun n => evaluate limit n e) m₁ m₂ ∧
    ∀ (env₁ env₂ : Environment) (name : String) (args : List Value) (line : Nat),
      EndTogether (fun n => call limit (execute limit n) name args line)
        { m₁ with environment := env₁ } { m₂ with environment := env₂ } := by
  have hs : ∀ n s, Matches (alike FunctionTable.Same Eq False) Eq (execute limit n s)
      (execute limit n s) := fun n s => matches_execute tableRelation_same limit (.inl rfl) s
  constructor
  · refine EndTogether.of_matches
      (E := fun a b => ∀ name ∈ e.variables, a.get? name = b.get? name)
      (steady_evaluate limit e) (fun n => ?_)
      ⟨hfunctions, hvariables, hdepth, hconsole⟩
    exact matches_evaluate tableRelation_same limit
      (fun i _ j hij s => by obtain rfl | h := hij; exacts [hs i s, h.2.elim]) (.inl rfl) e
      fun name hn a b h => h name hn
  · intro env₁ env₂ name args line
    exact EndTogether.of_matches (E := fun _ _ => True)
      (steady_call limit name args line)
      (fun n => matches_call tableRelation_same limit (hs n) name args line)
      ⟨hfunctions, trivial, hdepth, hconsole⟩

/-- One caller has a variable that the body names, the other has not, and their functions were
defined in different orders; the body finds the variable for neither. -/
theorem callee_cannot_see_its_callers_variables :
    let f : Definition := ⟨"f", ["a"], [.ret (.var "y" 2) 2], 1⟩
    let g : Definition := ⟨"g", [], [], 3⟩
    let e : Expr := .call "f" [.var "x" 4] 4
    let m₁ : Machine :=
      { environment := (Environment.empty.set "x" (.num 1)).set "y" (.num 7)
        functions := ((∅ : FunctionTable).insert "f" f).insert "g" g }
    let m₂ : Machine :=
      { environment := Environment.empty.declare "x" .num (.num 1)
        functions := ((∅ : FunctionTable).insert "g" g).insert "f" f }
    EndTogether (fun n => evaluate (some callLimit) n e) m₁ m₂ ∧
    ∃ after, Ends (fun n => evaluate (some callLimit) n e) m₁
      (.error ⟨.unknownVariable "y", 2⟩) after := by
  intro f g e m₁ m₂
  have hfunctions : FunctionTable.Same m₁.functions m₂.functions := by
    intro name
    simp only [m₁, m₂, Std.TreeMap.getElem?_insert]
    by_cases hf : "f" = name
    · subst hf
      rfl
    · simp [hf]
  have hvariables : ∀ name ∈ e.variables,
      m₁.environment.get? name = m₂.environment.get? name := by
    intro name hn
    have hx : name = "x" := by simpa [e, Expr.variables, Expr.variablesOfAll] using hn
    subst hx
    simp [m₁, m₂]
  refine ⟨?_, _, 4, rfl⟩
  exact (expressions_see_only_their_variables (some callLimit) e m₁ m₂ hfunctions rfl rfl
    hvariables).1

end Skript.Exec
