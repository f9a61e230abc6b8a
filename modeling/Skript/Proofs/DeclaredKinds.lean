import Skript.Proofs.Session

/-!
# Declared variables hold their kinds

A variable that was declared with a kind always holds a value of exactly that kind. Three ways of
writing lead to it, and all of them convert the value first or refuse it; a function's body starts
in an environment that declares nothing.
-/
namespace Skript

/-- Every variable with a declared kind is bound, and to a value of that kind. -/
def Environment.Typed (env : Environment) : Prop :=
  ∀ name kind, env.declared? name = some kind → ∃ v, env.get? name = some v ∧ v.kind = kind

namespace Environment

theorem typed_empty : empty.Typed := by
  intro name kind h
  simp [declared?] at h

theorem Typed.declare {env : Environment} (h : env.Typed) (name : String) {kind : Kind} {v : Value}
    (hv : v.kind = kind) : (env.declare name kind v).Typed := by
  intro other k hk
  rw [declared?_declare] at hk
  rw [get?_declare]
  by_cases hn : name = other
  · rw [if_pos hn] at hk ⊢
    cases hk
    exact ⟨v, rfl, hv⟩
  · rw [if_neg hn] at hk ⊢
    exact h other k hk

theorem Typed.set {env : Environment} (h : env.Typed) (name : String) {v : Value}
    (hv : ∀ kind, env.declared? name = some kind → v.kind = kind) : (env.set name v).Typed := by
  intro other k hk
  rw [declared?_set] at hk
  rw [get?_set]
  by_cases hn : name = other
  · subst hn
    rw [if_pos rfl]
    exact ⟨v, rfl, hv k hk⟩
  · rw [if_neg hn]
    exact h other k hk

/-- Parameters are bound without a kind. -/
@[simp] theorem declared?_ofArguments (params : List String) (args : List Value) (name : String) :
    (ofArguments params args).declared? name = none := by
  have hfold : ∀ (bindings : List (String × Value)) (env : Environment),
      (bindings.foldl (fun env binding => env.set binding.1 binding.2) env).declared? name =
        env.declared? name := by
    intro bindings
    induction bindings with
    | nil => intro env; rfl
    | cons binding bindings ih => intro env; rw [List.foldl_cons, ih, declared?_set]
  exact (hfold (params.zip args) empty).trans (by simp [declared?])

theorem typed_ofArguments (params : List String) (args : List Value) :
    (ofArguments params args).Typed := by
  intro name kind h
  rw [declared?_ofArguments] at h
  cases h

end Environment

/-- No effect spoils the kinds of declared variables. -/
theorem respected_typed : Respected fun m after => m.environment.Typed → after.environment.Typed where
  refl _ h := h
  trans hab hbc h := hbc (hab h)
  console _ _ _ h := h
  declare _ name _ _ hv h := h.declare name hv
  set _ name _ hv h := h.set name hv
  define _ _ _ h := h
  call _ _ _ _ _ h := h

/-- After any session on a fresh machine every declared variable holds a value of its kind. Every
statement keeps this up, whether it ends well or with a fault, and so does the body of a function
in the environment of its arguments. -/
theorem declared_variables_hold_their_kinds :
    (∀ (console : Console) (requests : List Request) (m : Machine),
      Session requests (.fresh console) m → m.environment.Typed) ∧
    (∀ (limit : Option Nat) (n : Nat) (s : Statement) (m : Machine) result after,
      (execute limit n s).run m = .finished result after →
      m.environment.Typed → after.environment.Typed) ∧
    ∀ (limit : Option Nat) (n : Nat) (params : List String) (args : List Value)
      (body : List Statement) (m : Machine) result after,
      (Exec.lastUntil Statement.isReturn (execute limit n) none body).run
        (m.enter (.ofArguments params args)) = .finished result after →
      (Environment.ofArguments params args).Typed ∧ after.environment.Typed := by
  refine ⟨fun console requests m h => ?_, fun limit n s m result after h => ?_, ?_⟩
  · exact h.keeps respected_typed Environment.typed_empty
  · exact Exec.keeps_execute respected_typed limit n s m result after h
  · intro limit n params args body m result after h
    have hstart := Environment.typed_ofArguments params args
    have hbody := Exec.Keeps.lastUntil respected_typed.toSequential Statement.isReturn none body
      fun s _ => Exec.keeps_execute respected_typed limit n s
    exact ⟨hstart, hbody _ _ _ h hstart⟩

/-- A text is refused by a variable that was declared as a number, which then keeps its zero; in a
function whose parameter has the same name the assignment goes through. -/
theorem declared_number_refuses_text :
    let text : Statement := .assign "x" (.literal (.str "ab") 2) 2
    let declared : Machine := { environment := Environment.empty.declare "x" .num (.num 0) }
    let fault : RunFault := ⟨.typeMismatch (.slot (.str "ab") .num "x"), 2⟩
    (Session [.program [.declare "x" .num 1, text]] (.fresh {}) declared ∧
      (execute none 2 text).run declared = .finished (.error fault) declared ∧
      declared.environment.Typed) ∧
    ∃ after, (Exec.lastUntil Statement.isReturn (execute none 2) none [text]).run
        (declared.enter (.ofArguments ["x"] [.num 1])) = .finished (.ok (some (.str "ab"))) after ∧
      (Environment.ofArguments ["x"] [.num 1]).Typed ∧ after.environment.Typed := by
  intro text declared fault
  obtain ⟨hsession, hstatement, hbody⟩ := declared_variables_hold_their_kinds
  have hs : Session [.program [.declare "x" .num 1, text]] (.fresh {}) declared := by
    have hrun : (executeAll (some callLimit) 2 [.declare "x" .num 1, text]).run (.fresh {}) =
        .finished (.error fault) declared := rfl
    exact .next (.program hrun) (.done declared)
  have hr : (execute none 2 text).run declared = .finished (.error fault) declared := rfl
  refine ⟨⟨hs, hr, hstatement none 2 text declared _ _ hr (hsession {} _ declared hs)⟩, _, rfl, ?_⟩
  exact hbody none 2 ["x"] [.num 1] [text] declared _ _ rfl

end Skript
