import Mathlib.Data.List.Forall2
import Skript.Proofs.Running

/-!
# Two runs side by side

Two computations match if, started on machines that are related, they end in the same way on
machines that are related again. Some ends of the first run may be excused: then nothing is asked
of the second. Every way of putting computations together respects matching, so that a comparison
of two evaluations needs one case for each form of program and none for faults.
-/
namespace Skript

variable {α β γ δ : Type}

/-- How two runs are compared. -/
structure Comparison where
  machines : Machine → Machine → Prop
  faults : RunFault → RunFault → Prop
  /-- The ends of the first run that ask nothing of the second. No fault means that the bound was
  used up. -/
  excused : Option RunFault → Prop

/-- The outcomes of two runs agree. -/
inductive Outcome.Matches (C : Comparison) (V : α → β → Prop) :
    Outcome RunFault α → Outcome RunFault β → Prop
  | ok {a : α} {b : β} {m₁ m₂ : Machine} (value : V a b) (machines : C.machines m₁ m₂) :
      Matches C V (.finished (.ok a) m₁) (.finished (.ok b) m₂)
  | error {f g : RunFault} {m₁ m₂ : Machine} (faults : C.faults f g)
      (machines : C.machines m₁ m₂) :
      Matches C V (.finished (.error f) m₁) (.finished (.error g) m₂)
  | outOfFuel : Matches C V .outOfFuel .outOfFuel
  | excusedFault {f : RunFault} {m : Machine} {outcome : Outcome RunFault β}
      (excused : C.excused (some f)) : Matches C V (.finished (.error f) m) outcome
  | excusedFuel {outcome : Outcome RunFault β} (excused : C.excused none) :
      Matches C V .outOfFuel outcome

theorem Outcome.Matches.mono {C : Comparison} {V U : α → β → Prop} {first : Outcome RunFault α}
    {second : Outcome RunFault β} (hx : Outcome.Matches C V first second)
    (h : ∀ a b, V a b → U a b) : Outcome.Matches C U first second := by
  cases hx with
  | ok value machines => exact .ok (h _ _ value) machines
  | error faults machines => exact .error faults machines
  | outOfFuel => exact .outOfFuel
  | excusedFault excused => exact .excusedFault excused
  | excusedFuel excused => exact .excusedFuel excused

namespace Exec

/-- From related machines the two computations come to outcomes that agree. -/
def Matches (C : Comparison) (V : α → β → Prop) (x : Exec α) (y : Exec β) : Prop :=
  ∀ m₁ m₂, C.machines m₁ m₂ → Outcome.Matches C V (x.run m₁) (y.run m₂)

namespace Matches

variable {C : Comparison} {V : α → β → Prop} {W : γ → δ → Prop}

theorem pure {a : α} {b : β} (h : V a b) :
    Matches C V (Pure.pure a : Exec α) (Pure.pure b : Exec β) :=
  fun _ _ hm => .ok h hm

theorem bind {x : Exec α} {y : Exec β} {f : α → Exec γ} {g : β → Exec δ} (hx : Matches C V x y)
    (hf : ∀ a b, V a b → Matches C W (f a) (g b)) : Matches C W (x >>= f) (y >>= g) := by
  intro m₁ m₂ hm
  have h := hx m₁ m₂ hm
  rw [run_bind, run_bind]
  generalize x.run m₁ = first at h
  generalize y.run m₂ = second at h
  cases h with
  | ok value machines => exact hf _ _ value _ _ machines
  | error faults machines => exact .error faults machines
  | outOfFuel => exact .outOfFuel
  | excusedFault excused => exact .excusedFault excused
  | excusedFuel excused => exact .excusedFuel excused

theorem mono {U : α → β → Prop} {x : Exec α} {y : Exec β} (hx : Matches C V x y)
    (h : ∀ a b, V a b → U a b) : Matches C U x y := by
  intro m₁ m₂ hm
  exact (hx m₁ m₂ hm).mono h

theorem map {x : Exec α} {y : Exec β} {f : α → γ} {g : β → δ} (hx : Matches C V x y)
    (hf : ∀ a b, V a b → W (f a) (g b)) : Matches C W (f <$> x) (g <$> y) := by
  rw [map_eq_pure_bind, map_eq_pure_bind]
  exact bind hx fun a b h => pure (hf a b h)

theorem fail {cause cause' : RunCause} {line line' : Nat}
    (h : C.faults ⟨cause, line⟩ ⟨cause', line'⟩) :
    Matches C V (Exec.fail cause line : Exec α) (Exec.fail cause' line' : Exec β) :=
  fun _ _ hm => .error h hm

/-- A bound that is used up on the left is used up on the right too, or excused. -/
theorem outOfFuel {y : Exec β} (h : y = Exec.outOfFuel ∨ C.excused none) :
    Matches C V (Exec.outOfFuel : Exec α) y := by
  intro m₁ m₂ _
  obtain rfl | h := h
  · exact .outOfFuel
  · exact .excusedFuel h

theorem machine : Matches C C.machines Exec.machine Exec.machine :=
  fun _ _ hm => .ok hm hm

theorem update {f g : Machine → Machine}
    (h : ∀ m₁ m₂, C.machines m₁ m₂ → C.machines (f m₁) (g m₂)) :
    Matches C Eq (Exec.update f) (Exec.update g) :=
  fun m₁ m₂ hm => .ok rfl (h m₁ m₂ hm)

/-- The same result on both sides, with a fault on either's line. -/
theorem ofExcept {line line' : Nat} (result : Except RunCause α)
    (h : ∀ cause, result = .error cause → C.faults ⟨cause, line⟩ ⟨cause, line'⟩) :
    Matches C Eq (Exec.ofExcept line result) (Exec.ofExcept line' result) := by
  cases result with
  | ok a => exact pure rfl
  | error cause => exact fail (h cause rfl)

theorem required {line line' : Nat} {U : Value → Value → Prop} {x y : Exec (Option Value)}
    (hx : Matches C (Option.Rel U) x y)
    (h : C.faults ⟨.missingValue, line⟩ ⟨.missingValue, line'⟩) :
    Matches C U (Exec.required line x) (Exec.required line' y) := by
  refine bind hx fun a b hab => ?_
  cases hab with
  | none => exact fail h
  | some hv => exact pure hv

theorem collect {P : γ → δ → Prop} {f : γ → Exec α} {g : δ → Exec β}
    (hf : ∀ a b, P a b → Matches C V (f a) (g b)) {as : List γ} {bs : List δ}
    (h : List.Forall₂ P as bs) :
    Matches C (List.Forall₂ V) (Exec.collect f as) (Exec.collect g bs) := by
  induction h with
  | nil => exact pure .nil
  | cons hab _ ih =>
    refine bind (hf _ _ hab) fun v w hvw => ?_
    exact bind ih fun vs ws hvs => pure (.cons hvw hvs)

theorem collect_same {f g : γ → Exec α} (hfg : ∀ a, Matches C Eq (f a) (g a)) (as : List γ) :
    Matches C Eq (Exec.collect f as) (Exec.collect g as) := by
  have hsame : ∀ a b, a = b → Matches C Eq (f a) (g b) := by
    rintro a _ rfl
    exact hfg a
  have hcollect := collect hsame (List.forall₂_refl as)
  exact hcollect.mono fun vs ws hvs => by rwa [List.forall₂_eq_eq_eq] at hvs

theorem lastOf {P : γ → δ → Prop} {run : γ → Exec (Option α)} {run' : δ → Exec (Option β)}
    {U : Option α → Option β → Prop} (hrun : ∀ a b, P a b → Matches C U (run a) (run' b))
    {as : List γ} {bs : List δ} (h : List.Forall₂ P as bs) {last : Option α} {last' : Option β}
    (hlast : U last last') :
    Matches C U (Exec.lastOf run last as) (Exec.lastOf run' last' bs) := by
  induction h generalizing last last' with
  | nil => exact pure hlast
  | cons hab _ ih => exact bind (hrun _ _ hab) fun v w hvw => ih hvw

theorem repeatWhile {condition condition' : Exec Bool} {round round' : Exec Unit}
    (hc : Matches C Eq condition condition') (hr : Matches C Eq round round') {n k : Nat}
    (hn : n = k ∨ n ≤ k ∧ C.excused none) :
    Matches C Eq (Exec.repeatWhile condition round n) (Exec.repeatWhile condition' round' k) := by
  induction n generalizing k with
  | zero => exact outOfFuel (hn.imp (fun h => by rw [← h]; rfl) And.right)
  | succ n ih =>
    obtain ⟨k, rfl⟩ : ∃ l, k = l + 1 := Nat.exists_eq_add_one.mpr (by omega)
    rw [Exec.repeatWhile, Exec.repeatWhile]
    refine bind hc fun b b' hb => ?_
    subst hb
    cases b with
    | false => exact pure rfl
    | true => exact bind hr fun _ _ _ => ih (hn.imp (by omega) (And.imp_left (by omega)))

/-- Calls match if their bodies do, in a comparison of their own. -/
theorem inCall {D : Comparison} {locals locals' : Environment} {body : Exec α} {body' : Exec β}
    (hb : Matches D V body body')
    (henter : ∀ m₁ m₂, C.machines m₁ m₂ → D.machines (m₁.enter locals) (m₂.enter locals'))
    (hleave : ∀ m₁ m₂ a₁ a₂, C.machines m₁ m₂ → D.machines a₁ a₂ →
      C.machines (m₁.leave a₁) (m₂.leave a₂))
    (hfaults : ∀ f g, D.faults f g → C.faults f g) (hexcused : ∀ f, D.excused f → C.excused f) :
    Matches C V (Exec.inCall locals body) (Exec.inCall locals' body') := by
  intro m₁ m₂ hm
  have h := hb _ _ (henter m₁ m₂ hm)
  rw [run_inCall, run_inCall]
  generalize body.run (m₁.enter locals) = first at h
  generalize body'.run (m₂.enter locals') = second at h
  cases h with
  | ok value machines => exact .ok value (hleave _ _ _ _ hm machines)
  | error faults machines => exact .error (hfaults _ _ faults) (hleave _ _ _ _ hm machines)
  | outOfFuel => exact .outOfFuel
  | excusedFault excused => exact .excusedFault (hexcused _ excused)
  | excusedFuel excused => exact .excusedFuel (hexcused _ excused)

end Matches

end Exec

end Skript
