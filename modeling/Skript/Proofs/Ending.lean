import Skript.Proofs.Lockstep

/-!
# Runs that end

A program ends on a machine if it does so for some bound. A larger bound never changes an outcome
that a smaller one has reached, so a program has at most one outcome on each machine.
-/
namespace Skript.Exec

variable {α β : Type}

/-- For some bound the computation ends with this result and this machine. -/
def Ends (x : Nat → Exec α) (m : Machine) (result : Except RunFault α) (after : Machine) : Prop :=
  ∃ n, (x n).run m = .finished result after

/-- A larger bound only adds outcomes. -/
def Steady (x : Nat → Exec α) : Prop :=
  ∀ n k, n ≤ k → Matches (alike Eq Eq True) Eq (x n) (x k)

theorem alike_self {m : Machine} : Machine.Alike Eq Eq m m := ⟨rfl, rfl, rfl, rfl⟩

theorem eq_of_alike {m₁ m₂ : Machine} (h : Machine.Alike Eq Eq m₁ m₂) : m₁ = m₂ := by
  obtain ⟨environment, functions, depth, console⟩ := m₁
  obtain ⟨rfl, rfl, rfl, rfl⟩ := h
  rfl

theorem Steady.finished_of_le {x : Nat → Exec α} (hx : Steady x) {n k : Nat} (hn : n ≤ k)
    {m after : Machine} {result : Except RunFault α} (h : (x n).run m = .finished result after) :
    (x k).run m = .finished result after := by
  have hm := hx n k hn m m alike_self
  rw [h] at hm
  generalize (x k).run m = second at hm
  cases hm with
  | ok value machines => rw [value, eq_of_alike machines]
  | @error f g _ _ faults machines =>
    have hfg : f = g := faults
    rw [hfg, eq_of_alike machines]
  | excusedFault excused => cases excused.1

/-- There is one outcome at most. -/
theorem Ends.unique {x : Nat → Exec α} (hx : Steady x) {m a₁ a₂ : Machine}
    {r₁ r₂ : Except RunFault α} (h₁ : Ends x m r₁ a₁) (h₂ : Ends x m r₂ a₂) :
    r₁ = r₂ ∧ a₁ = a₂ := by
  obtain ⟨n, hn⟩ := h₁
  obtain ⟨k, hk⟩ := h₂
  have hn' := hx.finished_of_le (Nat.le_max_left n k) hn
  have hk' := hx.finished_of_le (Nat.le_max_right n k) hk
  rw [hn'] at hk'
  cases hk'
  exact ⟨rfl, rfl⟩

theorem steady_execute (limit : Option Nat) (s : Statement) :
    Steady fun n => execute limit n s :=
  fun _ _ hn => matches_execute tableRelation_eq limit (.inr ⟨hn, trivial⟩) s

theorem steady_call (limit : Option Nat) (name : String) (args : List Value) (line : Nat) :
    Steady fun n => call limit (execute limit n) name args line :=
  fun n k hn => matches_call tableRelation_eq limit (fun s => steady_execute limit s n k hn) name
    args line

theorem steady_evaluate (limit : Option Nat) (e : Expr) : Steady fun n => evaluate limit n e :=
  fun _ _ hn => matches_evaluate tableRelation_eq limit
    (fun _ _ _ hij s => matches_execute tableRelation_eq limit hij s) (.inr ⟨hn, trivial⟩) e
    fun _ _ _ _ h => by rw [h]

theorem steady_executeAll (limit : Option Nat) (ss : List Statement) :
    Steady fun n => executeAll limit n ss :=
  fun n k hn => Matches.lastOf (P := Eq) (fun s _ hs => hs ▸ steady_execute limit s n k hn)
    (List.forall₂_refl ss) rfl

theorem Steady.required {x : Nat → Exec (Option Value)} (hx : Steady x) (line : Nat) :
    Steady fun n => required line (x n) :=
  fun n k hn => Matches.required ((hx n k hn).mono fun _ _ => option_rel_eq_iff.2) rfl

theorem Steady.collect {f : Nat → α → Exec β} (hf : ∀ a, Steady fun n => f n a) (as : List α) :
    Steady fun n => collect (f n) as :=
  fun n k hn => Matches.collect_same (fun a => hf a n k hn) as

/-! ### Runs in parts -/

/-- A run ends with the failure of its first part, or with what follows the end of this part. -/
theorem ends_bind_iff {x : Nat → Exec α} {f : Nat → α → Exec β} (hx : Steady x)
    (hf : ∀ a, Steady fun n => f n a) {m after : Machine} {result : Except RunFault β} :
    Ends (fun n => x n >>= f n) m result after ↔
      (∃ fault, Ends x m (.error fault) after ∧ result = .error fault) ∨
      ∃ a middle, Ends x m (.ok a) middle ∧ Ends (fun n => f n a) middle result after := by
  constructor
  · rintro ⟨n, hn⟩
    obtain ⟨fault, hfirst, hfault⟩ | ⟨a, middle, hfirst, hsecond⟩ := finished_of_bind hn
    · exact .inl ⟨fault, ⟨n, hfirst⟩, hfault⟩
    · exact .inr ⟨a, middle, ⟨n, hfirst⟩, n, hsecond⟩
  · rintro (⟨fault, ⟨n, hn⟩, rfl⟩ | ⟨a, middle, ⟨n, hn⟩, k, hk⟩)
    · exact ⟨n, by rw [run_bind, hn]⟩
    · have hfirst := hx.finished_of_le (Nat.le_max_left n k) hn
      have hsecond := (hf a).finished_of_le (Nat.le_max_right n k) hk
      exact ⟨max n k, by rw [run_bind, hfirst]; exact hsecond⟩

/-- What comes of a result that has to be a value. -/
def demanded (line : Nat) : Except RunFault (Option Value) → Except RunFault Value
  | .ok (some v) => .ok v
  | .ok none => .error ⟨.missingValue, line⟩
  | .error fault => .error fault

theorem run_required {x : Exec (Option Value)} {m after : Machine}
    {given : Except RunFault (Option Value)} (h : x.run m = .finished given after) (line : Nat) :
    (required line x).run m = .finished (demanded line given) after := by
  rw [required, run_bind, h]
  cases given with
  | error fault => rfl
  | ok given => cases given <;> rfl

theorem ends_required_iff {x : Nat → Exec (Option Value)} {line : Nat} {m after : Machine}
    {result : Except RunFault Value} :
    Ends (fun n => required line (x n)) m result after ↔
      ∃ given, Ends x m given after ∧ result = demanded line given := by
  constructor
  · rintro ⟨n, hn⟩
    dsimp only at hn
    cases hx : (x n).run m with
    | outOfFuel =>
      rw [required, run_bind, hx] at hn
      cases hn
    | finished given middle =>
      rw [run_required hx] at hn
      cases hn
      exact ⟨given, ⟨n, hx⟩, rfl⟩
  · rintro ⟨given, ⟨n, hn⟩, rfl⟩
    exact ⟨n, run_required hn line⟩

theorem ends_required_ok_iff {x : Nat → Exec (Option Value)} {line : Nat} {m after : Machine}
    {v : Value} :
    Ends (fun n => required line (x n)) m (.ok v) after ↔ Ends x m (.ok (some v)) after := by
  rw [ends_required_iff]
  constructor
  · rintro ⟨_ | _ | v, hgiven, hv⟩
    · cases hv
    · cases hv
    · cases hv
      exact hgiven
  · exact fun h => ⟨_, h, rfl⟩

theorem ends_required_error_iff {x : Nat → Exec (Option Value)} {line : Nat} {m after : Machine}
    {fault : RunFault} :
    Ends (fun n => required line (x n)) m (.error fault) after ↔
      Ends x m (.error fault) after ∨
        Ends x m (.ok none) after ∧ fault = ⟨.missingValue, line⟩ := by
  rw [ends_required_iff]
  constructor
  · rintro ⟨_ | _ | v, hgiven, hfault⟩
    · cases hfault
      exact .inl hgiven
    · cases hfault
      exact .inr ⟨hgiven, rfl⟩
    · cases hfault
  · rintro (h | ⟨h, rfl⟩)
    · exact ⟨_, h, rfl⟩
    · exact ⟨_, h, rfl⟩

theorem Steady.ite {x y : Nat → Exec α} (hx : Steady x) (hy : Steady y) (c : Bool) :
    Steady fun n => if c then x n else y n := by
  cases c with
  | true => exact hx
  | false => exact hy

theorem ends_ite {x y : Nat → Exec α} {c : Bool} {m after : Machine}
    {result : Except RunFault α} :
    Ends (fun n => if c then x n else y n) m result after ↔
      if c then Ends x m result after else Ends y m result after := by
  cases c <;> rfl

/-- The first unit of the bound is used up by the outermost node. -/
theorem Steady.ends_succ_iff {x : Nat → Exec α} (hx : Steady x) {m after : Machine}
    {result : Except RunFault α} :
    Ends (fun n => x (n + 1)) m result after ↔ Ends x m result after :=
  ⟨fun ⟨n, hn⟩ => ⟨n + 1, hn⟩, fun ⟨n, hn⟩ => ⟨n, hx.finished_of_le (Nat.le_succ n) hn⟩⟩

/-- One run ends if and only if the other does, and then their results and their machines agree. -/
structure EndAlike (F : RunFault → RunFault → Prop) (V : α → β → Prop)
    (M : Machine → Machine → Prop) (x : Nat → Exec α) (y : Nat → Exec β) (m₁ m₂ : Machine) :
    Prop where
  ends : (∃ result after, Ends x m₁ result after) ↔ ∃ result after, Ends y m₂ result after
  agree : ∀ {r₁ a₁ r₂ a₂}, Ends x m₁ r₁ a₁ → Ends y m₂ r₂ a₂ → Agree F V r₁ r₂ ∧ M a₁ a₂

theorem EndAlike.mono {F : RunFault → RunFault → Prop} {V : α → β → Prop}
    {M M' : Machine → Machine → Prop} {x : Nat → Exec α} {y : Nat → Exec β} {m₁ m₂ : Machine}
    (h : EndAlike F V M x y m₁ m₂) (hM : ∀ a₁ a₂, M a₁ a₂ → M' a₁ a₂) :
    EndAlike F V M' x y m₁ m₂ :=
  ⟨h.ends, fun h₁ h₂ => (h.agree h₁ h₂).imp_right (hM _ _)⟩

/-- If nothing is excused, outcomes that match are both there or both not there. -/
theorem finished_iff_of_matches {C : Comparison} (hC : ∀ fault, ¬ C.excused fault)
    {V : α → β → Prop} {first : Outcome RunFault α} {second : Outcome RunFault β}
    (h : Outcome.Matches C V first second) :
    (∃ result after, first = .finished result after) ↔
      ∃ result after, second = .finished result after := by
  cases h with
  | ok values machines => exact ⟨fun _ => ⟨_, _, rfl⟩, fun _ => ⟨_, _, rfl⟩⟩
  | error faults machines => exact ⟨fun _ => ⟨_, _, rfl⟩, fun _ => ⟨_, _, rfl⟩⟩
  | outOfFuel =>
    constructor
    · rintro ⟨_, _, h⟩
      cases h
    · rintro ⟨_, _, h⟩
      cases h
  | excusedFault excused => exact absurd excused (hC _)
  | excusedFuel excused => exact absurd excused (hC _)

theorem EndAlike.of_matches {C : Comparison} (hC : ∀ fault, ¬ C.excused fault)
    {V : α → β → Prop} {x : Nat → Exec α} {y : Nat → Exec β} (hy : Steady y)
    (hxy : ∀ n, Matches C V (x n) (y n)) {m₁ m₂ : Machine} (hm : C.machines m₁ m₂) :
    EndAlike C.faults V C.machines x y m₁ m₂ := by
  refine ⟨⟨?_, ?_⟩, ?_⟩
  · rintro ⟨result, after, n, hn⟩
    obtain ⟨result', after', hn'⟩ :=
      (finished_iff_of_matches hC (hxy n m₁ m₂ hm)).1 ⟨result, after, hn⟩
    exact ⟨result', after', n, hn'⟩
  · rintro ⟨result, after, n, hn⟩
    obtain ⟨result', after', hn'⟩ :=
      (finished_iff_of_matches hC (hxy n m₁ m₂ hm)).2 ⟨result, after, hn⟩
    exact ⟨result', after', n, hn'⟩
  · rintro r₁ a₁ r₂ a₂ ⟨n, hn⟩ h₂
    have hmatch := hxy n m₁ m₂ hm
    rw [hn] at hmatch
    generalize hr : (y n).run m₂ = second at hmatch
    cases hmatch with
    | ok values machines =>
      obtain ⟨rfl, rfl⟩ := Ends.unique hy ⟨n, hr⟩ h₂
      exact ⟨.ok values, machines⟩
    | error faults machines =>
      obtain ⟨rfl, rfl⟩ := Ends.unique hy ⟨n, hr⟩ h₂
      exact ⟨.error faults, machines⟩
    | excusedFault excused => exact absurd excused (hC _)

end Skript.Exec
