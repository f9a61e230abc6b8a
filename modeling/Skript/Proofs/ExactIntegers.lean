import Skript.Proofs.Ending

/-!
# Integers are exact or overflow

An expression made of integers by sums, differences and products has a value among all integers,
and so has each of its parts. If all of these fit into sixty-four bits, evaluation gives the value.
If one does not, evaluation fails at the first such part, in the order in which parts are
completed: a result that would fit again does not make up for a part that does not.
-/
namespace Skript

/-- What an operator that stays within the integers computes there. -/
def Operator.exactResult? : Operator → Option (Int → Int → Int)
  | add => some (· + ·)
  | sub => some (· - ·)
  | mul => some (· * ·)
  | _ => none

/-- The integer that a value is, if it is one. -/
def Value.asInteger? : Value → Option Int
  | num k => some k.toInt
  | _ => none

namespace Expr

/-- The value among all integers of an expression made of integer literals, variables that hold
integers, sums, differences and products. Other expressions have none. -/
def exactValue? (env : Environment) : Expr → Option Int
  | literal value _ => value.toValue.asInteger?
  | var name _ => (env.get? name).bind Value.asInteger?
  | binary left op right _ => do
      let compute ← op.exactResult?
      let a ← left.exactValue? env
      let b ← right.exactValue? env
      return compute a b
  | _ => none

mutual

/-- An expression and all its parts, from left to right and each after its own parts. -/
def postorder : Expr → List Expr
  | binary left op right line =>
      left.postorder ++ (right.postorder ++ [binary left op right line])
  | call name arguments line => postorderOfAll arguments ++ [call name arguments line]
  | length operand line => operand.postorder ++ [length operand line]
  | e => [e]

def postorderOfAll : List Expr → List Expr
  | [] => []
  | e :: es => e.postorder ++ postorderOfAll es

end

/-- The exact value has a sixty-four-bit form. -/
def Fits (env : Environment) (e : Expr) : Prop :=
  ∀ k ∈ e.exactValue? env, Integer.Fits k

instance (env : Environment) (e : Expr) : Decidable (e.Fits env) :=
  inferInstanceAs (Decidable (∀ k ∈ e.exactValue? env, Integer.Fits k))

end Expr

/-! ### Operators on integers -/

namespace Integer

theorem fits_toInt (k : Int64) : Fits k.toInt :=
  ⟨Int64.le_toInt k, Int.le_of_lt_add_one (Int64.toInt_lt k)⟩

theorem exists_of_fits {k : Int} (h : Fits k) : ∃ r : Int64, r.toInt = k ∧ ofInt? k = some r := by
  have hsome : ofInt? k = some (Int64.ofInt k) := if_pos h
  exact ⟨Int64.ofInt k, ofInt?_eq_some_iff.1 hsome, hsome⟩

end Integer

namespace Value

theorem asInteger?_eq_some_iff {v : Value} {k : Int} :
    v.asInteger? = some k ↔ ∃ r : Int64, v = num r ∧ r.toInt = k := by
  constructor
  · intro h
    cases v with
    | num r => exact ⟨r, rfl, Option.some.inj h⟩
    | _ => cases h
  · rintro ⟨r, rfl, rfl⟩
    rfl

/-- On integers such an operator gives what it computes, if this fits. -/
theorem binary_of_exact {op : Operator} {compute : Int → Int → Int}
    (hop : op.exactResult? = some compute) (a b : Int64) :
    binary op (num a) (num b) =
      num <$> RunCause.orOverflow (Integer.ofInt? (compute a.toInt b.toInt)) := by
  cases op with
  | add => cases hop; rfl
  | sub => cases hop; rfl
  | mul => cases hop; rfl
  | _ => cases hop

end Value

namespace Expr

variable {env : Environment} {left right : Expr} {op : Operator} {line : Nat} {k : Int}

theorem fits_iff {e : Expr} (h : e.exactValue? env = some k) : e.Fits env ↔ Integer.Fits k := by
  simp [Fits, h]

theorem exactValue?_binary_eq_some (h : (binary left op right line).exactValue? env = some k) :
    ∃ compute a b, op.exactResult? = some compute ∧ left.exactValue? env = some a ∧
      right.exactValue? env = some b ∧ compute a b = k := by
  simp only [exactValue?, Option.bind_eq_bind, Option.bind_eq_some_iff] at h
  obtain ⟨compute, hop, a, ha, b, hb, hk⟩ := h
  exact ⟨compute, a, b, hop, ha, hb, Option.some.inj hk⟩

/-- An integer literal, or a variable that holds an integer. -/
inductive Single (env : Environment) : Expr → Int64 → Prop
  | literal (r : Int64) (line : Nat) : Single env (literal (.num r) line) r
  | var {name : String} {r : Int64} (line : Nat) (holds : env.get? name = some (.num r)) :
      Single env (var name line) r

namespace Single

variable {e : Expr} {r : Int64}

theorem exactValue? (h : Single env e r) : e.exactValue? env = some r.toInt := by
  cases h with
  | literal => rfl
  | var line holds => rw [Expr.exactValue?, holds]; rfl

theorem fits (h : Single env e r) : e.Fits env :=
  (fits_iff h.exactValue?).2 (Integer.fits_toInt r)

theorem postorder (h : Single env e r) : e.postorder = [e] := by
  cases h <;> rfl

theorem run {m : Machine} (h : Single m.environment e r) (limit : Option Nat) :
    (evaluate limit 1 e).run m = .finished (.ok (some (.num r))) m := by
  cases h with
  | literal => rfl
  | var line holds =>
    rw [evaluate, map_eq_pure_bind, Exec.run_bind, Exec.run_lookup holds]
    rfl

end Single

/-- Whatever has an exact value is an integer alone or an operator between two such expressions. -/
@[elab_as_elim] theorem exact_induction
    {motive : (e : Expr) → (k : Int) → e.exactValue? env = some k → Prop}
    (single : ∀ {e : Expr} {r : Int64} (h : Single env e r), motive e r.toInt h.exactValue?)
    (operator : ∀ {left right : Expr} {op : Operator} {compute : Int → Int → Int} {a b : Int}
      (line : Nat) (_ : op.exactResult? = some compute) (ha : left.exactValue? env = some a)
      (hb : right.exactValue? env = some b)
      (h : (binary left op right line).exactValue? env = some (compute a b)),
      motive left a ha → motive right b hb → motive (binary left op right line) (compute a b) h) :
    ∀ (e : Expr) (k : Int) (h : e.exactValue? env = some k), motive e k h
  | literal value line, k, h => by
    cases value with
    | num r =>
      cases h
      exact single (.literal r line)
    | _ => cases h
  | var name line, k, h => by
    obtain ⟨v, hv, hk⟩ := Option.bind_eq_some_iff.1 h
    obtain ⟨r, rfl, rfl⟩ := Value.asInteger?_eq_some_iff.1 hk
    exact single (.var line hv)
  | binary left op right line, k, h => by
    obtain ⟨compute, a, b, hop, ha, hb, rfl⟩ := exactValue?_binary_eq_some h
    exact operator line hop ha hb h (exact_induction single operator left a ha)
      (exact_induction single operator right b hb)

end Expr

/-! ### How operators end -/

namespace Exec

theorem run_map_ofExcept {α β : Type} (f : α → β) (line : Nat) (result : Except RunCause α)
    (m : Machine) :
    (f <$> ofExcept line result).run m = .finished ((result.map f).mapError (⟨·, line⟩)) m := by
  cases result <;> rfl

section Operators

variable {limit : Option Nat} {left right : Expr} (op : Operator) (line : Nat)
  {m middle after : Machine}

/-- The right operand starts where the left one has ended, and the operator puts their values
together. -/
theorem ends_binary {l : Value} {given : Except RunFault (Option Value)}
    (hleft : Ends (fun n => evaluate limit n left) m (.ok (some l)) middle)
    (hright : Ends (fun n => evaluate limit n right) middle given after) :
    Ends (fun n => evaluate limit n (.binary left op right line)) m
      (do
        let r ← demanded line given
        ((Value.binary op l r).map some).mapError (⟨·, line⟩))
      after := by
  obtain ⟨n, hn⟩ := hleft
  obtain ⟨k, hk⟩ := hright
  have hl := (steady_evaluate limit left).finished_of_le (Nat.le_max_left n k) hn
  have hr := (steady_evaluate limit right).finished_of_le (Nat.le_max_right n k) hk
  refine ⟨max n k + 1, ?_⟩
  have hvalue : (required line (evaluate limit (max n k) left)).run m = .finished (.ok l) middle :=
    run_required hl line
  simp only [evaluate, run_bind, hvalue, run_required hr]
  cases demanded line given with
  | error fault => rfl
  | ok r => exact run_map_ofExcept some line (Value.binary op l r) after

theorem ends_binary_of_left {fault : RunFault}
    (hleft : Ends (fun n => evaluate limit n left) m (.error fault) after) :
    Ends (fun n => evaluate limit n (.binary left op right line)) m (.error fault) after := by
  obtain ⟨n, hn⟩ := hleft
  refine ⟨n + 1, ?_⟩
  simp only [evaluate, run_bind, run_required hn, demanded]

/-- Two integers are put together exactly, or overflow. -/
theorem ends_binary_integers {op : Operator} {compute : Int → Int → Int}
    (hop : op.exactResult? = some compute) {l r : Int64}
    (hleft : Ends (fun n => evaluate limit n left) m (.ok (some (.num l))) middle)
    (hright : Ends (fun n => evaluate limit n right) middle (.ok (some (.num r))) after) :
    Ends (fun n => evaluate limit n (.binary left op right line)) m
      (((Value.num <$> RunCause.orOverflow (Integer.ofInt? (compute l.toInt r.toInt))).map
        some).mapError (⟨·, line⟩)) after := by
  rw [← Value.binary_of_exact hop]
  exact ends_binary op line hleft hright

end Operators

section Exact

variable {limit : Option Nat} {m : Machine} {e : Expr} {k : Int}

/-- Where all parts fit, the value is exact. -/
theorem ends_of_fits (he : e.exactValue? m.environment = some k)
    (hfits : ∀ s ∈ e.postorder, s.Fits m.environment) :
    ∃ r : Int64, r.toInt = k ∧ Ends (fun n => evaluate limit n e) m (.ok (some (.num r))) m := by
  induction e, k, he using Expr.exact_induction with
  | @single e r h => exact ⟨r, rfl, 1, h.run limit⟩
  | @operator left right op compute a b line hop _ _ h ihleft ihright =>
    simp only [Expr.postorder, List.forall_mem_append, List.forall_mem_singleton] at hfits
    obtain ⟨hfitsLeft, hfitsRight, hself⟩ := hfits
    obtain ⟨l, rfl, hleft⟩ := ihleft hfitsLeft
    obtain ⟨r, rfl, hright⟩ := ihright hfitsRight
    obtain ⟨result, hresult, hsome⟩ := Integer.exists_of_fits (hself _ h)
    have hends := ends_binary_integers line hop hleft hright
    rw [hsome] at hends
    exact ⟨result, hresult, hends⟩

/-- The first part that does not fit is an operator, and evaluation fails there. -/
theorem ends_of_unfit {s : Expr} (he : e.exactValue? m.environment = some k)
    (hs : e.postorder.find? (fun s => ¬ s.Fits m.environment) = some s) :
    (∃ left op right line, s = .binary left op right line) ∧
      Ends (fun n => evaluate limit n e) m (.error ⟨.overflow, s.line⟩) m := by
  induction e, k, he using Expr.exact_induction with
  | @single e r h =>
    simp [h.postorder, h.fits] at hs
  | @operator left right op compute a b line hop ha hb h ihleft ihright =>
    rw [Expr.postorder, List.find?_append, List.find?_append] at hs
    cases hfirst : left.postorder.find? fun s => ¬ s.Fits m.environment with
    | some first =>
      rw [hfirst] at hs
      cases hs
      obtain ⟨hoperator, hleft⟩ := ihleft hfirst
      exact ⟨hoperator, ends_binary_of_left op line hleft⟩
    | none =>
      obtain ⟨l, rfl, hleft⟩ := ends_of_fits ha (by simpa using hfirst)
      cases hsecond : right.postorder.find? fun s => ¬ s.Fits m.environment with
      | some second =>
        rw [hfirst, hsecond] at hs
        cases hs
        obtain ⟨hoperator, hright⟩ := ihright hsecond
        exact ⟨hoperator, ends_binary op line hleft hright⟩
      | none =>
        obtain ⟨r, rfl, hright⟩ := ends_of_fits hb (by simpa using hsecond)
        rw [hfirst, hsecond] at hs
        have hself : [Expr.binary left op right line].find?
            (fun s => ¬ s.Fits m.environment) = some s := hs
        cases List.mem_singleton.1 (List.mem_of_find?_eq_some hself)
        have hunfit : ¬ Integer.Fits (compute l.toInt r.toInt) := by
          simpa [Expr.fits_iff h] using List.find?_some hself
        have hnone : Integer.ofInt? (compute l.toInt r.toInt) = none := if_neg hunfit
        have hends := ends_binary_integers line hop hleft hright
        rw [hnone] at hends
        exact ⟨⟨left, op, right, line, rfl⟩, hends⟩

end Exact

end Exec

open Exec

/-- An expression made of integer literals, variables that hold integers, sums, differences and
products gives its exact value if the exact values of all its parts fit. Otherwise it fails with an
overflow, on the line of the first operator whose exact value does not fit; operators come from left
to right, each after its operands. There is no other outcome, and the machine is left as it was. -/
theorem integer_expressions_are_exact_or_overflow (limit : Option Nat) (m : Machine) (e : Expr)
    (k : Int) (he : e.exactValue? m.environment = some k) :
    let value := fun n => evaluate limit n e
    ((∀ s ∈ e.postorder, s.Fits m.environment) →
      ∃ r : Int64, r.toInt = k ∧ ∀ result after,
        Ends value m result after ↔ result = .ok (some (.num r)) ∧ after = m) ∧
    ((¬ ∀ s ∈ e.postorder, s.Fits m.environment) →
      ∃ left op right line,
        e.postorder.find? (fun s => ¬ s.Fits m.environment) = some (.binary left op right line) ∧
        ∀ result after,
          Ends value m result after ↔ result = .error ⟨.overflow, line⟩ ∧ after = m) := by
  intro value
  have honly : ∀ {given : Except RunFault (Option Value)}, Ends value m given m →
      ∀ result after, Ends value m result after ↔ result = given ∧ after = m := by
    intro given hgiven result after
    constructor
    · intro h
      exact Ends.unique (steady_evaluate limit e) h hgiven
    · rintro ⟨rfl, rfl⟩
      exact hgiven
  constructor
  · intro hfits
    obtain ⟨r, hr, hends⟩ := ends_of_fits he hfits
    exact ⟨r, hr, honly hends⟩
  · intro hunfit
    cases hfirst : e.postorder.find? fun s => ¬ s.Fits m.environment with
    | none => exact absurd (by simpa using hfirst) hunfit
    | some s =>
      obtain ⟨⟨left, op, right, line, rfl⟩, hends⟩ := ends_of_unfit he hfirst
      exact ⟨left, op, right, line, rfl, honly hends⟩

/-- The least integer has no negative: although one less than that would fit again, the minus sign
on the first line overflows. Its sum with the largest integer is exact. -/
theorem negative_of_the_least_integer_overflows :
    let m : Machine := { environment := Environment.empty.set "x" (.num (-9223372036854775808)) }
    let negative : Expr := .binary (.literal (.num 0) 1) .sub (.var "x" 1) 1
    let e : Expr := .binary negative .sub (.literal (.num 1) 2) 2
    let sum : Expr := .binary (.var "x" 1) .add (.literal (.num 9223372036854775807) 1) 1
    parse [⟨.symbol .minus, 1⟩, ⟨.identifier "x", 1⟩, ⟨.symbol .minus, 2⟩, ⟨.integer 1, 2⟩,
      ⟨.endOfInput, 2⟩] = .ok [.expr e 2] ∧
    e.exactValue? m.environment = some 9223372036854775807 ∧
    (∀ result after, Ends (fun n => evaluate none n e) m result after ↔
      result = .error ⟨.overflow, 1⟩ ∧ after = m) ∧
    ∀ result after, Ends (fun n => evaluate none n sum) m result after ↔
      result = .ok (some (.num (-1))) ∧ after = m := by
  intro m negative e sum
  have hexact : e.exactValue? m.environment = some 9223372036854775807 := by decide +kernel
  have hunfit : ¬ ∀ s ∈ e.postorder, s.Fits m.environment := by decide +kernel
  have hfirst : e.postorder.find? (fun s => ¬ s.Fits m.environment) = some negative := rfl
  have hsum : sum.exactValue? m.environment = some (-1) := by decide +kernel
  have hfits : ∀ s ∈ sum.postorder, s.Fits m.environment := by decide +kernel
  obtain ⟨left, op, right, line, hbinary, hfails⟩ :=
    (integer_expressions_are_exact_or_overflow none m e _ hexact).2 hunfit
  obtain ⟨r, hr, hends⟩ := (integer_expressions_are_exact_or_overflow none m sum _ hsum).1 hfits
  rw [hfirst] at hbinary
  obtain rfl : 1 = line := congrArg Expr.line (Option.some.inj hbinary)
  obtain rfl : r = -1 := Int64.toInt_inj.1 hr
  exact ⟨rfl, hexact, hfails, hends⟩

end Skript
