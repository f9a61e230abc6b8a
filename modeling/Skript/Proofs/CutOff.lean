import Skript.Proofs.Moments

/-!
# Runs that a limit cuts off

A run with a limit on the depth of calls and a run without one do the same for as long as the first
does not complain. So whatever ends otherwise ends in the same way without the limit.
-/
namespace Skript

namespace Exec

variable {α : Type} {most : Nat} {limit : Option Nat}

/-- The limit is kept, or there is none. -/
def Eases (most : Nat) (limit : Option Nat) : Prop :=
  limit = some most ∨ limit = none

/-- Runs on the same machine, of which the first may fail at the limit. -/
abbrev cutOff (most : Nat) : Comparison :=
  (Resemblance.exact Eq Eq fun fault => ∃ line, fault = some ⟨.callDepth most, line⟩).comparison Eq

theorem statementLaws_cutOff (h : Eases most limit) :
    StatementLaws .whole Eq (cutOff most) (some most) limit := by
  refine (tableRelation_eq.lawful (fun _ => True) fun E line depth => ?_).statementLaws
    Pairing.whole_statementForm
  obtain rfl | rfl := h
  · exact Matches.ofExcept _ fun _ _ => rfl
  · unfold checkDepth
    dsimp only
    split
    · exact fun m₁ m₂ _ => .excusedFault ⟨line, rfl⟩
    · exact Matches.pure rfl

theorem matches_evaluate_cutOff (h : Eases most limit) (n : Nat) (e : Expr) :
    Matches (cutOff most) (Option.Rel Eq) (evaluate (some most) n e) (evaluate limit n e) :=
  (statementLaws_cutOff h).toExprLaws.matches_evaluate
    (fun i _ j hij s s' hs => by
      obtain rfl | ⟨-, line, hline⟩ := hij
      · exact (statementLaws_cutOff h).matches_execute (.inl rfl) hs
      · cases hline)
    (.inl rfl) (Pairing.whole_exprs e)

theorem matches_operand_cutOff (h : Eases most limit) (n : Nat) (e : Expr) (line : Nat) :
    Matches (cutOff most) Eq (operand (some most) e line n) (operand limit e line n) :=
  Matches.required (matches_evaluate_cutOff h n e) rfl

theorem matches_arguments_cutOff (h : Eases most limit) (n : Nat) (es : List Expr) (line : Nat) :
    Matches (cutOff most) Eq (arguments (some most) es line n) (arguments limit es line n) :=
  Matches.collect_same (fun e => matches_operand_cutOff h n e line) es

theorem matches_execute_cutOff (h : Eases most limit) (n : Nat) (s : Statement) :
    Matches (cutOff most) Eq (execute (some most) n s) (execute limit n s) :=
  ((statementLaws_cutOff h).matches_execute (.inl rfl) rfl).mono fun _ _ => option_rel_eq_iff.1

theorem matches_executeAll_cutOff (h : Eases most limit) (n : Nat) (ss : List Statement) :
    Matches (cutOff most) Eq (executeAll (some most) n ss) (executeAll limit n ss) :=
  ((statementLaws_cutOff h).matches_executeAll (.inl rfl) (Pairing.whole_statements ss)).mono
    fun _ _ => option_rel_eq_iff.1

/-- The result is no complaint about the depth of calls. -/
def Unlimited (result : Except RunFault α) : Prop :=
  ∀ limit line, result ≠ .error ⟨.callDepth limit, line⟩

theorem unlimited_ok (a : α) : Unlimited (.ok a) := by
  intro limit line h
  cases h

/-- A run that ends without a complaint ends in the same way without the limit. -/
theorem finished_of_cutOff {x y : Exec α} (h : Matches (cutOff most) Eq x y) {m after : Machine}
    {result : Except RunFault α} (hx : x.run m = .finished result after)
    (hresult : Unlimited result) : y.run m = .finished result after := by
  have hmatch := h m m alike_self
  rw [hx] at hmatch
  generalize y.run m = second at hmatch
  cases hmatch with
  | ok values machines => rw [values, eq_of_alike machines]
  | @error f g _ _ faults machines =>
    have hfg : f = g := faults
    rw [hfg, eq_of_alike machines]
  | excusedFault excused =>
    obtain ⟨line, hline⟩ := excused
    cases hline
    exact absurd rfl (hresult most line)

/-- A run that ends without the limit does so with it, or there is a complaint. -/
theorem finished_or_cutOff {x y : Exec α} (h : Matches (cutOff most) Eq x y) {m after : Machine}
    {result : Except RunFault α} (hy : y.run m = .finished result after) :
    x.run m = .finished result after ∨
      ∃ line last, x.run m = .finished (.error ⟨.callDepth most, line⟩) last := by
  have hmatch := h m m alike_self
  rw [hy] at hmatch
  generalize x.run m = first at hmatch
  cases hmatch with
  | ok values machines => exact .inl (by rw [values, eq_of_alike machines])
  | @error f g _ _ faults machines =>
    have hfg : f = g := faults
    exact .inl (by rw [hfg, eq_of_alike machines])
  | excusedFault excused =>
    obtain ⟨line, hline⟩ := excused
    cases hline
    exact .inr ⟨line, _, rfl⟩
  | excusedFuel excused =>
    obtain ⟨line, hline⟩ := excused
    cases hline

theorem ends_of_cutOff {x y : Nat → Exec α} (h : ∀ n, Matches (cutOff most) Eq (x n) (y n))
    {n : Nat} {m after : Machine} {a : α} (hx : (x n).run m = .finished (.ok a) after) :
    Ends y m (.ok a) after :=
  ⟨n, finished_of_cutOff (h n) hx (unlimited_ok a)⟩

end Exec

end Skript
