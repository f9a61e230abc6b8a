import Skript.Proofs.ExactIntegers
import Skript.Proofs.Similarity

/-!
# Equality and order agree

Any two values are equal or not, but only two numbers, or two texts, have an order. Where there is
an order it agrees with equality, and the operators agree with each other: which of the operands
stands on the left does not matter. Integers among themselves, and texts among themselves, are
ordered totally. This cannot be said of all numbers, since an integer is rounded when it meets a
decimal, and what is not a number stands in no order to anything.
-/
namespace Skript

namespace Decimal

open Float.Model

/-- What is compared are the sign, the exponent and the mantissa, in an order that the sign
reverses. -/
theorem unpacked_compare_swap (x y : UnpackedFloat) :
    y.compare x = (x.compare y).map Ordering.swap := by
  have hmagnitude (e₁ e₂ : Int) (m₁ m₂ : Nat) : (compare e₂ e₁).then (compare m₂ m₁) =
      ((compare e₁ e₂).then (compare m₁ m₂)).swap := by
    rw [Ordering.swap_then, Int.compare_swap, Nat.compare_swap]
  cases x with
  | notANumber => cases y <;> rfl
  | infinity s =>
    cases y with
    | infinity t => cases s <;> cases t <;> rfl
    | _ => cases s <;> rfl
  | zero s =>
    cases y with
    | notANumber | zero => rfl
    | infinity t | finite t => cases t <;> rfl
  | finite s m e =>
    cases y with
    | notANumber => rfl
    | infinity t => cases t <;> rfl
    | zero => cases s <;> rfl
    | finite t k f =>
      cases s with
      | positive =>
        cases t with
        | positive => exact congrArg some (hmagnitude e f m k)
        | negative => rfl
      | negative =>
        cases t with
        | positive => rfl
        | negative => exact congrArg (some ·.swap) (hmagnitude e f m k)

variable (x y : Float)

theorem lt_iff : x < y ↔ x.toModel.compare y.toModel = some .lt := by
  change decide ((x.toModel.compare y.toModel == some .lt) = true) = true ↔ _
  rw [decide_eq_true_iff, beq_iff_eq]

theorem beq_iff : (x == y) = true ↔ x.toModel.compare y.toModel = some .eq := by
  change (x.toModel.compare y.toModel == some .eq) = true ↔ _
  rw [beq_iff_eq]

theorem model_compare_swap :
    y.toModel.compare x.toModel = (x.toModel.compare y.toModel).map Ordering.swap :=
  unpacked_compare_swap _ _

theorem compare?_eq : compare? x y = x.toModel.compare y.toModel := by
  unfold compare?
  simp only [lt_iff, beq_iff, model_compare_swap x y]
  cases x.toModel.compare y.toModel with
  | none => rfl
  | some o => cases o <;> rfl

theorem compare?_swap : compare? y x = (compare? x y).map Ordering.swap := by
  rw [compare?_eq, compare?_eq, model_compare_swap]

theorem compare?_eq_some_eq_iff : compare? x y = some .eq ↔ (x == y) = true := by
  rw [compare?_eq, beq_iff]

end Decimal

/-- The operators that ask for an order. -/
def Operator.ordering : List Operator :=
  [less, greater, lessEqual, greaterEqual]

namespace Value

/-- Two values have an order if both are numbers or both are texts. -/
def Ordered (l r : Value) : Prop :=
  (l.isNumeric ∧ r.isNumeric) ∨ (l.asText?.isSome ∧ r.asText?.isSome)

section Pairs

variable {l r : Value} {o : Option Ordering} {op : Operator}

theorem isNumeric_iff {v : Value} : v.isNumeric ↔ (∃ a, v = num a) ∨ ∃ x, v = dec x := by
  cases v <;> simp [isNumeric]

theorem order_of_texts {s t : String} (hl : l.asText? = some s) (hr : r.asText? = some t) :
    order l r = .ok (some (compare s t)) := by
  rw [order_of_isText (.inl (by rw [hl]; rfl)), hl, hr]

theorem equals_of_texts {s t : String} (hl : l.asText? = some s) (hr : r.asText? = some t) :
    equals l r = decide (s = t) := by
  rw [equals_of_isText (.inl (by rw [hl]; rfl)), hl, hr]

/-- The order of two values, seen from both sides and beside their equality. -/
theorem exists_order (h : Ordered l r) :
    ∃ o, order l r = .ok o ∧ order r l = .ok (o.map Ordering.swap) ∧
      (o = some .eq ↔ equals l r = true) := by
  obtain ⟨hl, hr⟩ | ⟨hl, hr⟩ := h
  · obtain ⟨a, rfl⟩ | ⟨x, rfl⟩ := isNumeric_iff.1 hl
    · obtain ⟨b, rfl⟩ | ⟨y, rfl⟩ := isNumeric_iff.1 hr
      · refine ⟨_, rfl, ?_, ?_⟩
        · rw [order, ← Int.compare_swap, Option.map_some]
        · rw [equals, decide_eq_true_iff, Option.some_inj, Int.compare_eq_eq, Int64.toInt_inj]
      · exact ⟨_, rfl, congrArg Except.ok (Decimal.compare?_swap _ y),
          Decimal.compare?_eq_some_eq_iff _ y⟩
    · obtain ⟨b, rfl⟩ | ⟨y, rfl⟩ := isNumeric_iff.1 hr
      · exact ⟨_, rfl, congrArg Except.ok (Decimal.compare?_swap x _),
          Decimal.compare?_eq_some_eq_iff x _⟩
      · exact ⟨_, rfl, congrArg Except.ok (Decimal.compare?_swap x y),
          Decimal.compare?_eq_some_eq_iff x y⟩
  · obtain ⟨s, hs⟩ := Option.isSome_iff_exists.1 hl
    obtain ⟨t, ht⟩ := Option.isSome_iff_exists.1 hr
    refine ⟨_, order_of_texts hs ht, ?_, ?_⟩
    · rw [order_of_texts ht hs, Option.map_some, ← Std.OrientedCmp.eq_swap]
    · rw [equals_of_texts hs ht, decide_eq_true_iff, Option.some_inj,
        Std.LawfulEqCmp.compare_eq_iff_eq]

theorem order_of_not_ordered (h : ¬ Ordered l r) :
    order l r = .error (.typeMismatch (.unordered l.kind r.kind)) := by
  -- a text on either side is compared as a text, whatever the other value is
  by_cases htext : l.asText?.isSome ∨ r.asText?.isSome
  · rw [order_of_isText htext]
    cases hs : l.asText? with
    | none => rfl
    | some s =>
      cases ht : r.asText? with
      | none => rfl
      | some t => exact absurd (.inr ⟨by rw [hs]; rfl, by rw [ht]; rfl⟩) h
  · cases l with
    | num a =>
      cases r with
      | num b | dec y => exact absurd (.inl ⟨rfl, rfl⟩) h
      | str t | chr t | bool b => rfl
    | dec x =>
      cases r with
      | num b | dec y => exact absurd (.inl ⟨rfl, rfl⟩) h
      | str t | chr t | bool b => rfl
    | bool a => cases r <;> rfl
    | str s => exact absurd (.inl rfl) htext
    | chr c => exact absurd (.inl (by cases c <;> rfl)) htext

theorem ordered_of_order (h : order l r = .ok o) : Ordered l r := by
  by_contra hnot
  rw [order_of_not_ordered hnot] at h
  cases h

/-! ### Operators -/

theorem binary_ordering (hop : op ∈ Operator.ordering) (l r : Value) :
    binary op l r = do
      let o ← order l r
      return bool (o.any (accepts op)) := by
  simp only [Operator.ordering, List.mem_cons, List.not_mem_nil, or_false] at hop
  obtain rfl | rfl | rfl | rfl := hop <;> rfl

theorem binary_of_order (hop : op ∈ Operator.ordering) (h : order l r = .ok o) :
    binary op l r = .ok (bool (o.any (accepts op))) := by
  rw [binary_ordering hop, h]
  rfl

/-- An ordering operator fails just where there is no order. -/
theorem binary_error_iff (hop : op ∈ Operator.ordering) {cause : RunCause} :
    binary op l r = .error cause ↔
      ¬ Ordered l r ∧ cause = .typeMismatch (.unordered l.kind r.kind) := by
  by_cases h : Ordered l r
  · obtain ⟨o, ho, -⟩ := exists_order h
    rw [binary_of_order hop ho]
    simp [h]
  · rw [binary_ordering hop, order_of_not_ordered h]
    simp [h, eq_comm]

theorem any_accepts_swap (o : Option Ordering) :
    o.any (accepts .greater) = (o.map Ordering.swap).any (accepts .less) ∧
      o.any (accepts .greaterEqual) = (o.map Ordering.swap).any (accepts .lessEqual) := by
  cases o with
  | none => exact ⟨rfl, rfl⟩
  | some o => cases o <;> exact ⟨rfl, rfl⟩

theorem any_accepts_lessEqual (o : Option Ordering) :
    o.any (accepts .lessEqual) = (o.any (accepts .less) || decide (o = some .eq)) := by
  cases o with
  | none => rfl
  | some o => cases o <;> rfl

end Pairs

/-! ### Total orders -/

/-- The operator accepts the two values. -/
def Holds (op : Operator) (l r : Value) : Prop :=
  binary op l r = .ok (bool true)

theorem holds_equal_iff {l r : Value} : Holds .equal l r ↔ equals l r = true := by
  change Except.ok (bool (equals l r)) = .ok (bool true) ↔ _
  rw [Except.ok.injEq, bool.injEq]

/-- Among the values with `P` equality is an equivalence, `<` is transitive, and of any two either
one is the smaller or they are equal. -/
structure TotallyOrdered (P : Value → Prop) : Prop where
  equivalence : Equivalence fun l r : {v : Value // P v} => Holds .equal l r
  less_trans {u v w : Value} : P u → P v → P w →
    Holds .less u v → Holds .less v w → Holds .less u w
  exactly_one {l r : Value} : P l → P r →
    (Holds .less l r ∧ ¬ Holds .equal l r ∧ ¬ Holds .greater l r) ∨
    (¬ Holds .less l r ∧ Holds .equal l r ∧ ¬ Holds .greater l r) ∨
    (¬ Holds .less l r ∧ ¬ Holds .equal l r ∧ Holds .greater l r)

section Keys

variable {κ : Type} [Ord κ] {key : Value → Option κ}

theorem holds_iff_of_key {l r : Value} {a b : κ}
    (h : order l r = .ok (some (compare a b))) :
    (Holds .less l r ↔ compare a b = .lt) ∧ (Holds .equal l r ↔ compare a b = .eq) ∧
      (Holds .greater l r ↔ compare a b = .gt) := by
  obtain ⟨o, ho, -, heq⟩ := exists_order (ordered_of_order h)
  obtain rfl : some (compare a b) = o := Except.ok.inj (h.symm.trans ho)
  refine ⟨?_, ?_, ?_⟩
  · rw [Holds, binary_of_order (by decide) h]
    cases compare a b <;> decide
  · rw [holds_equal_iff, ← heq, Option.some_inj]
  · rw [Holds, binary_of_order (by decide) h]
    cases compare a b <;> decide

/-- Values that are ordered by their keys are ordered totally if the keys are. -/
theorem totallyOrdered_of_key [Std.TransOrd κ]
    (h : ∀ {l r a b}, key l = some a → key r = some b → order l r = .ok (some (compare a b))) :
    TotallyOrdered fun v => (key v).isSome where
  equivalence := by
    have hequal {l r : Value} {a b : κ} (hl : key l = some a) (hr : key r = some b) :
        Holds .equal l r ↔ compare a b = .eq :=
      (holds_iff_of_key (h hl hr)).2.1
    refine ⟨?_, ?_, ?_⟩
    · rintro ⟨v, hv⟩
      obtain ⟨a, ha⟩ := Option.isSome_iff_exists.1 hv
      exact (hequal ha ha).2 Std.ReflCmp.compare_self
    · rintro ⟨l, hl⟩ ⟨r, hr⟩ hlr
      obtain ⟨a, ha⟩ := Option.isSome_iff_exists.1 hl
      obtain ⟨b, hb⟩ := Option.isSome_iff_exists.1 hr
      exact (hequal hb ha).2 (Std.OrientedCmp.eq_symm ((hequal ha hb).1 hlr))
    · rintro ⟨u, hu⟩ ⟨v, hv⟩ ⟨w, hw⟩ huv hvw
      obtain ⟨a, ha⟩ := Option.isSome_iff_exists.1 hu
      obtain ⟨b, hb⟩ := Option.isSome_iff_exists.1 hv
      obtain ⟨c, hc⟩ := Option.isSome_iff_exists.1 hw
      exact (hequal ha hc).2 (Std.TransCmp.eq_trans ((hequal ha hb).1 huv) ((hequal hb hc).1 hvw))
  less_trans := by
    intro u v w hu hv hw huv hvw
    obtain ⟨a, ha⟩ := Option.isSome_iff_exists.1 hu
    obtain ⟨b, hb⟩ := Option.isSome_iff_exists.1 hv
    obtain ⟨c, hc⟩ := Option.isSome_iff_exists.1 hw
    rw [(holds_iff_of_key (h ha hb)).1] at huv
    rw [(holds_iff_of_key (h hb hc)).1] at hvw
    rw [(holds_iff_of_key (h ha hc)).1]
    exact Std.TransCmp.lt_trans huv hvw
  exactly_one := by
    intro l r hl hr
    obtain ⟨a, ha⟩ := Option.isSome_iff_exists.1 hl
    obtain ⟨b, hb⟩ := Option.isSome_iff_exists.1 hr
    obtain ⟨hless, hequal, hgreater⟩ := holds_iff_of_key (h ha hb)
    rw [hless, hequal, hgreater]
    cases compare a b <;> decide

end Keys

theorem totallyOrdered_integers : TotallyOrdered fun v => v.asInteger?.isSome := by
  refine totallyOrdered_of_key ?_
  intro l r a b ha hb
  obtain ⟨k, rfl, rfl⟩ := asInteger?_eq_some_iff.1 ha
  obtain ⟨k', rfl, rfl⟩ := asInteger?_eq_some_iff.1 hb
  rfl

theorem totallyOrdered_texts : TotallyOrdered fun v => v.asText?.isSome :=
  totallyOrdered_of_key order_of_texts

end Value

open Value

/-- Equality never fails and an order is found just between two numbers or two texts. Where there is
an order, all operators agree with it and with equality, from both sides; among integers and among
texts it is total. -/
theorem equality_and_order_agree :
    (∀ l r : Value, binary .equal l r = .ok (.bool (equals l r)) ∧
      binary .notEqual l r = .ok (.bool !(equals l r))) ∧
    (∀ op ∈ Operator.ordering, ∀ l r : Value,
      ((∃ cause, binary op l r = .error cause) ↔ ¬ Ordered l r) ∧
      ∀ cause, binary op l r = .error cause →
        cause = .typeMismatch (.unordered l.kind r.kind)) ∧
    (∀ (l r : Value) (o : Option Ordering), order l r = .ok o →
      (o = some .eq ↔ equals l r = true) ∧
      order r l = .ok (o.map Ordering.swap) ∧
      binary .greater l r = binary .less r l ∧
      (∃ less, binary .less l r = .ok (.bool less) ∧
        binary .lessEqual l r = .ok (.bool (less || equals l r))) ∧
      binary .greaterEqual l r = binary .lessEqual r l) ∧
    TotallyOrdered (fun v => v.asInteger?.isSome) ∧
    TotallyOrdered (fun v => v.asText?.isSome) := by
  refine ⟨fun _ _ => ⟨rfl, rfl⟩, ?_, ?_, totallyOrdered_integers, totallyOrdered_texts⟩
  · intro op hop l r
    constructor
    · simp only [binary_error_iff hop, exists_and_left, exists_eq, and_true]
    · intro cause h
      exact ((binary_error_iff hop).1 h).2
  · intro l r o h
    obtain ⟨o', ho', hswap, heq⟩ := exists_order (ordered_of_order h)
    obtain rfl : o = o' := Except.ok.inj (h.symm.trans ho')
    obtain ⟨hgreater, hgreaterEqual⟩ := any_accepts_swap o
    refine ⟨heq, hswap, ?_, ⟨_, binary_of_order (by decide) h, ?_⟩, ?_⟩
    · rw [binary_of_order (by decide) h, binary_of_order (by decide) hswap, hgreater]
    · rw [binary_of_order (by decide) h, any_accepts_lessEqual]
      simp only [heq, Bool.decide_eq_true]
    · rw [binary_of_order (by decide) h, binary_of_order (by decide) hswap, hgreaterEqual]

/-- Two integers that round to the same decimal are both equal to it, though not to each other:
among all numbers equality is no equivalence. A truth value has no order. -/
theorem integers_that_round_alike :
    let decimal := Value.dec 9007199254740992.0
    let low := Value.num 9007199254740992
    let high := Value.num 9007199254740993
    Holds .equal low decimal ∧ order decimal high = .ok (some .eq) ∧ ¬ Holds .equal low high ∧
      ¬ Holds .greater low high ∧ Holds .equal (.chr none) (.str "") ∧
      binary .less (.bool false) (.num 1) = .error (.typeMismatch (.unordered .bool .num)) := by
  intro decimal low high
  obtain ⟨-, hfails, hagree, hintegers, htexts⟩ := equality_and_order_agree
  have hlow : order low decimal = .ok (some .eq) := rfl
  have hhigh : order high decimal = .ok (some .eq) := rfl
  have hless : Holds .less low high := rfl
  have hunordered : ¬ Ordered (.bool false) (.num 1) := by
    rintro (⟨h, -⟩ | ⟨h, -⟩)
    · cases h
    · cases h
  obtain ⟨cause, hcause⟩ := (hfails .less (by decide) _ _).1.2 hunordered
  refine ⟨holds_equal_iff.2 ((hagree _ _ _ hlow).1.1 rfl), (hagree _ _ _ hhigh).2.1, ?_, ?_, ?_, ?_⟩
  · intro hequal
    obtain ⟨-, hnot, -⟩ | ⟨hnot, -⟩ | ⟨hnot, -⟩ :=
      hintegers.exactly_one (l := low) (r := high) rfl rfl
    · exact hnot hequal
    · exact hnot hless
    · exact hnot hless
  · rw [Holds, (hagree low high _ rfl).2.2.1]
    intro h
    cases h
  · exact htexts.equivalence.symm (x := ⟨.str "", rfl⟩) (y := ⟨.chr none, rfl⟩) rfl
  · rw [hcause, (hfails .less (by decide) _ _).2 cause hcause]
    rfl

end Skript
