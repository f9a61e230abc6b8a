import Skript.Proofs.Comparison

/-!
# The algebra of texts

A sum joins two texts and a product with an integer repeats one, as often as the integer says and
never if it is negative. So a product is a sum taken again and again, and the length of what comes
out is found from the lengths of what went in. Whether there is room for a text is a question of its
bytes, while lengths are counted in characters. A product is refused only if its bytes cannot be
counted in sixty-four bits, which is twice what there is room for: in between the program is broken
off.
-/
namespace Skript

namespace Value

/-- The length of the value is found, and it is `n`. -/
def HasLength (v : Value) (n : Int) : Prop :=
  ∃ k : Int64, v.length = .ok (num k) ∧ k.toInt = n

section

variable {t u v : Value} {s r q : String}

/-! ### Sums -/

theorem binary_add_texts (ht : t.asText? = some s) (hu : u.asText? = some r) :
    binary .add t u = joined s r := by
  have hsum : binary .add t u = computeTexts .add t u :=
    arithmetic_of_isText (.inl (by rw [ht]; rfl))
  rw [hsum, computeTexts, ht, hu]

theorem joined_of_le (h : textLimit ≤ s.utf8ByteSize + r.utf8ByteSize) :
    joined s r = .error .capacity :=
  if_pos h

theorem joined_of_lt (h : s.utf8ByteSize + r.utf8ByteSize < textLimit) :
    joined s r = .ok (str (s ++ r)) :=
  if_neg (Nat.not_le_of_lt h)

theorem joined_eq_ok_iff {w : Value} : joined s r = .ok w ↔
    s.utf8ByteSize + r.utf8ByteSize < textLimit ∧ w = str (s ++ r) := by
  by_cases h : textLimit ≤ s.utf8ByteSize + r.utf8ByteSize
  · rw [joined_of_le h]
    exact iff_of_false nofun fun hlt => Nat.not_le_of_lt hlt.1 h
  · have hlt := Nat.lt_of_not_le h
    rw [joined_of_lt hlt, Except.ok.injEq, and_iff_right hlt, eq_comm]

theorem joined_eq_capacity_iff : joined s r = .error .capacity ↔
    textLimit ≤ s.utf8ByteSize + r.utf8ByteSize := by
  by_cases h : textLimit ≤ s.utf8ByteSize + r.utf8ByteSize
  · exact iff_of_true (joined_of_le h) h
  · rw [joined_of_lt (Nat.lt_of_not_le h)]
    exact iff_of_false nofun h

/-- Three texts are joined, if there is room for all three. -/
def joinedAll (s r q : String) : Except RunCause Value :=
  if textLimit ≤ s.utf8ByteSize + r.utf8ByteSize + q.utf8ByteSize then .error .capacity
  else .ok (str (s ++ r ++ q))

theorem add_add_left (ht : t.asText? = some s) (hu : u.asText? = some r)
    (hv : v.asText? = some q) :
    (binary .add t u >>= fun tu => binary .add tu v) = joinedAll s r q := by
  rw [binary_add_texts ht hu]
  by_cases h : textLimit ≤ s.utf8ByteSize + r.utf8ByteSize
  · rw [joined_of_le h, joinedAll, if_pos (Nat.le_add_right_of_le h)]
    rfl
  · rw [joined_of_lt (Nat.lt_of_not_le h)]
    have hsum : binary .add (str (s ++ r)) v = joined (s ++ r) q := binary_add_texts rfl hv
    rw [joined, String.utf8ByteSize_append] at hsum
    exact hsum

theorem add_add_right (ht : t.asText? = some s) (hu : u.asText? = some r)
    (hv : v.asText? = some q) :
    (binary .add u v >>= fun uv => binary .add t uv) = joinedAll s r q := by
  rw [binary_add_texts hu hv, joinedAll, Nat.add_assoc, String.append_assoc]
  by_cases h : textLimit ≤ r.utf8ByteSize + q.utf8ByteSize
  · rw [joined_of_le h, if_pos (Nat.le_add_left_of_le h)]
    rfl
  · rw [joined_of_lt (Nat.lt_of_not_le h)]
    have hsum : binary .add t (str (r ++ q)) = joined s (r ++ q) := binary_add_texts ht rfl
    rw [joined, String.utf8ByteSize_append] at hsum
    exact hsum

/-- A text joined with an empty one, on either side. -/
theorem exists_add_empty {e : Value} (ht : t.asText? = some s) (he : e.asText? = some "")
    (hs : s.utf8ByteSize < textLimit) :
    ∃ before after, binary .add e t = .ok before ∧ binary .add t e = .ok after ∧
      equals before t = true ∧ equals after t = true := by
  have hbefore : joined "" s = .ok (str s) := by
    rw [joined_of_lt (by rwa [String.utf8ByteSize_empty, Nat.zero_add]), String.empty_append]
  have hafter : joined s "" = .ok (str s) := by
    rw [joined_of_lt (by rwa [String.utf8ByteSize_empty, Nat.add_zero]), String.append_empty]
  refine ⟨_, _, (binary_add_texts he ht).trans hbefore, (binary_add_texts ht he).trans hafter, ?_⟩
  rw [equals_of_texts rfl ht, decide_eq_true rfl]
  exact ⟨rfl, rfl⟩

/-! ### Products -/

/-- A text and an integer give the same product on either side. -/
theorem binary_mul_text (ht : t.asText? = some s) (n : Int64) :
    binary .mul t (num n) = repeated s n ∧ binary .mul (num n) t = repeated s n := by
  cases t with
  | str s => cases ht; exact ⟨rfl, rfl⟩
  | chr c => cases c <;> cases ht <;> exact ⟨rfl, rfl⟩
  | _ => cases ht

theorem copies_eq (s : String) (n : Nat) :
    copies s n = String.ofList (List.replicate n s.toList).flatten := by
  rw [← String.toList_inj, String.toList_ofList, copies]
  by_cases hs : s = ""
  · subst hs
    simp
  · rw [if_neg hs, String.toList_join, List.flatMap_def, List.map_replicate]

/-- One more copy is one more text at the end. -/
theorem copies_succ (s : String) (n : Nat) : copies s (n + 1) = copies s n ++ s := by
  rw [copies_eq, copies_eq, List.replicate_succ', List.flatten_append, List.flatten_singleton,
    String.ofList_append, String.ofList_toList]

theorem length_copies (s : String) (n : Nat) : (copies s n).length = s.length * n := by
  rw [copies_eq, String.length_ofList, List.length_flatten, List.map_replicate,
    List.sum_replicate_nat, String.length_toList, Nat.mul_comm]

/-- A product by the number of its bytes. -/
theorem repeated_eq (s : String) (n : Int64) : repeated s n =
    if 18446744073709551616 ≤ s.utf8ByteSize * max n.toInt 0 then .error .overflow
    else if 9223372036854775808 ≤ s.utf8ByteSize * max n.toInt 0 then .error .capacity
    else .ok (str (copies s n.toInt.toNat)) := by
  have hsize : (s.utf8ByteSize * max n.toInt 0 : Int) = (s.utf8ByteSize * n.toInt.toNat : Nat) := by
    rw [← Int.toNat_eq_max, ← Int.natCast_mul]
  have hoverflow : (18446744073709551616 : Int) ≤ s.utf8ByteSize * max n.toInt 0 ↔
      UInt64.size ≤ s.utf8ByteSize * n.toInt.toNat := by
    rw [hsize, UInt64.size]
    omega
  have hcapacity : (9223372036854775808 : Int) ≤ s.utf8ByteSize * max n.toInt 0 ↔
      textLimit ≤ s.utf8ByteSize * n.toInt.toNat := by
    rw [hsize, textLimit]
    omega
  simp only [hoverflow, hcapacity]
  rfl

theorem repeated_eq_overflow_iff (s : String) (n : Int64) : repeated s n = .error .overflow ↔
    18446744073709551616 ≤ s.utf8ByteSize * max n.toInt 0 := by
  rw [repeated_eq]
  split
  · next h => exact iff_of_true rfl h
  · next h => split <;> exact iff_of_false nofun h

theorem repeated_eq_capacity_iff (s : String) (n : Int64) : repeated s n = .error .capacity ↔
    9223372036854775808 ≤ s.utf8ByteSize * max n.toInt 0 ∧
      s.utf8ByteSize * max n.toInt 0 < 18446744073709551616 := by
  rw [repeated_eq]
  split
  · next h => exact iff_of_false nofun fun hsize => Int.not_le.2 hsize.2 h
  · next h =>
    split
    · next hcapacity => exact iff_of_true rfl ⟨hcapacity, Int.not_le.1 h⟩
    · next hcapacity => exact iff_of_false nofun fun hsize => hcapacity hsize.1

theorem repeated_eq_ok_iff (s : String) (n : Int64) (w : Value) : repeated s n = .ok w ↔
    s.utf8ByteSize * max n.toInt 0 < 9223372036854775808 ∧ w = str (copies s n.toInt.toNat) := by
  rw [repeated_eq]
  split
  · next h => exact iff_of_false nofun fun hsize => by omega
  · next h =>
    split
    · next hcapacity => exact iff_of_false nofun fun hsize => Int.not_le.2 hsize.1 hcapacity
    · next hcapacity => rw [Except.ok.injEq, and_iff_right (Int.not_le.1 hcapacity), eq_comm]

theorem utf8ByteSize_copies (s : String) (n : Nat) :
    (copies s n).utf8ByteSize = s.utf8ByteSize * n := by
  induction n with
  | zero => rw [copies_eq, List.replicate_zero, List.flatten_nil, String.ofList_nil,
      String.utf8ByteSize_empty, Nat.mul_zero]
  | succ n ih => rw [copies_succ, String.utf8ByteSize_append, ih, Nat.mul_succ]

/-- With room for one more copy there is room for the others, and for that one behind them. -/
theorem exists_repeated_of_succ {n m : Int64} (hn : 0 ≤ n.toInt) (hm : m.toInt = n.toInt + 1)
    {w : Value} (h : repeated s m = .ok w) :
    ∃ w', repeated s n = .ok w' ∧ w'.asText? = some (copies s n.toInt.toNat) ∧
      joined (copies s n.toInt.toNat) s = .ok w := by
  obtain ⟨hroom, rfl⟩ := (repeated_eq_ok_iff s m w).1 h
  have hcount : m.toInt.toNat = n.toInt.toNat + 1 := by omega
  refine ⟨_, (repeated_eq_ok_iff s n _).2 ⟨?_, rfl⟩, rfl, ?_⟩
  · calc (s.utf8ByteSize : Int) * max n.toInt 0
        ≤ s.utf8ByteSize * max m.toInt 0 := Int.mul_le_mul_of_nonneg_left (by omega) (by omega)
      _ < 9223372036854775808 := hroom
  · have hsize : s.utf8ByteSize * (n.toInt.toNat + 1) < textLimit := by
      rw [← Int.toNat_eq_max, ← Int.natCast_mul, hcount] at hroom
      rw [textLimit]
      omega
    rw [joined_of_lt (by rwa [utf8ByteSize_copies]), hcount, copies_succ]

/-! ### Lengths -/

theorem length_of_text (ht : t.asText? = some s) :
    t.length = num <$> RunCause.orOverflow (Integer.ofInt? s.length) := by
  cases t with
  | str s => cases ht; rfl
  | chr c =>
    cases c with
    | none => cases ht; rfl
    | some c =>
      cases ht
      rw [String.length_singleton]
      rfl
  | _ => cases ht

/-- The length of a text is the number of its characters, and is found if that fits. -/
theorem hasLength_iff (ht : t.asText? = some s) (k : Int) :
    HasLength t k ↔ Integer.Fits k ∧ k = s.toList.length := by
  rw [HasLength, length_of_text ht, String.length_toList]
  constructor
  · rintro ⟨r, hlength, rfl⟩
    refine ⟨Integer.fits_toInt r, ?_⟩
    cases hr : Integer.ofInt? s.length with
    | none =>
      rw [hr] at hlength
      cases hlength
    | some r' =>
      rw [hr] at hlength
      cases hlength
      exact Integer.ofInt?_eq_some_iff.1 hr
  · rintro ⟨hfits, rfl⟩
    obtain ⟨r, hr, hsome⟩ := Integer.exists_of_fits hfits
    exact ⟨r, by rw [hsome]; rfl, hr⟩

end

end Value

open Value

/-- A product of a text and an integer is the same on either side. By the number of its bytes it is
made of copies, or is broken off where no text has room for them, or overflows where they cannot be
counted in sixty-four bits; the last copy is joined to the others by a sum. The length of a product
is the product of the length, that of a sum the sum of the lengths, wherever they fit. Sums can be
taken in any order, have a result as long as there is room for it, and the empty texts add
nothing. -/
theorem sums_products_and_lengths_of_texts_agree {t u v : Value} {s r q : String}
    (ht : t.asText? = some s) (hu : u.asText? = some r) (hv : v.asText? = some q) (n : Int64) :
    (binary .mul (.num n) t = binary .mul t (.num n) ∧
      (binary .mul t (.num n) = .error .overflow ↔
        18446744073709551616 ≤ s.utf8ByteSize * max n.toInt 0) ∧
      (binary .mul t (.num n) = .error .capacity ↔
        9223372036854775808 ≤ s.utf8ByteSize * max n.toInt 0 ∧
          s.utf8ByteSize * max n.toInt 0 < 18446744073709551616) ∧
      ∀ w, binary .mul t (.num n) = .ok w ↔
        s.utf8ByteSize * max n.toInt 0 < 9223372036854775808 ∧
          w = .str (String.ofList (List.replicate n.toInt.toNat s.toList).flatten)) ∧
    (∀ (m : Int64) (w : Value), 0 ≤ n.toInt → m.toInt = n.toInt + 1 →
      binary .mul t (.num m) = .ok w →
      ∃ w', binary .mul t (.num n) = .ok w' ∧ binary .add w' t = .ok w) ∧
    (∀ k, HasLength t k ↔ Integer.Fits k ∧ k = s.toList.length) ∧
    (∀ w, binary .mul t (.num n) = .ok w →
      ∀ k, HasLength w k ↔ Integer.Fits k ∧ k = s.toList.length * max n.toInt 0) ∧
    ((binary .add t u = .error .capacity ↔
        9223372036854775808 ≤ s.utf8ByteSize + r.utf8ByteSize) ∧
      (∀ w, binary .add t u = .ok w ↔
        s.utf8ByteSize + r.utf8ByteSize < 9223372036854775808 ∧ w = .str (s ++ r)) ∧
      ∀ w, binary .add t u = .ok w →
        ∀ k, HasLength w k ↔ Integer.Fits k ∧ k = s.toList.length + r.toList.length) ∧
    ((binary .add t u >>= fun tu => binary .add tu v) =
        (binary .add u v >>= fun uv => binary .add t uv) ∧
      (s.utf8ByteSize + r.utf8ByteSize + q.utf8ByteSize < 9223372036854775808 →
        (binary .add t u >>= fun tu => binary .add tu v) = .ok (.str (s ++ r ++ q)))) ∧
    (s.utf8ByteSize < 9223372036854775808 →
      ∀ e ∈ [Value.str "", Value.chr none], ∃ before after,
        binary .add e t = .ok before ∧ binary .add t e = .ok after ∧
          equals before t = true ∧ equals after t = true) := by
  obtain ⟨hmul, hcount⟩ := binary_mul_text ht n
  refine ⟨⟨?_, ?_, ?_, ?_⟩, ?_, hasLength_iff ht, ?_, ⟨?_, ?_, ?_⟩, ⟨?_, ?_⟩, ?_⟩
  · rw [hmul, hcount]
  · rw [hmul, repeated_eq_overflow_iff]
  · rw [hmul, repeated_eq_capacity_iff]
  · intro w
    rw [hmul, repeated_eq_ok_iff, copies_eq]
  · intro m w hn hm hproduct
    rw [(binary_mul_text ht m).1] at hproduct
    obtain ⟨w', hw', htext, hsum⟩ := exists_repeated_of_succ hn hm hproduct
    exact ⟨w', hmul.trans hw', (binary_add_texts htext ht).trans hsum⟩
  · intro w hproduct k
    obtain ⟨-, rfl⟩ := (repeated_eq_ok_iff s n w).1 (hmul.symm.trans hproduct)
    rw [hasLength_iff rfl, String.length_toList, length_copies, Int.natCast_mul, Int.toNat_eq_max,
      String.length_toList]
  · rw [binary_add_texts ht hu, joined_eq_capacity_iff, textLimit]
  · intro w
    rw [binary_add_texts ht hu, joined_eq_ok_iff, textLimit]
  · intro w hsum k
    obtain ⟨-, rfl⟩ := joined_eq_ok_iff.1 ((binary_add_texts ht hu).symm.trans hsum)
    rw [hasLength_iff rfl, String.toList_append, List.length_append, Int.natCast_add]
  · rw [add_add_left ht hu hv, add_add_right ht hu hv]
  · intro hroom
    have hlimit : ¬ textLimit ≤ s.utf8ByteSize + r.utf8ByteSize + q.utf8ByteSize :=
      Nat.not_le_of_lt hroom
    rw [add_add_left ht hu hv, joinedAll, if_neg hlimit]
  · intro hroom e he
    have hempty : e.asText? = some "" := by
      obtain rfl | rfl := by simpa using he
      · rfl
      · rfl
    exact exists_add_empty ht hempty hroom

/-- A character of four bytes can be repeated up to the last time that there is room for its copies,
where its length still fits. One more copy breaks the run off, up to the first count that overflows.
The empty character can be repeated any number of times. -/
theorem last_copy_before_the_limits :
    let t := Value.chr (some '😀')
    (∃ w, binary .mul t (.num 2305843009213693951) = .ok w ∧ HasLength w 2305843009213693951) ∧
      binary .mul t (.num 4611686018427387903) = .error .capacity ∧
      binary .mul (.num 4611686018427387904) t = .error .overflow ∧
      (∃ w, binary .mul (.chr none) (.num 9223372036854775807) = .ok w ∧ HasLength w 0) ∧
      (∃ w, binary .mul (.str "") (.num 9223372036854775806) = .ok w ∧
        binary .add w (.str "") = .ok (.str "")) ∧
      (binary .add t (.str "ab") >>= fun w => binary .add w (.chr none)) = .ok (.str "😀ab") ∧
      ∃ w, binary .add (.chr none) t = .ok w ∧ equals w t = true := by
  intro t
  have ht : t.asText? = some "😀" := rfl
  have hnone : (Value.chr none).asText? = some "" := rfl
  have hstr : (Value.str "").asText? = some "" := rfl
  have hab : (Value.str "ab").asText? = some "ab" := rfl
  obtain ⟨⟨-, -, -, hroom⟩, -, -, hlength, -, ⟨-, hall⟩, hneutral⟩ :=
    sums_products_and_lengths_of_texts_agree ht hab hnone 2305843009213693951
  obtain ⟨⟨-, -, hfull, -⟩, -⟩ :=
    sums_products_and_lengths_of_texts_agree ht hab hnone 4611686018427387903
  obtain ⟨⟨hcount, hoverflow, -⟩, -⟩ :=
    sums_products_and_lengths_of_texts_agree ht hab hnone 4611686018427387904
  obtain ⟨⟨-, -, -, hroom'⟩, -, -, hlength', -⟩ :=
    sums_products_and_lengths_of_texts_agree hnone hstr hstr 9223372036854775807
  obtain ⟨-, hmore, -⟩ :=
    sums_products_and_lengths_of_texts_agree hstr hstr hstr 9223372036854775806
  have hproduct := (hroom _).2 ⟨by decide, rfl⟩
  have hproduct' := (hroom' _).2 ⟨by decide, rfl⟩
  obtain ⟨w, -, hbefore, -, hequals, -⟩ := hneutral (by decide) (.chr none) (by simp)
  exact ⟨⟨_, hproduct, (hlength _ hproduct _).2 (by decide)⟩, hfull.2 (by decide),
    hcount.trans (hoverflow.2 (by decide)),
    ⟨_, hproduct', (hlength' _ hproduct' _).2 (by decide)⟩,
    hmore 9223372036854775807 (.str "") (by decide) (by decide) rfl,
    hall (by decide), w, hbefore, hequals⟩

/-- A product that the count of bytes lets through can have more bytes than there is room for: its
run is broken off, where an overflow is still a good way off. -/
theorem product_between_the_limits_is_broken_off :
    binary .mul (.chr (some '😀')) (.num 2305843009213693952) = .error .capacity ∧
      "😀".utf8ByteSize * 2305843009213693952 < 18446744073709551616 := by
  decide +kernel

end Skript
