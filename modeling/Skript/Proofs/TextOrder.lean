import Mathlib.Tactic.SplitIfs
import Skript.Proofs.Comparison

/-!
# The order of texts is the order of their bytes

A code point is written in up to four bytes. The first byte tells how many follow and holds the
highest digits of the code point, and each byte that follows holds one digit to the base 64. More
bytes are announced by a larger first byte and belong to larger code points, and among code points
with equally many bytes the digits decide; so bytes are ordered as the code points are. It does not
matter where the bytes of a character end, for the first byte that differs decides.
-/
namespace Skript

namespace Utf8

/-- The number of bytes that follow the first byte of a code point. -/
def following (n : Nat) : Nat :=
  if n ≤ 127 then 0
  else if n ≤ 2047 then 1
  else if n ≤ 65535 then 2
  else 3

/-- What is added to the first byte to announce how many follow. -/
def mark : Nat → Nat
  | 0 => 0
  | 1 => 192
  | 2 => 224
  | _ => 240

/-- The first byte, and `k` bytes that follow it. -/
def spread (mark : Nat) : Nat → Nat → List Nat
  | 0, n => [mark + n]
  | k + 1, n => spread mark k (n / 64) ++ [128 + n % 64]

/-- The bytes of a code point, as numbers. -/
def units (n : Nat) : List Nat :=
  spread (mark (following n)) (following n) n

/-! ### Bytes and digits -/

theorem compare_div_mod (n m : Nat) :
    compare n m = (compare (n / 64) (m / 64)).then (compare (n % 64) (m % 64)) := by
  obtain h | h | h := Nat.lt_trichotomy (n / 64) (m / 64)
  · rw [Nat.compare_eq_lt.2 h, Nat.compare_eq_lt.2 (by omega)]
    rfl
  · rw [Nat.compare_eq_eq.2 h]
    obtain hmod | hmod | hmod := Nat.lt_trichotomy (n % 64) (m % 64)
    · rw [Nat.compare_eq_lt.2 hmod, Nat.compare_eq_lt.2 (by omega)]
      rfl
    · rw [Nat.compare_eq_eq.2 hmod, Nat.compare_eq_eq.2 (by omega)]
      rfl
    · rw [Nat.compare_eq_gt.2 hmod, Nat.compare_eq_gt.2 (by omega)]
      rfl
  · rw [Nat.compare_eq_gt.2 h, Nat.compare_eq_gt.2 (by omega)]
    rfl

theorem compare_add_left (k n m : Nat) : compare (k + n) (k + m) = compare n m := by
  obtain h | rfl | h := Nat.lt_trichotomy n m
  · rw [Nat.compare_eq_lt.2 h, Nat.compare_eq_lt.2 (by omega)]
  · rw [Nat.compare_eq_eq.2 rfl, Nat.compare_eq_eq.2 rfl]
  · rw [Nat.compare_eq_gt.2 h, Nat.compare_eq_gt.2 (by omega)]

/-- Equally many digits are ordered as the numbers are, and then what follows decides. -/
theorem compareLex_spread (mark k n m : Nat) (p q : List Nat) :
    List.compareLex compare (spread mark k n ++ p) (spread mark k m ++ q) =
      (compare n m).then (List.compareLex compare p q) := by
  induction k generalizing n m p q with
  | zero => rw [spread, spread, List.cons_append, List.cons_append, List.compareLex_cons_cons,
      compare_add_left, List.nil_append, List.nil_append]
  | succ k ih =>
    -- the last digit is the first of what follows all the others
    rw [spread, spread, List.append_assoc, List.append_assoc, ih, List.cons_append,
      List.cons_append, List.compareLex_cons_cons, compare_add_left, List.nil_append,
      List.nil_append, compare_div_mod n m, Ordering.then_assoc]

/-- The first byte of `spread`. -/
def leading (mark : Nat) : Nat → Nat → Nat
  | 0, n => mark + n
  | k + 1, n => leading mark k (n / 64)

theorem exists_spread_eq_cons (mark k n : Nat) :
    ∃ rest, spread mark k n = leading mark k n :: rest := by
  induction k generalizing n with
  | zero => exact ⟨[], rfl⟩
  | succ k ih =>
    obtain ⟨rest, hrest⟩ := ih (n / 64)
    exact ⟨rest ++ [128 + n % 64], by rw [spread, hrest, leading, List.cons_append]⟩

/-- More bytes belong to larger code points and have a larger first byte. -/
theorem leading_lt_leading {n m : Nat} (h : following n < following m) :
    n < m ∧ leading (mark (following n)) (following n) n <
      leading (mark (following m)) (following m) m := by
  -- a first byte is at most 127, 223 or 239, or else at least 240
  unfold following at h ⊢
  split_ifs at h ⊢ <;> simp only [mark, leading] <;> omega

theorem exists_units_eq_cons (n : Nat) :
    ∃ rest, units n = leading (mark (following n)) (following n) n :: rest :=
  exists_spread_eq_cons _ _ n

/-- The bytes of code points are ordered as these are, and then what follows decides. -/
theorem compareLex_units (n m : Nat) (p q : List Nat) :
    List.compareLex compare (units n ++ p) (units m ++ q) =
      (compare n m).then (List.compareLex compare p q) := by
  obtain ⟨n', hn⟩ := exists_units_eq_cons n
  obtain ⟨m', hm⟩ := exists_units_eq_cons m
  obtain h | h | h := Nat.lt_trichotomy (following n) (following m)
  · obtain ⟨hnm, hleading⟩ := leading_lt_leading h
    rw [hn, hm, List.cons_append, List.cons_append, List.compareLex_cons_cons,
      Nat.compare_eq_lt.2 hleading, Nat.compare_eq_lt.2 hnm]
    rfl
  · rw [units, units, h]
    exact compareLex_spread _ _ n m p q
  · obtain ⟨hmn, hleading⟩ := leading_lt_leading h
    rw [hn, hm, List.cons_append, List.cons_append, List.compareLex_cons_cons,
      Nat.compare_eq_gt.2 hleading, Nat.compare_eq_gt.2 hmn]
    rfl

theorem compareLex_flatMap_units (ns ms : List Nat) :
    List.compareLex compare (ns.flatMap units) (ms.flatMap units) =
      List.compareLex compare ns ms := by
  induction ns generalizing ms with
  | nil =>
    cases ms with
    | nil => rfl
    | cons m ms =>
      obtain ⟨rest, hrest⟩ := exists_units_eq_cons m
      rw [List.flatMap_cons, hrest]
      rfl
  | cons n ns ih =>
    cases ms with
    | nil =>
      obtain ⟨rest, hrest⟩ := exists_units_eq_cons n
      rw [List.flatMap_cons, hrest]
      rfl
    | cons m ms =>
      rw [List.flatMap_cons, List.flatMap_cons, compareLex_units, ih, List.compareLex_cons_cons]

/-! ### Characters and texts -/

theorem units_of_following {n k : Nat} (h : following n = k) : units n = spread (mark k) k n := by
  rw [units, h]

theorem map_utf8EncodeChar (c : Char) :
    (String.utf8EncodeChar c).map UInt8.toNat = units c.toNat := by
  have hlt : c.toNat < 1114112 := by
    obtain h | ⟨-, h⟩ := c.valid
    · exact Nat.lt_trans h (by decide)
    · exact h
  by_cases h₁ : c.toNat ≤ 127
  · have hchar : String.utf8EncodeChar c = [.ofNat c.toNat] := if_pos h₁
    rw [hchar, units_of_following (if_pos h₁)]
    simp only [spread, mark, List.map_cons, List.map_nil, UInt8.toNat_ofNat', List.cons.injEq,
      and_true]
    omega
  by_cases h₂ : c.toNat ≤ 2047
  · have hchar : String.utf8EncodeChar c =
        [.ofNat (c.toNat / 64 % 32 + 192), .ofNat (c.toNat % 64 + 128)] :=
      (if_neg h₁).trans (if_pos h₂)
    rw [hchar, units_of_following ((if_neg h₁).trans (if_pos h₂))]
    simp only [spread, mark, List.map_cons, List.map_nil, UInt8.toNat_ofNat', List.cons_append,
      List.nil_append, List.cons.injEq, and_true]
    omega
  by_cases h₃ : c.toNat ≤ 65535
  · have hchar : String.utf8EncodeChar c =
        [.ofNat (c.toNat / 4096 % 16 + 224), .ofNat (c.toNat / 64 % 64 + 128),
          .ofNat (c.toNat % 64 + 128)] :=
      (if_neg h₁).trans ((if_neg h₂).trans (if_pos h₃))
    rw [hchar, units_of_following ((if_neg h₁).trans ((if_neg h₂).trans (if_pos h₃)))]
    simp only [spread, mark, List.map_cons, List.map_nil, UInt8.toNat_ofNat', List.cons_append,
      List.nil_append, List.cons.injEq, and_true]
    omega
  · have hchar : String.utf8EncodeChar c =
        [.ofNat (c.toNat / 262144 % 8 + 240), .ofNat (c.toNat / 4096 % 64 + 128),
          .ofNat (c.toNat / 64 % 64 + 128), .ofNat (c.toNat % 64 + 128)] :=
      (if_neg h₁).trans ((if_neg h₂).trans (if_neg h₃))
    rw [hchar, units_of_following ((if_neg h₁).trans ((if_neg h₂).trans (if_neg h₃)))]
    simp only [spread, mark, List.map_cons, List.map_nil, UInt8.toNat_ofNat', List.cons_append,
      List.nil_append, List.cons.injEq, and_true]
    omega

/-- The bytes of a text, as numbers. -/
def bytes (s : String) : List Nat :=
  (Console.encode s).map UInt8.toNat

/-- The code points of a text. -/
def codePoints (s : String) : List Nat :=
  s.toList.map Char.toNat

theorem encode_eq_flatMap (s : String) :
    Console.encode s = s.toList.flatMap String.utf8EncodeChar := by
  obtain ⟨cs, rfl⟩ : ∃ cs, s = String.ofList cs := ⟨s.toList, String.ofList_toList.symm⟩
  change (String.ofList cs).toByteArray.data.toList = _
  rw [String.toByteArray_ofList, String.toList_ofList]
  change (cs.flatMap String.utf8EncodeChar).toByteArray.data.toList = _
  rw [List.data_toByteArray]

theorem bytes_eq_flatMap (s : String) : bytes s = (codePoints s).flatMap units := by
  rw [bytes, codePoints, encode_eq_flatMap, List.map_flatMap, List.flatMap_map]
  simp only [map_utf8EncodeChar]

theorem compareLex_eq_lt_iff (cs ds : List Char) :
    List.compareLex compare (cs.map Char.toNat) (ds.map Char.toNat) = .lt ↔ cs < ds := by
  induction cs generalizing ds with
  | nil =>
    cases ds with
    | nil => exact iff_of_false nofun (List.not_lt_nil [])
    | cons d ds => exact iff_of_true rfl (List.nil_lt_cons d ds)
  | cons c cs ih =>
    cases ds with
    | nil => exact iff_of_false nofun (List.not_lt_nil (c :: cs))
    | cons d ds =>
      rw [List.map_cons, List.map_cons, List.compareLex_cons_cons, Ordering.then_eq_lt,
        Nat.compare_eq_lt, Nat.compare_eq_eq, Char.toNat_inj, ih, List.cons_lt_cons_iff]
      exact Iff.rfl

theorem compare_eq_compareLex (s t : String) :
    compare s t = List.compareLex compare (codePoints s) (codePoints t) := by
  have hlt (s t : String) : compare s t = .lt →
      List.compareLex compare (codePoints s) (codePoints t) = .lt := by
    intro h
    rw [codePoints, codePoints, compareLex_eq_lt_iff]
    exact String.lt_iff.1 (compareOfLessAndEq_eq_lt.1 h)
  cases h : compare s t with
  | lt => exact (hlt s t h).symm
  | eq =>
    obtain rfl := Std.compare_eq_iff_eq.1 h
    exact Std.ReflCmp.compare_self.symm
  | gt =>
    exact (Std.OrientedCmp.gt_iff_lt.2 (hlt t s (Std.OrientedCmp.gt_iff_lt.1 h))).symm

end Utf8

open Utf8

/-- Texts have the order of their bytes, which is the order of their code points, and just equal
texts are equal in it. -/
theorem text_order_is_byte_order {l r : Value} {s t : String} (hl : l.asText? = some s)
    (hr : r.asText? = some t) :
    Value.order l r = .ok (some (List.compareLex compare (bytes s) (bytes t))) ∧
      List.compareLex compare (bytes s) (bytes t) =
        List.compareLex compare (codePoints s) (codePoints t) ∧
      (Value.order l r = .ok (some .eq) ↔ s = t) := by
  have hbytes : List.compareLex compare (bytes s) (bytes t) =
      List.compareLex compare (codePoints s) (codePoints t) := by
    rw [bytes_eq_flatMap, bytes_eq_flatMap, compareLex_flatMap_units]
  refine ⟨?_, hbytes, ?_⟩
  · rw [Value.order_of_texts hl hr, hbytes, compare_eq_compareLex]
  · rw [Value.order_of_texts hl hr, Except.ok.injEq, Option.some_inj, Std.compare_eq_iff_eq]

/-- The last character of three bytes comes before one of four, whatever follows, and the empty
character is the empty text. -/
theorem three_bytes_come_before_four :
    let l := Value.chr (some '\uffff')
    let r := Value.str "😀!"
    bytes "\uffff" = [239, 191, 191] ∧ bytes "😀!" = [240, 159, 152, 128, 33] ∧
      codePoints "\uffff" = [65535] ∧ codePoints "😀!" = [128512, 33] ∧
      Value.order l r = .ok (some .lt) ∧ Value.order (.chr none) (.str "") = .ok (some .eq) := by
  intro l r
  have hl : l.asText? = some "\uffff" := rfl
  have hr : r.asText? = some "😀!" := rfl
  have hpoints : codePoints "\uffff" = [65535] := by decide
  have hpoints' : codePoints "😀!" = [128512, 33] := by decide
  obtain ⟨horder, hbytes, -⟩ := text_order_is_byte_order hl hr
  rw [hbytes, hpoints, hpoints'] at horder
  exact ⟨by decide, by decide, hpoints, hpoints', horder,
    (text_order_is_byte_order rfl rfl).2.2.2 rfl⟩

end Skript
