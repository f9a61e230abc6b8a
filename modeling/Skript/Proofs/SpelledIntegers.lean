import Skript.Builtin
import Skript.Proofs.LongestMatch

/-!
# Integers are read as they are spelled

An integer is spelled in digits, with a sign before them or none, and white space may stand around
it. A line of input is read as an integer exactly if it is such a spelling of one that fits. A text
that is turned into a number is read in the same way first, and as a decimal only if that fails: too
many digits make a decimal of a text, but a line of input is refused.
-/
namespace Skript

/-! ### White space around a text -/

namespace Text

/-- There is nothing but white space. -/
def AllBlank (cs : List Char) : Prop :=
  ∀ c ∈ cs, isBlank c

/-- `bare` is what is left of `cs` without the white space around it. -/
structure IsBare (cs bare : List Char) : Prop where
  split : ∃ before after, cs = before ++ bare ++ after ∧ AllBlank before ∧ AllBlank after
  first : ∀ c ∈ bare.head?, ¬ isBlank c
  last : ∀ c ∈ bare.getLast?, ¬ isBlank c

theorem trimLeft_append {before cs : List Char} (hbefore : AllBlank before)
    (hcs : ∀ c ∈ cs.head?, ¬ isBlank c) : trimLeft (before ++ cs) = cs := by
  rw [trimLeft, List.dropWhile_append_of_pos hbefore]
  cases cs with
  | nil => rfl
  | cons c cs => exact List.dropWhile_cons_of_neg (hcs c rfl)

theorem trimRight_append {cs after : List Char} (hafter : AllBlank after)
    (hcs : ∀ c ∈ cs.getLast?, ¬ isBlank c) : trimRight (cs ++ after) = cs := by
  rw [trimRight, List.reverse_append, trimLeft_append, List.reverse_reverse]
  · intro c hc
    exact hafter c (List.mem_reverse.1 hc)
  · rwa [List.head?_reverse]

theorem exists_trimLeft (cs : List Char) : ∃ before, cs = before ++ trimLeft cs ∧
    AllBlank before ∧ ∀ c ∈ (trimLeft cs).head?, ¬ isBlank c := by
  refine ⟨cs.takeWhile isBlank, List.takeWhile_append_dropWhile.symm,
    fun c => List.mem_takeWhile_imp, ?_⟩
  intro c hc
  have hfirst := List.head?_dropWhile_not isBlank cs
  rw [show (cs.dropWhile isBlank).head? = some c from hc] at hfirst
  rw [hfirst]
  exact Bool.false_ne_true

theorem exists_trimRight (cs : List Char) : ∃ after, cs = trimRight cs ++ after ∧
    AllBlank after ∧ ∀ c ∈ (trimRight cs).getLast?, ¬ isBlank c := by
  obtain ⟨before, hsplit, hblank, hfirst⟩ := exists_trimLeft cs.reverse
  refine ⟨before.reverse, ?_, fun c hc => hblank c (List.mem_reverse.1 hc), ?_⟩
  · rw [trimRight, ← List.reverse_append, ← hsplit, List.reverse_reverse]
  · rwa [trimRight, List.getLast?_reverse]

theorem trim_eq_iff {cs bare : List Char} : trim cs = bare ↔ IsBare cs bare := by
  constructor
  · rintro rfl
    obtain ⟨before, hbefore, hblank, hfirst⟩ := exists_trimLeft cs
    obtain ⟨after, hafter, hblank', hlast⟩ := exists_trimRight (trimLeft cs)
    refine ⟨⟨before, after, ?_, hblank, hblank'⟩, ?_, hlast⟩
    · rw [List.append_assoc, trim, ← hafter, ← hbefore]
    · intro c hc
      refine hfirst c ?_
      rw [trim] at hc
      rw [hafter, List.head?_append, hc]
      rfl
  · rintro ⟨⟨before, after, rfl, hbefore, hafter⟩, hfirst, hlast⟩
    rw [trim]
    cases bare with
    | nil =>
      have hblank : AllBlank (before ++ [] ++ after) := by
        rw [List.append_nil]
        exact List.forall_mem_append.2 ⟨hbefore, hafter⟩
      rw [trimLeft, List.dropWhile_eq_nil_iff.2 hblank]
      rfl
    | cons c bare =>
      have hleft : trimLeft (before ++ (c :: bare ++ after)) = c :: bare ++ after :=
        trimLeft_append hbefore hfirst
      rw [List.append_assoc, hleft, trimRight_append hafter hlast]

end Text

/-! ### Spellings of integers -/

namespace Integer

/-- The text is a numeral, perhaps with a sign before it, for the integer. -/
inductive Spells : List Char → Int → Prop
  | unsigned {ds : List Char} {n : Nat} (numeral : IsNumeral ds n) : Spells ds n
  | plus {ds : List Char} {n : Nat} (numeral : IsNumeral ds n) : Spells ('+' :: ds) n
  | minus {ds : List Char} {n : Nat} (numeral : IsNumeral ds n) : Spells ('-' :: ds) (-n)

theorem readNat?_eq_some_iff {ds : List Char} {n : Nat} :
    readNat? ds = some n ↔ IsNumeral ds n := by
  rw [readNat?, Digits.number_eq, Digits.isRun, IsNumeral, Option.ite_none_right_eq_some,
    Bool.and_eq_true, List.all_eq_true, Option.some_inj, and_assoc]
  simp

/-- An integer is printed as one of its spellings. -/
theorem spells_digits (n : Int) : Spells (digits n) n := by
  unfold digits
  by_cases hn : n < 0
  · rw [if_pos hn]
    have hspells := Spells.minus (isNumeral_toDigits n.natAbs)
    rwa [Int.ofNat_natAbs_of_nonpos (Int.le_of_lt hn), Int.neg_neg] at hspells
  · rw [if_neg hn]
    have hspells := Spells.unsigned (isNumeral_toDigits n.natAbs)
    rwa [Int.natAbs_of_nonneg (Int.not_lt.1 hn)] at hspells

theorem read?_eq_some_iff {cs : List Char} {k : Int64} :
    read? cs = some k ↔ Spells cs k.toInt := by
  constructor
  · intro h
    unfold read? at h
    split at h
    · obtain ⟨n, hn, hk⟩ := Option.bind_eq_some_iff.1 h
      rw [ofInt?_eq_some_iff.1 hk]
      exact .minus (readNat?_eq_some_iff.1 hn)
    · obtain ⟨n, hn, hk⟩ := Option.bind_eq_some_iff.1 h
      rw [ofInt?_eq_some_iff.1 hk]
      exact .plus (readNat?_eq_some_iff.1 hn)
    · obtain ⟨n, hn, hk⟩ := Option.bind_eq_some_iff.1 h
      rw [ofInt?_eq_some_iff.1 hk]
      exact .unsigned (readNat?_eq_some_iff.1 hn)
  · intro h
    generalize hn : k.toInt = m at h
    cases h with
    | unsigned numeral =>
      rw [read?_of_digits numeral.1 numeral.2.1, numeral.2.2]
      exact ofInt?_eq_some_iff.2 hn
    | plus numeral =>
      rw [read?, readNat?_eq_some_iff.2 numeral]
      exact ofInt?_eq_some_iff.2 hn
    | minus numeral =>
      rw [read?, readNat?_eq_some_iff.2 numeral]
      exact ofInt?_eq_some_iff.2 hn

/-- No spelling holds white space. -/
theorem Spells.not_isBlank {cs : List Char} {n : Int} (h : Spells cs n) :
    ∀ c ∈ cs, ¬ Text.isBlank c := by
  have hdigit : ∀ c : Char, c.isDigit → ¬ Text.isBlank c := by
    intro c hc
    simp only [Char.isDigit, Bool.and_eq_true, decide_eq_true_eq, ge_iff_le,
      UInt32.le_iff_toNat_le] at hc
    have hlow : 48 ≤ c.toNat := hc.1
    have hhigh : c.toNat ≤ 57 := hc.2
    rw [Text.isBlank, Text.blankRanges]
    simp only [Text.inRanges]
    grind
  cases h with
  | unsigned numeral => exact fun c hc => hdigit c (numeral.2.1 c hc)
  | plus numeral =>
    exact List.forall_mem_cons.2 ⟨by decide, fun c hc => hdigit c (numeral.2.1 c hc)⟩
  | minus numeral =>
    exact List.forall_mem_cons.2 ⟨by decide, fun c hc => hdigit c (numeral.2.1 c hc)⟩

/-- A spelling is what is left of itself and of any white space around it. -/
theorem Spells.isBare {cs before after : List Char} {n : Int} (h : Spells cs n)
    (hbefore : Text.AllBlank before) (hafter : Text.AllBlank after) :
    Text.IsBare (before ++ cs ++ after) cs where
  split := ⟨before, after, rfl, hbefore, hafter⟩
  first := fun c hc => h.not_isBlank c (List.mem_of_head? hc)
  last := fun c hc => h.not_isBlank c (List.mem_of_getLast? hc)

end Integer

/-! ### The two readers -/

namespace Value

open Text

variable {raw : String}

theorem ofInput_eq_ok_iff {kind : Kind} {v : Value} :
    ofInput (some kind) raw = .ok v ↔ read? raw kind = some v := by
  rw [ofInput]
  cases read? raw kind with
  | none => exact iff_of_false nofun nofun
  | some w => rw [Except.ok.injEq, Option.some_inj]

theorem read?_of_ofInput_error {kind : Kind} {cause : RunCause}
    (h : ofInput (some kind) raw = .error cause) : read? raw kind = none := by
  cases hread : read? raw kind with
  | none => rfl
  | some v =>
    rw [ofInput_eq_ok_iff.2 hread] at h
    cases h

theorem read?_num_eq_some_iff {n : Int64} : read? raw .num = some (num n) ↔
    ∃ bare, IsBare raw.toList bare ∧ Integer.Spells bare n.toInt := by
  rw [read?, Option.map_eq_some_iff]
  constructor
  · rintro ⟨k, hk, hn⟩
    cases hn
    exact ⟨_, trim_eq_iff.1 rfl, Integer.read?_eq_some_iff.1 hk⟩
  · rintro ⟨bare, hbare, hspells⟩
    refine ⟨n, ?_, rfl⟩
    rw [trim_eq_iff.2 hbare]
    exact Integer.read?_eq_some_iff.2 hspells

theorem toNum_str (raw : String) : Builtin.toNum [str raw] =
    match read? raw .num <|> read? raw .dec with
    | some n => .ok n
    | none => .error (.conversion (.notNumber raw)) := rfl

end Value

open Value

/-- A printed integer is read back by both readers, with any white space around it. A line of input
is read as an integer exactly if it spells one that fits. A text is turned into the number that it
would be read as in a line of input, an integer if it can be and else a decimal, and if it is
neither, this is said in the fault. -/
theorem integers_are_read_as_they_are_spelled :
    (∀ (n : Int64) (before after : String), Text.AllBlank before.toList →
      Text.AllBlank after.toList →
      let raw := before ++ (Value.num n).text ++ after
      Builtin.toNum [.str raw] = .ok (.num n) ∧ ofInput (some .num) raw = .ok (.num n)) ∧
    (∀ (raw : String) (n : Int64), ofInput (some .num) raw = .ok (.num n) ↔
      ∃ bare, Text.IsBare raw.toList bare ∧ Integer.Spells bare n.toInt) ∧
    ∀ raw : String,
      (∀ v, ofInput (some .num) raw = .ok v → Builtin.toNum [.str raw] = .ok v) ∧
      (∀ cause v, ofInput (some .num) raw = .error cause → ofInput (some .dec) raw = .ok v →
        Builtin.toNum [.str raw] = .ok v) ∧
      ∀ cause cause', ofInput (some .num) raw = .error cause →
        ofInput (some .dec) raw = .error cause' →
        Builtin.toNum [.str raw] = .error (.conversion (.notNumber raw)) := by
  have hnum (raw : String) (v : Value) (h : ofInput (some .num) raw = .ok v) :
      Builtin.toNum [.str raw] = .ok v := by
    rw [toNum_str, ofInput_eq_ok_iff.1 h]
    rfl
  have hspelled (raw : String) (n : Int64) : ofInput (some .num) raw = .ok (.num n) ↔
      ∃ bare, Text.IsBare raw.toList bare ∧ Integer.Spells bare n.toInt :=
    ofInput_eq_ok_iff.trans read?_num_eq_some_iff
  refine ⟨?_, hspelled, fun raw => ⟨hnum raw, ?_, ?_⟩⟩
  · intro n before after hbefore hafter raw
    have hspells := Integer.spells_digits n.toInt
    have hraw : raw.toList = before.toList ++ Integer.digits n.toInt ++ after.toList := by
      rw [String.toList_append, String.toList_append, Value.text, Integer.text,
        String.toList_ofList]
    have hread : ofInput (some .num) raw = .ok (.num n) :=
      (hspelled raw n).2 ⟨_, hraw ▸ hspells.isBare hbefore hafter, hspells⟩
    exact ⟨hnum raw _ hread, hread⟩
  · intro cause v hfault hread
    rw [toNum_str, read?_of_ofInput_error hfault, ofInput_eq_ok_iff.1 hread]
    rfl
  · intro cause cause' hfault hfault'
    rw [toNum_str, read?_of_ofInput_error hfault, read?_of_ofInput_error hfault']
    rfl

/-- The least integer is read back with white space of any sort around it. One past the largest is
refused in a line of input and makes a decimal of a text, and a sign without digits is no number. -/
theorem least_integer_is_read_back :
    let least := "\u3000-9223372036854775808\u0085\n"
    Builtin.toNum [.str least] = .ok (.num (-9223372036854775808)) ∧
      ofInput (some .num) least = .ok (.num (-9223372036854775808)) ∧
      (∀ n : Int64, ofInput (some .num) "9223372036854775808" ≠ .ok (.num n)) ∧
      Builtin.toNum [.str "9223372036854775808"] = .ok (.dec 9223372036854775808.0) ∧
      ofInput (some .num) " +007" = .ok (.num 7) ∧
      Builtin.toNum [.str "+"] = .error (.conversion (.notNumber "+")) := by
  intro least
  obtain ⟨hprinted, hspelled, hnumber⟩ := integers_are_read_as_they_are_spelled
  obtain ⟨hleast, hleast'⟩ := hprinted (-9223372036854775808) "\u3000" "\u0085\n"
    (List.all_eq_true.1 (by decide)) (List.all_eq_true.1 (by decide))
  have hlarge : ofInput (some .num) "9223372036854775808" =
      .error (.conversion (.notOfKind "9223372036854775808" .num)) := rfl
  have hseven : Integer.Spells "+007".toList 7 :=
    .plus ⟨by decide, List.all_eq_true.1 (by decide), by decide⟩
  have hbare : Text.IsBare ([' '] ++ "+007".toList ++ []) "+007".toList :=
    hseven.isBare (List.all_eq_true.1 (by decide)) (List.all_eq_true.1 (by decide))
  refine ⟨hleast, hleast', fun n hn => ?_, (hnumber _).2.1 _ _ hlarge rfl, ?_, ?_⟩
  · cases hlarge.symm.trans hn
  · exact (hspelled " +007" 7).2 ⟨_, hbare, hseven⟩
  · exact (hnumber "+").2.2 _ _ rfl rfl

end Skript
