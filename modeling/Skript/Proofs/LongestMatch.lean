import Mathlib.Data.List.TakeWhile
import Skript.Proofs.Patterns

/-!
# Pieces are longest matches

What is cut off the front of a text is the longest piece that matches a pattern of the table, and
nothing is cut off where no pattern matches. The first character of a piece tells almost which
pattern it can match, so that for each pattern it is enough to look at one way of cutting.
-/
namespace Skript

/-! ### Numbers in digits -/

/-- One or more digits that denote the number. -/
def Integer.IsNumeral (ds : List Char) (n : Nat) : Prop :=
  ds ≠ [] ∧ (∀ c ∈ ds, c.isDigit) ∧ Nat.ofDigitChars 10 ds 0 = n

theorem Integer.isNumeral_toDigits (n : Nat) : IsNumeral (Nat.toDigits 10 n) n :=
  ⟨Nat.toDigits_ne_nil, fun _ => Nat.isDigit_of_mem_toDigits (by omega) (by omega),
    Nat.ofDigitChars_toDigits (by omega) (by omega)⟩

theorem Integer.read?_of_digits {s : List Char} (hne : s ≠ []) (hs : ∀ c ∈ s, c.isDigit) :
    Integer.read? s = Integer.ofInt? (Nat.ofDigitChars 10 s 0) := by
  have hrun : Digits.isRun s := by
    simp only [Digits.isRun, Bool.and_eq_true, List.all_eq_true]
    exact ⟨by simpa using hne, hs⟩
  unfold Integer.read?
  split
  · exact absurd (hs '-' List.mem_cons_self) (by decide)
  · exact absurd (hs '+' List.mem_cons_self) (by decide)
  · simp [Integer.readNat?, hrun, Digits.number_eq]

namespace Decimal

theorem readWord?_of_digit {c : Char} (hc : c.isDigit) (cs : List Char) :
    readWord? (c :: cs) = none := by
  have hlower : c.toLower = c := by
    simp only [Char.isDigit, Bool.and_eq_true, decide_eq_true_eq, ge_iff_le,
      UInt32.le_iff_toNat_le] at hc
    have h9 : '9'.val.toNat = 57 := rfl
    have hA : 'A'.val.toNat = 65 := rfl
    unfold Char.toLower
    rw [dif_neg]
    rintro ⟨h, -⟩
    rw [ge_iff_le, UInt32.le_iff_toNat_le] at h
    omega
  have hhead : ∀ word : String, String.ofList ((c :: cs).map Char.toLower) = word →
      ∀ d ∈ word.toList.head?, d.isDigit := by
    rintro _ rfl
    simpa [hlower] using hc
  unfold readWord?
  split
  · next h => exact absurd (hhead _ h 'i' rfl) (by decide)
  · next h => exact absurd (hhead _ h 'i' rfl) (by decide)
  · next h => exact absurd (hhead _ h 'n' rfl) (by decide)
  · rfl

theorem read?_of_digits {whole fraction : List Char} (hne : whole ≠ [])
    (hwhole : ∀ c ∈ whole, c.isDigit) (hfraction : ∀ c ∈ fraction, c.isDigit) :
    read? (whole ++ '.' :: fraction) = some (ofDigits whole fraction) := by
  have htake : (whole ++ '.' :: fraction).takeWhile Char.isDigit = whole := by
    rw [List.takeWhile_append_of_pos hwhole, List.takeWhile_cons_of_neg (by decide), List.append_nil]
  have hdrop : (whole ++ '.' :: fraction).dropWhile Char.isDigit = '.' :: fraction := by
    rw [List.dropWhile_append_of_pos hwhole, List.dropWhile_cons_of_neg (by decide)]
  have hdigits : readDigits? (whole ++ '.' :: fraction) = some (ofDigits whole fraction) := by
    simp [readDigits?, htake, hdrop, splitFraction, List.takeWhile_eq_self_iff.2 hfraction,
      List.dropWhile_eq_nil_iff.2 hfraction, hne, readPower?, ofDigits]
  obtain ⟨c, cs, rfl⟩ := List.exists_cons_of_ne_nil hne
  have hc := hwhole c List.mem_cons_self
  rw [List.cons_append] at hdigits ⊢
  unfold read?
  split
  · next h =>
    cases h
    exact absurd hc (by decide)
  · next h =>
    cases h
    exact absurd hc (by decide)
  · rw [readUnsigned?, readWord?_of_digit hc, hdigits]
    rfl

end Decimal

/-! ### The texts of each pattern -/

namespace CharClass

theorem between_self (a c : Char) : (decide (a ≤ c) && decide (c ≤ a)) = decide (c = a) := by
  rw [Bool.eq_iff_iff, Bool.and_eq_true]
  simp only [decide_eq_true_eq]
  exact ⟨fun h => Char.le_antisymm h.2 h.1, fun h => h ▸ ⟨Char.le_refl c, Char.le_refl c⟩⟩

theorem contains_digit (c : Char) : digit.contains c = c.isDigit := by
  simp [digit, contains, Char.isDigit, Char.le_def]

theorem contains_lower (c : Char) : (decide ('a' ≤ c) && decide (c ≤ 'z')) = c.isLower := rfl

theorem contains_upper (c : Char) : (decide ('A' ≤ c) && decide (c ≤ 'Z')) = c.isUpper :=
  (Bool.decide_and ('A' ≤ c) (c ≤ 'Z')).symm

theorem isAlpha_eq (c : Char) : c.isAlpha = (c.isUpper || c.isLower) := rfl

theorem contains_wordStart (c : Char) : wordStart.contains c = Piece.isWordStart c := by
  simp [wordStart, contains, Piece.isWordStart, isAlpha_eq, contains_lower, contains_upper,
    between_self, Bool.or_assoc, Bool.or_left_comm]

theorem contains_wordChar (c : Char) : wordChar.contains c = Piece.isWordChar c := by
  have hdigit : (decide ('0' ≤ c) && decide (c ≤ '9')) = c.isDigit := by
    simpa [digit, contains] using contains_digit c
  simp [wordChar, contains, Piece.isWordChar, Char.isAlphanum, isAlpha_eq, contains_lower,
    contains_upper, hdigit, between_self, Bool.or_assoc, Bool.or_left_comm]

theorem contains_inlineBlank (c : Char) : inlineBlank.contains c = Piece.isInlineBlank c := by
  simp [inlineBlank, contains, Piece.isInlineBlank, between_self, Bool.or_assoc]

theorem contains_allBut (cs : List Char) (c : Char) : (allBut cs).contains c = true ↔ c ∉ cs := by
  simp only [allBut, contains, List.any_map, Function.comp_def, between_self]
  simp only [Bool.bne_true, Bool.not_eq_true', List.any_eq_false, decide_eq_true_eq]
  exact ⟨fun h hc => h c hc rfl, fun h d hd hcd => h (hcd ▸ hd)⟩

end CharClass

namespace Pattern

theorem matches_many_one {k : CharClass} {s : List Char} :
    (many (one k)).Matches s ↔ ∀ c ∈ s, k.contains c := by
  constructor
  · rintro ⟨parts, rfl, hparts⟩ c hc
    obtain ⟨part, hpart, hc⟩ := List.mem_flatten.1 hc
    obtain ⟨d, rfl, hd⟩ := hparts part hpart
    rwa [List.mem_singleton.1 hc]
  · intro hs
    refine ⟨s.map fun c => [c], by rw [← List.flatMap_def, List.flatMap_singleton'], ?_⟩
    simpa [Matches] using hs

theorem matches_oneOrMore_one {k : CharClass} {s : List Char} :
    (oneOrMore (one k)).Matches s ↔ s ≠ [] ∧ ∀ c ∈ s, k.contains c := by
  constructor
  · rintro ⟨a, b, rfl, ⟨c, rfl, hc⟩, hb⟩
    exact ⟨by simp, List.forall_mem_cons.2 ⟨hc, matches_many_one.1 hb⟩⟩
  · rintro ⟨hne, hs⟩
    obtain ⟨c, cs, rfl⟩ := List.exists_cons_of_ne_nil hne
    obtain ⟨hc, hcs⟩ := List.forall_mem_cons.1 hs
    exact ⟨[c], cs, rfl, ⟨c, rfl, hc⟩, matches_many_one.2 hcs⟩

end Pattern

namespace TokenRule

open Pattern CharClass

theorem reservedWords_eq : reservedWords = Token.words := rfl

theorem signs_eq : signs = Symbol.all.map fun sign => (sign.text, sign) := rfl

variable {s : List Char}

theorem matches_fixed {spelling : String} {t : Token} :
    (fixed spelling t).pattern.Matches s ↔ s = spelling.toList := Iff.rfl

theorem matches_integer : integer.pattern.Matches s ↔ s ≠ [] ∧ ∀ c ∈ s, c.isDigit := by
  simp only [integer, matches_oneOrMore_one, contains_digit]

theorem matches_decimal : decimal.pattern.Matches s ↔ ∃ whole fraction,
    s = whole ++ '.' :: fraction ∧ (whole ≠ [] ∧ ∀ c ∈ whole, c.isDigit) ∧
      fraction ≠ [] ∧ ∀ c ∈ fraction, c.isDigit := by
  constructor
  · rintro ⟨whole, _, rfl, hwhole, _, fraction, rfl, rfl, hfraction⟩
    exact ⟨whole, fraction, rfl, matches_integer.1 hwhole, matches_integer.1 hfraction⟩
  · rintro ⟨whole, fraction, rfl, hwhole, hfraction⟩
    exact ⟨whole, _, rfl, matches_integer.2 hwhole, ['.'], fraction, rfl, rfl,
      matches_integer.2 hfraction⟩

theorem matches_identifier : identifier.pattern.Matches s ↔ ∃ c cs, s = c :: cs ∧
    Piece.isWordStart c ∧ ∀ d ∈ cs, Piece.isWordChar d := by
  constructor
  · rintro ⟨_, cs, rfl, ⟨c, rfl, hc⟩, hcs⟩
    refine ⟨c, cs, rfl, by rwa [← contains_wordStart], ?_⟩
    simpa only [contains_wordChar] using matches_many_one.1 hcs
  · rintro ⟨c, cs, rfl, hc, hcs⟩
    refine ⟨[c], cs, rfl, ⟨c, rfl, by rwa [contains_wordStart]⟩, matches_many_one.2 ?_⟩
    simpa only [contains_wordChar] using hcs

theorem matches_comment : comment.pattern.Matches s ↔ ∃ body, s = '/' :: '/' :: body ∧
    ∀ c ∈ body, Piece.isCommentChar c := by
  have hclass : ∀ c, (allBut ['\n', '\r']).contains c = Piece.isCommentChar c := by
    intro c
    rw [Bool.eq_iff_iff, contains_allBut]
    simp [Piece.isCommentChar]
  constructor
  · rintro ⟨_, body, rfl, rfl, hbody⟩
    refine ⟨body, rfl, ?_⟩
    simpa only [hclass] using matches_many_one.1 hbody
  · rintro ⟨body, rfl, hbody⟩
    refine ⟨['/', '/'], body, rfl, rfl, matches_many_one.2 ?_⟩
    simpa only [hclass] using hbody

/-- One step through the body of a text literal: a plain character, or a backslash with any. -/
def BodyStep (quote : Char) (part : List Char) : Prop :=
  (∃ c, part = [c] ∧ c ≠ quote ∧ c ≠ '\\' ∧ c ≠ '\n') ∨ ∃ c, part = ['\\', c] ∧ c ≠ '\n'

/-- The bodies of text literals. -/
def IsBody (quote : Char) (body : List Char) : Prop :=
  ∃ parts : List (List Char), body = parts.flatten ∧ ∀ part ∈ parts, BodyStep quote part

theorem matches_quoted {quote : Char} : (quoted quote).pattern.Matches s ↔
    ∃ body, s = quote :: (body ++ [quote]) ∧ IsBody quote body := by
  have hstep : ∀ part, BodyStep quote part ↔ (either (one (allBut [quote, '\\', '\n']))
      (seq (text ['\\']) (one (allBut ['\n'])))).Matches part := by
    intro part
    refine or_congr (exists_congr fun c => ?_) ?_
    · rw [contains_allBut]
      simp
    · constructor
      · rintro ⟨c, rfl, hc⟩
        exact ⟨['\\'], [c], rfl, rfl, c, rfl, (contains_allBut _ c).2 (by simpa using hc)⟩
      · rintro ⟨_, _, rfl, rfl, c, rfl, hc⟩
        exact ⟨c, rfl, by simpa using (contains_allBut _ c).1 hc⟩
  constructor
  · rintro ⟨_, _, rfl, rfl, body, _, rfl, ⟨parts, rfl, hparts⟩, rfl⟩
    exact ⟨parts.flatten, rfl, parts, rfl, fun part hpart => (hstep part).2 (hparts part hpart)⟩
  · rintro ⟨_, rfl, parts, rfl, hparts⟩
    exact ⟨[quote], _, rfl, rfl, parts.flatten, [quote], rfl,
      ⟨parts, rfl, fun part hpart => (hstep part).1 (hparts part hpart)⟩, rfl⟩

theorem matches_blanks : blanks.pattern.Matches s ↔ s ≠ [] ∧ ∀ c ∈ s, Piece.isInlineBlank c := by
  simp only [blanks, matches_oneOrMore_one, contains_inlineBlank]

end TokenRule

/-! ### How a piece is cut off -/

namespace Piece

open TokenRule

theorem quotedBody?_plain {quote c : Char} (hc : c ≠ '\\') (cs : List Char) :
    quotedBody? quote (c :: cs) =
      if c = quote then some []
      else if c = '\n' then none else (quotedBody? quote cs).map fun body => c :: body := by
  rw [quotedBody?]
  · simp [hc]
  · exact fun d ds h _ => hc h

/-- A body is read up to the quote that ends it, whatever follows. -/
theorem quotedBody?_append {quote : Char} (hquote : quote ≠ '\\') {body : List Char}
    (hbody : IsBody quote body) (rest : List Char) :
    quotedBody? quote (body ++ quote :: rest) = some body := by
  obtain ⟨parts, rfl, hparts⟩ := hbody
  induction parts with
  | nil =>
    rw [List.flatten_nil, List.nil_append, quotedBody?_plain hquote, if_pos rfl]
  | cons part parts ih =>
    obtain ⟨hpart, hparts⟩ := List.forall_mem_cons.1 hparts
    have hrest := ih hparts
    rcases hpart with ⟨c, rfl, hc, hslash, hline⟩ | ⟨c, rfl, hline⟩
    · simp only [List.flatten_cons, List.cons_append, List.nil_append, quotedBody?_plain hslash,
        if_neg hc, if_neg hline, hrest, Option.map_some]
    · simp only [List.flatten_cons, List.cons_append, List.nil_append, quotedBody?, if_neg hline,
        hrest, Option.map_some]

theorem isBody_of_quotedBody? {quote : Char} {cs body : List Char}
    (h : quotedBody? quote cs = some body) :
    IsBody quote body ∧ body ++ [quote] <+: cs := by
  fun_induction quotedBody? quote cs generalizing body with
  | case1 => cases h
  | case2 => cases h
  | case3 c cs hline ih =>
    obtain ⟨body, hbody, rfl⟩ := Option.map_eq_some_iff.1 h
    obtain ⟨⟨parts, rfl, hparts⟩, hfront⟩ := ih hbody
    refine ⟨⟨['\\', c] :: parts, rfl, ?_⟩, ?_⟩
    · exact List.forall_mem_cons.2 ⟨.inr ⟨c, rfl, hline⟩, hparts⟩
    · simpa using hfront
  | case4 cs _ =>
    cases h
    exact ⟨⟨[], rfl, by simp⟩, by simp⟩
  | case5 => cases h
  | case6 c cs _ hc hplain ih =>
    obtain ⟨body, hbody, rfl⟩ := Option.map_eq_some_iff.1 h
    obtain ⟨⟨parts, rfl, hparts⟩, hfront⟩ := ih hbody
    refine ⟨⟨[c] :: parts, rfl, ?_⟩, ?_⟩
    · exact List.forall_mem_cons.2 ⟨.inl ⟨c, rfl, hc, not_or.1 hplain⟩, hparts⟩
    · simpa using hfront

theorem isDigit_of_isWordStart {c : Char} (h : isWordStart c) : c.isDigit = false := by
  cases hd : c.isDigit with
  | false => rfl
  | true =>
    simp only [isWordStart, CharClass.isAlpha_eq, ← CharClass.contains_upper,
      ← CharClass.contains_lower, Bool.or_eq_true, Bool.and_eq_true, decide_eq_true_eq, Char.le_def,
      UInt32.le_iff_toNat_le] at h
    simp only [Char.isDigit, Bool.and_eq_true, decide_eq_true_eq, ge_iff_le,
      UInt32.le_iff_toNat_le] at hd
    have hz : '9'.val.toNat = 57 := rfl
    have hA : 'A'.val.toNat = 65 := rfl
    have ha : 'a'.val.toNat = 97 := rfl
    rcases h with (h | h) | rfl
    · omega
    · omega
    · exact absurd hd (by decide)

theorem at?_digit {c : Char} (h : c.isDigit) (cs : List Char) :
    at? (c :: cs) = some (number (c :: cs)) := by
  rw [at?, if_pos h]

theorem at?_word {c : Char} (h : isWordStart c) (cs : List Char) :
    at? (c :: cs) = some (word (c :: cs.takeWhile isWordChar)) := by
  simp [at?, isDigit_of_isWordStart h, h]

theorem at?_quote {c : Char} (h : c = '"' ∨ c = '\'') (cs : List Char) :
    at? (c :: cs) = (quotedBody? c cs).map (quoted c) := by
  obtain rfl | rfl := h <;> rfl

theorem at?_blank {c : Char} (h : isInlineBlank c) (cs : List Char) :
    at? (c :: cs) = some (blanks (c :: cs.takeWhile isInlineBlank)) := by
  have hc : ((c = ' ' ∨ c = '\t') ∨ c = '\r') ∨ c = '\x0c' := by
    simpa [isInlineBlank] using h
  obtain ((rfl | rfl) | rfl) | rfl := hc <;> rfl

/-- The rule of the table that a piece is cut off by. -/
def rule : Piece → TokenRule
  | decimal _ _ => .decimal
  | integer _ => .integer
  | quoted quote _ => .quoted quote
  | word chars =>
      match Token.words.lookup (String.ofList chars) with
      | some t => .fixed (String.ofList chars) t
      | none => .identifier
  | symbol sign => .fixed sign.text (.symbol sign)
  | comment _ => .comment
  | newLine => .newLine
  | blanks _ => .blanks

/-- From the front of `cs` a piece is cut off that is as long as `s`, which matches the pattern of
`rule`, or longer. If it is `s` itself, it is cut off by that rule; only an identifier gives way to a
fixed spelling. -/
def Found (rule : TokenRule) (s cs : List Char) : Prop :=
  ∃ p, at? cs = some p ∧ s.length ≤ p.chars.length ∧
    (p.chars = s → p.rule = rule ∨ rule = .identifier ∧ p.rule.isFixed)

theorem found_newLine (rest : List Char) : Found .newLine ['\n'] ('\n' :: rest) :=
  ⟨newLine, rfl, Nat.le_refl 1, fun _ => .inl rfl⟩

theorem found_blanks {s : List Char} (h : TokenRule.blanks.pattern.Matches s) (rest : List Char) :
    Found .blanks s (s ++ rest) := by
  obtain ⟨hne, hs⟩ := matches_blanks.1 h
  obtain ⟨c, cs, rfl⟩ := List.exists_cons_of_ne_nil hne
  obtain ⟨hc, hcs⟩ := List.forall_mem_cons.1 hs
  refine ⟨_, at?_blank hc (cs ++ rest), ?_, fun _ => .inl rfl⟩
  rw [List.takeWhile_append_of_pos hcs]
  simp [chars]

theorem found_comment {s : List Char} (h : TokenRule.comment.pattern.Matches s)
    (rest : List Char) : Found .comment s (s ++ rest) := by
  obtain ⟨body, rfl, hbody⟩ := matches_comment.1 h
  refine ⟨comment ((body ++ rest).takeWhile isCommentChar), rfl, ?_, fun _ => .inl rfl⟩
  rw [List.takeWhile_append_of_pos hbody]
  simp [chars]

theorem found_quoted {quote : Char} (hquote : quote = '"' ∨ quote = '\'') {s : List Char}
    (h : (TokenRule.quoted quote).pattern.Matches s) (rest : List Char) :
    Found (.quoted quote) s (s ++ rest) := by
  obtain ⟨body, rfl, hbody⟩ := matches_quoted.1 h
  have hslash : quote ≠ '\\' := by obtain rfl | rfl := hquote <;> decide
  refine ⟨quoted quote body, ?_, by simp [chars], fun _ => .inl rfl⟩
  rw [List.cons_append, List.append_assoc, List.singleton_append, at?_quote hquote,
    quotedBody?_append hslash hbody, Option.map_some]

theorem found_word {c : Char} {cs : List Char} (hc : isWordStart c) (hcs : ∀ d ∈ cs, isWordChar d)
    (rest : List Char) : ∃ more, at? (c :: cs ++ rest) = some (word (c :: cs ++ more)) := by
  refine ⟨rest.takeWhile isWordChar, ?_⟩
  rw [List.cons_append, at?_word hc, List.takeWhile_append_of_pos hcs, List.cons_append]

theorem found_identifier {s : List Char} (h : TokenRule.identifier.pattern.Matches s)
    (rest : List Char) : Found .identifier s (s ++ rest) := by
  obtain ⟨c, cs, rfl, hc, hcs⟩ := matches_identifier.1 h
  obtain ⟨more, hat⟩ := found_word hc hcs rest
  refine ⟨_, hat, by simp [chars], fun _ => ?_⟩
  cases hword : Token.words.lookup (String.ofList (c :: cs ++ more)) with
  | none => exact .inl (by simp only [rule, hword])
  | some t => exact .inr ⟨rfl, by simp only [rule, hword, fixed]⟩

/-- A number has all digits at the front of the text before its point, if it has one. -/
theorem number_cases (cs : List Char) :
    number cs = integer (cs.takeWhile Char.isDigit) ∨ ∃ fraction,
      number cs = decimal (cs.takeWhile Char.isDigit) fraction ∧
        (fraction ≠ [] ∧ ∀ c ∈ fraction, c.isDigit) ∧
        cs.takeWhile Char.isDigit ++ '.' :: fraction <+: cs := by
  unfold number
  dsimp only
  split
  · next rest hrest =>
    by_cases hempty : (rest.takeWhile Char.isDigit).isEmpty
    · rw [if_pos hempty]
      exact .inl rfl
    · rw [if_neg hempty]
      refine .inr ⟨_, rfl, ⟨?_, ?_⟩, ?_⟩
      · simpa using hempty
      · exact List.all_eq_true.1 List.all_takeWhile
      · conv => rhs; rw [← List.takeWhile_append_dropWhile (p := Char.isDigit) (l := cs), hrest]
        refine (List.prefix_append_right_inj _).2 (List.cons_prefix_cons.2 ⟨rfl, ?_⟩)
        exact List.takeWhile_prefix _
  · exact .inl rfl

theorem found_integer {s : List Char} (h : TokenRule.integer.pattern.Matches s)
    (rest : List Char) : Found .integer s (s ++ rest) := by
  obtain ⟨hne, hs⟩ := matches_integer.1 h
  have hat : at? (s ++ rest) = some (number (s ++ rest)) := by
    obtain ⟨c, cs, rfl⟩ := List.exists_cons_of_ne_nil hne
    exact at?_digit (hs c List.mem_cons_self) (cs ++ rest)
  have hwhole : (s ++ rest).takeWhile Char.isDigit = s ++ rest.takeWhile Char.isDigit :=
    List.takeWhile_append_of_pos hs
  refine ⟨_, hat, ?_⟩
  obtain hnumber | ⟨fraction, hnumber, -⟩ := number_cases (s ++ rest)
  · rw [hnumber, hwhole]
    exact ⟨by simp [chars], fun _ => .inl rfl⟩
  · rw [hnumber, hwhole]
    refine ⟨by simp [chars], fun hchars => ?_⟩
    have hpoint : '.' ∈ s := by
      rw [← hchars]
      simp [chars]
    exact absurd (hs '.' hpoint) (by decide)

theorem number_decimal {whole fraction : List Char} (hwhole : ∀ c ∈ whole, c.isDigit)
    (hne : fraction ≠ []) (hfraction : ∀ c ∈ fraction, c.isDigit) (rest : List Char) :
    number (whole ++ '.' :: (fraction ++ rest)) =
      decimal whole (fraction ++ rest.takeWhile Char.isDigit) := by
  have htake : (whole ++ '.' :: (fraction ++ rest)).takeWhile Char.isDigit = whole := by
    rw [List.takeWhile_append_of_pos hwhole, List.takeWhile_cons_of_neg (by decide), List.append_nil]
  have hdrop : (whole ++ '.' :: (fraction ++ rest)).dropWhile Char.isDigit =
      '.' :: (fraction ++ rest) := by
    rw [List.dropWhile_append_of_pos hwhole, List.dropWhile_cons_of_neg (by decide)]
  simp only [number, htake, hdrop, List.takeWhile_append_of_pos hfraction]
  simp [hne]

theorem found_decimal {s : List Char} (h : TokenRule.decimal.pattern.Matches s)
    (rest : List Char) : Found .decimal s (s ++ rest) := by
  obtain ⟨whole, fraction, rfl, ⟨hne, hwhole⟩, hne', hfraction⟩ := matches_decimal.1 h
  have hat : ∀ cs, at? (whole ++ cs) = some (number (whole ++ cs)) := by
    obtain ⟨c, cs, rfl⟩ := List.exists_cons_of_ne_nil hne
    exact fun ds => at?_digit (hwhole c List.mem_cons_self) (cs ++ ds)
  refine ⟨decimal whole (fraction ++ rest.takeWhile Char.isDigit), ?_, ?_, fun _ => .inl rfl⟩
  · rw [List.append_assoc, List.cons_append, hat, number_decimal hwhole hne' hfraction]
  · simp [chars]

/-- A symbol that an equals sign makes a longer one is cut off alone before all else. -/
theorem at?_before_equals {sign : Symbol} (h : sign = .equals ∨ sign = .less ∨ sign = .greater)
    {rest : List Char} (hrest : rest.head? ≠ some '=') :
    at? (sign.text.toList ++ rest) = some (symbol sign) := by
  cases rest with
  | nil => obtain rfl | rfl | rfl := h <;> rfl
  | cons d ds =>
    have hd : d ≠ '=' := by simpa using hrest
    have hsymbol : symbolAt? (sign.text.toList ++ d :: ds) = some sign := by
      obtain rfl | rfl | rfl := h <;> simp [Symbol.text, symbolAt?, hd]
    have hat : at? (sign.text.toList ++ d :: ds) =
        (symbolAt? (sign.text.toList ++ d :: ds)).map symbol := by
      obtain rfl | rfl | rfl := h <;> rfl
    rw [hat, hsymbol, Option.map_some]

theorem found_before_equals {sign : Symbol} (longer : Symbol)
    (h : sign = .equals ∨ sign = .less ∨ sign = .greater)
    (hlonger : longer.text.toList = sign.text.toList ++ ['='])
    (hat : ∀ rest, at? (longer.text.toList ++ rest) = some (symbol longer)) (rest : List Char) :
    Found (.fixed sign.text (.symbol sign)) sign.text.toList (sign.text.toList ++ rest) := by
  by_cases hrest : rest.head? = some '='
  · obtain ⟨rest, rfl⟩ := List.head?_eq_some_iff.1 hrest
    have hfound := hat rest
    rw [hlonger, List.append_assoc, List.singleton_append] at hfound
    refine ⟨symbol longer, hfound, ?_, fun hchars => ?_⟩
    · simp [chars, hlonger]
    · simp [chars, hlonger] at hchars
  · exact ⟨symbol sign, at?_before_equals h hrest, Nat.le_refl _, fun _ => .inl rfl⟩

theorem found_slash (rest : List Char) : Found (.fixed "/" (.symbol .slash)) ['/'] ('/' :: rest) := by
  by_cases hrest : rest.head? = some '/'
  · obtain ⟨rest, rfl⟩ := List.head?_eq_some_iff.1 hrest
    refine ⟨comment (rest.takeWhile isCommentChar), rfl, ?_, fun h => ?_⟩
    · simp [chars]
    · simp [chars] at h
  · refine ⟨symbol .slash, ?_, Nat.le_refl _, fun _ => .inl rfl⟩
    have hdigit : Char.isDigit '/' = false := rfl
    have hword : isWordStart '/' = false := rfl
    have hblank : isInlineBlank '/' = false := rfl
    simp [at?, hdigit, hword, hblank, hrest, symbolAt?]

theorem found_symbol (sign : Symbol) (rest : List Char) :
    Found (.fixed sign.text (.symbol sign)) sign.text.toList (sign.text.toList ++ rest) := by
  have hself : at? (sign.text.toList ++ rest) = some (symbol sign) →
      Found (.fixed sign.text (.symbol sign)) sign.text.toList (sign.text.toList ++ rest) :=
    fun hat => ⟨symbol sign, hat, Nat.le_refl _, fun _ => .inl rfl⟩
  -- Only these four can be the start of a longer piece.
  cases sign with
  | equals => exact found_before_equals .equalEqual (.inl rfl) rfl (fun _ => rfl) rest
  | less => exact found_before_equals .lessEqual (.inr (.inl rfl)) rfl (fun _ => rfl) rest
  | greater => exact found_before_equals .greaterEqual (.inr (.inr rfl)) rfl (fun _ => rfl) rest
  | slash => exact found_slash rest
  | _ => exact hself rfl

theorem isWord_of_mem_words {spelling : String} {t : Token} (h : (spelling, t) ∈ Token.words) :
    (∃ c cs, spelling.toList = c :: cs ∧ isWordStart c ∧ ∀ d ∈ cs, isWordChar d) ∧
      Token.words.lookup spelling = some t := by
  have hall : ∀ word ∈ Token.words, word.1.toList ≠ [] ∧ word.1.toList.head?.all isWordStart ∧
      word.1.toList.tail.all isWordChar ∧ Token.words.lookup word.1 = some word.2 := by decide
  obtain ⟨hne, hstart, htail, hlookup⟩ := hall _ h
  obtain ⟨c, cs, hchars⟩ := List.exists_cons_of_ne_nil hne
  rw [hchars] at hstart htail
  exact ⟨⟨c, cs, hchars, hstart, List.all_eq_true.1 htail⟩, hlookup⟩

theorem found_fixed_word {spelling : String} {t : Token} (h : (spelling, t) ∈ Token.words)
    (rest : List Char) : Found (.fixed spelling t) spelling.toList (spelling.toList ++ rest) := by
  obtain ⟨⟨c, cs, hchars, hc, hcs⟩, hlookup⟩ := isWord_of_mem_words h
  rw [hchars]
  obtain ⟨more, hat⟩ := found_word hc hcs rest
  refine ⟨_, hat, by simp [chars], fun hsame => .inl ?_⟩
  have hmore : String.ofList (c :: cs ++ more) = spelling := by
    rw [show c :: cs ++ more = spelling.toList from hsame.trans hchars.symm, String.ofList_toList]
  simp only [rule, hmore, hlookup]

/-- Whatever rule a text matches, at least that text is cut off. -/
theorem found_of_matches {rule : TokenRule} (hrule : rule ∈ TokenRule.all) {s : List Char}
    (h : rule.pattern.Matches s) (rest : List Char) : Found rule s (s ++ rest) := by
  simp only [TokenRule.all, reservedWords_eq, signs_eq, List.map_map, List.mem_append,
    List.mem_cons, List.mem_map, List.not_mem_nil, or_false] at hrule
  obtain ((rfl | rfl | rfl | rfl | rfl | rfl | rfl | rfl) | ⟨word, hword, rfl⟩) | ⟨sign, -, rfl⟩ :=
    hrule
  · exact found_decimal h rest
  · exact found_integer h rest
  · exact found_quoted (.inl rfl) h rest
  · exact found_quoted (.inr rfl) h rest
  · exact found_identifier h rest
  · exact found_comment h rest
  · rw [matches_fixed.1 h]
    exact found_newLine rest
  · exact found_blanks h rest
  · rw [matches_fixed.1 h]
    exact found_fixed_word hword rest
  · rw [matches_fixed.1 h]
    exact found_symbol sign rest

/-! ### What is cut off matches -/

/-- The piece matches its own rule, which gives it its token, and stands at the front of `cs`. -/
structure CutFrom (cs : List Char) (p : Piece) : Prop where
  listed : p.rule ∈ TokenRule.all
  spelled : p.rule.pattern.Matches p.chars
  token : p.rule.token? p.chars = p.token?
  front : p.chars <+: cs

theorem cutFrom_number {c : Char} (hc : c.isDigit) (cs : List Char) :
    CutFrom (c :: cs) (number (c :: cs)) := by
  have hne : (c :: cs).takeWhile Char.isDigit ≠ [] := by simp [hc]
  have hwhole : ∀ d ∈ (c :: cs).takeWhile Char.isDigit, d.isDigit :=
    List.all_eq_true.1 List.all_takeWhile
  obtain hnumber | ⟨fraction, hnumber, hfraction, hfront⟩ := number_cases (c :: cs)
  · rw [hnumber]
    refine ⟨by simp [rule, TokenRule.all], matches_integer.2 ⟨hne, hwhole⟩, ?_, ?_⟩
    · exact congrArg (Option.map Token.integer) (Integer.read?_of_digits hne hwhole).symm
    · exact List.takeWhile_prefix _
  · rw [hnumber]
    refine ⟨by simp [rule, TokenRule.all], ?_, ?_, hfront⟩
    · exact matches_decimal.2 ⟨_, _, rfl, ⟨hne, hwhole⟩, hfraction⟩
    · exact congrArg (Option.map Token.decimal) (Decimal.read?_of_digits hne hwhole hfraction.2)

theorem mem_words_of_lookup {spelling : String} {t : Token}
    (h : Token.words.lookup spelling = some t) : (spelling, t) ∈ Token.words := by
  obtain ⟨before, after, hwords, -⟩ := List.lookup_eq_some_iff.1 h
  rw [hwords]
  simp

/-- The token of a word is reserved for it, or an identifier. -/
theorem ofWord_cases (spelling : String) : (spelling, Token.ofWord spelling) ∈ Token.words ∨
    Token.words.lookup spelling = none ∧ Token.ofWord spelling = .identifier spelling := by
  rw [Token.ofWord]
  cases hlookup : Token.words.lookup spelling with
  | some t => exact .inl (mem_words_of_lookup hlookup)
  | none => exact .inr ⟨rfl, rfl⟩

theorem cutFrom_word {c : Char} (hc : isWordStart c) (cs : List Char) :
    CutFrom (c :: cs) (word (c :: cs.takeWhile isWordChar)) := by
  have hfront : c :: cs.takeWhile isWordChar <+: c :: cs :=
    List.cons_prefix_cons.2 ⟨rfl, List.takeWhile_prefix _⟩
  generalize hs : c :: cs.takeWhile isWordChar = s at hfront ⊢
  cases hlookup : Token.words.lookup (String.ofList s) with
  | some t =>
    have hrule : (word s).rule = .fixed (String.ofList s) t := by simp only [rule, hlookup]
    refine ⟨?_, ?_, ?_, hfront⟩
    · rw [hrule]
      have hmem : (String.ofList s, t) ∈ TokenRule.reservedWords := mem_words_of_lookup hlookup
      exact List.mem_append_left _ (List.mem_append_right _
        (List.mem_map.2 ⟨(String.ofList s, t), hmem, rfl⟩))
    · rw [hrule]
      exact matches_fixed.2 String.toList_ofList.symm
    · rw [hrule]
      simp [fixed, token?, Token.ofWord, hlookup]
  | none =>
    have hrule : (word s).rule = .identifier := by simp only [rule, hlookup]
    refine ⟨?_, ?_, ?_, hfront⟩
    · simp [hrule, TokenRule.all]
    · rw [hrule]
      exact matches_identifier.2 ⟨c, _, hs.symm, hc, List.all_eq_true.1 List.all_takeWhile⟩
    · rw [hrule]
      simp [identifier, token?, Token.ofWord, hlookup, chars]

theorem cutFrom_quoted {quote : Char} (hquote : quote = '"' ∨ quote = '\'') {cs body : List Char}
    (h : quotedBody? quote cs = some body) : CutFrom (quote :: cs) (quoted quote body) := by
  obtain ⟨hbody, hfront⟩ := isBody_of_quotedBody? h
  refine ⟨?_, matches_quoted.2 ⟨body, rfl, hbody⟩, ?_, List.cons_prefix_cons.2 ⟨rfl, hfront⟩⟩
  · obtain rfl | rfl := hquote <;> simp [rule, TokenRule.all]
  · simp [rule, TokenRule.quoted, token?, chars]

theorem cutFrom_blanks {c : Char} (hc : isInlineBlank c) (cs : List Char) :
    CutFrom (c :: cs) (blanks (c :: cs.takeWhile isInlineBlank)) := by
  refine ⟨by simp [rule, TokenRule.all], matches_blanks.2 ⟨by simp [chars], ?_⟩, rfl, ?_⟩
  · exact List.forall_mem_cons.2 ⟨hc, List.all_eq_true.1 List.all_takeWhile⟩
  · exact List.cons_prefix_cons.2 ⟨rfl, List.takeWhile_prefix _⟩

theorem cutFrom_comment (cs : List Char) :
    CutFrom ('/' :: '/' :: cs) (comment (cs.takeWhile isCommentChar)) := by
  refine ⟨by simp [rule, TokenRule.all], matches_comment.2 ⟨_, rfl, ?_⟩, rfl, ?_⟩
  · exact List.all_eq_true.1 List.all_takeWhile
  · exact List.cons_prefix_cons.2 ⟨rfl, List.cons_prefix_cons.2 ⟨rfl, List.takeWhile_prefix _⟩⟩

theorem cutFrom_symbol {cs : List Char} {sign : Symbol} (h : symbolAt? cs = some sign) :
    CutFrom cs (symbol sign) := by
  have hall : (sign.text, sign) ∈ TokenRule.signs := by cases sign <;> decide
  refine ⟨?_, rfl, rfl, ?_⟩
  · exact List.mem_append_right _ (List.mem_map.2 ⟨_, hall, rfl⟩)
  · unfold symbolAt? at h
    split at h <;> cases h <;> simp [chars, Symbol.text]

theorem cutFrom_of_at? {cs : List Char} {p : Piece} (h : at? cs = some p) : CutFrom cs p := by
  cases cs with
  | nil => cases h
  | cons c cs =>
    rw [at?] at h
    by_cases hdigit : c.isDigit
    · rw [if_pos hdigit] at h
      cases h
      exact cutFrom_number hdigit cs
    rw [if_neg hdigit] at h
    by_cases hword : isWordStart c
    · rw [if_pos hword] at h
      cases h
      exact cutFrom_word hword cs
    rw [if_neg hword] at h
    by_cases hquote : c = '"' ∨ c = '\''
    · rw [if_pos hquote] at h
      obtain ⟨body, hbody, rfl⟩ := Option.map_eq_some_iff.1 h
      exact cutFrom_quoted hquote hbody
    rw [if_neg hquote] at h
    by_cases hline : c = '\n'
    · rw [if_pos hline] at h
      cases h
      subst hline
      exact ⟨by simp [rule, TokenRule.all], rfl, rfl, by simp [chars]⟩
    rw [if_neg hline] at h
    by_cases hblank : isInlineBlank c
    · rw [if_pos hblank] at h
      cases h
      exact cutFrom_blanks hblank cs
    rw [if_neg hblank] at h
    by_cases hcomment : c = '/' ∧ cs.head? = some '/'
    · rw [if_pos hcomment] at h
      cases h
      obtain ⟨rfl, hslash⟩ := hcomment
      obtain ⟨cs, rfl⟩ := List.head?_eq_some_iff.1 hslash
      exact cutFrom_comment cs
    rw [if_neg hcomment] at h
    obtain ⟨sign, hsign, rfl⟩ := Option.map_eq_some_iff.1 h
    exact cutFrom_symbol hsign

end Piece

open Piece in
/-- The longest match at the front of a text is the piece that is cut off there. -/
theorem longest_iff {cs lexeme : List Char} {rule : TokenRule} :
    Longest cs lexeme rule ↔ ∃ p, at? cs = some p ∧ p.chars = lexeme ∧ p.rule = rule := by
  constructor
  · intro h
    obtain ⟨rest, rfl⟩ := h.front
    -- The piece that is cut off and the longest match cannot outdo each other.
    obtain ⟨p, hat, hlength, hrule⟩ := found_of_matches h.listed h.spelled rest
    have hcut := cutFrom_of_at? hat
    have hle := h.longest p.rule hcut.listed p.chars hcut.front hcut.spelled
    have hchars : p.chars = lexeme :=
      (List.prefix_of_prefix_length_le hcut.front h.front hle).eq_of_length
        (Nat.le_antisymm hle hlength)
    refine ⟨p, hat, hchars, ?_⟩
    obtain hsame | ⟨rfl, hfixed⟩ := hrule hchars
    · exact hsame
    · exact absurd (hchars ▸ hcut.spelled) (h.fixedFirst rfl p.rule hcut.listed hfixed)
  · rintro ⟨p, hat, rfl, rfl⟩
    have hcut := cutFrom_of_at? hat
    have hfound : ∀ other ∈ TokenRule.all, ∀ piece, piece <+: cs → other.pattern.Matches piece →
        piece.length ≤ p.chars.length ∧ (p.chars = piece → p.rule = other ∨
          other = .identifier ∧ p.rule.isFixed) := by
      rintro other hother piece ⟨rest, rfl⟩ hpiece
      obtain ⟨q, hq, hfound⟩ := found_of_matches hother hpiece rest
      cases hq.symm.trans hat
      exact hfound
    refine ⟨hcut.listed, hcut.front, hcut.spelled, fun other hother piece hfront hpiece =>
      (hfound other hother piece hfront hpiece).1, fun hrule other hother hfixed hpiece => ?_⟩
    obtain hsame | ⟨rfl, -⟩ := (hfound other hother p.chars hcut.front hpiece).2 rfl
    · rw [hsame, hfixed] at hrule
      cases hrule
    · cases hfixed

end Skript
