import Skript.Proofs.LongestMatch

/-!
# Tokens are longest matches

The lexemes of a script are those of the longest matches that stand one after another in it. A
step of the scan is the cutting of one piece; what a run of steps leaves is read the same way,
only further into the script.
-/
namespace Skript

/-! ### Line breaks and lengths -/

/-- Whether no text that matches the pattern holds `c`, as far as its parts tell. -/
def Pattern.avoids (c : Char) : Pattern → Bool
  | text chars => c ∉ chars
  | one k => !k.contains c
  | seq p q => p.avoids c && q.avoids c
  | either p q => p.avoids c && q.avoids c
  | many p => p.avoids c

theorem Pattern.notMem_of_avoids {c : Char} {p : Pattern} (hp : p.avoids c) {s : List Char}
    (h : p.Matches s) : c ∉ s := by
  induction p generalizing s with
  | text chars =>
    cases h
    simpa [avoids] using hp
  | one k =>
    obtain ⟨d, rfl, hd⟩ := h
    rintro hmem
    rw [List.mem_singleton.1 hmem] at hp
    simp [avoids, hd] at hp
  | seq p q ihp ihq =>
    obtain ⟨a, b, rfl, ha, hb⟩ := h
    obtain ⟨hp, hq⟩ := Bool.and_eq_true_iff.1 hp
    exact List.not_mem_append (ihp hp ha) (ihq hq hb)
  | either p q ihp ihq =>
    obtain ⟨hp, hq⟩ := Bool.and_eq_true_iff.1 hp
    exact h.elim (ihp hp) (ihq hq)
  | many p ih =>
    obtain ⟨parts, rfl, hparts⟩ := h
    intro hmem
    obtain ⟨part, hpart, hmem⟩ := List.mem_flatten.1 hmem
    exact ih hp (hparts part hpart) hmem

/-- No pattern goes past a line break. -/
theorem TokenRule.lineBreak_alone {rule : TokenRule} (hrule : rule ∈ TokenRule.all) {s : List Char}
    (h : rule.pattern.Matches s) : '\n' ∉ s ∨ s = ['\n'] := by
  have hall : ∀ rule ∈ TokenRule.all,
      rule.pattern.avoids '\n' ∨ rule.pattern = .text ['\n'] := by decide
  obtain havoids | htext := hall rule hrule
  · exact .inl (Pattern.notMem_of_avoids havoids h)
  · rw [htext] at h
    exact .inr h

/-- The number of bytes of an encoded text. -/
def byteCount (cs : List Char) : Nat :=
  (String.ofList cs).utf8ByteSize

theorem byteCount_cons (c : Char) (cs : List Char) :
    byteCount (c :: cs) = c.utf8Size + byteCount cs := by
  simp [byteCount, String.ofList_cons]

theorem byteCount_append (cs ds : List Char) :
    byteCount (cs ++ ds) = byteCount cs + byteCount ds := by
  simp [byteCount, String.ofList_append]

namespace Piece

theorem bytes_eq (p : Piece) : p.bytes = byteCount p.chars := by
  unfold bytes
  induction p.chars with
  | nil => rfl
  | cons c cs ih => rw [List.foldr_cons, ih, byteCount_cons]

theorem lineAfter_of_at? {cs : List Char} {p : Piece} (h : at? cs = some p) (before : List Char) :
    p.lineAfter (Skript.lineAfter before) = Skript.lineAfter (before ++ p.chars) := by
  have hcut := cutFrom_of_at? h
  rw [Skript.lineAfter, Skript.lineAfter, List.count_append]
  obtain hnone | hbreak := TokenRule.lineBreak_alone hcut.listed hcut.spelled
  · rw [List.count_eq_zero.2 hnone]
    cases p with
    | newLine => exact absurd List.mem_cons_self hnone
    | _ => rfl
  · obtain ⟨rest, rfl⟩ := hcut.front
    rw [hbreak] at h ⊢
    cases h
    rfl

/-! ### Cutting, one piece at a time -/

theorem cutAfter_eq (n : Nat) (cs : List Char) : cutAfter n cs = cut (cs.drop n) := by
  induction n generalizing cs with
  | zero => rfl
  | succ n ih =>
    cases cs with
    | nil => rfl
    | cons c cs => exact ih cs

theorem chars_ne_nil {cs : List Char} {p : Piece} (h : at? cs = some p) : p.chars ≠ [] := by
  intro hnil
  have hcut := cutFrom_of_at? h
  -- A pattern that matched nothing would match at the end of a text.
  obtain ⟨q, hq, -⟩ := found_of_matches hcut.listed (hnil ▸ hcut.spelled) []
  cases hq

theorem cut_of_none {cs : List Char} (h : at? cs = none) : cut cs = ([], cs) := by
  cases cs with
  | nil => rfl
  | cons c cs => simp only [cut, cutAfter, h]

theorem cut_of_some {cs : List Char} {p : Piece} (h : at? (p.chars ++ cs) = some p) :
    cut (p.chars ++ cs) = (p :: (cut cs).1, (cut cs).2) := by
  obtain ⟨c, ds, hchars⟩ := List.exists_cons_of_ne_nil (chars_ne_nil h)
  have hdrop : (ds ++ cs).drop (p.chars.length - 1) = cs := by simp [hchars]
  rw [hchars, List.cons_append] at h ⊢
  simp only [cut, cutAfter, h]
  rw [cutAfter_eq, hdrop]
  rfl

end Piece

/-! ### The scan -/

open Piece

theorem piece_of_longest {lexeme cs : List Char} {rule : TokenRule} {t : Token}
    (longest : Longest (lexeme ++ cs) lexeme rule) (token : rule.token? lexeme = some t) :
    ∃ p : Piece, at? (p.chars ++ cs) = some p ∧ p.chars = lexeme ∧ p.token? = some t := by
  obtain ⟨p, hat, rfl, rfl⟩ := longest_iff.1 longest
  exact ⟨p, hat, rfl, (cutFrom_of_at? hat).token ▸ token⟩

theorem Scans.take_piece {p : Piece} {cs rest : List Char} {t : Token}
    {taken : List (List Char × Token)} (hat : at? (p.chars ++ cs) = some p)
    (ht : p.token? = some t) (next : Scans cs taken rest) :
    Scans (p.chars ++ cs) ((p.chars, t) :: taken) rest :=
  .take (longest_iff.2 ⟨p, hat, rfl, rfl⟩) ((cutFrom_of_at? hat).token.trans ht) next

/-- Whether the scan stops at a place shows in the piece that is cut off there. -/
theorem stuck_iff {cs : List Char} : (∀ lexeme rule, Longest cs lexeme rule →
    rule.token? lexeme = none) ↔ ∀ p, at? cs = some p → p.token? = none := by
  constructor
  · intro h p hat
    rw [← (cutFrom_of_at? hat).token]
    exact h p.chars p.rule (longest_iff.2 ⟨p, hat, rfl, rfl⟩)
  · intro h lexeme rule hlongest
    obtain ⟨p, hat, rfl, rfl⟩ := longest_iff.1 hlongest
    rw [(cutFrom_of_at? hat).token]
    exact h p hat

theorem scans_nil : Scans [] [] [] :=
  .stop (stuck_iff.2 fun _ h => by cases h)

theorem scans_exists (cs : List Char) : ∃ taken rest, Scans cs taken rest := by
  by_cases hstuck : ∀ p, at? cs = some p → p.token? = none
  · exact ⟨[], cs, .stop (stuck_iff.2 hstuck)⟩
  · simp only [not_forall, exists_prop] at hstuck
    obtain ⟨p, hat, htoken⟩ := hstuck
    obtain ⟨t, ht⟩ := Option.ne_none_iff_exists'.1 htoken
    obtain ⟨ds, rfl⟩ := (cutFrom_of_at? hat).front
    -- A piece is not empty, so what is left of the text is shorter.
    have hshorter : ds.length < (p.chars ++ ds).length := by
      simpa using List.length_pos_iff.2 (chars_ne_nil hat)
    obtain ⟨taken, rest, hscans⟩ := scans_exists ds
    exact ⟨_, rest, hscans.take_piece hat ht⟩
termination_by cs.length

theorem Scans.unique {cs rest rest' : List Char} {taken taken' : List (List Char × Token)}
    (h : Scans cs taken rest) (h' : Scans cs taken' rest') : taken' = taken ∧ rest' = rest := by
  induction h generalizing taken' with
  | stop stuck =>
    cases h' with
    | stop => exact ⟨rfl, rfl⟩
    | take longest token => cases (stuck _ _ longest).symm.trans token
  | @take lexeme cs rest rule t taken longest token next ih =>
    -- Both scans are at the same text, where only one piece can be cut off.
    obtain ⟨p, hat, rfl, ht⟩ := piece_of_longest longest token
    generalize hwhole : p.chars ++ cs = whole at h'
    cases h' with
    | stop stuck =>
      rw [hwhole] at hat
      cases (stuck_iff.1 stuck p hat).symm.trans ht
    | take longest' token' next' =>
      obtain ⟨q, hat', rfl, ht'⟩ := piece_of_longest longest' token'
      rw [hwhole] at hat
      cases hat.symm.trans hat'
      cases ht.symm.trans ht'
      cases List.append_cancel_left hwhole
      obtain ⟨rfl, rfl⟩ := ih next'
      exact ⟨rfl, rfl⟩

theorem Scans.flatMap_append {cs rest : List Char} {taken : List (List Char × Token)}
    (h : Scans cs taken rest) : taken.flatMap Prod.fst ++ rest = cs := by
  induction h with
  | stop => rfl
  | take _ _ _ ih => rw [List.flatMap_cons, List.append_assoc, ih]

theorem Scans.stuck {cs rest : List Char} {taken : List (List Char × Token)}
    (h : Scans cs taken rest) : ∀ p, at? rest = some p → p.token? = none := by
  induction h with
  | stop stuck => exact stuck_iff.1 stuck
  | take _ _ _ ih => exact ih

/-! ### The lexemes of a scan -/

/-- The lexemes of `cs`, where it stands behind `before`. -/
def lexemesAfter (before cs : List Char) : Except SourceFault (List Lexeme) :=
  Lexeme.ofPieces (lineAfter before) (byteCount before) (cut cs).2 (cut cs).1

theorem tokenize_eq (source : String) : tokenize source = lexemesAfter [] source.toList := rfl

theorem ofPieces_cons {p : Piece} {t : Token} (ht : p.token? = some t) (line offset : Nat)
    (rest : List Char) (ps : List Piece) : Lexeme.ofPieces line offset rest (p :: ps) =
      (Lexeme.ofPieces (p.lineAfter line) (offset + p.bytes) rest ps).map
        (t.lexemes line ++ ·) := by
  rw [Lexeme.ofPieces, ht]
  cases Lexeme.ofPieces (p.lineAfter line) (offset + p.bytes) rest ps <;> cases t <;> rfl

/-- One step of the scan. -/
theorem lexemesAfter_piece {p : Piece} {cs : List Char} {t : Token}
    (hat : at? (p.chars ++ cs) = some p) (ht : p.token? = some t) (before : List Char) :
    lexemesAfter before (p.chars ++ cs) =
      (lexemesAfter (before ++ p.chars) cs).map (t.lexemes (lineAfter before) ++ ·) := by
  rw [lexemesAfter, cut_of_some hat, ofPieces_cons ht, lineAfter_of_at? hat, bytes_eq,
    ← byteCount_append]
  rfl

theorem lexemesAfter_of_scans {cs rest : List Char} {taken : List (List Char × Token)}
    (h : Scans cs taken rest) (before : List Char) : lexemesAfter before cs =
      (lexemesAfter (before ++ taken.flatMap Prod.fst) rest).map
        (placed before taken ++ ·) := by
  induction h generalizing before with
  | @stop cs _ =>
    rw [List.flatMap_nil, List.append_nil]
    cases lexemesAfter before cs <;> rfl
  | @take lexeme cs rest rule t taken longest token next ih =>
    obtain ⟨p, hat, rfl, ht⟩ := piece_of_longest longest token
    rw [lexemesAfter_piece hat ht, ih, List.flatMap_cons, ← List.append_assoc]
    cases lexemesAfter _ rest with
    | error fault => rfl
    | ok ls => simp [Except.map, placed]

theorem lexemesAfter_nil (before : List Char) :
    lexemesAfter before [] = .ok [⟨.endOfInput, lineAfter before⟩] := rfl

theorem lexemesAfter_unlexed {p : Piece} {cs : List Char} (hat : at? cs = some p)
    (ht : p.token? = none) (before : List Char) : lexemesAfter before cs =
      .error ⟨.integerOutOfRange (String.ofList p.chars), lineAfter before⟩ := by
  obtain ⟨cs, rfl⟩ := (cutFrom_of_at? hat).front
  rw [lexemesAfter, cut_of_some hat, Lexeme.ofPieces, ht]

theorem lexemesAfter_none {c : Char} {cs : List Char} (hat : at? (c :: cs) = none)
    (before : List Char) : lexemesAfter before (c :: cs) =
      .error ⟨.unexpectedCharacter c (byteCount before), lineAfter before⟩ := by
  rw [lexemesAfter, cut_of_none hat, Lexeme.ofPieces]

/-- Only an integer can be without a token. -/
theorem longest_of_unlexed {p : Piece} {cs : List Char} (hat : at? cs = some p)
    (ht : p.token? = none) : Longest cs p.chars .integer := by
  cases p with
  | integer digits => exact longest_iff.2 ⟨_, hat, rfl, rfl⟩
  | _ => cases ht

theorem large_of_ofInt?_none {n : Nat} (h : Integer.ofInt? n = none) :
    9223372036854775807 < n := by
  by_contra hle
  have hfits : Integer.Fits n := by
    unfold Integer.Fits
    omega
  rw [Integer.ofInt?, if_pos hfits] at h
  cases h

/-- A scan that comes to the end has given all lexemes. -/
theorem tokenize_of_scans {source : String} {taken : List (List Char × Token)}
    (h : Scans source.toList taken []) :
    tokenize source = .ok (placed [] taken ++ [⟨.endOfInput, lineAfter source.toList⟩]) := by
  have hwhole := h.flatMap_append
  rw [List.append_nil] at hwhole
  rw [tokenize_eq, lexemesAfter_of_scans h, List.nil_append, hwhole, lexemesAfter_nil]
  rfl

/-- A text that stops the scan has no lexemes. -/
theorem lexemesAfter_of_stuck {c : Char} {cs : List Char}
    (hstuck : ∀ p, at? (c :: cs) = some p → p.token? = none) (before : List Char) :
    ∃ fault, lexemesAfter before (c :: cs) = .error fault := by
  cases hat : at? (c :: cs) with
  | none => exact ⟨_, lexemesAfter_none hat before⟩
  | some p => exact ⟨_, lexemesAfter_unlexed hat (hstuck p hat) before⟩

theorem scans_of_tokenize {source : String} {ls : List Lexeme} (h : tokenize source = .ok ls) :
    ∃ taken, Scans source.toList taken [] := by
  obtain ⟨taken, rest, hscans⟩ := scans_exists source.toList
  cases rest with
  | nil => exact ⟨taken, hscans⟩
  | cons c cs =>
    obtain ⟨fault, hfault⟩ := lexemesAfter_of_stuck hscans.stuck ([] ++ taken.flatMap Prod.fst)
    rw [tokenize_eq, lexemesAfter_of_scans hscans, hfault] at h
    cases h

/-- There is exactly one scan of a script. Its pieces in order are the script up to where it stops. If
it stops at the end, the lexemes are those of the pieces and one more, each with the line it starts
on. If it stops at an integer, that is too big, and the fault shows its digits. Anywhere else, the
fault is the character at which it stops. -/
theorem tokenize_is_maximal_munch (source : String) : ∃ taken rest,
    (∀ taken' rest', Scans source.toList taken' rest' ↔ taken' = taken ∧ rest' = rest) ∧
    taken.flatMap Prod.fst ++ rest = source.toList ∧
    (rest = [] → tokenize source =
      .ok (placed [] taken ++ [⟨.endOfInput, lineAfter source.toList⟩])) ∧
    (∀ digits, Longest rest digits .integer →
      9223372036854775807 < Nat.ofDigitChars 10 digits 0 ∧ tokenize source =
        .error ⟨.integerOutOfRange (String.ofList digits), lineAfter (taken.flatMap Prod.fst)⟩) ∧
    (∀ c cs, rest = c :: cs → (∀ digits, ¬ Longest rest digits .integer) → tokenize source =
      .error ⟨.unexpectedCharacter c (byteCount (taken.flatMap Prod.fst)),
        lineAfter (taken.flatMap Prod.fst)⟩) := by
  obtain ⟨taken, rest, hscans⟩ := scans_exists source.toList
  have htokens := lexemesAfter_of_scans hscans []
  rw [← tokenize_eq, List.nil_append] at htokens
  refine ⟨taken, rest, fun taken' rest' => ⟨hscans.unique, ?_⟩, hscans.flatMap_append, ?_, ?_, ?_⟩
  · rintro ⟨rfl, rfl⟩
    exact hscans
  · rintro rfl
    exact tokenize_of_scans hscans
  · intro digits hlongest
    obtain ⟨p, hat, rfl, hrule⟩ := longest_iff.1 hlongest
    have ht := hscans.stuck p hat
    constructor
    · have hvalue := (cutFrom_of_at? hat).token.trans ht
      rw [hrule, TokenRule.integer, Option.map_eq_none_iff] at hvalue
      exact large_of_ofInt?_none hvalue
    · rw [htokens, lexemesAfter_unlexed hat ht]
      rfl
  · rintro c cs rfl hnone
    have hat : at? (c :: cs) = none := by
      by_contra hsome
      obtain ⟨p, hat⟩ := Option.ne_none_iff_exists'.1 hsome
      exact hnone p.chars (longest_of_unlexed hat (hscans.stuck p hat))
    rw [htokens, lexemesAfter_none hat]
    rfl

/-- A reserved word, a truth value, a literal with an escape, a decimal and a name that only starts
like a reserved word. -/
theorem scan_of_five_tokens :
    let taken : List (List Char × Token) :=
      [ ("if".toList, .keyword .cond), (" ".toList, .filler .blanks), ("true".toList, .bool true),
        ("\n".toList, .filler .newLine), ("'a\\n'".toList, .str "a\n"),
        ("\t".toList, .filler .blanks), ("1.5".toList, .decimal 1.5), (" ".toList, .filler .blanks),
        ("trues".toList, .identifier "trues") ]
    Scans "if true\n'a\\n'\t1.5 trues".toList taken [] ∧
      tokenize "if true\n'a\\n'\t1.5 trues" =
        .ok [⟨.keyword .cond, 1⟩, ⟨.bool true, 1⟩, ⟨.str "a\n", 2⟩, ⟨.decimal 1.5, 2⟩,
          ⟨.identifier "trues", 2⟩, ⟨.endOfInput, 2⟩] := by
  intro taken
  have hscans : Scans "if true\n'a\\n'\t1.5 trues".toList taken [] :=
    .take_piece (p := .word "if".toList) rfl rfl <|
    .take_piece (p := .blanks " ".toList) rfl rfl <|
    .take_piece (p := .word "true".toList) rfl rfl <|
    .take_piece (p := .newLine) rfl rfl <|
    .take_piece (p := .quoted '\'' "a\\n".toList) rfl rfl <|
    .take_piece (p := .blanks "\t".toList) rfl rfl <|
    .take_piece (p := .decimal "1".toList "5".toList) rfl rfl <|
    .take_piece (p := .blanks " ".toList) rfl rfl <|
    .take_piece (p := .word "trues".toList) rfl rfl scans_nil
  obtain ⟨taken', rest, hunique, -, htokens, -⟩ :=
    tokenize_is_maximal_munch "if true\n'a\\n'\t1.5 trues"
  obtain ⟨rfl, rfl⟩ := (hunique _ _).1 hscans
  exact ⟨hscans, (htokens rfl).trans rfl⟩

/-- A text literal that is not closed on its line is no piece, and stops the scan at its quote. -/
example : tokenize "// é\n\"a\" '" = .error ⟨.unexpectedCharacter '\'' 10, 2⟩ := by
  rfl

end Skript
