import Skript.Proofs.PrintedTokens

/-!
# Shown tokens are tokens again

Messages show a token almost as it is written in a script. Shown one after the other with blanks
between them, the tokens of a script make a script again, and only texts can come out changed: they
are shown with more escapes than a literal has, and an escape that means nothing in a literal is
read as it stands. Decimals are left out.
-/
namespace Skript

/-! ### Texts as they are shown -/

namespace Text

/-- The escapes of a shown text that mean the same in a literal. -/
def understood : List (List Char) :=
  [['\\', 'n'], ['\\', 't'], ['\\', '\\'], ['\\', '"']]

/-- A character that is shown by an escape which means nothing in a literal. -/
def Disguised (c : Char) : Prop :=
  escape '"' c ≠ [c] ∧ escape '"' c ∉ understood

instance (c : Char) : Decidable (Disguised c) :=
  inferInstanceAs (Decidable (_ ∧ _))

/-- What the form in which a character is shown stands for in a literal. -/
def rereadChar (c : Char) : List Char :=
  if Disguised c then escape '"' c else [c]

theorem mem_toDigits_plain {n : Nat} {c : Char} (h : c ∈ Nat.toDigits 16 n) :
    c ≠ '"' ∧ c ≠ '\\' ∧ c ≠ '\n' := by
  have hdigit : ∀ k < 16, k.digitChar ≠ '"' ∧ k.digitChar ≠ '\\' ∧ k.digitChar ≠ '\n' := by
    decide
  induction n using Nat.strongRecOn with
  | ind n ih =>
    rw [Nat.toDigits_eq_if (by omega)] at h
    split at h
    · next hlt =>
      rw [List.mem_singleton.1 h]
      exact hdigit n hlt
    · next hle =>
      obtain hfront | hlast := List.mem_append.1 h
      · exact ih (n / 16) (by omega) hfront
      · rw [List.mem_singleton.1 hlast]
        exact hdigit (n % 16) (Nat.mod_lt n (by omega))

/-- The three ways in which a character is shown: as it is, by an escape that a literal has, or by
another one, which no backslash follows. -/
inductive Shown (c : Char) : List Char → Prop
  | raw (unquoted : c ≠ '"') (unescaped : c ≠ '\\') (inLine : c ≠ '\n') : Shown c [c]
  | escaped {d : Char} (listed : (d, c) ∈ escapes) (known : ['\\', d] ∈ understood) :
      Shown c ['\\', d]
  | disguised {d : Char} {rest : List Char} (unlisted : ∀ e, (d, e) ∉ escapes) (inLine : d ≠ '\n')
      (plain : ∀ e ∈ rest, e ≠ '"' ∧ e ≠ '\\' ∧ e ≠ '\n') : Shown c ('\\' :: d :: rest)

theorem shown_escape (c : Char) : Shown c (escape '"' c) := by
  unfold escape
  by_cases hzero : c = '\x00'
  · rw [if_pos hzero]
    exact .disguised (by simp [escapes]) (by decide) (by simp)
  rw [if_neg hzero]
  by_cases htab : c = '\t'
  · subst htab
    exact .escaped (by decide) (by decide)
  rw [if_neg htab]
  by_cases hreturn : c = '\r'
  · rw [if_pos hreturn]
    exact .disguised (by simp [escapes]) (by decide) (by simp)
  rw [if_neg hreturn]
  by_cases hline : c = '\n'
  · subst hline
    exact .escaped (by decide) (by decide)
  rw [if_neg hline]
  by_cases hslash : c = '\\'
  · subst hslash
    exact .escaped (by decide) (by decide)
  rw [if_neg hslash]
  by_cases hquote : c = '"'
  · subst hquote
    exact .escaped (by decide) (by decide)
  rw [if_neg hquote]
  by_cases hhidden : isExtending c || !isGraphic c
  · have hform : codePointEscape c =
        '\\' :: 'u' :: '\x7b' :: (Nat.toDigits 16 c.toNat ++ ['\x7d']) := by
      simp [codePointEscape]
    rw [if_pos hhidden, hform]
    refine .disguised (by simp [escapes]) (by decide) (List.forall_mem_cons.2 ⟨by decide, ?_⟩)
    exact List.forall_mem_append.2 ⟨fun e => mem_toDigits_plain, by simp⟩
  · rw [if_neg hhidden]
    exact .raw hquote hslash hline

theorem resolves_plain {cs : List Char} (h : ∀ c ∈ cs, c ≠ '"' ∧ c ≠ '\\' ∧ c ≠ '\n') :
    Resolves '"' cs cs := by
  induction cs with
  | nil => exact .done
  | cons c cs ih =>
    obtain ⟨⟨unquoted, unescaped, inLine⟩, hcs⟩ := List.forall_mem_cons.1 h
    exact .plain unquoted unescaped inLine (ih hcs)

section

variable {c : Char} {form : List Char}

/-- An escape that a literal does not have stands for itself there, and is longer than what it
shows. -/
theorem Shown.resolves_self (h : Shown c form) (hraw : form ≠ [c]) (hknown : form ∉ understood) :
    Resolves '"' form form ∧ 2 ≤ form.length := by
  cases h with
  | raw => exact absurd rfl hraw
  | escaped _ known => exact absurd known hknown
  | disguised unlisted inLine plain =>
    exact ⟨.kept unlisted inLine (resolves_plain plain), by simp⟩

theorem Shown.resolves_char (h : Shown c form) (hform : form = [c] ∨ form ∈ understood) :
    Resolves '"' form [c] := by
  cases h with
  | raw unquoted unescaped inLine => exact .plain unquoted unescaped inLine .done
  | escaped listed => exact .escaped listed .done
  | @disguised d rest unlisted inLine plain =>
    obtain hraw | hknown := hform
    · cases hraw
    · -- A literal has all the escapes that are understood.
      simp only [understood, List.mem_cons, List.cons.injEq, true_and, List.not_mem_nil,
        or_false] at hknown
      obtain ⟨rfl, -⟩ | ⟨rfl, -⟩ | ⟨rfl, -⟩ | ⟨rfl, -⟩ := hknown
      · exact absurd (by decide) (unlisted '\n')
      · exact absurd (by decide) (unlisted '\t')
      · exact absurd (by decide) (unlisted '\\')
      · exact absurd (by decide) (unlisted '"')

theorem rereadChar_of_not_disguised (h : ¬ Disguised c) : rereadChar c = [c] :=
  if_neg h

theorem length_rereadChar_of_disguised (h : Disguised c) : 2 ≤ (rereadChar c).length := by
  rw [rereadChar, if_pos h]
  exact ((shown_escape c).resolves_self h.1 h.2).2

theorem resolves_escape (c : Char) : Resolves '"' (escape '"' c) (rereadChar c) := by
  by_cases hdisguised : Disguised c
  · rw [rereadChar, if_pos hdisguised]
    exact ((shown_escape c).resolves_self hdisguised.1 hdisguised.2).1
  · rw [rereadChar_of_not_disguised hdisguised]
    refine (shown_escape c).resolves_char ?_
    rwa [Disguised, not_and_or, not_not, not_not] at hdisguised

end

/-! ### Whole texts -/

variable {s : List Char}

theorem resolves_shown (s : List Char) :
    Resolves '"' (s.flatMap (escape '"')) (s.flatMap rereadChar) := by
  induction s with
  | nil => exact .done
  | cons c s ih =>
    rw [List.flatMap_cons, List.flatMap_cons]
    exact (resolves_escape c).append ih

theorem length_le_reread (s : List Char) : s.length ≤ (s.flatMap rereadChar).length := by
  induction s with
  | nil => exact Nat.le_refl 0
  | cons c s ih =>
    have hc : 1 ≤ (rereadChar c).length := by
      by_cases hdisguised : Disguised c
      · exact Nat.le_of_succ_le (length_rereadChar_of_disguised hdisguised)
      · rw [rereadChar_of_not_disguised hdisguised]
        exact Nat.le_refl 1
    rw [List.flatMap_cons, List.length_append, List.length_cons]
    omega

/-- A shown text is read as itself only if no character is disguised: each of them makes it
longer. -/
theorem reread_eq_self_iff : s.flatMap rereadChar = s ↔ ∀ c ∈ s, ¬ Disguised c := by
  induction s with
  | nil => simp
  | cons c s ih =>
    rw [List.flatMap_cons, List.forall_mem_cons, ← ih]
    by_cases hdisguised : Disguised c
    · refine iff_of_false (fun h => ?_) (fun h => h.1 hdisguised)
      have hlength := congrArg List.length h
      have hc := length_rereadChar_of_disguised hdisguised
      have hs := length_le_reread s
      rw [List.length_append, List.length_cons] at hlength
      omega
    · rw [rereadChar_of_not_disguised hdisguised, List.singleton_append, List.cons.injEq]
      simp [hdisguised]

end Text

/-! ### Tokens as they are shown -/

open Piece

/-- What the form in which a token is shown stands for in a script. -/
def Token.reread : Token → Token
  | str s => .str (String.ofList (s.toList.flatMap Text.rereadChar))
  | t => t

theorem Token.reread_eq_self_iff {t : Token} :
    t.reread = t ↔ ∀ s, t = .str s → ∀ c ∈ s.toList, ¬ Text.Disguised c := by
  cases t with
  | str s =>
    rw [reread, Token.str.injEq, ← String.toList_inj, String.toList_ofList, Text.reread_eq_self_iff]
    simp
  | _ => exact iff_of_true rfl nofun

/-- The style in which messages show the other tokens. -/
def Style.shown : Style where
  quote := '"'
  isQuote := .inl rfl
  otherwise := "el"
  isOtherwise := .inl rfl
  joins := true

theorem standsFor_text {t : Token} (ht : t.isWritable) : StandsFor t.text.toList t.reread := by
  have hwritten := standsFor_written .shown ht
  cases t with
  | str s =>
    refine ⟨fun _ => ?_, nofun⟩
    rw [Token.text, Text.quotedString, Text.quoted, String.toList_ofList]
    refine cutAs_str_iff.2 ⟨'"', _, .inl rfl, rfl, ?_⟩
    rw [String.toList_ofList]
    exact Text.resolves_shown s.toList
  | keyword word => cases word <;> exact hwritten
  | _ => exact hwritten

/-- Of the tokens that a script is cut into only decimals and fillers cannot be written. -/
theorem CutAs.isWritable {t : Token} {s rest : List Char} (h : CutAs t s rest)
    (hdecimal : ∀ x, t ≠ .decimal x) (hfiller : ∀ sort, t ≠ .filler sort) : t.isWritable := by
  obtain ⟨p, hat, -, htoken⟩ := h
  have hcut := cutFrom_of_at? hat
  cases p with
  | decimal whole fraction => exact absurd (Option.some.inj htoken).symm (hdecimal _)
  | integer digits =>
    obtain ⟨hne, hdigits⟩ := TokenRule.matches_integer.1 hcut.spelled
    obtain ⟨k, hk, rfl⟩ := Option.map_eq_some_iff.1 htoken
    have hread : Integer.read? digits = _ := Integer.read?_of_digits hne hdigits
    have hvalue := Integer.ofInt?_eq_some_iff.1 (hread.symm.trans hk)
    refine decide_eq_true (Int64.le_iff_toInt_le.2 ?_)
    rw [hvalue]
    exact Int.natCast_nonneg _
  | quoted quote body =>
    cases htoken
    rfl
  | word chars =>
    have hreserved : ∀ entry ∈ Token.words, entry.2.isWritable := by decide
    obtain rfl : Token.ofWord (String.ofList chars) = t := Option.some.inj htoken
    obtain hword | ⟨hlookup, hname⟩ := ofWord_cases (String.ofList chars)
    · exact hreserved _ hword
    · have hrule : (word chars).rule = .identifier := by simp only [rule, hlookup]
      have hspelled := hcut.spelled
      rw [hrule] at hspelled
      obtain ⟨c, cs, hchars, hc, hcs⟩ := TokenRule.matches_identifier.1 hspelled
      rw [hname]
      exact isName_iff.2 ⟨c, cs, String.toList_ofList.trans hchars, hc, hcs, hlookup⟩
  | symbol sign =>
    cases htoken
    rfl
  | comment | newLine | blanks => exact absurd (Option.some.inj htoken).symm (hfiller _)

/-! ### Scripts as they are shown -/

/-- The tokens, but for the end of the input, as messages show them and with blanks between them. -/
def Lexeme.shownText (ls : List Lexeme) : String :=
  " ".intercalate (ls.dropLast.map fun l => l.token.text)

theorem token_of_mem_lexemes {t : Token} {line : Nat} {l : Lexeme} (h : l ∈ t.lexemes line) :
    l.token = t ∧ ∀ sort, t ≠ .filler sort := by
  cases t with
  | filler sort => cases h
  | _ =>
    rw [List.mem_singleton.1 h]
    exact ⟨rfl, nofun⟩

theorem token_of_mem_placed {l : Lexeme} {before : List Char} {taken : List (List Char × Token)}
    (h : l ∈ placed before taken) :
    (∃ s, (s, l.token) ∈ taken) ∧ ∀ sort, l.token ≠ .filler sort := by
  induction taken generalizing before with
  | nil => cases h
  | cons piece taken ih =>
    rw [placed] at h
    obtain hhere | hlater := List.mem_append.1 h
    · obtain ⟨htoken, hfiller⟩ := token_of_mem_lexemes hhere
      rw [htoken]
      exact ⟨⟨piece.1, List.mem_cons_self⟩, hfiller⟩
    · obtain ⟨⟨s, hs⟩, hfiller⟩ := ih hlater
      exact ⟨⟨s, List.mem_cons_of_mem _ hs⟩, hfiller⟩

theorem toList_shownText (ls : List Lexeme) (last : Lexeme) :
    (Lexeme.shownText (ls ++ [last])).toList =
      separated (ls.map fun l => (l.token.text.toList, l.token.reread)) := by
  rw [Lexeme.shownText, List.dropLast_concat, String.toList_intercalate, separated, List.map_map,
    List.map_map]
  rfl

/-- The tokens of a script without decimals, shown one after the other, are a script again. Its
tokens are the same if and only if no text among them has a character that is shown by an escape
which literals do not have. -/
theorem shown_tokens_are_read_again {source : String} {ls : List Lexeme}
    (h : tokenize source = .ok ls) (hdecimals : ∀ l ∈ ls, ∀ x, l.token ≠ .decimal x) :
    (∃ line, ls.getLast? = some ⟨.endOfInput, line⟩) ∧
    ∃ ls', tokenize (Lexeme.shownText ls) = .ok ls' ∧
      (ls'.map Lexeme.token = ls.map Lexeme.token ↔
        ∀ l ∈ ls, ∀ s, l.token = .str s → ∀ c ∈ s.toList, ¬ Text.Disguised c) := by
  obtain ⟨taken, hscans⟩ := scans_of_tokenize h
  obtain rfl := Except.ok.inj (h.symm.trans (tokenize_of_scans hscans))
  generalize hls : placed [] taken = ls at hdecimals ⊢
  have hrow : ∀ w ∈ ls.map fun l => (l.token.text.toList, l.token.reread), StandsFor w.1 w.2 := by
    intro w hw
    obtain ⟨l, hl, rfl⟩ := List.mem_map.1 hw
    obtain ⟨⟨s, hs⟩, hfiller⟩ := token_of_mem_placed (hls ▸ hl)
    obtain ⟨rest, hcut⟩ := hscans.cutAs_of_mem hs
    exact standsFor_text (hcut.isWritable (hdecimals l (List.mem_append_left _ hl)) hfiller)
  obtain ⟨taken', hscans', hplaced'⟩ := scans_separated hrow []
  refine ⟨⟨_, List.getLast?_concat⟩, _, tokenize_of_scans (by rwa [toList_shownText]), ?_⟩
  have hsame : ls.map (fun l => l.token.reread) = ls.map Lexeme.token ↔
      ∀ l ∈ ls, ∀ s, l.token = .str s → ∀ c ∈ s.toList, ¬ Text.Disguised c := by
    simp only [List.map_inj_left, Token.reread_eq_self_iff]
  rw [hplaced', List.map_append, List.map_append, List.map_map, List.map_map]
  refine (List.append_left_inj _).trans (hsame.trans ?_)
  rw [List.forall_mem_append]
  refine (and_iff_left ?_).symm
  rintro l hl s hs
  rw [List.mem_singleton.1 hl] at hs
  cases hs

/-- A tab and a quote are read again. A combining accent is shown by its code point, and what is
read again has the code point in it. -/
theorem combining_accent_is_read_by_its_code_point :
    let plain : List Lexeme := [⟨.symbol .minus, 1⟩, ⟨.str "\t\"", 1⟩, ⟨.endOfInput, 1⟩]
    let accented : List Lexeme := [⟨.str "e\u0301", 1⟩, ⟨.endOfInput, 1⟩]
    tokenize "-'\t\"'" = .ok plain ∧ Lexeme.shownText plain = "- \"\\t\\\"\"" ∧
      (∃ ls, tokenize (Lexeme.shownText plain) = .ok ls ∧
        ls.map Lexeme.token = plain.map Lexeme.token) ∧
      tokenize "'e\u0301'" = .ok accented ∧
      Lexeme.shownText accented = "\"e\\u\x7b301\x7d\"" ∧
      ∃ ls, tokenize (Lexeme.shownText accented) = .ok ls ∧
        ls.map Lexeme.token ≠ accented.map Lexeme.token := by
  intro plain accented
  have hplain : tokenize "-'\t\"'" = .ok plain := rfl
  have haccented : tokenize "'e\u0301'" = .ok accented := rfl
  obtain ⟨-, ls, hls, hsame⟩ := shown_tokens_are_read_again hplain (by simp [plain])
  obtain ⟨-, ls', hls', hsame'⟩ := shown_tokens_are_read_again haccented (by simp [accented])
  refine ⟨hplain, rfl, ⟨ls, hls, hsame.2 ?_⟩, haccented, rfl, ls', hls', fun h => ?_⟩
  · have htext : ∀ l ∈ plain, ∀ s, l.token = .str s → s = "\t\"" := by simp [plain, eq_comm]
    intro l hl s hs c hc
    obtain rfl := htext l hl s hs
    obtain rfl | rfl : c = '\t' ∨ c = '"' := by simpa using hc
    · decide
    · decide
  · have hnot := hsame'.1 h _ List.mem_cons_self _ rfl '\u0301'
    exact hnot (by decide) (by decide)

end Skript
