import Skript.Proofs.Printing
import Skript.Proofs.TextLiterals

/-!
# Printed tokens are cut apart again

A token that is written out and followed by a blank, or by nothing, is cut off as it was written
and stands for itself. So the scan of a printed text gives its tokens back, all on one line.
-/
namespace Skript

open Piece

/-- Nothing follows, or a blank. -/
def BeforeBlank (rest : List Char) : Prop :=
  ∀ c ∈ rest.head?, c = ' '

theorem beforeBlank_nil : BeforeBlank [] := by
  simp [BeforeBlank]

theorem beforeBlank_cons (rest : List Char) : BeforeBlank (' ' :: rest) := by
  simp [BeforeBlank]

section

variable {p : Char → Bool} {s rest : List Char}

theorem takeWhile_beforeBlank (hp : p ' ' = false) (hs : ∀ c ∈ s, p c) (hrest : BeforeBlank rest) :
    (s ++ rest).takeWhile p = s := by
  rw [List.takeWhile_append_of_pos hs]
  cases rest with
  | nil => rw [List.takeWhile_nil, List.append_nil]
  | cons c rest =>
    cases hrest c rfl
    rw [List.takeWhile_cons_of_neg (by simp [hp]), List.append_nil]

theorem dropWhile_beforeBlank (hp : p ' ' = false) (hs : ∀ c ∈ s, p c) (hrest : BeforeBlank rest) :
    (s ++ rest).dropWhile p = rest := by
  rw [List.dropWhile_append_of_pos hs]
  cases rest with
  | nil => rfl
  | cons c rest =>
    cases hrest c rfl
    rw [List.dropWhile_cons_of_neg (by simp [hp])]

end

/-! ### One token -/

/-- Whether the token is cut off as it is written. -/
def Token.isWritable : Token → Bool
  | integer k => 0 ≤ k
  | identifier name => isName name
  | str _ | bool _ | keyword _ | kind _ | symbol _ => true
  | decimal _ | filler _ | endOfInput => false

variable {rest : List Char}

theorem cutAs_integer {k : Int64} (hk : 0 ≤ k) (hrest : BeforeBlank rest) :
    CutAs (.integer k) (Integer.text k).toList rest := by
  have hpos : 0 ≤ k.toInt := by simpa [Int64.le_iff_toInt_le] using hk
  have htext : (Integer.text k).toList = Nat.toDigits 10 k.toInt.natAbs := by
    rw [Integer.text, String.toList_ofList, Integer.digits, if_neg (by omega)]
  obtain ⟨hne, hdigits, hvalue⟩ := Integer.isNumeral_toDigits k.toInt.natAbs
  generalize Nat.toDigits 10 k.toInt.natAbs = s at htext hne hdigits hvalue
  have hnumber : number (s ++ rest) = .integer s := by
    rw [number, takeWhile_beforeBlank rfl hdigits hrest, dropWhile_beforeBlank rfl hdigits hrest]
    cases rest with
    | nil => rfl
    | cons c rest =>
      cases hrest c rfl
      rfl
  rw [htext]
  refine ⟨.integer s, ?_, rfl, ?_⟩
  · obtain ⟨c, cs, rfl⟩ := List.exists_cons_of_ne_nil hne
    rw [List.cons_append, at?_digit (hdigits c List.mem_cons_self), ← List.cons_append, hnumber]
  · have hread : Integer.ofInt? (Nat.ofDigitChars 10 s 0) = some k :=
      Integer.ofInt?_eq_some_iff.2 (by omega)
    rw [token?, Integer.read?_of_digits hne hdigits, hread]
    rfl

theorem cutAs_word {spelling : String} {c : Char} {cs : List Char}
    (hchars : spelling.toList = c :: cs) (hc : isWordStart c) (hcs : ∀ d ∈ cs, isWordChar d)
    (hrest : BeforeBlank rest) : CutAs (.ofWord spelling) spelling.toList rest := by
  refine ⟨.word spelling.toList, ?_, rfl, ?_⟩
  · rw [hchars, List.cons_append, at?_word hc, takeWhile_beforeBlank rfl hcs hrest]
  · rw [token?, String.ofList_toList]

theorem cutAs_reserved {spelling : String} {t : Token} (h : (spelling, t) ∈ Token.words)
    (hrest : BeforeBlank rest) : CutAs t spelling.toList rest := by
  obtain ⟨⟨c, cs, hchars, hc, hcs⟩, hlookup⟩ := isWord_of_mem_words h
  have hword : Token.ofWord spelling = t := by
    rw [Token.ofWord, hlookup]
    rfl
  rw [← hword]
  exact cutAs_word hchars hc hcs hrest

/-- A name is a word that is not reserved. -/
theorem isName_iff {name : String} : isName name ↔ ∃ c cs, name.toList = c :: cs ∧
    isWordStart c ∧ (∀ d ∈ cs, isWordChar d) ∧ Token.words.lookup name = none := by
  unfold isName
  cases name.toList with
  | nil => simp
  | cons c cs =>
    simp [CharClass.contains_wordStart, CharClass.contains_wordChar, TokenRule.reservedWords_eq,
      and_assoc]

theorem cutAs_identifier {name : String} (h : isName name) (hrest : BeforeBlank rest) :
    CutAs (.identifier name) name.toList rest := by
  obtain ⟨c, cs, hchars, hc, hcs, hlookup⟩ := isName_iff.1 h
  have hword : Token.ofWord name = .identifier name := by
    rw [Token.ofWord, hlookup]
    rfl
  rw [← hword]
  exact cutAs_word hchars hc hcs hrest

theorem cutAs_symbol (sign : Symbol) (hrest : BeforeBlank rest) :
    CutAs (.symbol sign) sign.text.toList rest := by
  have hequals : rest.head? ≠ some '=' := fun h => absurd (hrest '=' h) (by decide)
  refine ⟨.symbol sign, ?_, rfl, rfl⟩
  -- Only these could go on in what follows.
  cases sign with
  | equals => exact at?_before_equals (.inl rfl) hequals
  | less => exact at?_before_equals (.inr (.inl rfl)) hequals
  | greater => exact at?_before_equals (.inr (.inr rfl)) hequals
  | slash =>
    cases rest with
    | nil => rfl
    | cons c rest =>
      cases hrest c rfl
      rfl
  | _ => rfl

/-! ### Text literals -/

theorem spelling_writtenChar (quote c : Char) : Spelling quote c (writtenChar quote c) := by
  unfold writtenChar
  by_cases hline : c = '\n'
  · subst hline
    exact .lineBreak
  rw [if_neg hline]
  by_cases htab : c = '\t'
  · subst htab
    exact .tab
  rw [if_neg htab]
  by_cases hescaped : c = quote ∨ c = '\\'
  · rw [if_pos hescaped]
    obtain rfl | rfl := hescaped
    · exact .quote
    · exact .backslash
  · rw [if_neg hescaped]
    rw [not_or] at hescaped
    exact .raw hescaped.1 hescaped.2 hline

theorem cutAs_str {quote : Char} (hquote : quote = '"' ∨ quote = '\'') (s : String) :
    CutAs (.str s) (quote :: (s.toList.flatMap (writtenChar quote) ++ [quote])) rest := by
  have hspelled : List.Forall₂ (Spelling quote) s.toList (s.toList.map (writtenChar quote)) :=
    List.forall₂_map_right_iff.2 (List.forall₂_same.2 fun c _ => spelling_writtenChar quote c)
  have hresolves := resolves_spellings hquote hspelled
  rw [← List.flatMap_def] at hresolves
  exact cutAs_str_iff.2 ⟨quote, _, hquote, rfl, hresolves⟩

variable (style : Style) {t : Token}

theorem cutAs_written (ht : t.isWritable) (hrest : BeforeBlank rest) :
    CutAs t (t.written style) rest := by
  cases t with
  | decimal | filler | endOfInput => cases ht
  | integer k => exact cutAs_integer (of_decide_eq_true ht) hrest
  | str s => exact cutAs_str style.isQuote s
  | bool b => cases b <;> exact cutAs_reserved (by decide) hrest
  | keyword word =>
    cases word with
    | otherwise =>
      rw [Token.written]
      obtain h | h := style.isOtherwise <;> rw [h] <;> exact cutAs_reserved (by decide) hrest
    | _ => exact cutAs_reserved (by decide) hrest
  | kind k => cases k <;> exact cutAs_reserved (by decide) hrest
  | identifier name => exact cutAs_identifier ht hrest
  | symbol sign => exact cutAs_symbol sign hrest

/-! ### A row of tokens -/

/-- Where nothing but a blank follows, the text is cut off and stands for the token, which is no
filler. -/
structure StandsFor (s : List Char) (t : Token) : Prop where
  cut {rest : List Char} : BeforeBlank rest → CutAs t s rest
  notFiller (sort : Filler) : t ≠ .filler sort

theorem standsFor_written (ht : t.isWritable) : StandsFor (t.written style) t where
  cut := cutAs_written style ht
  notFiller := by
    rintro sort rfl
    cases ht

namespace StandsFor

variable {s : List Char}

theorem lexemes_eq (h : StandsFor s t) (line : Nat) : t.lexemes line = [⟨t, line⟩] := by
  cases t with
  | filler sort => exact absurd rfl (h.notFiller sort)
  | _ => rfl

/-- A text that stands for a token stays on its line. -/
theorem lineAfter_eq (h : StandsFor s t) (before : List Char) :
    lineAfter (before ++ s) = lineAfter before :=
  (h.cut beforeBlank_nil).lineAfter_eq (h.notFiller .newLine) before

/-- No blank goes on into it. -/
theorem cutAs_blank (h : StandsFor s t) (hrest : BeforeBlank rest) :
    CutAs (.filler .blanks) [' '] (s ++ rest) := by
  refine ⟨.blanks [' '], ?_, rfl, rfl⟩
  rw [List.singleton_append, at?_blank rfl]
  obtain ⟨p, hat, -, htoken⟩ := h.cut hrest
  cases hs : s ++ rest with
  | nil => rfl
  | cons c cs =>
    have hc : ¬ isInlineBlank c := by
      intro hc
      rw [hs, at?_blank hc] at hat
      cases hat
      exact h.notFiller .blanks (Option.some.inj htoken).symm
    rw [List.takeWhile_cons_of_neg hc]

end StandsFor

/-- Texts with blanks between them. -/
def separated (row : List (List Char × Token)) : List Char :=
  [' '].intercalate (row.map Prod.fst)

theorem separated_cons_cons (w next : List Char × Token) (row : List (List Char × Token)) :
    separated (w :: next :: row) = w.1 ++ ([' '] ++ separated (next :: row)) := by
  rw [separated, List.map_cons, List.map_cons, List.intercalate_cons_cons, List.append_assoc,
    ← List.map_cons, separated]

theorem exists_separated_cons (w : List Char × Token) (row : List (List Char × Token)) :
    ∃ rest, BeforeBlank rest ∧ separated (w :: row) = w.1 ++ rest := by
  cases row with
  | nil => exact ⟨[], beforeBlank_nil, by simp [separated]⟩
  | cons next row => exact ⟨_, beforeBlank_cons _, separated_cons_cons w next row⟩

/-- Texts that stand for tokens are taken apart into these tokens. -/
theorem scans_separated {row : List (List Char × Token)} (hrow : ∀ w ∈ row, StandsFor w.1 w.2)
    (before : List Char) : ∃ taken, Scans (separated row) taken [] ∧
      placed before taken = row.map fun w => ⟨w.2, lineAfter before⟩ := by
  induction row generalizing before with
  | nil => exact ⟨[], scans_nil, rfl⟩
  | cons w row ih =>
    obtain ⟨hw, hrest⟩ := List.forall_mem_cons.1 hrow
    cases row with
    | nil =>
      refine ⟨[w], ?_, ?_⟩
      · simpa [separated] using (hw.cut beforeBlank_nil).scans scans_nil
      · rw [placed, placed, hw.lexemes_eq]
        rfl
    | cons next row =>
      -- The rest stands behind the token and its blank, which is still on the same line.
      obtain ⟨taken, hscans, hplaced⟩ := ih hrest (before ++ w.1 ++ [' '])
      have hline : lineAfter (before ++ w.1 ++ [' ']) = lineAfter before := by
        rw [← hw.lineAfter_eq before]
        simp [lineAfter]
      refine ⟨w :: ([' '], .filler .blanks) :: taken, ?_, ?_⟩
      · obtain ⟨rest, hblank, htext⟩ := exists_separated_cons next row
        have hcut : CutAs (.filler .blanks) [' '] (separated (next :: row)) := by
          rw [htext]
          exact (hrest next List.mem_cons_self).cutAs_blank hblank
        rw [separated_cons_cons]
        exact (hw.cut (beforeBlank_cons _)).scans (hcut.scans hscans)
      · rw [placed, placed, hplaced, hline, hw.lexemes_eq]
        rfl

theorem scans_spaced {ts : List Token} (hts : ∀ t ∈ ts, t.isWritable) (before : List Char) :
    ∃ taken, Scans (Token.spaced style ts) taken [] ∧
      placed before taken = ts.map fun t => ⟨t, lineAfter before⟩ := by
  have hrow : ∀ w ∈ ts.map fun t => (t.written style, t), StandsFor w.1 w.2 := by
    intro w hw
    obtain ⟨t, ht, rfl⟩ := List.mem_map.1 hw
    exact standsFor_written style (hts t ht)
  obtain ⟨taken, hscans, hplaced⟩ := scans_separated hrow before
  rw [separated, List.map_map] at hscans
  rw [List.map_map] at hplaced
  exact ⟨taken, hscans, hplaced⟩

/-! ### The tokens of a program -/

/-- Tokens that can all be written. -/
def Writable (ts : List Token) : Prop :=
  ∀ t ∈ ts, t.isWritable

variable {ts us : List Token}

@[simp] theorem writable_nil : Writable [] :=
  fun _ ht => absurd ht List.not_mem_nil

@[simp] theorem writable_cons : Writable (t :: ts) ↔ t.isWritable ∧ Writable ts :=
  List.forall_mem_cons

@[simp] theorem writable_append : Writable (ts ++ us) ↔ Writable ts ∧ Writable us :=
  List.forall_mem_append

@[simp] theorem writable_grouped {needed : Bool} :
    Writable (Token.grouped needed ts) ↔ Writable ts := by
  cases needed <;> simp [Token.grouped, Token.isWritable]

@[simp] theorem writable_braced : Writable (Token.braced ts) ↔ Writable ts := by
  simp [Token.braced, Token.isWritable]

theorem writable_commaSeparated {items : List (List Token)} (h : ∀ ts ∈ items, Writable ts) :
    Writable (Token.commaSeparated items) := by
  induction items with
  | nil => exact writable_nil
  | cons item items ih =>
    obtain ⟨hitem, hitems⟩ := List.forall_mem_cons.1 h
    cases items with
    | nil => simpa [Token.commaSeparated] using hitem
    | cons next items =>
      rw [Token.commaSeparated, List.intercalate_cons_cons]
      exact writable_append.2 ⟨by simpa [Token.isWritable] using hitem, ih hitems⟩

theorem writable_inputTokens (prompt : Option String) (kind : Option Kind) :
    Writable (Expr.inputTokens prompt kind) := by
  refine writable_commaSeparated ?_
  cases prompt <;> cases kind <;> simp [Token.isWritable]

theorem Literal.isWritable_token {v : Literal} (h : v.isPrintable) : v.token.isWritable := by
  cases v with
  | dec => cases h
  | num => exact h
  | _ => rfl

mutual

theorem writable_tokens : ∀ (e : Expr), e.isPrintable → Writable e.tokens
  | .literal v _, h => writable_cons.2 ⟨Literal.isWritable_token h, writable_nil⟩
  | .var name _, h => writable_cons.2 ⟨h, writable_nil⟩
  | .binary left op right _, h => by
    obtain ⟨hleft, hright⟩ := Bool.and_eq_true_iff.1 h
    simp [Expr.tokens, Token.isWritable, writable_tokens left hleft, writable_tokens right hright]
  | .call name arguments _, h => by
    obtain ⟨hname, harguments⟩ := Bool.and_eq_true_iff.1 h
    have hcommas := writable_commaSeparated (writable_each arguments harguments)
    simp [Expr.tokens, Token.isWritable, hname, hcommas]
  | .input prompt kind _, _ => by simp [Expr.tokens, Token.isWritable, writable_inputTokens]
  | .length operand _, h => by simp [Expr.tokens, Token.isWritable, writable_tokens operand h]

theorem writable_each : ∀ (es : List Expr), Expr.arePrintable es →
    ∀ ts ∈ Expr.tokensOfEach es, Writable ts
  | [], _ => by simp [Expr.tokensOfEach]
  | e :: es, h => List.forall_mem_cons.2
    ⟨writable_tokens e (Bool.and_eq_true_iff.1 h).1, writable_each es (Bool.and_eq_true_iff.1 h).2⟩

end

theorem writable_params {params : List String} (h : params.all isName) :
    Writable (Token.commaSeparated (params.map fun param => [.identifier param])) := by
  refine writable_commaSeparated fun ts hts => ?_
  obtain ⟨param, hparam, rfl⟩ := List.mem_map.1 hts
  exact writable_cons.2 ⟨List.all_eq_true.1 h param hparam, writable_nil⟩

mutual

theorem writable_statement : ∀ (s : Statement), s.isPrintable → Writable (s.tokens style)
  | .function name params body _, h => by
    simp only [Statement.isPrintable, Bool.and_eq_true] at h
    obtain ⟨⟨hname, hparams⟩, hbody⟩ := h
    simp [Statement.tokens, Token.isWritable, hname, writable_params hparams,
      writable_statements body hbody]
  | .ret value _, h => by simp [Statement.tokens, Token.isWritable, writable_tokens value h]
  | .print operand _, h => by simp [Statement.tokens, Token.isWritable, writable_tokens operand h]
  | .choose choice, h => by simp [Statement.tokens, Token.isWritable, writable_choice choice h]
  | .loop init condition update body _, h => by
    simp only [Statement.isPrintable, Bool.and_eq_true] at h
    obtain ⟨⟨⟨hinit, hcondition⟩, hupdate⟩, hbody⟩ := h
    simp [Statement.tokens, Token.isWritable, writable_statement init hinit,
      writable_tokens condition hcondition, writable_statement update hupdate,
      writable_statements body hbody]
  | .declare name kind _, h => by
    have hname : isName name := h
    simp [Statement.tokens, Token.isWritable, hname]
  | .assignTyped name kind value _, h => by
    obtain ⟨hname, hvalue⟩ := Bool.and_eq_true_iff.1 h
    simp [Statement.tokens, Token.isWritable, hname, writable_tokens value hvalue]
  | .assign name value _, h => by
    obtain ⟨hname, hvalue⟩ := Bool.and_eq_true_iff.1 h
    simp [Statement.tokens, Token.isWritable, hname, writable_tokens value hvalue]
  | .expr operand _, h => writable_tokens operand h

theorem writable_statements : ∀ (ss : List Statement), Statement.arePrintable ss →
    Writable (Statement.tokensOfAll style ss)
  | [], _ => writable_nil
  | s :: ss, h => by
    obtain ⟨hs, hss⟩ := Bool.and_eq_true_iff.1 h
    simp [Statement.tokensOfAll, Token.isWritable, writable_statement s hs,
      writable_statements ss hss]

theorem writable_choice : ∀ (c : Choice), c.isPrintable → Writable (c.tokens style)
  | .mk condition body otherwise _, h => by
    simp only [Choice.isPrintable, Bool.and_eq_true] at h
    obtain ⟨⟨hcondition, hbody⟩, hotherwise⟩ := h
    simp [Choice.tokens, writable_tokens condition hcondition, writable_statements body hbody,
      writable_otherwise otherwise hotherwise]

theorem writable_otherwise : ∀ (o : Otherwise), o.isPrintable → Writable (o.tokens style)
  | .nothing, _ => writable_nil
  | .block body, h => by
    simp [Otherwise.tokens, Token.isWritable, writable_statements body h]
  | .elseIf choice, h => by
    have hchoice := writable_choice choice h
    rw [Otherwise.tokens]
    cases style.joins <;> simp [Token.isWritable, hchoice]

end

end Skript
