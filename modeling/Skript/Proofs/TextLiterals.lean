import Mathlib.Data.List.Forall2
import Skript.Proofs.MaximalMunch

/-!
# Text literals

A text literal is found by a pattern, which only tells where it ends, and then its body is read once
more for what it stands for. Both take a backslash together with the character after it, so they
agree on which quote is the last. Every text can be written as a literal between either sort of
quotes, and whatever is written after the literal is read as if it stood alone.
-/
namespace Skript

open Piece

/-! ### The meaning of a body -/

/-- The characters with a meaning after a backslash, each with what it stands for there. -/
def escapes : List (Char × Char) :=
  [('n', '\n'), ('t', '\t'), ('"', '"'), ('\'', '\''), ('\\', '\\')]

/-- `Resolves quote body text`: the body of a literal in these quotes, passed through once from left
to right, stands for the text. A backslash goes with the character after it, and is kept before one
that has no meaning there. -/
inductive Resolves (quote : Char) : List Char → List Char → Prop
  | done : Resolves quote [] []
  | plain {c : Char} {body text : List Char} (unquoted : c ≠ quote) (unescaped : c ≠ '\\')
      (inLine : c ≠ '\n') (rest : Resolves quote body text) :
      Resolves quote (c :: body) (c :: text)
  | escaped {c d : Char} {body text : List Char} (listed : (c, d) ∈ escapes)
      (rest : Resolves quote body text) : Resolves quote ('\\' :: c :: body) (d :: text)
  | kept {c : Char} {body text : List Char} (unlisted : ∀ d, (c, d) ∉ escapes) (inLine : c ≠ '\n')
      (rest : Resolves quote body text) :
      Resolves quote ('\\' :: c :: body) ('\\' :: c :: text)

theorem escaped?_eq_some_iff {c d : Char} : escaped? c = some d ↔ (c, d) ∈ escapes := by
  unfold escaped?
  by_cases hn : c = 'n'
  · subst hn
    simp [escapes, eq_comm]
  by_cases ht : c = 't'
  · subst ht
    simp [escapes, eq_comm]
  rw [if_neg hn, if_neg ht]
  simp only [escapes, List.mem_cons, Prod.mk.injEq, hn, ht, false_and, false_or, List.not_mem_nil,
    or_false]
  split
  · next h =>
    rw [Option.some_inj]
    constructor
    · rintro rfl
      obtain rfl | rfl | rfl := h <;> simp
    · rintro (⟨rfl, rfl⟩ | ⟨rfl, rfl⟩ | ⟨rfl, rfl⟩) <;> rfl
  · next h =>
    simp only [not_or] at h
    simp [h]

theorem inLine_of_listed {c d : Char} (h : (c, d) ∈ escapes) : c ≠ '\n' := by
  rintro rfl
  simp [escapes] at h

section

variable {quote : Char} {body text : List Char}

theorem unescape_plain {c : Char} (hc : c ≠ '\\') (cs : List Char) :
    unescape (c :: cs) = c :: unescape cs := by
  rw [unescape]
  exact fun d ds h _ => hc h

theorem unescape_escaped {c d : Char} (h : (c, d) ∈ escapes) (cs : List Char) :
    unescape ('\\' :: c :: cs) = d :: unescape cs := by
  rw [unescape, escaped?_eq_some_iff.2 h]

theorem unescape_kept {c : Char} (h : ∀ d, (c, d) ∉ escapes) (cs : List Char) :
    unescape ('\\' :: c :: cs) = '\\' :: c :: unescape cs := by
  have hnone : escaped? c = none :=
    Option.eq_none_iff_forall_ne_some.2 fun d hd => h d (escaped?_eq_some_iff.1 hd)
  rw [unescape, hnone]

theorem TokenRule.IsBody.plain {c : Char} (unquoted : c ≠ quote) (unescaped : c ≠ '\\')
    (inLine : c ≠ '\n') (h : TokenRule.IsBody quote body) : TokenRule.IsBody quote (c :: body) := by
  obtain ⟨parts, rfl, hparts⟩ := h
  exact ⟨[c] :: parts, rfl,
    List.forall_mem_cons.2 ⟨.inl ⟨c, rfl, unquoted, unescaped, inLine⟩, hparts⟩⟩

theorem TokenRule.IsBody.escape {c : Char} (inLine : c ≠ '\n') (h : TokenRule.IsBody quote body) :
    TokenRule.IsBody quote ('\\' :: c :: body) := by
  obtain ⟨parts, rfl, hparts⟩ := h
  exact ⟨['\\', c] :: parts, rfl, List.forall_mem_cons.2 ⟨.inr ⟨c, rfl, inLine⟩, hparts⟩⟩

/-- The pattern finds the bodies that can be passed through, and what they are read as is what they
stand for. -/
theorem resolves_iff :
    Resolves quote body text ↔ TokenRule.IsBody quote body ∧ unescape body = text := by
  constructor
  · intro h
    induction h with
    | done => exact ⟨⟨[], rfl, fun _ hpart => absurd hpart List.not_mem_nil⟩, rfl⟩
    | plain unquoted unescaped inLine rest ih =>
      refine ⟨ih.1.plain unquoted unescaped inLine, ?_⟩
      rw [unescape_plain unescaped, ih.2]
    | escaped listed rest ih =>
      refine ⟨ih.1.escape (inLine_of_listed listed), ?_⟩
      rw [unescape_escaped listed, ih.2]
    | kept unlisted inLine rest ih =>
      refine ⟨ih.1.escape inLine, ?_⟩
      rw [unescape_kept unlisted, ih.2]
  · rintro ⟨⟨parts, rfl, hparts⟩, rfl⟩
    induction parts with
    | nil => exact .done
    | cons part parts ih =>
      obtain ⟨hpart, hrest⟩ := List.forall_mem_cons.1 hparts
      have hresolves := ih hrest
      rw [List.flatten_cons]
      obtain ⟨c, rfl, unquoted, unescaped, inLine⟩ | ⟨c, rfl, inLine⟩ := hpart
      · rw [List.singleton_append, unescape_plain unescaped]
        exact .plain unquoted unescaped inLine hresolves
      · rw [List.cons_append, List.singleton_append]
        by_cases hlisted : ∃ d, (c, d) ∈ escapes
        · obtain ⟨d, hd⟩ := hlisted
          rw [unescape_escaped hd]
          exact .escaped hd hresolves
        · rw [not_exists] at hlisted
          rw [unescape_kept hlisted]
          exact .kept hlisted inLine hresolves

theorem Resolves.append {body' text' : List Char} (h : Resolves quote body text)
    (h' : Resolves quote body' text') : Resolves quote (body ++ body') (text ++ text') := by
  induction h with
  | done => exact h'
  | plain unquoted unescaped inLine _ ih => exact .plain unquoted unescaped inLine ih
  | escaped listed _ ih => exact .escaped listed ih
  | kept unlisted inLine _ ih => exact .kept unlisted inLine ih

end

/-! ### Literals are cut off as a whole -/

/-- The text, with `rest` after it, is cut off as one piece that stands for the token. -/
def CutAs (t : Token) (s rest : List Char) : Prop :=
  ∃ p : Piece, at? (s ++ rest) = some p ∧ p.chars = s ∧ p.token? = some t

theorem CutAs.scans {t : Token} {s rest : List Char} {taken : List (List Char × Token)}
    (h : CutAs t s rest) (next : Scans rest taken []) :
    Scans (s ++ rest) ((s, t) :: taken) [] := by
  obtain ⟨p, hat, rfl, htoken⟩ := h
  exact next.take_piece hat htoken

theorem Scans.cutAs_of_mem {t : Token} {s cs rest : List Char} {taken : List (List Char × Token)}
    (h : Scans cs taken rest) (hmem : (s, t) ∈ taken) : ∃ rest', CutAs t s rest' := by
  induction h with
  | stop => cases hmem
  | @take lexeme cs rest rule u taken longest token next ih =>
    obtain hhere | hlater := List.mem_cons.1 hmem
    · cases hhere
      obtain ⟨p, hat, rfl, htoken⟩ := piece_of_longest longest token
      exact ⟨cs, p, hat, rfl, htoken⟩
    · exact ih hlater

/-- Only a line break ends a line. -/
theorem CutAs.lineAfter_eq {t : Token} {s rest : List Char} (h : CutAs t s rest)
    (ht : t ≠ .filler .newLine) (before : List Char) :
    lineAfter (before ++ s) = lineAfter before := by
  obtain ⟨p, hat, rfl, htoken⟩ := h
  rw [← lineAfter_of_at? hat]
  cases p with
  | newLine => exact absurd (Option.some.inj htoken).symm ht
  | _ => rfl

/-- The text of a token that is one. -/
def Token.asText? : Token → Option String
  | str s => some s
  | _ => none

theorem Token.asText?_ofWord (word : String) : (ofWord word).asText? = none := by
  have hwords : ∀ entry ∈ words, entry.2.asText? = none := by decide
  obtain hreserved | ⟨-, hname⟩ := ofWord_cases word
  · exact hwords _ hreserved
  · rw [hname]
    rfl

/-- Literals have their quotes from the table. -/
theorem isQuote_of_listed {quote : Char} (h : TokenRule.quoted quote ∈ TokenRule.all) :
    quote = '"' ∨ quote = '\'' := by
  have hpattern := List.mem_map_of_mem (f := TokenRule.pattern) h
  simp [TokenRule.all, TokenRule.quoted, TokenRule.decimal, TokenRule.integer,
    TokenRule.identifier, TokenRule.comment, TokenRule.newLine, TokenRule.blanks, TokenRule.fixed,
    Pattern.oneOrMore] at hpattern
  exact hpattern.imp And.left And.left

theorem cutAs_str_iff {s : String} {piece rest : List Char} : CutAs (.str s) piece rest ↔
    ∃ quote body, (quote = '"' ∨ quote = '\'') ∧ piece = quote :: (body ++ [quote]) ∧
      Resolves quote body s.toList := by
  constructor
  · rintro ⟨p, hat, rfl, htoken⟩
    cases p with
    | quoted quote body =>
      have hcut := cutFrom_of_at? hat
      obtain ⟨body', hchars, hbody⟩ := TokenRule.matches_quoted.1 hcut.spelled
      obtain rfl : body = body' := List.append_cancel_right (List.cons.inj hchars).2
      refine ⟨quote, body, isQuote_of_listed hcut.listed, rfl, resolves_iff.2 ⟨hbody, ?_⟩⟩
      cases htoken
      rw [String.toList_ofList]
    | integer digits =>
      obtain ⟨k, -, hk⟩ := Option.map_eq_some_iff.1 htoken
      cases hk
    | word chars =>
      have hnone := Token.asText?_ofWord (String.ofList chars)
      rw [Option.some.inj htoken] at hnone
      cases hnone
    | _ => cases htoken
  · rintro ⟨quote, body, hquote, rfl, hresolves⟩
    obtain ⟨hbody, htext⟩ := resolves_iff.1 hresolves
    have hslash : quote ≠ '\\' := by obtain rfl | rfl := hquote <;> decide
    refine ⟨.quoted quote body, ?_, rfl, ?_⟩
    · rw [List.cons_append, at?_quote hquote, List.append_assoc, List.singleton_append,
        quotedBody?_append hslash hbody]
      rfl
    · rw [token?, htext, String.ofList_toList]

/-! ### What follows a literal -/

/-- The lexemes do not depend on how many bytes stand before them. -/
theorem ofPieces_offset {line offset : Nat} {rest : List Char} {ps : List Piece}
    {ls : List Lexeme} (h : Lexeme.ofPieces line offset rest ps = .ok ls) (offset' : Nat) :
    Lexeme.ofPieces line offset' rest ps = .ok ls := by
  induction ps generalizing line offset offset' ls with
  | nil =>
    cases rest with
    | nil => exact h
    | cons c rest => cases h
  | cons p ps ih =>
    cases ht : p.token? with
    | none =>
      rw [Lexeme.ofPieces, ht] at h
      cases h
    | some t =>
      rw [ofPieces_cons ht] at h ⊢
      cases hrest : Lexeme.ofPieces (p.lineAfter line) (offset + p.bytes) rest ps with
      | error fault =>
        rw [hrest] at h
        cases h
      | ok ls' =>
        rw [hrest] at h
        rw [ih hrest (offset' + p.bytes)]
        exact h

theorem lexemesAfter_of_lineAfter {before before' cs : List Char} {ls : List Lexeme}
    (hline : lineAfter before = lineAfter before') (h : lexemesAfter before cs = .ok ls) :
    lexemesAfter before' cs = .ok ls := by
  rw [lexemesAfter, hline] at h
  exact ofPieces_offset h _

/-- A text literal takes up no line, so what follows it has the lexemes that it has alone. -/
theorem tokenize_literal_append {s : String} {piece : List Char} {r : String}
    (h : CutAs (.str s) piece r.toList) (ls : List Lexeme) :
    tokenize (String.ofList piece ++ r) = .ok ls ↔
      ∃ rest, tokenize r = .ok rest ∧ ls = ⟨.str s, 1⟩ :: rest := by
  have hline : lineAfter piece = lineAfter [] := h.lineAfter_eq nofun []
  obtain ⟨p, hat, rfl, htoken⟩ := h
  have hstep := lexemesAfter_piece hat htoken []
  rw [List.nil_append] at hstep
  rw [tokenize_eq, tokenize_eq, String.toList_append, String.toList_ofList, hstep]
  constructor
  · intro hls
    cases hrest : lexemesAfter p.chars r.toList with
    | error fault =>
      rw [hrest] at hls
      cases hls
    | ok rest =>
      rw [hrest] at hls
      cases hls
      exact ⟨rest, lexemesAfter_of_lineAfter hline hrest, rfl⟩
  · rintro ⟨rest, hrest, rfl⟩
    rw [lexemesAfter_of_lineAfter hline.symm hrest]
    rfl

/-! ### Spellings -/

/-- How a character can be written in a literal in these quotes. A tab can be written in two
ways. -/
inductive Spelling (quote : Char) : Char → List Char → Prop
  | lineBreak : Spelling quote '\n' ['\\', 'n']
  | tab : Spelling quote '\t' ['\\', 't']
  | backslash : Spelling quote '\\' ['\\', '\\']
  | quote : Spelling quote quote ['\\', quote]
  | raw {c : Char} (unquoted : c ≠ quote) (unescaped : c ≠ '\\') (inLine : c ≠ '\n') :
      Spelling quote c [c]

section

variable {quote : Char}

theorem exists_spelling (quote c : Char) : ∃ part, Spelling quote c part := by
  by_cases hquote : c = quote
  · subst hquote
    exact ⟨_, .quote⟩
  by_cases hslash : c = '\\'
  · subst hslash
    exact ⟨_, .backslash⟩
  by_cases hline : c = '\n'
  · subst hline
    exact ⟨_, .lineBreak⟩
  · exact ⟨_, .raw hquote hslash hline⟩

theorem exists_spellings (quote : Char) (s : List Char) :
    ∃ parts, List.Forall₂ (Spelling quote) s parts := by
  induction s with
  | nil => exact ⟨[], .nil⟩
  | cons c s ih =>
    obtain ⟨part, hpart⟩ := exists_spelling quote c
    obtain ⟨parts, hparts⟩ := ih
    exact ⟨part :: parts, .cons hpart hparts⟩

theorem Spelling.resolves (hquote : quote = '"' ∨ quote = '\'') {c : Char} {part : List Char}
    (h : Spelling quote c part) : Resolves quote part [c] := by
  cases h with
  | lineBreak => exact .escaped (by decide) .done
  | tab => exact .escaped (by decide) .done
  | backslash => exact .escaped (by decide) .done
  | quote => exact .escaped (by obtain rfl | rfl := hquote <;> decide) .done
  | raw unquoted unescaped inLine => exact .plain unquoted unescaped inLine .done

theorem resolves_spellings (hquote : quote = '"' ∨ quote = '\'') {s : List Char}
    {parts : List (List Char)} (h : List.Forall₂ (Spelling quote) s parts) :
    Resolves quote parts.flatten s := by
  induction h with
  | nil => exact .done
  | cons hpart _ ih => exact (hpart.resolves hquote).append ih

end

/-- Every text can be written between quotes of either sort, and any such literal is read as the
text and leaves what follows as it is. In every script that can be taken apart, a piece that stands
for a text is a literal, and its body has no other meaning than that text. -/
theorem every_text_has_a_literal :
    (∀ quote : Char, quote = '"' ∨ quote = '\'' → ∀ s : String,
      (∃ parts, List.Forall₂ (Spelling quote) s.toList parts) ∧
      ∀ parts, List.Forall₂ (Spelling quote) s.toList parts →
        let literal := String.ofList (quote :: (parts.flatten ++ [quote]))
        tokenize literal = .ok [⟨.str s, 1⟩, ⟨.endOfInput, 1⟩] ∧
          ∀ (r : String) (ls : List Lexeme), tokenize (literal ++ r) = .ok ls ↔
            ∃ rest, tokenize r = .ok rest ∧ ls = ⟨.str s, 1⟩ :: rest) ∧
    ∀ (source : String) (ls : List Lexeme), tokenize source = .ok ls →
      ∃ taken, Scans source.toList taken [] ∧
        ls = placed [] taken ++ [⟨.endOfInput, lineAfter source.toList⟩] ∧
        ∀ piece s, (piece, .str s) ∈ taken → ∃ quote body, (quote = '"' ∨ quote = '\'') ∧
          piece = quote :: (body ++ [quote]) ∧
          ∀ text, Resolves quote body text ↔ text = s.toList := by
  constructor
  · intro quote hquote s
    refine ⟨exists_spellings quote s.toList, ?_⟩
    intro parts hparts literal
    have hcut (r : String) : CutAs (.str s) (quote :: (parts.flatten ++ [quote])) r.toList :=
      cutAs_str_iff.2 ⟨quote, _, hquote, rfl, resolves_spellings hquote hparts⟩
    refine ⟨?_, fun r => tokenize_literal_append (hcut r)⟩
    have halone := (tokenize_literal_append (hcut "") _).2 ⟨_, rfl, rfl⟩
    rwa [String.append_empty] at halone
  · intro source ls h
    obtain ⟨taken, hscans⟩ := scans_of_tokenize h
    refine ⟨taken, hscans, Except.ok.inj (h.symm.trans (tokenize_of_scans hscans)), ?_⟩
    intro piece s hmem
    obtain ⟨rest, hcut⟩ := hscans.cutAs_of_mem hmem
    obtain ⟨quote, body, hquote, hpiece, hresolves⟩ := cutAs_str_iff.1 hcut
    refine ⟨quote, body, hquote, hpiece, fun text => ⟨fun h => ?_, fun h => h ▸ hresolves⟩⟩
    exact (resolves_iff.1 h).2.symm.trans (resolves_iff.1 hresolves).2

/-- A literal with a quote of its own sort, one of the other, a backslash and a line break in it,
and another right behind it. After a backslash `r` means nothing, so both are kept. -/
theorem adjacent_literals_are_told_apart :
    let literal := "'a\"\t\\'\\\\\\n'"
    tokenize literal = .ok [⟨.str "a\"\t'\\\n", 1⟩, ⟨.endOfInput, 1⟩] ∧
      tokenize (literal ++ "'b'\n;") = .ok [⟨.str "a\"\t'\\\n", 1⟩, ⟨.str "b", 1⟩,
        ⟨.symbol .semicolon, 2⟩, ⟨.endOfInput, 2⟩] ∧
      ∃ quote body, "'\\r\\\"'".toList = quote :: (body ++ [quote]) ∧
        ∀ text, Resolves quote body text ↔ text = ['\\', 'r', '"'] := by
  intro literal
  obtain ⟨hliteral, hmeaning⟩ := every_text_has_a_literal
  have hspelled : List.Forall₂ (Spelling '\'') "a\"\t'\\\n".toList
      [['a'], ['"'], ['\t'], ['\\', '\''], ['\\', '\\'], ['\\', 'n']] :=
    .cons (.raw (by decide) (by decide) (by decide)) <|
    .cons (.raw (by decide) (by decide) (by decide)) <|
    .cons (.raw (by decide) (by decide) (by decide)) <|
    .cons .quote <| .cons .backslash <| .cons .lineBreak .nil
  obtain ⟨halone, hbefore⟩ := (hliteral '\'' (.inr rfl) _).2 _ hspelled
  refine ⟨halone, (hbefore "'b'\n;" _).2 ⟨_, rfl, rfl⟩, ?_⟩
  have hcut : CutAs (.str "\\r\"") "'\\r\\\"'".toList [] :=
    ⟨.quoted '\'' ['\\', 'r', '\\', '"'], rfl, rfl, rfl⟩
  obtain ⟨taken, hscans, -, hresolves⟩ := hmeaning "'\\r\\\"'" _ rfl
  obtain ⟨rfl, -⟩ := (hcut.scans scans_nil).unique hscans
  obtain ⟨quote, body, -, hpiece, htext⟩ := hresolves _ _ List.mem_cons_self
  exact ⟨quote, body, hpiece, htext⟩

end Skript
