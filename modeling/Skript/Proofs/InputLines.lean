import Skript.Proofs.FullOutput
import Skript.Proofs.TextOrder
import Skript.Proofs.UnreadInput

/-!
# Input comes line by line

Each question to the user takes one line of the input, whether or not the line is what was asked
for, and the answer is the line without its line break. A line break may be a carriage return and a
line feed; a carriage return alone is part of the line, and so is all that follows the last line
break. When all lines are taken there are no answers any more. A prompt that cannot be shown is the
end of its question, before any input is touched.
-/
namespace Skript

namespace Text

/-- The lines of a text, each with the line break that ends it. What follows the last line break is a
line too, if there is anything. -/
def lines : List Char → List (List Char)
  | [] => []
  | c :: cs =>
      if c = '\n' then [c] :: lines cs
      else
        match lines cs with
        | [] => [[c]]
        | line :: rest => (c :: line) :: rest

/-- `Unbroken line cs`: without its line break, if it has one, the line is `cs`. -/
inductive Unbroken : List Char → List Char → Prop
  | crlf (cs : List Char) : Unbroken (cs ++ ['\r', '\n']) cs
  | lf (cs : List Char) : cs.getLast? ≠ some '\r' → Unbroken (cs ++ ['\n']) cs
  | unended (cs : List Char) : cs.getLast? ≠ some '\n' → Unbroken cs cs

theorem flatten_lines (cs : List Char) : (lines cs).flatten = cs := by
  induction cs with
  | nil => rfl
  | cons c cs ih =>
    rw [lines]
    split
    · rw [List.flatten_cons, ih, List.singleton_append]
    · cases hlines : lines cs with
      | nil =>
        rw [hlines] at ih
        subst ih
        rfl
      | cons line rest =>
        rw [hlines] at ih
        subst ih
        rfl

/-- The lines after the first are the lines of what follows it. -/
theorem lines_flatten_tail {cs line : List Char} {rest : List (List Char)}
    (h : lines cs = line :: rest) : lines rest.flatten = rest := by
  induction cs generalizing line with
  | nil => cases h
  | cons c cs ih =>
    rw [lines] at h
    split at h
    · cases h
      rw [flatten_lines]
    · cases hlines : lines cs with
      | nil =>
        rw [hlines] at h
        cases h
        rfl
      | cons next others =>
        rw [hlines] at h
        cases h
        exact ih hlines

theorem lines_tail (cs : List Char) : lines (lines cs).tail.flatten = (lines cs).tail := by
  cases h : lines cs with
  | nil => rfl
  | cons line rest => exact lines_flatten_tail h

end Text

namespace Console

theorem unbroken_dropLineBreak (line : List Char) : Text.Unbroken line (dropLineBreak line) := by
  have hlast : line.getLast? = line.reverse.head? := (List.head?_reverse).symm
  obtain ⟨cs, rfl⟩ : ∃ cs : List Char, line = cs.reverse := ⟨line.reverse, line.reverse_reverse.symm⟩
  rw [List.reverse_reverse] at hlast
  unfold dropLineBreak
  rw [List.reverse_reverse]
  split
  · next cs =>
    rw [List.reverse_cons, List.reverse_cons, List.append_assoc]
    exact .crlf cs.reverse
  · next cs hcrlf =>
    rw [List.reverse_cons]
    refine .lf cs.reverse fun hcr => ?_
    rw [List.getLast?_reverse] at hcr
    cases cs with
    | nil => cases hcr
    | cons c cs =>
      cases hcr
      exact hcrlf cs rfl
  · next hbreak =>
    refine .unended _ fun hlf => ?_
    rw [hlast] at hlf
    cases cs with
    | nil => cases hlf
    | cons c cs =>
      cases hlf
      exact hbreak cs rfl

/-! ### Lines in bytes -/

theorem le_of_mem_spread {mark k n b : Nat} (hmark : 128 ≤ mark) (h : b ∈ Utf8.spread mark k n) :
    128 ≤ b := by
  induction k generalizing n with
  | zero =>
    rw [Utf8.spread, List.mem_singleton] at h
    omega
  | succ k ih =>
    rw [Utf8.spread, List.mem_append, List.mem_singleton] at h
    obtain h | h := h
    · exact ih h
    · omega

/-- Only a code point of one byte has a byte below 128, and that is the code point itself. -/
theorem eq_of_mem_units {n b : Nat} (h : b ∈ Utf8.units n) (hb : b < 128) : b = n := by
  rw [Utf8.units] at h
  cases hfollowing : Utf8.following n with
  | zero =>
    rw [hfollowing, Utf8.mark, Utf8.spread, List.mem_singleton] at h
    omega
  | succ k =>
    rw [hfollowing] at h
    have hmark : 128 ≤ Utf8.mark (k + 1) := by
      unfold Utf8.mark
      split <;> omega
    have hle := le_of_mem_spread hmark h
    omega

theorem lineBreak_not_mem_utf8EncodeChar {c : Char} (hc : c ≠ '\n') :
    lineBreak ∉ String.utf8EncodeChar c := by
  intro h
  have hunit : (10 : Nat) ∈ Utf8.units c.toNat := by
    rw [← Utf8.map_utf8EncodeChar]
    exact List.mem_map_of_mem h
  have hten : c.toNat = '\n'.toNat := (eq_of_mem_units hunit (by decide)).symm
  exact hc (Char.toNat_inj.1 hten)

theorem splitLine_append_left {bytes : List UInt8} (h : lineBreak ∉ bytes) (more : List UInt8) :
    splitLine (bytes ++ more) = (bytes ++ (splitLine more).1, (splitLine more).2) := by
  induction bytes with
  | nil => rfl
  | cons b bs ih =>
    have hb : b ≠ lineBreak := (List.ne_of_not_mem_cons h).symm
    rw [List.cons_append, splitLine, if_neg hb, ih (List.not_mem_of_not_mem_cons h)]
    rfl

@[simp] theorem encode_ofList (cs : List Char) :
    encode (String.ofList cs) = cs.flatMap String.utf8EncodeChar := by
  rw [Utf8.encode_eq_flatMap, String.toList_ofList]

/-- The first line in bytes is the first line of the text in bytes. -/
theorem splitLine_encode {cs line : List Char} {rest : List (List Char)}
    (h : Text.lines cs = line :: rest) :
    splitLine (encode (String.ofList cs)) =
      (encode (String.ofList line), encode (String.ofList rest.flatten)) := by
  simp only [encode_ofList]
  induction cs generalizing line with
  | nil => cases h
  | cons c cs ih =>
    rw [Text.lines] at h
    rw [List.flatMap_cons]
    split at h
    · next hc =>
      subst hc
      cases h
      rw [Text.flatten_lines]
      rfl
    · next hc =>
      rw [splitLine_append_left (lineBreak_not_mem_utf8EncodeChar hc)]
      cases hlines : Text.lines cs with
      | nil =>
        have hcs := Text.flatten_lines cs
        rw [hlines] at h hcs
        subst hcs
        cases h
        rfl
      | cons next others =>
        rw [hlines] at h
        cases h
        rw [ih hlines, List.flatMap_cons]

theorem fromUTF8?_encode (s : String) : String.fromUTF8? ⟨(encode s).toArray⟩ = some s :=
  dif_pos s.isValidUTF8

/-- The console with this text to read. -/
def reading (c : Console) (cs : List Char) : Console :=
  { c with input := encode (String.ofList cs) }

theorem readLine_of_lines (c : Console) {cs line : List Char} {rest : List (List Char)}
    (h : Text.lines cs = line :: rest) :
    (c.reading cs).readLine = (.ok (String.ofList (dropLineBreak line)), c.reading rest.flatten) := by
  have hempty : (encode (String.ofList cs)).isEmpty = false := by
    cases cs with
    | nil => cases h
    | cons a cs =>
      obtain ⟨b, hb⟩ := List.exists_mem_of_length_pos
        (Nat.lt_of_lt_of_eq a.utf8Size_pos (String.length_utf8EncodeChar a).symm)
      rw [encode_ofList, List.flatMap_cons, List.isEmpty_eq_false_iff_exists_mem]
      exact ⟨b, List.mem_append_left _ hb⟩
  simp only [readLine, reading, hempty, splitLine_encode h, fromUTF8?_encode, String.toList_ofList]
  rfl

/-! ### Prompts -/

@[simp] theorem extended_nil (c : Console) : c.extended [] = c := by
  simp [extended]

theorem extended_append (c : Console) (bytes more : List UInt8) :
    c.extended (bytes ++ more) = (c.extended bytes).extended more := by
  have houtput : c.output ++ (bytes ++ more) = c.output ++ bytes ++ more := Array.ext' (by simp)
  rw [extended, houtput]
  rfl

/-- The output has room for all these bytes and can be flushed. -/
structure Accepts (c : Console) (bytes : List UInt8) : Prop where
  room : ∀ limit, c.capacity = some limit → bytes.length ≤ limit - c.output.size
  flushes : c.flushable = true

theorem Accepts.left {c : Console} {bytes more : List UInt8} (h : c.Accepts (bytes ++ more)) :
    c.Accepts bytes := by
  refine ⟨fun limit hlimit => ?_, h.flushes⟩
  have hroom := h.room limit hlimit
  rw [List.length_append] at hroom
  omega

theorem Accepts.right {c : Console} {bytes more : List UInt8} (h : c.Accepts (bytes ++ more)) :
    (c.extended bytes).Accepts more := by
  refine ⟨fun limit hlimit => ?_, h.flushes⟩
  have hroom := h.room limit hlimit
  have hsize : (c.extended bytes).output.size = c.output.size + bytes.length := by
    have hlength := congrArg List.length (written_extended c bytes)
    rwa [List.length_append] at hlength
  rw [List.length_append] at hroom
  omega

theorem write_of_room {c : Console} {bytes : List UInt8}
    (h : ∀ limit, c.capacity = some limit → bytes.length ≤ limit - c.output.size) :
    c.write bytes = (.ok (), c.extended bytes) := by
  obtain ⟨input, output, capacity, flushable⟩ := c
  cases capacity with
  | none => rfl
  | some limit => exact if_pos (h limit rfl)

theorem write_of_full {c : Console} {bytes : List UInt8} {limit : Nat}
    (hcapacity : c.capacity = some limit) (hfull : ¬ bytes.length ≤ limit - c.output.size) :
    ∃ d, c.write bytes = (.error (.console .sinkFull), d) := by
  obtain ⟨input, output, capacity, flushable⟩ := c
  cases hcapacity
  exact ⟨_, if_neg hfull⟩

theorem prompt_of_accepts {c : Console} {s : String} (h : c.Accepts (encode s)) :
    c.prompt s = (.ok (), c.extended (encode s)) := by
  rw [prompt_of_written (write_of_room h.room)]
  exact congrArg (·, _) (if_pos h.flushes)

theorem prompt_of_refused {c : Console} {s : String} (h : ¬ c.Accepts (encode s)) :
    ∃ trouble, (c.prompt s).1 = .error (.console trouble) := by
  by_cases hroom : ∀ limit, c.capacity = some limit → (encode s).length ≤ limit - c.output.size
  · have hflush : c.flushable ≠ true := fun hflush => h ⟨hroom, hflush⟩
    rw [prompt_of_written (write_of_room hroom)]
    exact ⟨.flushRefused, if_neg hflush⟩
  · obtain ⟨limit, hlimit⟩ := Classical.not_forall.1 hroom
    obtain ⟨hcapacity, hfull⟩ := Classical.not_imp.1 hlimit
    obtain ⟨d, hwrite⟩ := write_of_full hcapacity hfull
    exact ⟨.sinkFull, by rw [prompt_of_not_written hwrite]⟩

end Console

/-! ### Questions -/

/-- A call for input: what is shown first, the wanted kind and the line of faults. -/
structure Question where
  prompt : Option String
  kind : Option Kind
  line : Nat

namespace Question

/-- The bytes that the question shows. -/
def shown (q : Question) : List UInt8 :=
  (q.prompt.map Console.encode).getD []

/-- The answer, if the line is the next one or there is none left. -/
inductive Answered (q : Question) : Option (List Char) → Except RunFault Value → Prop
  | line {line cs : List Char} : Text.Unbroken line cs →
      Answered q (some line) ((Value.ofInput q.kind (String.ofList cs)).mapError (⟨·, q.line⟩))
  | exhausted : Answered q none (.error ⟨.inputUnavailable, q.line⟩)

end Question

namespace Exec

def ask (q : Question) : Exec Value :=
  input q.prompt q.kind q.line

/-- The computation with its fault as a result. -/
def attempt {α : Type} (x : Exec α) : Exec (Except RunFault α) := ⟨fun m =>
  match x.run m with
  | .finished result after => .finished (.ok result) after
  | .outOfFuel => .outOfFuel⟩

/-- Asks one question after the other, whether or not they are answered. -/
def askAll (qs : List Question) : Exec (List (Except RunFault Value)) :=
  collect (fun q => attempt (ask q)) qs

theorem run_showPrompt {q : Question} {c : Console} (h : c.Accepts q.shown) (m : Machine) :
    (showPrompt q.prompt q.line).run (m.withConsole c) =
      .finished (.ok ()) (m.withConsole (c.extended q.shown)) := by
  obtain ⟨prompt, kind, line⟩ := q
  cases prompt with
  | none =>
    show Outcome.finished _ (m.withConsole c) = .finished _ (m.withConsole (c.extended []))
    rw [Console.extended_nil]
  | some s =>
    have hrun := run_onConsole line (Console.prompt s) m c
    rw [Console.prompt_of_accepts h] at hrun
    exact hrun

/-- A question that can be shown takes the next line, if there is one. -/
theorem run_ask {q : Question} {c : Console} (h : c.Accepts q.shown) (cs : List Char)
    (m : Machine) :
    ∃ result, q.Answered (Text.lines cs).head? result ∧
      (ask q).run (m.withConsole (c.reading cs)) = .finished result
        (m.withConsole ((c.extended q.shown).reading (Text.lines cs).tail.flatten)) := by
  have hshown := run_showPrompt (c := c.reading cs) ⟨h.room, h.flushes⟩ m
  have hread := run_onConsole q.line Console.readLine m ((c.extended q.shown).reading cs)
  rw [ask, input, run_bind, hshown]
  show ∃ result, _ ∧ (onConsole q.line Console.readLine >>= fun raw =>
    ofExcept q.line (Value.ofInput q.kind raw)).run
      (m.withConsole ((c.extended q.shown).reading cs)) = _
  rw [run_bind, hread]
  cases hlines : Text.lines cs with
  | nil =>
    have hcs := Text.flatten_lines cs
    rw [hlines] at hcs
    subst hcs
    exact ⟨_, .exhausted, rfl⟩
  | cons line rest =>
    refine ⟨_, .line (Console.unbroken_dropLineBreak line), ?_⟩
    rw [Console.readLine_of_lines _ hlines]
    dsimp only [Except.mapError]
    cases Value.ofInput q.kind (String.ofList (Console.dropLineBreak line)) <;> rfl

theorem run_attempt {α : Type} {x : Exec α} {m after : Machine} {result : Except RunFault α}
    (h : x.run m = .finished result after) : (attempt x).run m = .finished (.ok result) after := by
  simp only [attempt, h]

/-- Each question takes a line, and what it shows comes after what was shown before. -/
theorem run_askAll (qs : List Question) {c : Console} (h : c.Accepts (qs.flatMap Question.shown))
    (cs : List Char) (m : Machine) :
    ∃ results : List (Except RunFault Value), results.length = qs.length ∧
      (∀ (k : Nat) (q : Question), qs[k]? = some q → ∃ result, results[k]? = some result ∧
        q.Answered (Text.lines cs)[k]? result) ∧
      (askAll qs).run (m.withConsole (c.reading cs)) = .finished (.ok results)
        (m.withConsole ((c.extended (qs.flatMap Question.shown)).reading
          ((Text.lines cs).drop qs.length).flatten)) := by
  induction qs generalizing c cs with
  | nil =>
    refine ⟨[], rfl, by simp, ?_⟩
    rw [List.length_nil, List.drop_zero, Text.flatten_lines, List.flatMap_nil, Console.extended_nil]
    rfl
  | cons q qs ih =>
    rw [List.flatMap_cons] at h ⊢
    obtain ⟨result, hanswer, hask⟩ := run_ask h.left cs m
    obtain ⟨results, hlength, hanswers, hrun⟩ := ih h.right (Text.lines cs).tail.flatten
    rw [Text.lines_tail] at hanswers hrun
    refine ⟨result :: results, congrArg (· + 1) hlength, ?_, ?_⟩
    · rintro (_ | k) q' hq'
      · cases hq'
        refine ⟨result, rfl, ?_⟩
        rwa [← List.head?_eq_getElem?]
      · obtain ⟨result', hresult', hanswer'⟩ := hanswers k q' hq'
        refine ⟨result', hresult', ?_⟩
        rwa [List.getElem?_tail] at hanswer'
    · rw [askAll, collect, run_bind, run_attempt hask]
      dsimp only
      rw [run_bind, show collect _ qs = askAll qs from rfl, hrun, Console.extended_append,
        List.length_cons, ← List.drop_one, List.drop_drop, Nat.add_comm]
      rfl

/-- A prompt that is refused ends the question. -/
theorem run_ask_of_refused {q : Question} {s : String} (hq : q.prompt = some s) {m : Machine}
    (h : ¬ m.console.Accepts (Console.encode s)) :
    ∃ trouble output, (ask q).run m = .finished (.error ⟨.console trouble, q.line⟩)
      (m.withConsole { m.console with output := output }) := by
  obtain ⟨trouble, htrouble⟩ := Console.prompt_of_refused h
  obtain ⟨result, output, hprompt⟩ := Console.onlyWrites_prompt s m.console
  have hrefused : m.console.prompt s = (result, { m.console with output := output }) :=
    hprompt m.console.input
  rw [hrefused] at htrouble
  have hrun := run_onConsole q.line (Console.prompt s) m m.console
  rw [hrefused, show result = _ from htrouble] at hrun
  refine ⟨trouble, output, ?_⟩
  rw [ask, input, hq, run_bind, showPrompt, show m = m.withConsole m.console from rfl, hrun]
  rfl

end Exec

/-- Questions are answered by the lines of the input in order, one line for each question whatever
comes of it, as long as the prompts can be shown, which is always so where the output has no limit and
can be flushed. When all lines are taken, no question is answered any more. A question whose prompt
cannot be shown fails and takes nothing. -/
theorem input_is_read_line_by_line :
    (∀ (text : String) (qs : List Question) (m : Machine),
      m.console.input = Console.encode text →
      m.console.Accepts (qs.flatMap Question.shown) →
      ∃ results : List (Except RunFault Value), results.length = qs.length ∧
        (∀ (k : Nat) (q : Question), qs[k]? = some q → ∃ result, results[k]? = some result ∧
          q.Answered (Text.lines text.toList)[k]? result) ∧
        (Exec.askAll qs).run m = .finished (.ok results)
          (m.withConsole ((m.console.extended (qs.flatMap Question.shown)).reading
            ((Text.lines text.toList).drop qs.length).flatten))) ∧
    ∀ (q : Question) (s : String) (m : Machine), q.prompt = some s →
      ¬ m.console.Accepts (Console.encode s) →
      ∃ trouble output, (Exec.ask q).run m = .finished (.error ⟨.console trouble, q.line⟩)
        (m.withConsole { m.console with output := output }) := by
  refine ⟨fun text qs m hinput hprompt => ?_, fun q s m hq h => Exec.run_ask_of_refused hq h⟩
  have hm : m.withConsole (m.console.reading text.toList) = m := by
    rw [Console.reading, String.ofList_toList, ← hinput]
    rfl
  have hrun := Exec.run_askAll qs hprompt text.toList m
  rwa [hm] at hrun

/-- Four questions and three lines: one that is no integer, an empty one, and one that ends in a
carriage return and not in a line break. In an output without room the first question takes none. -/
theorem fourth_question_finds_no_line :
    let qs : List Question := [⟨some "n? ", some .num, 1⟩, ⟨none, none, 2⟩, ⟨some "? ", some .str, 3⟩,
      ⟨none, some .bool, 4⟩]
    let m : Machine := { console := { input := Console.encode "a\r\n\nb\r" } }
    let full : Machine := { console := { input := Console.encode "a\r\n\nb\r", capacity := some 2 } }
    m.console.Accepts (qs.flatMap Question.shown) ∧
    (∃ after, (Exec.askAll qs).run m = .finished (.ok [
        .error ⟨.conversion (.notOfKind "a" .num), 1⟩, .ok (.str ""), .ok (.str "b\r"),
        .error ⟨.inputUnavailable, 4⟩]) after ∧ after.console.input = []) ∧
    ¬ full.console.Accepts (Console.encode "n? ") ∧
    ∃ trouble output, (Exec.ask ⟨some "n? ", some .num, 1⟩).run full =
      .finished (.error ⟨.console trouble, 1⟩)
        (full.withConsole { full.console with output := output }) := by
  intro qs m full
  have haccepts : m.console.Accepts (qs.flatMap Question.shown) := ⟨nofun, rfl⟩
  have hrefused : ¬ full.console.Accepts (Console.encode "n? ") := by
    intro h
    have hroom : (Console.encode "n? ").length ≤ 2 - 0 := h.room 2 rfl
    revert hroom
    decide
  obtain ⟨results, -, -, hrun⟩ :=
    input_is_read_line_by_line.1 "a\r\n\nb\r" qs m rfl haccepts
  have hresults : results = [.error ⟨.conversion (.notOfKind "a" .num), 1⟩, .ok (.str ""),
      .ok (.str "b\r"), .error ⟨.inputUnavailable, 4⟩] := by
    have hanswers : ∃ after, (Exec.askAll qs).run m = .finished (.ok [
        .error ⟨.conversion (.notOfKind "a" .num), 1⟩, .ok (.str ""), .ok (.str "b\r"),
        .error ⟨.inputUnavailable, 4⟩]) after := ⟨_, rfl⟩
    obtain ⟨after, hafter⟩ := hanswers
    rw [hrun] at hafter
    injection hafter with hsame
    injection hsame
  refine ⟨haccepts, ⟨_, hresults ▸ hrun, by decide⟩, hrefused, ?_⟩
  exact input_is_read_line_by_line.2 ⟨some "n? ", some .num, 1⟩ "n? " full rfl hrefused

end Skript
