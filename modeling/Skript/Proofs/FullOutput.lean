import Skript.Proofs.ConsoleUse
import Skript.Proofs.Ending

/-!
# A full output

A limit on the output only shows when it is met. As long as there is room for all that a program
writes, it runs as it would without a limit. Otherwise it fails with the first text that does not
fit, and nothing is written after that: the output holds what a run without a limit writes first,
cut off at the very byte, be it within a character, between a value and its line break or in a
prompt.
-/
namespace Skript

variable {α β : Type}

namespace Console

/-- The bytes that were written, in order. -/
def written (c : Console) : List UInt8 :=
  c.output.toList

/-- The console with an output that can hold `most` bytes in all. -/
def limited (c : Console) (most : Nat) : Console :=
  { c with capacity := some most }

/-- The console with further bytes in its output. -/
def extended (c : Console) (bytes : List UInt8) : Console :=
  { c with output := c.output ++ bytes }

@[simp] theorem written_limited (c : Console) (most : Nat) : (c.limited most).written = c.written :=
  rfl

@[simp] theorem written_extended (c : Console) (bytes : List UInt8) :
    (c.extended bytes).written = c.written ++ bytes := by
  simp [extended, written]

theorem write_unlimited {c : Console} (hc : c.capacity = none) (bytes : List UInt8) :
    c.write bytes = (.ok (), c.extended bytes) := by
  simp only [write, hc, extended]

theorem write_limited (c : Console) (bytes : List UInt8) (most : Nat) :
    (c.limited most).write bytes =
      if bytes.length ≤ most - c.written.length then (.ok (), (c.extended bytes).limited most)
      else (.error (.console .sinkFull),
        (c.extended (bytes.take (most - c.written.length))).limited most) :=
  rfl

/-- How an action on a console without a limit shows on the consoles that have one. -/
structure Fills (action : Console → Except RunCause α × Console) (c : Console) : Prop where
  unlimited : (action c).2.capacity = none
  grows : c.written <+: (action c).2.written
  fits : ∀ most, (action c).2.written.length ≤ most →
    action (c.limited most) = ((action c).1, (action c).2.limited most)
  cut : ∀ most, c.written.length ≤ most → most < (action c).2.written.length →
    ∃ last, action (c.limited most) = (.error (.console .sinkFull), last) ∧
      last.written = (action c).2.written.take most

theorem fills_write {c : Console} (hc : c.capacity = none) (bytes : List UInt8) :
    Fills (write bytes) c := by
  have hwrite := write_unlimited hc bytes
  refine ⟨?_, ?_, fun most hmost => ?_, fun most hm hmost => ?_⟩
  · rw [hwrite]
    exact hc
  · rw [hwrite, written_extended]
    exact List.prefix_append _ _
  · rw [hwrite, written_extended, List.length_append] at hmost
    rw [hwrite, write_limited, if_pos (by omega)]
  · rw [hwrite, written_extended] at hmost ⊢
    rw [List.length_append] at hmost
    refine ⟨_, by rw [write_limited, if_neg (by omega)], ?_⟩
    rw [written_limited, written_extended, List.take_append, List.take_of_length_le hm]

/-- Flushing, which a prompt does when it has been written, adds nothing to the output. -/
theorem fills_prompt {c : Console} (hc : c.capacity = none) (s : String) : Fills (prompt s) c := by
  have hwrite := write_unlimited hc (encode s)
  have hprompt := prompt_of_written hwrite
  have hfills := fills_write hc (encode s)
  refine ⟨?_, ?_, fun most hmost => ?_, fun most hm hmost => ?_⟩
  · rw [hprompt]
    exact hc
  · rw [hprompt, written_extended]
    exact List.prefix_append _ _
  · have hfits := hfills.fits most
    rw [hwrite] at hfits
    rw [hprompt] at hmost ⊢
    exact prompt_of_written (hfits hmost)
  · have hcut := hfills.cut most hm
    rw [hwrite] at hcut
    rw [hprompt] at hmost ⊢
    obtain ⟨last, hlast, hwritten⟩ := hcut hmost
    exact ⟨last, prompt_of_not_written hlast, hwritten⟩

/-- Reading depends on the input alone, and changes nothing else. -/
theorem readLine_of_input (input : List UInt8) :
    ∃ result rest, ∀ c : Console, c.input = input →
      readLine c = (result, { c with input := rest }) := by
  cases input with
  | nil =>
    refine ⟨.error .inputUnavailable, [], fun c h => ?_⟩
    obtain ⟨_, _, _, _⟩ := c
    cases h
    rfl
  | cons b bs =>
    cases htext : String.fromUTF8? ⟨(splitLine (b :: bs)).1.toArray⟩ with
    | none => exact ⟨_, _, fun c h => by simp only [readLine, h, List.isEmpty, htext]; rfl⟩
    | some s => exact ⟨_, _, fun c h => by simp only [readLine, h, List.isEmpty, htext]; rfl⟩

theorem fills_readLine {c : Console} (hc : c.capacity = none) : Fills readLine c := by
  obtain ⟨result, rest, hread⟩ := readLine_of_input c.input
  have hc' := hread c rfl
  refine ⟨?_, ?_, fun most _ => ?_, fun most hm hmost => ?_⟩
  · rw [hc']
    exact hc
  · rw [hc']
    exact List.prefix_rfl
  · rw [hread (c.limited most) rfl, hc']
    rfl
  · rw [hc'] at hmost
    exact absurd hmost (Nat.not_lt.2 hm)

end Console

namespace Machine

/-- The bytes that were written, in order. -/
def written (m : Machine) : List UInt8 :=
  m.console.written

/-- The machine with an output that can hold `most` bytes in all. -/
def limited (m : Machine) (most : Nat) : Machine :=
  m.withConsole (m.console.limited most)

end Machine

namespace Exec

/-- How a run without a limit on the output, from `m` to `after`, shows where there is one: with
enough room it is the same run, and otherwise the output fills up and the run fails. -/
structure Fills (x : Exec α) (m : Machine) (result : Except RunFault α) (after : Machine) :
    Prop where
  unlimited : after.console.capacity = none
  grows : m.written <+: after.written
  fits : ∀ most, after.written.length ≤ most →
    x.run (m.limited most) = .finished result (after.limited most)
  cut : ∀ most, m.written.length ≤ most → most < after.written.length →
    ∃ line last, x.run (m.limited most) = .finished (.error ⟨.console .sinkFull, line⟩) last ∧
      last.written = after.written.take most

/-- All runs without a limit on the output show in this way. -/
def FillsOutput (x : Exec α) : Prop :=
  ∀ {m result after}, m.console.capacity = none → x.run m = .finished result after →
    Fills x m result after

theorem FillsOutput.of_silent {x : Exec α} (hx : Silent x) : FillsOutput x := by
  intro m result after hm h
  have hconsole : after.console = m.console := hx.console_eq h
  have hwritten : after.written = m.written := by rw [Machine.written, hconsole, Machine.written]
  refine ⟨?_, ?_, fun most _ => ?_, fun most hle hlt => ?_⟩
  · rw [hconsole]
    exact hm
  · exact ⟨[], by rw [List.append_nil, hwritten]⟩
  · rw [Machine.limited, hx.run_eq h, Machine.limited, hconsole]
  · rw [hwritten] at hlt
    omega

theorem FillsOutput.of_console {action : Console → Except RunCause α × Console}
    (h : ∀ {c : Console}, c.capacity = none → Console.Fills action c) (line : Nat) :
    FillsOutput (onConsole line action) := by
  intro m result after hm hrun
  obtain ⟨unlimited, grows, fits, cut⟩ := h hm
  cases hrun
  refine ⟨unlimited, grows, fun most hmost => ?_, fun most hle hlt => ?_⟩
  · rw [Machine.limited, run_onConsole, fits most hmost]
    rfl
  · obtain ⟨last, hcut, hlast⟩ := cut most hle hlt
    refine ⟨line, m.withConsole last, ?_, hlast⟩
    rw [Machine.limited, run_onConsole, hcut]
    rfl

theorem Fills.bind_error {x : Exec α} {f : α → Exec β} {m after : Machine} {fault : RunFault}
    (hx : Fills x m (.error fault) after) : Fills (x >>= f) m (.error fault) after where
  unlimited := hx.unlimited
  grows := hx.grows
  fits most hmost := by rw [run_bind, hx.fits most hmost]
  cut most hle hlt := by
    obtain ⟨line, last, hrun, hlast⟩ := hx.cut most hle hlt
    exact ⟨line, last, by rw [run_bind, hrun], hlast⟩

/-- If the output is full before the first computation ends, the second one is not begun. -/
theorem Fills.bind_ok {x : Exec α} {f : α → Exec β} {m middle after : Machine} {a : α}
    {result : Except RunFault β} (hx : Fills x m (.ok a) middle)
    (hf : Fills (f a) middle result after) : Fills (x >>= f) m result after where
  unlimited := hf.unlimited
  grows := hx.grows.trans hf.grows
  fits most hmost := by
    have hmiddle := hx.fits most (Nat.le_trans hf.grows.length_le hmost)
    rw [run_bind, hmiddle]
    exact hf.fits most hmost
  cut most hle hlt := by
    -- The output fills up in the second part, or before the first one has ended.
    by_cases hmiddle : middle.written.length ≤ most
    · obtain ⟨line, last, hrun, hlast⟩ := hf.cut most hmiddle hlt
      refine ⟨line, last, ?_, hlast⟩
      rw [run_bind, hx.fits most hmiddle]
      exact hrun
    · obtain ⟨line, last, hrun, hlast⟩ := hx.cut most hle (by omega)
      refine ⟨line, last, by rw [run_bind, hrun], ?_⟩
      obtain ⟨rest, hrest⟩ := hf.grows
      rw [hlast, ← hrest, List.take_append_of_le_length (by omega)]

theorem FillsOutput.bind {x : Exec α} {f : α → Exec β} (hx : FillsOutput x)
    (hf : ∀ a, FillsOutput (f a)) : FillsOutput (x >>= f) := by
  intro m result after hm h
  obtain ⟨fault, hfirst, rfl⟩ | ⟨a, middle, hfirst, hsecond⟩ := finished_of_bind h
  · exact (hx hm hfirst).bind_error
  · have hfills := hx hm hfirst
    exact hfills.bind_ok (hf a hfills.unlimited hsecond)

theorem FillsOutput.inCall {x : Exec α} (locals : Environment) (hx : FillsOutput x) :
    FillsOutput (inCall locals x) := by
  intro m result after hm h
  obtain ⟨inner, hbody, rfl⟩ := finished_of_inCall h
  -- Entering and leaving a call have nothing to do with the console, so both pass by `rfl`.
  obtain ⟨unlimited, grows, fits, cut⟩ := hx (m := m.enter locals) hm hbody
  refine ⟨unlimited, grows, fun most hmost => ?_, fun most hle hlt => ?_⟩
  · have hfits : x.run ((m.limited most).enter locals) = _ := fits most hmost
    rw [run_inCall, hfits]
    rfl
  · obtain ⟨line, last, hcut, hlast⟩ := cut most hle hlt
    have hfull : x.run ((m.limited most).enter locals) = _ := hcut
    exact ⟨line, (m.limited most).leave last, by rw [run_inCall, hfull], hlast⟩

theorem closed_fillsOutput : Closed @FillsOutput where
  silent := FillsOutput.of_silent
  bind := FillsOutput.bind
  inCall := FillsOutput.inCall
  print _ line := FillsOutput.of_console (fun hc => Console.fills_write hc _) line
  prompt s line := FillsOutput.of_console (fun hc => Console.fills_prompt hc s) line
  readLine line := FillsOutput.of_console Console.fills_readLine line

end Exec

/-- Let a program that may write as much as it likes write the bytes `w`. With room for `room` bytes
it does the same, if these suffice. Otherwise it fails because the output is full, which then
holds the first `room` bytes of `w`. -/
theorem full_output_cuts_off_what_is_written (limit : Option Nat) (ss : List Statement)
    {m after : Machine} {result : Except RunFault (Option Value)}
    (hm : m.console.capacity = none)
    (h : Exec.Ends (fun n => executeAll limit n ss) m result after) :
    ∃ w, after.written = m.written ++ w ∧
      ∀ room, let most := m.written.length + room
        (w.length ≤ room →
          Exec.Ends (fun n => executeAll limit n ss) (m.limited most) result
            (after.limited most)) ∧
        (room < w.length → ∃ line last,
          Exec.Ends (fun n => executeAll limit n ss) (m.limited most)
            (.error ⟨.console .sinkFull, line⟩) last ∧
          last.written = m.written ++ w.take room) := by
  obtain ⟨n, hn⟩ := h
  have hfills := Exec.closed_fillsOutput.executeAll limit n ss hm hn
  obtain ⟨w, hw⟩ := hfills.grows
  have hlength : after.written.length = m.written.length + w.length := by
    rw [← hw, List.length_append]
  refine ⟨w, hw.symm, fun room => ⟨fun hroom => ?_, fun hroom => ?_⟩⟩
  · exact ⟨n, hfills.fits _ (by omega)⟩
  · obtain ⟨line, last, hrun, hlast⟩ := hfills.cut (m.written.length + room) (by omega) (by omega)
    refine ⟨line, last, ⟨n, hrun⟩, ?_⟩
    rw [hlast, ← hw, List.take_length_add_append]

/-- A function that is called prints a letter of two bytes. There is room for one of them. -/
theorem letter_is_cut_off_within_a_call :
    let f : Definition := ⟨"f", [], [.print (.literal (.str "é") 2) 2], 1⟩
    let m : Machine := { functions := (∅ : FunctionTable).insert "f" f }
    let program : List Statement :=
      [.expr (.call "f" [] 4) 4, .print (.literal (.str "e") 5) 5]
    m.console.capacity = none ∧
    (∃ result after, Exec.Ends (fun n => executeAll none n program) m result after ∧
      after.written = [195, 169, 10, 101, 10]) ∧
    ∃ line last, Exec.Ends (fun n => executeAll none n program) (m.limited 1)
      (.error ⟨.console .sinkFull, line⟩) last ∧ last.written = [195] := by
  intro f m program
  have hends : ∃ result after, Exec.Ends (fun n => executeAll none n program) m result after ∧
      after.written = [195, 169, 10, 101, 10] := ⟨_, _, ⟨8, rfl⟩, by decide⟩
  refine ⟨rfl, hends, ?_⟩
  obtain ⟨result, after, hafter, hwritten⟩ := hends
  obtain ⟨w, hw, hroom⟩ := full_output_cuts_off_what_is_written none program rfl hafter
  have hw' : w = [195, 169, 10, 101, 10] := hw.symm.trans hwritten
  obtain ⟨line, last, hlast, hfirst⟩ := (hroom 1).2 (by rw [hw']; decide)
  exact ⟨line, last, hlast, by rw [hfirst, hw']; rfl⟩

end Skript
