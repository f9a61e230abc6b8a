import Skript.Proofs.ConsoleUse
import Skript.Proofs.Ending

/-!
# Unread input

A program takes its input line by line and never looks ahead. If the input consists of whole lines
and the program does not ask for more of them than there are, it does the same on an input that goes
on, whatever comes there, and leaves all of that unread.
-/
namespace Skript

variable {α : Type}

namespace Console

/-- There are no bytes after the last line break. -/
def WholeLines (bytes : List UInt8) : Prop :=
  bytes = [] ∨ bytes.getLast? = some lineBreak

/-- The console with further bytes to read, after those that it has. -/
def appendInput (c : Console) (more : List UInt8) : Console :=
  { c with input := c.input ++ more }

theorem WholeLines.lineBreak_mem {bytes : List UInt8} (h : WholeLines bytes) (hne : bytes ≠ []) :
    lineBreak ∈ bytes :=
  List.mem_of_getLast? (h.resolve_left hne)

theorem splitLine_append_right {bytes : List UInt8} (h : lineBreak ∈ bytes) (more : List UInt8) :
    splitLine (bytes ++ more) = ((splitLine bytes).1, (splitLine bytes).2 ++ more) := by
  induction bytes with
  | nil => cases h
  | cons b bs ih =>
    by_cases hb : b = lineBreak
    · simp [splitLine, hb]
    · have hbs : lineBreak ∈ bs := by simpa [Ne.symm hb] using h
      simp [splitLine, hb, ih hbs]

theorem WholeLines.rest {bytes : List UInt8} (h : WholeLines bytes) :
    WholeLines (splitLine bytes).2 := by
  by_cases hrest : (splitLine bytes).2 = []
  · exact .inl hrest
  · -- Lines are taken from the front, so what is left of the bytes ends as they all did.
    refine .inr ?_
    have hne : bytes ≠ [] := by
      rintro rfl
      exact hrest rfl
    have hlast := h.resolve_left hne
    rw [← splitLine_append bytes, List.getLast?_append_of_ne_nil _ hrest] at hlast
    exact hlast

/-- The action does the same where more can be read, and leaves whole lines. -/
structure LeavesRest (action : Console → Except RunCause α × Console) (c : Console)
    (more : List UInt8) : Prop where
  same : action (c.appendInput more) = ((action c).1, (action c).2.appendInput more)
  whole : WholeLines (action c).2.input

/-- Whatever there is to read, the action does the same to the output and leaves the input alone. -/
def OnlyWrites (action : Console → Except RunCause α × Console) : Prop :=
  ∀ c : Console, ∃ result output, ∀ input,
    action { c with input := input } = (result, { c with input := input, output := output })

theorem onlyWrites_write (bytes : List UInt8) : OnlyWrites (write bytes) := by
  rintro ⟨_, output, capacity, flushable⟩
  cases capacity with
  | none => exact ⟨.ok (), output ++ bytes, fun _ => rfl⟩
  | some limit =>
    by_cases hroom : bytes.length ≤ limit - output.size
    · exact ⟨.ok (), output ++ bytes, fun _ => if_pos hroom⟩
    · exact ⟨.error (.console .sinkFull), output ++ bytes.take (limit - output.size),
        fun _ => if_neg hroom⟩

theorem onlyWrites_prompt (s : String) : OnlyWrites (prompt s) := by
  intro c
  obtain ⟨result, output, hwrite⟩ := onlyWrites_write (encode s) c
  cases result with
  | ok =>
    exact ⟨if c.flushable then .ok () else .error (.console .flushRefused), output,
      fun input => prompt_of_written (hwrite input)⟩
  | error cause => exact ⟨_, output, fun input => prompt_of_not_written (hwrite input)⟩

theorem OnlyWrites.leavesRest {action : Console → Except RunCause α × Console}
    (h : OnlyWrites action) {c : Console} (hc : WholeLines c.input) (more : List UInt8) :
    LeavesRest action c more := by
  obtain ⟨result, output, haction⟩ := h c
  have hfirst : action c = _ := haction c.input
  have hsecond : action (c.appendInput more) = _ := haction (c.input ++ more)
  constructor
  · rw [hfirst, hsecond]
    rfl
  · rw [hfirst]
    exact hc

/-- A line that ends is read alike whatever follows it. -/
theorem leavesRest_readLine {c : Console} (hc : WholeLines c.input) (hne : c.input ≠ [])
    (more : List UInt8) : LeavesRest readLine c more := by
  have hsplit := splitLine_append_right (hc.lineBreak_mem hne) more
  have hmore : (c.appendInput more).input = c.input ++ more := rfl
  have hempty : c.input.isEmpty = false := by simpa using hne
  have hempty' : (c.input ++ more).isEmpty = false := by simp [hne]
  constructor
  · simp only [readLine, hmore, hempty, hempty', hsplit]
    cases String.fromUTF8? ⟨(splitLine c.input).1.toArray⟩ <;> rfl
  · simp only [readLine, hempty]
    cases String.fromUTF8? ⟨(splitLine c.input).1.toArray⟩ <;> exact hc.rest

end Console

/-- The machine with further bytes to read, after those that it has. -/
def Machine.appendInput (m : Machine) (more : List UInt8) : Machine :=
  m.withConsole (m.console.appendInput more)

/-- The second machine has whole lines to read and then `more`, the first one those lines only.
Nothing is asked when the first run has no line left. -/
def Comparison.appendInput (more : List UInt8) : Comparison where
  machines m₁ m₂ := m₂ = m₁.appendInput more ∧ Console.WholeLines m₁.console.input
  faults := Eq
  excused fault := ∃ line, fault = some ⟨.inputUnavailable, line⟩

namespace Exec

theorem Silent.matches_appendInput {x : Exec α} (hx : Silent x) (more : List UInt8) :
    Matches (.appendInput more) Eq x x := by
  rintro m _ ⟨rfl, hwhole⟩
  rw [Machine.appendInput, hx m]
  cases hrun : x.run m with
  | outOfFuel => exact .outOfFuel
  | finished result after =>
    have hconsole : after.console = m.console := hx.console_eq hrun
    have hafter : (Comparison.appendInput more).machines after
        (after.withConsole (m.console.appendInput more)) := by
      rw [← hconsole] at hwhole ⊢
      exact ⟨rfl, hwhole⟩
    cases result with
    | ok a => exact .ok rfl hafter
    | error fault => exact .error rfl hafter

theorem matches_onConsole_appendInput {action : Console → Except RunCause α × Console}
    {more : List UInt8} (line : Nat)
    (h : ∀ c : Console, Console.WholeLines c.input →
      (action c).1 = .error .inputUnavailable ∨ Console.LeavesRest action c more) :
    Matches (.appendInput more) Eq (onConsole line action) (onConsole line action) := by
  rintro m _ ⟨rfl, hwhole⟩
  have hrun := run_onConsole line action m m.console
  rw [show m.withConsole m.console = m from rfl] at hrun
  rw [hrun, Machine.appendInput, run_onConsole]
  obtain hnone | ⟨same, whole⟩ := h m.console hwhole
  · rw [hnone]
    exact .excusedFault ⟨line, rfl⟩
  · rw [same]
    cases (action m.console).1 with
    | ok a => exact .ok rfl ⟨rfl, whole⟩
    | error cause => exact .error rfl ⟨rfl, whole⟩

theorem closed_appendInput (more : List UInt8) :
    Closed fun x => Matches (.appendInput more) Eq x x where
  silent hx := hx.matches_appendInput more
  bind hx hf := Matches.bind hx fun a _ h => h ▸ hf a
  inCall locals hx := by
    refine Matches.inCall hx ?_ ?_ (fun _ _ h => h) fun _ h => h
    · rintro m _ ⟨rfl, hwhole⟩
      exact ⟨rfl, hwhole⟩
    · rintro m _ after _ ⟨rfl, -⟩ ⟨rfl, hwhole⟩
      exact ⟨rfl, hwhole⟩
  print _ line := matches_onConsole_appendInput line fun _ hc =>
    .inr ((Console.onlyWrites_write _).leavesRest hc more)
  prompt s line := matches_onConsole_appendInput line fun _ hc =>
    .inr ((Console.onlyWrites_prompt s).leavesRest hc more)
  readLine line := by
    refine matches_onConsole_appendInput line fun c hc => ?_
    by_cases hne : c.input = []
    · exact .inl (by simp [Console.readLine, hne])
    · exact .inr (Console.leavesRest_readLine hc hne more)

end Exec

/-- If a program that has whole lines to read ends without asking for a line that is not there, it
ends in the same way where these lines are followed by any other bytes, and leaves those unread
after the lines that it has not read. -/
theorem unread_input_does_not_matter (limit : Option Nat) (ss : List Statement)
    {m after : Machine} {result : Except RunFault (Option Value)}
    (hm : Console.WholeLines m.console.input)
    (hresult : ∀ line, result ≠ .error ⟨.inputUnavailable, line⟩)
    (h : Exec.Ends (fun n => executeAll limit n ss) m result after) (more : List UInt8) :
    Exec.Ends (fun n => executeAll limit n ss) (m.appendInput more) result
      (after.appendInput more) := by
  obtain ⟨n, hn⟩ := h
  have hmatches := (Exec.closed_appendInput more).executeAll limit n ss m _ ⟨rfl, hm⟩
  rw [hn] at hmatches
  refine ⟨n, ?_⟩
  generalize (executeAll limit n ss).run (m.appendInput more) = outcome at hmatches ⊢
  cases hmatches with
  | ok value machines => rw [value, machines.1]
  | @error f g _ _ faults machines =>
    have hfg : f = g := faults
    rw [hfg, machines.1]
  | excusedFault excused =>
    obtain ⟨line, hline⟩ := excused
    cases hline
    exact absurd rfl (hresult line)

/-- Two lines are read for the sides of a sum, the second of them in a function. One is left, and
after it half a line. -/
theorem third_line_stays_unread :
    let f : Definition := ⟨"f", [], [.ret (.input none none 2) 2], 1⟩
    let m : Machine :=
      { functions := (∅ : FunctionTable).insert "f" f
        console := { input := Console.encode "a\nb\nc\n" } }
    let program : List Statement :=
      [.print (.binary (.input none none 4) .add (.call "f" [] 4) 4) 4]
    let more := Console.encode "d"
    Console.WholeLines m.console.input ∧
    ∃ after, Exec.Ends (fun n => executeAll none n program) m (.ok (some (.str "ab"))) after ∧
      Exec.Ends (fun n => executeAll none n program) (m.appendInput more) (.ok (some (.str "ab")))
        (after.appendInput more) ∧
      (after.appendInput more).console.input = Console.encode "c\nd" := by
  intro f m program more
  have hwhole : Console.WholeLines m.console.input := .inr (by decide)
  have hends : ∃ after, Exec.Ends (fun n => executeAll none n program) m (.ok (some (.str "ab")))
      after ∧ after.console.input = Console.encode "c\n" := ⟨_, ⟨8, rfl⟩, by decide⟩
  obtain ⟨after, hafter, hrest⟩ := hends
  refine ⟨hwhole, after, hafter, ?_, ?_⟩
  · exact unread_input_does_not_matter none program hwhole (fun _ h => by cases h) hafter more
  · show after.console.input ++ more = _
    rw [hrest]
    decide

end Skript
