import Skript.Command
import Skript.Proofs.ScriptReading
import Skript.Proofs.Session

/-!
# Debug mode only adds to the report

With and without debug mode a script does the same: it writes the same output and ends with the same
fault, which is that of a run on a new machine. Debug mode shows the tokens and the statements
before the output, as far as the script could be read, the variables behind it, and the fault once
more in full. Where the program is broken off, nothing is shown behind the output in either mode.
-/
namespace Skript

theorem Outcome.mapError_eq_ok_iff {ε δ α : Type} {f : ε → δ} {o : Outcome ε α} {a : α}
    {after : Machine} : o.mapError f = .finished (.ok a) after ↔ o = .finished (.ok a) after := by
  cases o with
  | outOfFuel => simp [mapError]
  | finished result m => cases result <;> simp [mapError, Except.mapError]

namespace Report

/-- `Lists heading lines shown`: the heading is shown and, below it, the lines, each indented. -/
def Lists (heading : String) (lines : List String) (shown : String) : Prop :=
  shown = heading ++ ":\n" ++ String.join (lines.map fun line => "  " ++ line ++ "\n")

theorem lists_listing (heading : String) (lines : List String) :
    Lists heading lines (listing heading lines) := by
  rw [Lists, listing, String.join_cons]

/-- The dump of the tokens, if the script can be cut into tokens. -/
def shownTokens (source : String) : String :=
  match tokenize source with
  | .ok lexemes => tokenDump lexemes
  | .error _ => ""

/-- The dump of the statements, if the script can be read. -/
def shownStatements (source : String) : String :=
  match Script.read source with
  | .ok statements => statementDump statements
  | .error _ => ""

/-- Whether the program was broken off. -/
def isBrokenOff : Except ScriptFault (Option Value) → Bool
  | .error (.run fault) => fault.cause = .capacity
  | .error (.source _) => false
  | .ok _ => false

/-- The dump of the variables, if the script can be read and so has been run, to its end. -/
def shownVariables (source : String) (result : Except ScriptFault (Option Value))
    (env : Environment) : String :=
  match Script.read source with
  | .ok _ => if isBrokenOff result then "" else variableDump env
  | .error _ => ""

/-- The message of a fault, on a line of its own. -/
def shownMessage : Except ScriptFault (Option Value) → String
  | .ok _ => ""
  | .error (.source fault) => fault.message ++ "\n"
  | .error (.run fault) =>
      if fault.cause = .capacity then fault.cause.message ++ "\n" else fault.message ++ "\n"

/-- A fault in full, on a line of its own. -/
def shownFault : Except ScriptFault (Option Value) → String
  | .ok _ => ""
  | .error (.source fault) => (ScriptFault.source fault).dump ++ "\n"
  | .error (.run fault) =>
      if fault.cause = .capacity then "" else (ScriptFault.run fault).dump ++ "\n"

def exitCode : Except ScriptFault (Option Value) → Nat
  | .ok _ => 0
  | .error (.source _) => 1
  | .error (.run fault) => if fault.cause = .capacity then 101 else 1

/-- Whether a result is the fault of having no more input. -/
def isStarved : Except ScriptFault (Option Value) → Bool
  | .error (.run fault) => fault.cause = .inputUnavailable
  | .error (.source _) => false
  | .ok _ => false

/-- The report on a script that has ended with `result` on `after`. -/
def ofRun (debug : Bool) (source : String) (result : Except ScriptFault (Option Value))
    (after : Machine) : Report where
  tokens := if debug then shownTokens source else ""
  statements := if debug then shownStatements source else ""
  output := after.console.output
  environment := if debug then shownVariables source result after.environment else ""
  stderr := shownMessage result ++ if debug then shownFault result else ""
  exit := exitCode result
  starved := isStarved result

/-- The report on a script that cannot be read: there is nothing behind the tokens. -/
theorem ofRun_of_unread {source : String} {fault : SourceFault}
    (hread : Script.read source = .error fault) (debug : Bool) (input : List UInt8) :
    ofRun debug source (.error (.source fault)) (.fresh { input := input }) =
      ({ tokens := if debug then shownTokens source else "" } : Report).failed debug
        (.source fault) := by
  cases debug <;>
    simp [ofRun, failed, shownStatements, shownVariables, shownMessage, shownFault, exitCode,
      isStarved, Machine.fresh, ScriptFault.message, hread]

/-- The report on a script that has been run. -/
theorem ofRun_of_read {source : String} {statements : List Statement}
    (hread : Script.read source = .ok statements) (debug : Bool)
    (result : Except RunFault (Option Value)) (after : Machine) :
    ofRun debug source (result.mapError .run) after =
      ({ tokens := if debug then shownTokens source else ""
         statements := if debug then statementDump statements else "" } : Report).finished debug
        result after := by
  cases result with
  | ok v =>
    cases debug <;>
      simp [ofRun, finished, shownStatements, shownVariables, shownMessage, shownFault, exitCode,
        isBrokenOff, isStarved, Except.mapError, hread]
  | error fault =>
    by_cases hcause : fault.cause = .capacity
    · cases debug <;>
        simp [ofRun, finished, brokenOff, shownStatements, shownVariables, shownMessage, shownFault,
          exitCode, isBrokenOff, isStarved, Except.mapError, hread, hcause]
    · cases debug <;>
        simp [ofRun, finished, failed, shownStatements, shownVariables, shownMessage, shownFault,
          exitCode, isBrokenOff, isStarved, Except.mapError, ScriptFault.message, hread, hcause]

/-- Without debug mode the standard output is what the script has printed. -/
theorem stdout_ofRun_false (source : String) (result : Except ScriptFault (Option Value))
    (after : Machine) : (ofRun false source result after).stdout = after.console.output := by
  have hempty : "".toUTF8.data = #[] := rfl
  simp only [stdout, opening, ofRun, Bool.false_eq_true, if_false, hempty, Array.empty_append,
    Array.append_empty]

theorem stderr_ofRun_false (source : String) (result : Except ScriptFault (Option Value))
    (after : Machine) : (ofRun false source result after).stderr = shownMessage result := by
  simp only [ofRun, Bool.false_eq_true, if_false, String.append_empty]

/-- Debug mode shows the fault behind what is shown without it. -/
theorem stderr_ofRun_true (source : String) (result : Except ScriptFault (Option Value))
    (after : Machine) :
    (ofRun true source result after).stderr =
      (ofRun false source result after).stderr ++ shownFault result := by
  rw [stderr_ofRun_false]
  rfl

/-! ### What is shown -/

section

variable {source : String} {result : Except ScriptFault (Option Value)}

theorem lists_shownTokens {lexemes : List Lexeme} (h : tokenize source = .ok lexemes) :
    Lists "Tokens" (lexemes.map fun l => lineColumn l.line ++ ": " ++ l.token.dump)
      (shownTokens source) := by
  rw [shownTokens, h]
  exact lists_listing _ _

theorem shownTokens_of_error {fault : SourceFault} (h : tokenize source = .error fault) :
    shownTokens source = "" := by
  rw [shownTokens, h]

theorem lists_shownStatements {statements : List Statement}
    (h : Script.read source = .ok statements) :
    Lists "Statements" (statements.map Statement.dump) (shownStatements source) := by
  rw [shownStatements, h]
  exact lists_listing _ _

theorem shownStatements_of_error {fault : SourceFault} (h : Script.read source = .error fault) :
    shownStatements source = "" := by
  rw [shownStatements, h]

theorem lists_shownVariables {statements : List Statement}
    (h : Script.read source = .ok statements) (hresult : isBrokenOff result = false)
    (env : Environment) :
    ∃ entries : List (String × Value), (entries.map Prod.fst).Pairwise (· < ·) ∧
      (∀ name v, (name, v) ∈ entries ↔ env.get? name = some v) ∧
      Lists "Environment"
        (entries.map fun entry => entry.1 ++ ": " ++ entry.2.kind.name ++ " = " ++ entry.2.text)
        (shownVariables source result env) := by
  refine ⟨env.entries, env.ascending_entries, fun _ _ => Environment.mem_entries, ?_⟩
  have hdump : variableDump env = listing "Environment" (env.entries.map fun entry =>
      entry.1 ++ ": " ++ entry.2.kind.name ++ " = " ++ entry.2.text) := by
    rw [variableDump, Environment.entries, List.map_map]
    rfl
  simp only [shownVariables, h, hresult, Bool.false_eq_true, if_false, hdump]
  exact lists_listing _ _

theorem shownVariables_of_error {fault : SourceFault} {env : Environment}
    (h : Script.read source = .error fault) : shownVariables source result env = "" := by
  rw [shownVariables, h]

/-- A program that is not broken off ends well or reports a fault. -/
theorem cases_of_not_brokenOff (h : isBrokenOff result = false) :
    (∃ v, result = .ok v) ∨ ∃ fault, result = .error fault ∧
      shownMessage result = fault.message ++ "\n" ∧ shownFault result = fault.dump ++ "\n" ∧
      exitCode result = 1 := by
  cases result with
  | ok v => exact .inl ⟨v, rfl⟩
  | error fault =>
    cases fault with
    | source fault => exact .inr ⟨.source fault, rfl, rfl, rfl, rfl⟩
    | run fault =>
      have hcause : fault.cause ≠ .capacity := of_decide_eq_false h
      exact .inr ⟨.run fault, rfl, if_neg hcause, if_neg hcause, if_neg hcause⟩

theorem shown_of_brokenOff (h : isBrokenOff result = true) :
    exitCode result = 101 ∧ shownFault result = "" := by
  cases result with
  | ok v => cases h
  | error fault =>
    cases fault with
    | source fault => cases h
    | run fault =>
      have hcause : fault.cause = .capacity := of_decide_eq_true h
      exact ⟨if_pos hcause, if_pos hcause⟩

theorem shownVariables_of_brokenOff (h : isBrokenOff result = true) (env : Environment) :
    shownVariables source result env = "" := by
  rw [shownVariables, h]
  cases Script.read source <;> rfl

end

end Report

namespace Script

/-- A script ends well just if it can be cut into tokens, these can be read and the statements end
well. -/
theorem run_eq_ok_iff {fuel : Nat} {source : String} {m after : Machine} {v : Option Value} :
    run fuel source m = .finished (.ok v) after ↔
      ∃ lexemes statements, tokenize source = .ok lexemes ∧ parse lexemes = .ok statements ∧
        (executeAll (some callLimit) fuel statements).run m = .finished (.ok v) after := by
  constructor
  · intro h
    cases hlexemes : tokenize source with
    | error fault =>
      rw [run, read_of_untokenized hlexemes] at h
      cases h
    | ok lexemes =>
      rw [run, read_of_tokenize hlexemes] at h
      cases hstatements : parse lexemes with
      | error fault =>
        rw [hstatements] at h
        cases h
      | ok statements =>
        rw [hstatements] at h
        exact ⟨lexemes, statements, rfl, hstatements, Outcome.mapError_eq_ok_iff.1 h⟩
  · rintro ⟨lexemes, statements, hlexemes, hstatements, hrun⟩
    rw [run, read_of_tokenize hlexemes, hstatements]
    exact Outcome.mapError_eq_ok_iff.2 hrun

end Script

namespace Command

/-- Running a script text is the same as running the script on a new machine and reporting on it. -/
theorem runText_eq (fuel : Nat) (debug : Bool) (source : String) (stdin : List UInt8) :
    runText fuel debug source stdin =
      match Script.run fuel source (.fresh { input := stdin }) with
      | .finished result after => some (.ofRun debug source result after)
      | .outOfFuel => none := by
  cases hlexemes : tokenize source with
  | error fault =>
    have hread := Script.read_of_untokenized hlexemes
    rw [runText, Script.run, hlexemes, hread]
    dsimp only
    rw [Report.ofRun_of_unread hread, Report.shownTokens_of_error hlexemes, ite_self]
  | ok lexemes =>
    have htokens : Report.shownTokens source = Report.tokenDump lexemes := by
      rw [Report.shownTokens, hlexemes]
    cases hstatements : parse lexemes with
    | error fault =>
      have hread := (Script.read_of_tokenize hlexemes).trans hstatements
      rw [runText, Script.run, hlexemes, hread]
      dsimp only
      rw [hstatements, Report.ofRun_of_unread hread, htokens]
    | ok statements =>
      have hread := (Script.read_of_tokenize hlexemes).trans hstatements
      have hstart : ({ console := { input := stdin } } : Machine) = .fresh { input := stdin } := rfl
      rw [runText, Script.run, hlexemes, hread, hstart]
      dsimp only
      rw [hstatements]
      dsimp only
      cases (executeAll (some callLimit) fuel statements).run (.fresh { input := stdin }) with
      | outOfFuel => rfl
      | finished result after =>
        dsimp only [Outcome.mapError]
        rw [Report.ofRun_of_read hread, htokens]

/-- A command that runs a readable file of the right kind reports on the run of its script. -/
theorem run_script_eq {file : String → Option ByteArray} {path source : String}
    (hpath : extension? path = some "lip") (hfile : (file path).bind String.fromUTF8? = some source)
    (fuel : Nat) (stdin : List UInt8) (debug : Bool) :
    run fuel file stdin (.script path debug) =
      match Script.run fuel source (.fresh { input := stdin }) with
      | .finished result after => some (.ofRun debug source result after)
      | .outOfFuel => none := by
  rw [run, if_neg (not_not_intro hpath), hfile]
  exact runText_eq fuel debug source stdin

end Command

end Skript
