import Skript.Dump

/-!
# The command line

One script file is run, and its output and its fault are reported. On demand the report also shows
the tokens, the statements and, at the end, the variables of the script.
-/
namespace Skript

/-- What the program is asked to do. -/
inductive Command where
  | version
  | script (path : String) (debug : Bool)
  deriving DecidableEq, Repr

/-- The outcome of a command, in the parts that make up the standard output. -/
structure Report where
  /-- The dump of the tokens. -/
  tokens : String := ""
  /-- The dump of the statements. -/
  statements : String := ""
  /-- What the script printed. -/
  output : Array UInt8 := #[]
  /-- The dump of the variables. -/
  environment : String := ""
  stderr : String := ""
  exit : Nat := 0
  /-- Whether the script stopped because its input ran out. -/
  starved : Bool := false

namespace Report

/-- The standard output up to the point where the script stopped. -/
def opening (r : Report) : Array UInt8 :=
  r.tokens.toUTF8.data ++ r.statements.toUTF8.data ++ r.output

/-- The standard output. -/
def stdout (r : Report) : Array UInt8 :=
  r.opening ++ r.environment.toUTF8.data

/-- A heading and, below it, indented lines. -/
def listing (heading : String) (lines : List String) : String :=
  String.join ((heading ++ ":\n") :: lines.map fun line => "  " ++ line ++ "\n")

/-- A number, right-aligned in four columns. -/
def lineColumn (n : Nat) : String :=
  let digits := Integer.digits n
  String.ofList (List.replicate (4 - digits.length) ' ' ++ digits)

def tokenDump (lexemes : List Lexeme) : String :=
  listing "Tokens" (lexemes.map fun l => lineColumn l.line ++ ": " ++ l.token.dump)

def statementDump (statements : List Statement) : String :=
  listing "Statements" (statements.map Statement.dump)

def variableDump (env : Environment) : String :=
  listing "Environment" (env.toList.map fun (name, slot) =>
    name ++ ": " ++ slot.value.kind.name ++ " = " ++ slot.value.text)

/-- The report with a fault added to it. -/
def failed (r : Report) (debug : Bool) (fault : ScriptFault) : Report :=
  let shown := if debug then fault.dump ++ "\n" else ""
  { r with stderr := fault.message ++ "\n" ++ shown, exit := 1 }

/-- The report on a program that was broken off: there is nothing after the output of the script,
and the cause is shown alone. -/
def brokenOff (r : Report) (cause : RunCause) : Report :=
  { r with stderr := cause.message ++ "\n", exit := 101 }

/-- The report on a script that has run. -/
def finished (r : Report) (debug : Bool) (result : Except RunFault (Option Value)) (m : Machine) :
    Report :=
  let written := { r with output := m.console.output }
  let dumped := { written with environment := if debug then variableDump m.environment else "" }
  match result with
  | .ok _ => dumped
  | .error fault =>
      if fault.cause = .capacity then written.brokenOff fault.cause
      else
        { dumped.failed debug (.run fault) with starved := fault.cause = .inputUnavailable }

end Report

namespace Command

/-- The path and the options in any order. Without a path or with two there is no command. -/
def ofArguments? (args : List String) : Option Command :=
  if args.any fun a => a = "--version" || a = "-V" then some .version
  else
    let isDebug (a : String) : Bool := a = "-d" || a = "--debug"
    match args.filter fun a => !isDebug a with
    | [path] => some (.script path (args.any isDebug))
    | _ => none

/-- The parts of a path, without those that stay where they are. -/
def components (path : String) : List String :=
  ((path.toList.splitOn '/').map String.ofList).filter fun part => part ≠ "" && part ≠ "."

/-- What follows the last point of the file's name. A point at its start does not count. -/
def extension? (path : String) : Option String :=
  match (components path).getLast? with
  | none | some ".." => none
  | some name =>
      let backwards := name.toList.reverse
      let ext := backwards.takeWhile (· ≠ '.')
      match backwards.drop ext.length with
      | [] | [_] => none
      | _ => some (String.ofList ext.reverse)

/-- Runs a script text on a new machine with the given input. -/
def runText (fuel : Nat) (debug : Bool) (source : String) (stdin : List UInt8) : Option Report :=
  match tokenize source with
  | .error fault => some (({} : Report).failed debug (.source fault))
  | .ok lexemes =>
      let r : Report := { tokens := if debug then Report.tokenDump lexemes else "" }
      match parse lexemes with
      | .error fault => some (r.failed debug (.source fault))
      | .ok statements =>
          let r := { r with statements := if debug then Report.statementDump statements else "" }
          let m : Machine := { console := { input := stdin } }
          match (executeAll (some callLimit) fuel statements).run m with
          | .finished result m => some (r.finished debug result m)
          | .outOfFuel => none

/-- Carries out a command; `file` gives the contents of a file that can be read. -/
def run (fuel : Nat) (file : String → Option ByteArray) (stdin : List UInt8) :
    Command → Option Report
  | version => some { output := "lip 0.1.0\n".toUTF8.data }
  | script path debug =>
      if extension? path ≠ some "lip" then
        some { stderr := s!"Error: '{path}' is not a .lip file.\n", exit := 1 }
      else
        match (file path).bind String.fromUTF8? with
        | none =>
            some {
              stderr := s!"Failed to read the input file '{path}'. " ++
                "Perhaps this file does not exist?\n"
              exit := 1 }
        | some source => runText fuel debug source stdin

end Command

end Skript
