import Skript.Command

/-!
# The program

Standard input is read a line at a time, and only when a script asks for more than is known of it:
a run that stopped for want of input is taken up again with one line more. What it wrote before
that stays as it was, so only the new output is shown.
-/
namespace Skript

/-- The contents of a file, if it can be read. -/
def readFile? (path : String) : IO (Option ByteArray) := do
  try
    return some (← IO.FS.readBinFile path)
  catch _ =>
    return none

/-- The next line of a stream, with its line break if it has one, after `before`. -/
partial def nextLine (stream : IO.FS.Stream) (before : List UInt8) : IO (List UInt8) := do
  match (← stream.read 1).data.toList with
  | [] => return before.reverse
  | bytes =>
      let line := bytes.reverse ++ before
      if bytes.contains Console.lineBreak then return line.reverse else nextLine stream line

/-- Runs a command with the input `known` so far, of whose output `shown` bytes are out already. -/
partial def converse (run : List UInt8 → Option Report) (known : List UInt8) (shown : Nat) :
    IO UInt32 := do
  let stdout ← IO.getStdout
  match run known with
  | none => return 1
  | some report =>
      if report.starved then
        stdout.write ⟨report.opening.extract shown report.opening.size⟩
        stdout.flush
        let line ← nextLine (← IO.getStdin) []
        if !line.isEmpty then
          return ← converse run (known ++ line) report.opening.size
      let start := if report.starved then report.opening.size else shown
      stdout.write ⟨report.stdout.extract start report.stdout.size⟩
      stdout.flush
      IO.eprint report.stderr
      return report.exit.toUInt32

end Skript

open Skript

def main (args : List String) : IO UInt32 := do
  match Command.ofArguments? args with
  | none =>
      IO.eprintln "Usage: lip [--debug] <FILE>"
      return 2
  | some command =>
      let contents ← match command with
        | .script path _ => readFile? path
        | .version => pure none
      converse (fun known => command.run ampleFuel (fun _ => contents) known) [] 0
