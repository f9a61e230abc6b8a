import Skript.Evaluation
import Skript.Program.Parse
import Skript.Token.Tokenize

/-!
# Running scripts

A script is read as a whole before anything of it runs.
-/
namespace Skript

/-- Calls may nest this deep. -/
def callLimit : Nat := 200

/-- More nesting and more rounds than a run can get through. -/
def ampleFuel : Nat := 1000000000000000000

/-- What keeps a script from ending well. -/
inductive ScriptFault where
  | source (fault : SourceFault)
  | run (fault : RunFault)
  deriving DecidableEq

namespace ScriptFault

def message : ScriptFault → String
  | source f => f.message
  | run f => f.message

def line : ScriptFault → Nat
  | source f => f.line
  | run f => f.line

end ScriptFault

namespace Script

/-- The statements of a script. -/
def read (source : String) : Except SourceFault (List Statement) := do
  let lexemes ← tokenize source
  parse lexemes

/-- Reads and runs a script. -/
def run (fuel : Nat) (source : String) (m : Machine) : Outcome ScriptFault (Option Value) :=
  match read source with
  | .error fault => .finished (.error (.source fault)) m
  | .ok statements => ((executeAll (some callLimit) fuel statements).run m).mapError .run

end Script

end Skript
