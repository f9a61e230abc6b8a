import Skript.RunFault
import Skript.Value.Conversion

/-!
# Built-in functions

Functions that every script can call and none can define anew.
-/
namespace Skript

/-- Whether as many arguments were given as a function expects. -/
def checkArity (name : String) (expected found : Nat) : Except RunCause Unit :=
  if found = expected then .ok () else .error (.argumentCount name expected found)

namespace Builtin

/-- A text as a number. -/
def toNum : List Value → Except RunCause Value
  | [v] => v.toNumber
  | args => .error (.argumentCount "to_num" 1 args.length)

def table : List (String × (List Value → Except RunCause Value)) :=
  [("to_num", toNum)]

/-- The built-in function of that name. -/
def find? (name : String) : Option (List Value → Except RunCause Value) :=
  table.lookup name

/-- Refuses the name of a built-in function. -/
def checkName (name : String) : Except RunCause Unit :=
  if (find? name).isSome then .error (.builtinRedefinition name) else .ok ()

end Builtin

end Skript
