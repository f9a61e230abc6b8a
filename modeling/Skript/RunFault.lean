import Skript.Value

/-!
# Faults of a running script

The causes that end a script early, with the line they are reported on. One of them is no fault of
the script's: a text that would be longer than any text can be breaks the whole program off.
-/
namespace Skript

/-- Values of kinds that an operation does not take. -/
inductive Clash where
  | notNumber (found : Kind)
  | operands (op : Operator) (left right : Kind)
  | unordered (left right : Kind)
  | slot (value : Value) (kind : Kind) (name : String)
  | lengthOf (found : Kind)
  | numberOf (found : Kind)
  deriving DecidableEq

def Clash.message : Clash → String
  | notNumber found =>
      let kind := found.name
      s!"expected a number, found {kind}"
  | operands op left right =>
      let sign := op.text
      let l := left.name
      let r := right.name
      s!"cannot apply '{sign}' to {l} and {r}"
  | unordered left right =>
      let l := left.name
      let r := right.name
      s!"cannot order {l} and {r}"
  | slot value kind name =>
      let found := value.kind.name
      let shown := value.text
      let wanted := kind.name
      s!"cannot assign {found} value '{shown}' to {wanted} variable '{name}'"
  | lengthOf found =>
      let kind := found.name
      s!"len expects a str, found {kind}"
  | numberOf found =>
      let kind := found.name
      s!"to_num expects a str, found {kind}"

/-- Texts that do not denote what they are read as. -/
inductive Misreading where
  | notOfKind (text : String) (kind : Kind)
  | notNumber (text : String)
  deriving DecidableEq

def Misreading.message : Misreading → String
  | notOfKind text kind =>
      let wanted := kind.name
      s!"'{text}' is not a valid {wanted}"
  | notNumber text => s!"'{text}' is not a number"

/-- What can go wrong between a script and its surroundings. -/
inductive ConsoleTrouble where
  | sinkFull
  | flushRefused
  | notUtf8
  deriving DecidableEq, Repr

def ConsoleTrouble.message : ConsoleTrouble → String
  | sinkFull => "sink full"
  | flushRefused => "flush refused"
  | notUtf8 => "stream did not contain valid UTF-8"

inductive RunCause where
  | unknownVariable (name : String)
  | unknownFunction (name : String)
  | builtinRedefinition (name : String)
  | typeMismatch (clash : Clash)
  | argumentCount (name : String) (expected found : Nat)
  | conversion (misreading : Misreading)
  | divisionByZero
  | overflow
  | missingValue
  | callDepth (limit : Nat)
  | inputUnavailable
  | console (trouble : ConsoleTrouble)
  /-- There is no room for so long a text. Nobody is told the line, nor gets hold of the machine
  again; all that is left is what was written before. -/
  | capacity
  deriving DecidableEq

def RunCause.message : RunCause → String
  | unknownVariable name => s!"Unknown variable '{name}'"
  | unknownFunction name => s!"Unknown function '{name}'"
  | builtinRedefinition name => s!"Cannot redefine built-in function '{name}'"
  | typeMismatch clash =>
      let details := clash.message
      s!"Type mismatch: {details}"
  | argumentCount name expected found =>
      s!"Function '{name}' expects {expected} argument(s), but {found} were given"
  | conversion misreading =>
      let details := misreading.message
      s!"Conversion failed: {details}"
  | divisionByZero => "Division by zero"
  | overflow => "Integer overflow while trying to compute result"
  | missingValue => "Value missing"
  | callDepth limit => s!"Maximum call depth of {limit} exceeded"
  | inputUnavailable => "No more input available"
  | console trouble =>
      let details := trouble.message
      s!"I/O error: {details}"
  | capacity => "capacity overflow"

/-- An integer that fits, or an overflow. -/
def RunCause.orOverflow : Option Int64 → Except RunCause Int64
  | some n => .ok n
  | none => .error .overflow

structure RunFault where
  cause : RunCause
  line : Nat
  deriving DecidableEq

def RunFault.message (f : RunFault) : String :=
  let cause := f.cause.message
  let line := f.line
  s!"Error on line {line}: {cause}."

end Skript
