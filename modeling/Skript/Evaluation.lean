import Skript.Builtin
import Skript.Machine
import Skript.Value.Order

/-!
# Evaluation

Expressions give a value or, if they call a function that ends without one, none. Statements give
the value of what they did last. A function runs in an environment of its own and ends at the
first `return` that stands directly in its body; any other `return` is only a value.

The numeral argument bounds the nesting of evaluations and the rounds of each loop. The depth of
calls is bounded by `limit`, and not at all without one.
-/
namespace Skript

namespace Exec

/-- The value of a variable. -/
def lookup (name : String) (line : Nat) : Exec Value := do
  match (← machine).environment.get? name with
  | some v => pure v
  | none => fail (.unknownVariable name) line

def print (v : Value) (line : Nat) : Exec Unit :=
  onConsole line (Console.printLine v.text)

/-- Shows a prompt, if there is one. -/
def showPrompt (prompt : Option String) (line : Nat) : Exec Unit :=
  match prompt with
  | some s => onConsole line (Console.prompt s)
  | none => pure ()

/-- Shows the prompt and reads a line as a value of the given kind. -/
def input (prompt : Option String) (kind : Option Kind) (line : Nat) : Exec Value := do
  showPrompt prompt line
  let raw ← onConsole line Console.readLine
  ofExcept line (Value.ofInput kind raw)

/-- Declares a variable that holds the zero of its kind. -/
def declare (name : String) (kind : Kind) : Exec Unit :=
  update fun m => { m with environment := m.environment.declare name kind (Value.zero kind) }

/-- Declares a variable with a value that takes its kind. -/
def assignTyped (name : String) (kind : Kind) (v : Value) (line : Nat) : Exec Value := do
  let stored ← ofExcept line (v.conform kind name)
  update fun m => { m with environment := m.environment.declare name kind stored }
  return stored

/-- Assigns to a variable a value that takes the variable's kind, if it was declared. -/
def assign (name : String) (v : Value) (line : Nat) : Exec Value := do
  let stored ← match (← machine).environment.declared? name with
    | some kind => ofExcept line (v.conform kind name)
    | none => pure v
  update fun m => { m with environment := m.environment.set name stored }
  return stored

/-- Enters a function into the table, in place of one with its name. -/
def define (d : Definition) : Exec Unit := do
  ofExcept d.line (Builtin.checkName d.name)
  update fun m => { m with functions := m.functions.insert d.name d }

/-- Whether one more call may be entered at the given depth. -/
def checkDepth (limit : Option Nat) (depth : Nat) : Except RunCause Unit :=
  match limit with
  | some most => if most ≤ depth then .error (.callDepth most) else .ok ()
  | none => .ok ()

/-- Calls a function of the table whose statements `run` executes. -/
def callDefined (limit : Option Nat) (run : Statement → Exec (Option Value)) (name : String)
    (args : List Value) (line : Nat) : Exec (Option Value) := do
  let m ← machine
  match m.functions[name]? with
  | none => fail (.unknownFunction name) line
  | some d =>
      ofExcept line (checkArity name d.params.length args.length)
      ofExcept line (checkDepth limit m.depth)
      inCall (.ofArguments d.params args) (lastUntil Statement.isReturn run none d.body)

/-- Calls a function by its name. Built-in functions come first. -/
def call (limit : Option Nat) (run : Statement → Exec (Option Value)) (name : String)
    (args : List Value) (line : Nat) : Exec (Option Value) :=
  match Builtin.find? name with
  | some f => some <$> ofExcept line (f args)
  | none => callDefined limit run name args line

end Exec

open Exec

mutual

def evaluate (limit : Option Nat) : Nat → Expr → Exec (Option Value)
  | 0, _ => outOfFuel
  | _ + 1, .literal value _ => pure (some value.toValue)
  | _ + 1, .var name line => some <$> lookup name line
  | n + 1, .binary left op right line => do
      let l ← required line (evaluate limit n left)
      let r ← required line (evaluate limit n right)
      some <$> ofExcept line (Value.binary op l r)
  | n + 1, .call name arguments line => do
      let args ← collect (fun e => required line (evaluate limit n e)) arguments
      call limit (execute limit n) name args line
  | _ + 1, .input prompt kind line => some <$> input prompt kind line
  | n + 1, .length operand line => do
      let v ← required line (evaluate limit n operand)
      some <$> ofExcept line v.length

def execute (limit : Option Nat) : Nat → Statement → Exec (Option Value)
  | 0, _ => outOfFuel
  | _ + 1, .function name params body line => do
      define ⟨name, params, body, line⟩
      return none
  | n + 1, .ret value line => some <$> required line (evaluate limit n value)
  | n + 1, .print operand line => do
      let v ← required line (evaluate limit n operand)
      print v line
      return some v
  | n + 1, .choose (.mk condition body otherwise line) => do
      let v ← required line (evaluate limit n condition)
      if v.isTruthy then lastOf (execute limit n) none body
      else
        match otherwise with
        | .nothing => pure none
        | .block body => lastOf (execute limit n) none body
        | .elseIf choice => execute limit n (.choose choice)
  | n + 1, .loop init condition update body line => do
      let _ ← execute limit n init
      repeatWhile (Value.isTruthy <$> required line (evaluate limit n condition))
        (do
          let _ ← lastOf (execute limit n) none body
          let _ ← execute limit n update) n
      return none
  | _ + 1, .declare name kind _ => do
      declare name kind
      return none
  | n + 1, .assignTyped name kind value line => do
      let v ← required line (evaluate limit n value)
      some <$> assignTyped name kind v line
  | n + 1, .assign name value line => do
      let v ← required line (evaluate limit n value)
      some <$> assign name v line
  | n + 1, .expr operand _ => evaluate limit n operand

end

/-- Runs statements in order and gives the value of the last. -/
def executeAll (limit : Option Nat) (n : Nat) (statements : List Statement) :
    Exec (Option Value) :=
  lastOf (execute limit n) none statements

end Skript
