import Skript.Decimal.Layout
import Skript.Integer
import Skript.Program

/-!
# Values

What expressions evaluate to and variables hold. A character may be empty, which is what a
declared character starts with.
-/
namespace Skript

inductive Value where
  | num (value : Int64)
  | dec (value : Float)
  | str (value : String)
  | chr (value : Option Char)
  | bool (value : Bool)
  deriving DecidableEq

def Literal.toValue : Literal → Value
  | num n => .num n
  | dec x => .dec x
  | str s => .str s
  | chr c => .chr (some c)
  | bool b => .bool b

namespace Value

def kind : Value → Kind
  | num _ => .num
  | dec _ => .dec
  | str _ => .str
  | chr _ => .chr
  | bool _ => .bool

/-- What a variable holds that was declared and not assigned. -/
def zero : Kind → Value
  | .num => num 0
  | .dec => dec 0.0
  | .str => str ""
  | .chr => chr none
  | .bool => bool false

/-- The text of a string or a character; the empty character is the empty text. -/
def asText? : Value → Option String
  | str s => some s
  | chr (some c) => some (String.singleton c)
  | chr none => some ""
  | _ => none

/-- A number as a decimal. -/
def asDecimal? : Value → Option Float
  | num n => some (Integer.toDecimal n)
  | dec x => some x
  | _ => none

def isNumeric : Value → Bool
  | num _ | dec _ => true
  | _ => false

/-- Whether a condition with this value holds: it is not zero, not empty and not `false`. What is
not a number differs from zero. -/
def isTruthy : Value → Bool
  | num n => n ≠ 0
  | dec x => x != 0.0
  | str s => s ≠ ""
  | chr c => c.isSome
  | bool b => b

/-- The value as it is printed. -/
def text : Value → String
  | num n => Integer.text n
  | dec x => Decimal.text x
  | str s => s
  | chr (some c) => String.singleton c
  | chr none => ""
  | bool b => if b then "true" else "false"

end Value

end Skript
