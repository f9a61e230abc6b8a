import Skript.Decimal.Reading
import Skript.RunFault
import Skript.Text.Ranges

/-!
# Converting values

A value that is stored in a declared variable takes the variable's kind where nothing is lost by
it. A line of input is read as a value of the wanted kind, and a text as a number.
-/
namespace Skript.Value

/-- The value as a variable `name` of the given kind holds it. -/
def conform (kind : Kind) (name : String) (v : Value) : Except RunCause Value :=
  if v.kind = kind then .ok v
  else
    match kind, v with
    | .dec, num n => .ok (dec (Integer.toDecimal n))
    | .str, chr (some c) => .ok (str (String.singleton c))
    | .str, chr none => .ok (str "")
    | .chr, str s =>
        match s.toList with
        | [c] => .ok (chr (some c))
        | _ => .error (.typeMismatch (.slot v kind name))
    | _, _ => .error (.typeMismatch (.slot v kind name))

/-- The truth value that a word stands for, in any case. -/
def readBool? (cs : List Char) : Option Bool :=
  match String.ofList (cs.map Char.toLower) with
  | "true" | "yes" | "y" | "1" => some true
  | "false" | "no" | "n" | "0" => some false
  | _ => none

/-- A line of input read as a value of the given kind. White space around numbers and truth values
does not matter. -/
def read? (raw : String) : Kind → Option Value
  | .str => some (str raw)
  | .num => (Integer.read? (Text.trim raw.toList)).map num
  | .dec => (Decimal.read? (Text.trim raw.toList)).map dec
  | .bool => (readBool? (Text.trim raw.toList)).map bool
  | .chr =>
      match raw.toList with
      | [c] => some (chr (some c))
      | _ => none

/-- The value of a line of input. Without a wanted kind it is the line itself. -/
def ofInput (kind : Option Kind) (raw : String) : Except RunCause Value :=
  match kind with
  | none => .ok (str raw)
  | some k =>
      match read? raw k with
      | some v => .ok v
      | none => .error (.conversion (.notOfKind raw k))

/-- A text as a number: an integer if it can be, else a decimal. Numbers are left alone. -/
def toNumber (v : Value) : Except RunCause Value :=
  if v.isNumeric then .ok v
  else
    match v.asText? with
    | none => .error (.typeMismatch (.numberOf v.kind))
    | some s =>
        match read? s .num <|> read? s .dec with
        | some n => .ok n
        | none => .error (.conversion (.notNumber s))

/-- The number of characters of a text. -/
def length : Value → Except RunCause Value
  | str s => num <$> RunCause.orOverflow (Integer.ofCount? s.length)
  | chr c => .ok (num (if c.isSome then 1 else 0))
  | v => .error (.typeMismatch (.lengthOf v.kind))

/-- A number as a decimal, or the fault of not being one. -/
def toDecimal (v : Value) : Except RunCause Float :=
  match v.asDecimal? with
  | some x => .ok x
  | none => .error (.typeMismatch (.notNumber v.kind))

end Skript.Value
