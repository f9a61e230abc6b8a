import Skript.Digits

/-!
# Reading decimals

A decimal is written as an optional sign and then either a word for an infinity or for what is
not a number, or digits with an optional point and an optional power of ten. At least one digit
stands before or after the point. The nearest decimal is taken, ties to the even mantissa.

The digits of the power count up to a bound. Below it the reading is exact; above it the power
stands for zero or infinity, unless tens of thousands of digits before it make up for it.
-/
namespace Skript.Decimal

/-- The number in the digits `ds`, times ten to the power `power`, rounded. Without its leading
zeros a run of `n` digits denotes at least `10 ^ (n - 1)` and less than `10 ^ n`, which settles
the numbers from `10 ^ 309` up and those below `10 ^ -324`: they are infinity and zero. -/
def ofScaled (ds : List Char) (power : Int) : Float :=
  let significant := ds.dropWhile (· = '0')
  let size := significant.length + power
  if significant.isEmpty || size < -323 then 0.0
  else if 309 < size then 1.0 / 0.0
  else Float.ofScientific (Digits.number significant) (power < 0) power.natAbs

/-- The decimal with `whole` before and `fraction` after its point. -/
def ofDigits (whole fraction : List Char) : Float :=
  ofScaled (whole ++ fraction) (-fraction.length)

/-- A power that has come to this bound takes in no more digits. -/
def powerBound : Nat :=
  65536

/-- The power that a run of digits denotes. Digits past the bound are passed over, so the power
is less than `10 * powerBound`. -/
def powerOf (ds : List Char) : Nat :=
  ds.foldl (fun n c => if n < powerBound then 10 * n + (c.toNat - '0'.toNat) else n) 0

/-- The power denoted by one or more digits. -/
def readMagnitude? (ds : List Char) : Option Nat :=
  if Digits.isRun ds then some (powerOf ds) else none

/-- The power after the digits: nothing, or a mark, an optional sign and digits. -/
def readPower? : List Char → Option Int
  | [] => some 0
  | mark :: cs =>
      if mark = 'e' ∨ mark = 'E' then
        match cs with
        | '-' :: ds => (readMagnitude? ds).map fun n => -(n : Int)
        | '+' :: ds => (readMagnitude? ds).map Int.ofNat
        | ds => (readMagnitude? ds).map Int.ofNat
      else none

/-- The fraction and what follows it. -/
def splitFraction : List Char → List Char × List Char
  | '.' :: cs => (cs.takeWhile Char.isDigit, cs.dropWhile Char.isDigit)
  | cs => ([], cs)

/-- An unsigned number in digits. -/
def readDigits? (cs : List Char) : Option Float :=
  let whole := cs.takeWhile Char.isDigit
  let (fraction, rest) := splitFraction (cs.dropWhile Char.isDigit)
  if whole.isEmpty && fraction.isEmpty then none
  else (readPower? rest).map fun power =>
    ofScaled (whole ++ fraction) (power - fraction.length)

/-- The words for the decimals that have no digits, in any case. -/
def readWord? (cs : List Char) : Option Float :=
  match String.ofList (cs.map Char.toLower) with
  | "inf" | "infinity" => some (1.0 / 0.0)
  | "nan" => some (0.0 / 0.0)
  | _ => none

def readUnsigned? (cs : List Char) : Option Float :=
  readWord? cs <|> readDigits? cs

/-- The decimal written as `cs`, if it is one. -/
def read? : List Char → Option Float
  | '-' :: cs => (readUnsigned? cs).map fun x => -x
  | '+' :: cs => readUnsigned? cs
  | cs => readUnsigned? cs

end Skript.Decimal
