import Skript.Decimal.Shortest
import Skript.Integer

/-!
# Written decimals

Decimals of ordinary size are written with a point and at least one digit on either side of it.
Very large and very small ones are written with one leading digit and a power of ten.
-/
namespace Skript.Decimal

/-- Where written decimals change their form. -/
structure Layout where
  /-- The least power of ten of the leading digit that is written without an exponent. -/
  leastPlain : Int
  /-- The first power of ten of the leading digit that is written with an exponent again. -/
  firstScientific : Int
  /-- The mark before the exponent. -/
  mark : Char

/-- Numbers from `1e-4` to below `1e16` are plain. -/
def layout : Layout := ⟨-4, 16, 'e'⟩

/-- A digit sequence without its trailing zeros. -/
def significant (ds : List Char) : List Char :=
  (ds.reverse.dropWhile (· = '0')).reverse

/-- Digits with the decimal point after `point` of them; zeros fill what is missing on either
side. -/
def plain (ds : List Char) (point : Int) : List Char :=
  if point ≤ 0 then '0' :: '.' :: (List.replicate (-point).toNat '0' ++ ds)
  else
    let whole := ds.take point.toNat
    let fraction := ds.drop point.toNat
    whole ++ List.replicate (point.toNat - whole.length) '0' ++ '.' ::
      (if fraction.isEmpty then ['0'] else fraction)

/-- Digits with the point after the first, and the power of ten of the first. -/
def scientific (mark : Char) (ds : List Char) (power : Int) : List Char :=
  let fraction := ds.drop 1
  ds.take 1 ++ (if fraction.isEmpty then [] else '.' :: fraction) ++ mark :: Integer.digits power

/-- A positive number as digits times a power of ten, written. -/
def Scaled.text (s : Scaled) (form : Layout) : List Char :=
  let all := Nat.toDigits 10 s.digits
  let lead := s.power + all.length - 1
  if form.leastPlain ≤ lead ∧ lead < form.firstScientific then
    plain (significant all) (lead + 1)
  else scientific form.mark (significant all) lead

/-- The text of a magnitude; zero has one digit on either side of its point. -/
def Magnitude.text (m : Magnitude) : List Char :=
  if m.mantissa = 0 then ['0', '.', '0'] else (shortest m).text layout

/-- The text of a decimal: the fewest digits that read back. What is not a number has no sign. -/
def text (x : Float) : String :=
  if exponentField x = 2047 then
    if mantissaField x ≠ 0 then "NaN" else if isNegative x then "-inf" else "inf"
  else
    let body := (magnitude x).text
    String.ofList (if isNegative x then '-' :: body else body)

end Skript.Decimal
