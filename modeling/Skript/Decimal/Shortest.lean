/-!
# The fewest digits of a decimal

A finite decimal is a whole multiple of `2 ^ -1074`. The reals that round to it form an interval
around it, whose ends belong to it exactly when the mantissa is even. Among the decimal grids
`10 ^ k` the coarsest with a point in that interval gives the fewest digits, and of the two grid
points next to the number the nearer one is taken. A number halfway between both goes up.

All comparisons are between natural numbers, in units of `2 ^ -1076`, so that the middle between
two neighbouring decimals is a whole number of units too.
-/
namespace Skript.Decimal

/-- A power of two. -/
abbrev twoTo (n : Nat) : Nat := Nat.pow 2 n

/-- A power of ten. -/
abbrev tenTo (n : Nat) : Nat := Nat.pow 10 n

/-- The sign bit. -/
def isNegative (x : Float) : Bool :=
  twoTo 63 ≤ x.toBits.toNat

/-- The eleven exponent bits. -/
def exponentField (x : Float) : Nat :=
  x.toBits.toNat / twoTo 52 % twoTo 11

/-- The fifty-two mantissa bits. -/
def mantissaField (x : Float) : Nat :=
  x.toBits.toNat % twoTo 52

/-- The magnitude of a finite decimal: `mantissa * 2 ^ shift` steps of `2 ^ -1074`. -/
structure Magnitude where
  mantissa : Nat
  shift : Nat

/-- The magnitude of `x`, if `x` is finite. Subnormal numbers have no hidden leading bit. -/
def magnitude (x : Float) : Magnitude :=
  if exponentField x = 0 then ⟨mantissaField x, 0⟩
  else ⟨twoTo 52 + mantissaField x, exponentField x - 1⟩

/-- Units of `2 ^ -1076` in one. -/
def unitsPerOne : Nat := twoTo 1076

namespace Magnitude

/-- The magnitude in units. -/
def units (m : Magnitude) : Nat :=
  4 * m.mantissa * twoTo m.shift

/-- The middle between the magnitude and the next one above, in units. -/
def upper (m : Magnitude) : Nat :=
  m.units + 2 * twoTo m.shift

/-- The middle between the magnitude and the next one below, in units. Below a power of two the
neighbours are twice as dense. -/
def lower (m : Magnitude) : Nat :=
  if m.mantissa = twoTo 52 ∧ 0 < m.shift then m.units - twoTo m.shift
  else m.units - 2 * twoTo m.shift

/-- Whether the middles on either side round to this magnitude: ties go to the even mantissa. -/
def ownsEnds (m : Magnitude) : Bool :=
  m.mantissa % 2 = 0

/-- The power of ten of the leading digit: every positive decimal exceeds `10 ^ -324`. -/
def leadingPower (m : Magnitude) : Int :=
  (Nat.toDigits 10 (m.units * tenTo 324 / unitsPerOne)).length - 325

end Magnitude

/-- A natural number times a power of ten. -/
structure Scaled where
  digits : Nat
  power : Int

/-- The point of the grid `10 ^ power` that stands for `m`: the nearer of its two neighbours
among those that read back as `m`, if there is one. -/
def onGrid? (m : Magnitude) (power : Int) : Option Scaled :=
  let scale := tenTo (-power).toNat
  let step := unitsPerOne * tenTo power.toNat
  let value := m.units * scale
  let below := value / step
  let low := m.lower * scale
  let high := m.upper * scale
  let belowFits := low < below * step || (m.ownsEnds && low = below * step)
  let aboveFits := (below + 1) * step < high || (m.ownsEnds && (below + 1) * step = high)
  if aboveFits && (!belowFits || step ≤ 2 * (value % step)) then some ⟨below + 1, power⟩
  else if belowFits then some ⟨below, power⟩
  else none

/-- The first of the grids with `1, 2, ...` digits that has a point for `m`. Seventeen digits
always suffice. -/
def shortest (m : Magnitude) : Scaled :=
  let lead := m.leadingPower
  ((List.range 17).findSome? fun (n : Nat) => onGrid? m (lead - n)).getD ⟨m.units, 0⟩

end Skript.Decimal
