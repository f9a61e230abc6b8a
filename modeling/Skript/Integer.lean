import Skript.Digits

/-!
# Integers of sixty-four bits

Sums, differences and products are computed exactly and refused when the result does not fit.
Integers are written in decimal digits and read with an optional sign.
-/
namespace Skript.Integer

/-- Whether a mathematical integer has a sixty-four-bit form. -/
def Fits (n : Int) : Prop :=
  -9223372036854775808 ≤ n ∧ n ≤ 9223372036854775807

instance (n : Int) : Decidable (Fits n) :=
  inferInstanceAs (Decidable (_ ∧ _))

/-- The sixty-four-bit form of `n`, if it has one. -/
def ofInt? (n : Int) : Option Int64 :=
  if Fits n then some (Int64.ofInt n) else none

theorem ofInt?_eq_some_iff {n : Int} {k : Int64} : ofInt? n = some k ↔ k.toInt = n := by
  unfold ofInt?
  constructor
  · intro h
    split at h
    · next fits =>
        cases h
        exact Int64.toInt_ofInt_of_le fits.1 (Int.lt_add_one_of_le fits.2)
    · cases h
  · intro h
    subst h
    rw [if_pos ⟨Int64.le_toInt k, Int.le_of_lt_add_one (Int64.toInt_lt k)⟩, Int64.ofInt_toInt]

def add? (a b : Int64) : Option Int64 :=
  ofInt? (a.toInt + b.toInt)

def sub? (a b : Int64) : Option Int64 :=
  ofInt? (a.toInt - b.toInt)

def mul? (a b : Int64) : Option Int64 :=
  ofInt? (a.toInt * b.toInt)

/-- An integer in decimal digits, with a leading minus if it is negative. -/
def digits (n : Int) : List Char :=
  if n < 0 then '-' :: Nat.toDigits 10 n.natAbs else Nat.toDigits 10 n.natAbs

def text (n : Int64) : String :=
  String.ofList (digits n.toInt)

/-- The number denoted by one or more digits. -/
def readNat? (cs : List Char) : Option Nat :=
  if Digits.isRun cs then some (Digits.number cs) else none

/-- The number denoted by an optional sign and one or more digits, if it fits. -/
def read? (cs : List Char) : Option Int64 :=
  match cs with
  | '-' :: ds => (readNat? ds).bind fun n => ofInt? (-n)
  | '+' :: ds => (readNat? ds).bind fun n => ofInt? n
  | ds => (readNat? ds).bind fun n => ofInt? n

/-- The decimal nearest to an integer. -/
def toDecimal (n : Int64) : Float :=
  Float.ofInt n.toInt

/-- An integer as a number of repetitions: none if it is negative. -/
def count (n : Int64) : Nat :=
  n.toInt.toNat

/-- A count as an integer, if it fits. -/
def ofCount? (n : Nat) : Option Int64 :=
  ofInt? n

end Skript.Integer
