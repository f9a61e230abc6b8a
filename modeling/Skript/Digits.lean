/-!
# Numbers written in digits

A run of digits is read by halves, so that each product is of two numbers of about the same
length. Taking in one digit after the other costs time quadratic in the length of the run, and
scripts can build runs of any length.
-/
namespace Skript.Digits

/-- Whether `cs` is one or more digits. -/
def isRun (cs : List Char) : Bool :=
  !cs.isEmpty && cs.all Char.isDigit

/-- The first digits of a run: the number they denote, the power of ten that makes room for them
behind another number, and the digits that follow. -/
structure Block where
  number : Nat
  room : Nat
  rest : List Char

/-- The first `2 ^ level` digits of a run, or all of them where it is shorter. -/
def firstBlock : Nat → List Char → Block
  | _, [] => ⟨0, 1, []⟩
  | 0, c :: cs => ⟨c.toNat - '0'.toNat, 10, cs⟩
  | level + 1, cs =>
      let high := firstBlock level cs
      let low := firstBlock level high.rest
      ⟨high.number * low.room + low.number, high.room * low.room, low.rest⟩

/-- Reading on behind a block is the same as reading the run digit by digit. -/
theorem ofDigitChars_rest (level : Nat) (cs : List Char) (n : Nat) :
    Nat.ofDigitChars 10 (firstBlock level cs).rest
        (n * (firstBlock level cs).room + (firstBlock level cs).number) =
      Nat.ofDigitChars 10 cs n := by
  induction level generalizing cs n with
  | zero =>
      cases cs with
      | nil => simp [firstBlock]
      | cons c cs => simp [firstBlock, Nat.ofDigitChars_cons, Nat.mul_comm]
  | succ level ih =>
      cases cs with
      | nil => simp [firstBlock]
      | cons c cs =>
          rw [← ih (c :: cs) n, ← ih (firstBlock level (c :: cs)).rest]
          simp only [firstBlock, Nat.add_mul, Nat.mul_assoc, Nat.add_assoc]

/-- The number that a run of digits denotes. -/
def number (cs : List Char) : Nat :=
  let block := firstBlock (cs.length.log2 + 1) cs
  Nat.ofDigitChars 10 block.rest block.number

theorem number_eq (cs : List Char) : number cs = Nat.ofDigitChars 10 cs 0 := by
  simpa [number] using ofDigitChars_rest (cs.length.log2 + 1) cs 0

end Skript.Digits
