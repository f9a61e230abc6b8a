/-!
# Sets of characters

A property of characters is given by the closed ranges of its code points, in ascending order
and apart from each other. The search stops at the first range above the code point.

White space is such a set. Texts can be freed of it at either end.
-/
namespace Skript.Text

/-- Whether `n` lies in one of the ascending closed ranges. -/
def inRanges (n : Nat) : List (Nat × Nat) → Bool
  | [] => false
  | (first, last) :: rest => if n < first then false else n ≤ last || inRanges n rest

/-! ### White space -/

/-- Code points with the property `White_Space`. -/
def blankRanges : List (Nat × Nat) :=
  [ (0x9, 0xd), (0x20, 0x20), (0x85, 0x85), (0xa0, 0xa0), (0x1680, 0x1680), (0x2000, 0x200a),
    (0x2028, 0x2029), (0x202f, 0x202f), (0x205f, 0x205f), (0x3000, 0x3000) ]

/-- Whether `c` is white space. -/
def isBlank (c : Char) : Bool :=
  inRanges c.toNat blankRanges

/-- The text without its leading white space. -/
def trimLeft (cs : List Char) : List Char :=
  cs.dropWhile isBlank

/-- The text without its trailing white space. -/
def trimRight (cs : List Char) : List Char :=
  (trimLeft cs.reverse).reverse

/-- The text without white space at either end. -/
def trim (cs : List Char) : List Char :=
  trimRight (trimLeft cs)

end Skript.Text
