import Skript.RunFault

/-!
# Computing with values

Integers stay integers under sums, differences and products; any other operator divides and gives
a decimal. An integer that meets a decimal becomes one. Texts are joined by a sum and repeated by
a product with an integer, as far as there is room for them.
-/
namespace Skript.Value

/-- A quotient of decimals. -/
def divide (x y : Float) : Except RunCause Value :=
  if y == 0.0 then .error .divisionByZero else .ok (dec (x / y))

def computeDecimals (op : Operator) (x y : Float) : Except RunCause Value :=
  match op with
  | .add => .ok (dec (x + y))
  | .sub => .ok (dec (x - y))
  | .mul => .ok (dec (x * y))
  | _ => divide x y

def computeIntegers (op : Operator) (a b : Int64) : Except RunCause Value :=
  match op with
  | .add => num <$> RunCause.orOverflow (Integer.add? a b)
  | .sub => num <$> RunCause.orOverflow (Integer.sub? a b)
  | .mul => num <$> RunCause.orOverflow (Integer.mul? a b)
  | _ => divide (Integer.toDecimal a) (Integer.toDecimal b)

/-- The number of copies `n` of a text. Copies of the empty text need not be counted out. -/
def copies (s : String) (n : Nat) : String :=
  if s = "" then "" else String.join (List.replicate n s)

/-- Texts have fewer bytes than this. -/
def textLimit : Nat := 9223372036854775808

/-- A text repeated `n` times, none if `n` is negative. It is an overflow if its size in bytes takes
more than sixty-four bits. A size that takes all of them passes this check, though no text has so
many bytes. -/
def repeated (s : String) (n : Int64) : Except RunCause Value :=
  let size := s.utf8ByteSize * Integer.count n
  if UInt64.size ≤ size then .error .overflow
  else if textLimit ≤ size then .error .capacity
  else .ok (str (copies s (Integer.count n)))

/-- Two texts, one after the other. -/
def joined (s t : String) : Except RunCause Value :=
  if textLimit ≤ s.utf8ByteSize + t.utf8ByteSize then .error .capacity else .ok (str (s ++ t))

/-- The fault of applying `op` to values that it does not take. -/
def clash (op : Operator) (l r : Value) : Except RunCause Value :=
  .error (.typeMismatch (.operands op l.kind r.kind))

/-- Values of which at least one is no number. -/
def computeTexts (op : Operator) (l r : Value) : Except RunCause Value :=
  match op, l, r with
  | .mul, num n, t | .mul, t, num n =>
      match t.asText? with
      | some s => repeated s n
      | none => clash op l r
  | .add, _, _ =>
      match l.asText?, r.asText? with
      | some s, some t => joined s t
      | _, _ => clash op l r
  | _, _, _ => clash op l r

/-- The result of a computing operator. On numbers an operator that compares divides. -/
def arithmetic (op : Operator) (l r : Value) : Except RunCause Value :=
  match l, r with
  | num a, num b => computeIntegers op a b
  | _, _ =>
      match l.asDecimal?, r.asDecimal? with
      | some x, some y => computeDecimals op x y
      | _, _ => computeTexts op l r

end Skript.Value
