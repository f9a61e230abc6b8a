import Skript.RunFault
import Skript.Value.Arithmetic

/-!
# Comparing values

Numbers are compared by size, an integer that meets a decimal being rounded to one. Texts are
compared character by character, a character being a text of its own. Any two values can be
tested for equality; only numbers and texts have an order.
-/
namespace Skript

/-- How `x` stands to `y`, if they are comparable. What is not a number stands in no order to
anything, itself included. Both zeros are equal. -/
def Decimal.compare? (x y : Float) : Option Ordering :=
  if x < y then some .lt
  else if x == y then some .eq
  else if y < x then some .gt
  else none

namespace Value

/-- Whether two values are equal. Values that cannot be compared are not. -/
def equals : Value → Value → Bool
  | num a, num b => a = b
  | num a, dec y => Integer.toDecimal a == y
  | dec x, num b => x == Integer.toDecimal b
  | dec x, dec y => x == y
  | bool a, bool b => a = b
  | l, r =>
      match l.asText?, r.asText? with
      | some s, some t => s = t
      | _, _ => false

/-- How `l` stands to `r`; numbers need not be comparable. -/
def order (l r : Value) : Except RunCause (Option Ordering) :=
  match l, r with
  | num a, num b => .ok (some (compare a.toInt b.toInt))
  | num a, dec y => .ok (Decimal.compare? (Integer.toDecimal a) y)
  | dec x, num b => .ok (Decimal.compare? x (Integer.toDecimal b))
  | dec x, dec y => .ok (Decimal.compare? x y)
  | _, _ =>
      match l.asText?, r.asText? with
      | some s, some t => .ok (some (compare s t))
      | _, _ => .error (.typeMismatch (.unordered l.kind r.kind))

/-- Whether an ordering operator accepts `o`. Operators that do not order accept nothing. -/
def accepts (op : Operator) (o : Ordering) : Bool :=
  match op with
  | .less => o.isLT
  | .greater => o.isGT
  | .lessEqual => o.isLE
  | .greaterEqual => o.isGE
  | _ => false

/-- The result of a comparing operator. Values without an order satisfy no ordering. -/
def comparison (op : Operator) (l r : Value) : Except RunCause Value :=
  match op with
  | .equal => .ok (bool (equals l r))
  | .notEqual => .ok (bool !(equals l r))
  | _ => do
      let o ← order l r
      return bool (o.any (accepts op))

/-- The result of any operator. -/
def binary (op : Operator) (l r : Value) : Except RunCause Value :=
  if op.isRelational then comparison op l r else arithmetic op l r

end Value

end Skript
