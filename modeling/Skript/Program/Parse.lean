import Skript.Program
import Skript.SourceFault

/-!
# From lexemes to programs

Recursive descent with one lexeme of look-ahead, two where an assignment may start. A reader takes
the lexemes that are left and gives back those it did not use.

The numeral argument bounds how deep a reader may go. Used up, it answers as if no lexeme were
left, and `parse` starts with more depth than its lexemes can use.
-/
namespace Skript

/-- A reader of some part of a program. -/
structure Parse (α : Type) where
  run : List Lexeme → Except SourceFault (α × List Lexeme)

namespace Parse

variable {α β : Type}

@[always_inline, inline]
protected def pure (a : α) : Parse α := ⟨fun ls => .ok (a, ls)⟩

/-- Goes on with what the first reader left. -/
@[always_inline, inline]
protected def bind (x : Parse α) (f : α → Parse β) : Parse β := ⟨fun ls =>
  match x.run ls with
  | .ok (a, rest) => (f a).run rest
  | .error fault => .error fault⟩

instance : Monad Parse where
  pure := Parse.pure
  bind := Parse.bind

@[simp] theorem run_pure (a : α) (ls : List Lexeme) : (pure a : Parse α).run ls = .ok (a, ls) := rfl

theorem run_bind (x : Parse α) (f : α → Parse β) (ls : List Lexeme) :
    (x >>= f).run ls =
      match x.run ls with
      | .ok (a, rest) => (f a).run rest
      | .error fault => .error fault := rfl

def fail (fault : SourceFault) : Parse α := ⟨fun _ => .error fault⟩

/-- Takes the symbol `sign` and gives its line. -/
def expect (sign : Symbol) : Parse Nat := ⟨fun
  | [] => .error (.nothingLeft (.symbol sign))
  | l :: ls =>
      if l.token = .symbol sign then .ok (l.line, ls) else .error (.unexpected (.symbol sign) l)⟩

def identifier : Parse String := ⟨fun
  | [] => .error (.nothingLeft .identifier)
  | ⟨.identifier name, _⟩ :: ls => .ok (name, ls)
  | l :: _ => .error (.unexpected .identifier l)⟩

def kind : Parse Kind := ⟨fun
  | [] => .error (.nothingLeft .kind)
  | ⟨.kind k, _⟩ :: ls => .ok (k, ls)
  | l :: _ => .error (.unexpected .kind l)⟩

/-- What `inner` reads, with a closing parenthesis after it. -/
def closed (inner : Parse α) : Parse α := do
  let a ← inner
  let _ ← expect .rightParen
  return a

/-- What `inner` reads, in parentheses. -/
def parenthesized (inner : Parse α) : Parse α := do
  let _ ← expect .leftParen
  closed inner

mutual

/-- One or more items with commas between them, and the symbol that closes the list. -/
def items (item : Parse α) (closing : Symbol) : Nat → Parse (List α)
  | 0 => fail (.nothingLeft (.symbol closing))
  | n + 1 => do
      let first ← item
      let rest ← itemsAfter item closing n
      return first :: rest

/-- What follows an item: a comma and more items, or the symbol that closes the list. -/
def itemsAfter (item : Parse α) (closing : Symbol) : Nat → Parse (List α)
  | 0 => fail (.nothingLeft (.symbol closing))
  | n + 1 => ⟨fun
    | [] => .error (.nothingLeft (.symbol closing))
    | l :: ls =>
        if l.token = .symbol .comma then (items item closing n).run ls
        else if l.token = .symbol closing then .ok ([], ls)
        else .error (.unexpected (.commaOr closing) l)⟩

end

/-- Any number of items with commas between them, and the symbol that closes the list. -/
def commaSeparated (item : Parse α) (closing : Symbol) (n : Nat) : Parse (List α) := ⟨fun
  | [] => (items item closing n).run []
  | l :: ls =>
      if l.token = .symbol closing then .ok ([], ls) else (items item closing n).run (l :: ls)⟩

/-- The arguments of an input expression: an optional prompt and an optional kind. -/
def inputArguments : Parse (Option String × Option Kind) := ⟨fun
  | ⟨.str prompt, _⟩ :: ⟨.symbol .comma, _⟩ :: ls => ((some prompt, some ·) <$> kind).run ls
  | ⟨.str prompt, _⟩ :: ls => .ok ((some prompt, none), ls)
  | ⟨.kind k, _⟩ :: ls => .ok ((none, some k), ls)
  | ls => .ok ((none, none), ls)⟩

/-- An input expression whose keyword, on `line`, was just passed. -/
def inputAfter (line : Nat) : Parse Expr := do
  let (prompt, kind) ← parenthesized inputArguments
  return .input prompt kind line

mutual

/-- A chain of operands and operators of one level, grouped from the left. -/
def chain : Nat → Level → Parse Expr
  | 0, _ => fail (.nothingLeft .expression)
  | n + 1, level => do
      let left ← operand n level
      chainAfter n level left

/-- An operand of a chain: a chain of the next tighter level, if there is one. -/
def operand : Nat → Level → Parse Expr
  | 0, _ => fail (.nothingLeft .expression)
  | n + 1, .relational => chain n .additive
  | n + 1, .additive => chain n .multiplicative
  | n + 1, .multiplicative => unary n

/-- What follows the first operand of a chain. -/
def chainAfter : Nat → Level → Expr → Parse Expr
  | 0, _, left => pure left
  | n + 1, level, left => ⟨fun
    | [] => .ok (left, [])
    | l :: ls =>
        match l.token.operator? with
        | none => .ok (left, l :: ls)
        | some op =>
            if op.level = level then (chainLink n level left op l.line).run ls
            else .ok (left, l :: ls)⟩

/-- A chain after one of its operators, which stands on `line`. -/
def chainLink : Nat → Level → Expr → Operator → Nat → Parse Expr
  | 0, _, _, _, _ => fail (.nothingLeft .expression)
  | n + 1, level, left, op, line => do
      let right ← operand n level
      chainAfter n level (.binary left op right line)

/-- An operand with any number of minus signs before it, each a subtraction from zero. -/
def unary : Nat → Parse Expr
  | 0 => fail (.nothingLeft .expression)
  | n + 1 => ⟨fun
    | ⟨.symbol .minus, line⟩ :: ls =>
        ((.binary (.literal (.num 0) line) .sub · line) <$> unary n).run ls
    | ls => (primary n).run ls⟩

/-- A literal, a variable, a call or an expression in parentheses. -/
def primary : Nat → Parse Expr
  | 0 => fail (.nothingLeft .expression)
  | n + 1 => ⟨fun
    | [] => .error (.nothingLeft .expression)
    | ⟨.decimal x, line⟩ :: ls => .ok (.literal (.dec x) line, ls)
    | ⟨.integer k, line⟩ :: ls => .ok (.literal (.num k) line, ls)
    | ⟨.str s, line⟩ :: ls => .ok (.literal (.ofText s) line, ls)
    | ⟨.bool b, line⟩ :: ls => .ok (.literal (.bool b) line, ls)
    | ⟨.symbol .leftParen, _⟩ :: ls => (closed (chain n .relational)).run ls
    | ⟨.identifier name, line⟩ :: ⟨.symbol .leftParen, _⟩ :: ls =>
        ((.call name · line) <$> commaSeparated (chain n .relational) .rightParen n).run ls
    | ⟨.identifier name, line⟩ :: ls => .ok (.var name line, ls)
    | ⟨.keyword .input, line⟩ :: ls => (inputAfter line).run ls
    | ⟨.keyword .len, line⟩ :: ls =>
        ((.length · line) <$> parenthesized (chain n .relational)).run ls
    | ⟨.kind k, line⟩ :: _ => .error ⟨.kindInExpression k, line⟩
    | l :: _ => .error (.unexpected .expression l)⟩

end

/-- An expression: a chain of the weakest operators. -/
def expression (n : Nat) : Parse Expr :=
  chain n .relational

/-- Statements up to and with the closing brace of a block that was opened on `line`. Semicolons
may stand anywhere between them. -/
def blockAfter (statement : Parse Statement) (line : Nat) : Nat → Parse (List Statement)
  | 0 => fail ⟨.unexpectedEnd (.symbol .rightBrace), line⟩
  | n + 1 => ⟨fun
    | [] => .error ⟨.unexpectedEnd (.symbol .rightBrace), line⟩
    | ⟨.symbol .semicolon, _⟩ :: ls => (blockAfter statement line n).run ls
    | ⟨.symbol .rightBrace, _⟩ :: ls => .ok ([], ls)
    | ⟨.endOfInput, last⟩ :: _ => .error ⟨.unexpectedEnd (.symbol .rightBrace), last⟩
    | ls =>
        Parse.run (do
          let first ← statement
          let rest ← blockAfter statement line n
          return first :: rest) ls⟩

/-- A block in braces. -/
def block (statement : Parse Statement) (n : Nat) : Parse (List Statement) := do
  let line ← expect .leftBrace
  blockAfter statement line n

mutual

/-- A choice whose opening keyword, on `line`, was just passed. -/
def choice (statement : Parse Statement) : Nat → Nat → Parse Choice
  | 0, _ => fail (.nothingLeft .expression)
  | n + 1, line => do
      let condition ← expression n
      let body ← block statement n
      let rest ← otherwise statement n
      return .mk condition body rest line

/-- What follows the block of a choice. -/
def otherwise (statement : Parse Statement) : Nat → Parse Otherwise
  | 0 => pure .nothing
  | n + 1 => ⟨fun
    | ⟨.keyword .elseIf, line⟩ :: ls => (.elseIf <$> choice statement n line).run ls
    | ⟨.keyword .otherwise, _⟩ :: ⟨.keyword .cond, line⟩ :: ls =>
        (.elseIf <$> choice statement n line).run ls
    | ⟨.keyword .otherwise, _⟩ :: ls => (.block <$> block statement n).run ls
    | ls => .ok (.nothing, ls)⟩

end

/-- A function definition whose keyword, on `line`, was just passed. -/
def functionAfter (statement : Parse Statement) (n line : Nat) : Parse Statement := do
  let name ← identifier
  let _ ← expect .leftParen
  let params ← commaSeparated identifier .rightParen n
  let body ← block statement n
  return .function name params body line

/-- A loop whose keyword, on `line`, was just passed. -/
def loopAfter (statement : Parse Statement) (n line : Nat) : Parse Statement := do
  let _ ← expect .leftParen
  let init ← statement
  let _ ← expect .semicolon
  let condition ← expression n
  let _ ← expect .semicolon
  let update ← statement
  let _ ← expect .rightParen
  let body ← block statement n
  return .loop init condition update body line

/-- What follows the kind and the name of a variable: its first value, or nothing. -/
def initialValue (n : Nat) (kind : Kind) (name : String) (line : Nat) : Parse Statement := ⟨fun
  | ⟨.symbol .equals, _⟩ :: ls => ((.assignTyped name kind · line) <$> expression n).run ls
  | ls => .ok (.declare name kind line, ls)⟩

/-- A declaration whose kind, on `line`, was just passed. -/
def declarationAfter (n : Nat) (kind : Kind) (line : Nat) : Parse Statement := do
  let name ← identifier
  initialValue n kind name line

def statement : Nat → Parse Statement
  | 0 => fail (.nothingLeft .expression)
  | n + 1 => ⟨fun
    | ⟨.keyword .func, line⟩ :: ls => (functionAfter (statement n) n line).run ls
    | ⟨.keyword .ret, line⟩ :: ls => ((.ret · line) <$> expression n).run ls
    | ⟨.keyword .print, line⟩ :: ls =>
        ((.print · line) <$> parenthesized (expression n)).run ls
    | ⟨.keyword .cond, line⟩ :: ls => (.choose <$> choice (statement n) n line).run ls
    | ⟨.keyword .loop, line⟩ :: ls => (loopAfter (statement n) n line).run ls
    | ⟨.kind k, line⟩ :: ls => (declarationAfter n k line).run ls
    | ⟨.identifier name, _⟩ :: ⟨.symbol .equals, line⟩ :: ls =>
        ((.assign name · line) <$> expression n).run ls
    | ls => ((fun e => .expr e e.line) <$> expression n).run ls⟩

/-- Statements up to the end of the input, with semicolons anywhere between them. -/
def program (statement : Parse Statement) : Nat → Parse (List Statement)
  | 0 => pure []
  | n + 1 => ⟨fun
    | [] => .ok ([], [])
    | ⟨.symbol .semicolon, _⟩ :: ls => (program statement n).run ls
    | ⟨.endOfInput, line⟩ :: ls => .ok ([], ⟨.endOfInput, line⟩ :: ls)
    | ls =>
        Parse.run (do
          let first ← statement
          let rest ← program statement n
          return first :: rest) ls⟩

end Parse

/-- More depth than reading these lexemes can use: no more than ten readers are entered for every
lexeme that is taken. -/
def parseDepth (ls : List Lexeme) : Nat :=
  10 * (ls.length + 1)

/-- The program that the lexemes spell. -/
def parse (ls : List Lexeme) : Except SourceFault (List Statement) :=
  let depth := parseDepth ls
  ((Parse.program (Parse.statement depth) depth).run ls).map Prod.fst

end Skript
