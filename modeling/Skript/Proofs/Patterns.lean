import Skript.Token.Tokenize

/-!
# The patterns of tokens

A token is described by a regular pattern and by what becomes of the text that matches it. Most
patterns are fixed spellings. Scanning takes from the front of a text, again and again, the longest
piece that matches a pattern of the table; a fixed spelling goes before any other pattern that
matches the same piece. Nothing here says how such a piece is found.
-/
namespace Skript

/-- The characters in some ranges, or all the others. -/
structure CharClass where
  ranges : List (Char × Char)
  negated : Bool := false
  deriving DecidableEq

namespace CharClass

def contains (k : CharClass) (c : Char) : Bool :=
  (k.ranges.any fun range => range.1 ≤ c && c ≤ range.2) != k.negated

def digit : CharClass := { ranges := [('0', '9')] }

def wordStart : CharClass := { ranges := [('a', 'z'), ('A', 'Z'), ('_', '_')] }

def wordChar : CharClass := { ranges := [('a', 'z'), ('A', 'Z'), ('0', '9'), ('_', '_')] }

def inlineBlank : CharClass :=
  { ranges := [(' ', ' '), ('\t', '\t'), ('\r', '\r'), ('\x0c', '\x0c')] }

def allBut (cs : List Char) : CharClass := { ranges := cs.map fun c => (c, c), negated := true }

end CharClass

/-- Regular patterns. -/
inductive Pattern where
  | text (chars : List Char)
  | one (chars : CharClass)
  | seq (first second : Pattern)
  | either (first second : Pattern)
  | many (repeated : Pattern)
  deriving DecidableEq

namespace Pattern

/-- The texts that match a pattern. -/
def Matches : Pattern → List Char → Prop
  | text chars, s => s = chars
  | one k, s => ∃ c, s = [c] ∧ k.contains c
  | seq p q, s => ∃ a b, s = a ++ b ∧ p.Matches a ∧ q.Matches b
  | either p q, s => p.Matches s ∨ q.Matches s
  | many p, s => ∃ parts : List (List Char), s = parts.flatten ∧ ∀ part ∈ parts, p.Matches part

def oneOrMore (p : Pattern) : Pattern := seq p (many p)

end Pattern

/-- A pattern and the token of a text that matches it, if it has one. -/
structure TokenRule where
  pattern : Pattern
  isFixed : Bool := false
  token? : List Char → Option Token

namespace TokenRule

open Pattern CharClass

/-- A spelling that always stands for the same token. -/
def fixed (spelling : String) (t : Token) : TokenRule where
  pattern := text spelling.toList
  isFixed := true
  token? _ := some t

def decimal : TokenRule where
  pattern := seq (oneOrMore (one digit)) (seq (text ['.']) (oneOrMore (one digit)))
  token? s := (Decimal.read? s).map .decimal

/-- An integer has a token only if its value fits into sixty-four bits. -/
def integer : TokenRule where
  pattern := oneOrMore (one digit)
  token? s := (Integer.ofInt? (Nat.ofDigitChars 10 s 0)).map .integer

/-- A text literal: a backslash escapes the next character, and the literal ends on its line. -/
def quoted (quote : Char) : TokenRule where
  pattern := seq (text [quote]) (seq
    (many (either (one (allBut [quote, '\\', '\n'])) (seq (text ['\\']) (one (allBut ['\n'])))))
    (text [quote]))
  token? s := some (.str (String.ofList (Piece.unescape s.tail.dropLast)))

def identifier : TokenRule where
  pattern := seq (one wordStart) (many (one wordChar))
  token? s := some (.identifier (String.ofList s))

def comment : TokenRule where
  pattern := seq (text ['/', '/']) (many (one (allBut ['\n', '\r'])))
  token? _ := some (.filler .comment)

def newLine : TokenRule := fixed "\n" (.filler .newLine)

def blanks : TokenRule where
  pattern := oneOrMore (one inlineBlank)
  token? _ := some (.filler .blanks)

/-- The words that are not identifiers. -/
def reservedWords : List (String × Token) :=
  [ ("true", .bool true), ("false", .bool false), ("drucken", .keyword .print),
    ("if", .keyword .cond), ("elf", .keyword .elseIf), ("el", .keyword .otherwise),
    ("else", .keyword .otherwise), ("for", .keyword .loop), ("func", .keyword .func),
    ("return", .keyword .ret), ("eingabe", .keyword .input), ("len", .keyword .len),
    ("num", .kind .num), ("dec", .kind .dec), ("str", .kind .str), ("chr", .kind .chr),
    ("bool", .kind .bool) ]

def signs : List (String × Symbol) :=
  [ ("==", .equalEqual), ("!=", .bangEqual), ("<=", .lessEqual), (">=", .greaterEqual),
    ("=", .equals), ("<", .less), (">", .greater), ("+", .plus), ("-", .minus), ("*", .star),
    ("/", .slash), ("(", .leftParen), (")", .rightParen), ("\x7b", .leftBrace),
    ("\x7d", .rightBrace), (",", .comma), (";", .semicolon) ]

/-- All patterns of tokens. -/
def all : List TokenRule :=
  [decimal, integer, quoted '"', quoted '\'', identifier, comment, newLine, blanks] ++
    reservedWords.map (fun word => fixed word.1 word.2) ++
    signs.map fun sign => fixed sign.1 (.symbol sign.2)

end TokenRule

/-- `Longest cs lexeme rule`: no piece at the front of `cs` that matches a pattern is longer than
`lexeme`, which matches that of `rule`; and if `lexeme` is a fixed spelling, `rule` is the one for
it. -/
structure Longest (cs lexeme : List Char) (rule : TokenRule) : Prop where
  listed : rule ∈ TokenRule.all
  front : lexeme <+: cs
  spelled : rule.pattern.Matches lexeme
  longest : ∀ other ∈ TokenRule.all, ∀ piece, piece <+: cs → other.pattern.Matches piece →
    piece.length ≤ lexeme.length
  fixedFirst : rule.isFixed = false →
    ∀ other ∈ TokenRule.all, other.isFixed → ¬ other.pattern.Matches lexeme

/-- `Scans cs taken rest`: scanning takes the pieces `taken`, each with its token, off the front of
`cs` and stops before `rest`, where no pattern matches or the longest piece that matches one has no
token. -/
inductive Scans : List Char → List (List Char × Token) → List Char → Prop
  | stop {cs : List Char} (stuck : ∀ lexeme rule, Longest cs lexeme rule →
      rule.token? lexeme = none) : Scans cs [] cs
  | take {lexeme cs rest : List Char} {rule : TokenRule} {t : Token}
      {taken : List (List Char × Token)} (longest : Longest (lexeme ++ cs) lexeme rule)
      (token : rule.token? lexeme = some t) (next : Scans cs taken rest) :
      Scans (lexeme ++ cs) ((lexeme, t) :: taken) rest

/-- What a token leaves in a script: nothing if it is a filler. -/
def Token.lexemes (line : Nat) : Token → List Lexeme
  | filler _ => []
  | t => [⟨t, line⟩]

/-- The line on which a text stands that comes after `before`. -/
def lineAfter (before : List Char) : Nat :=
  1 + before.count '\n'

/-- The lexemes of pieces that stand one after another behind `before`. -/
def placed (before : List Char) : List (List Char × Token) → List Lexeme
  | [] => []
  | (chars, t) :: taken => t.lexemes (lineAfter before) ++ placed (before ++ chars) taken

end Skript
