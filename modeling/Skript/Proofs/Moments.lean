import Mathlib.Logic.Relation
import Skript.Proofs.Ending

/-!
# The moments of a run

What a run passes through on its way: at each moment some part of the program is about to be run on
some machine. A part is come to when all that runs before it has ended well, whatever becomes of it
then.
-/
namespace Skript

open Exec

/-- What can be about to be run. -/
inductive Task where
  | expr (e : Expr)
  | arguments (es : List Expr) (line : Nat)
  | call (name : String) (args : List Value) (line : Nat)
  | statement (s : Statement)
  | block (ss : List Statement)
  | rounds (condition : Expr) (update : Statement) (body : List Statement) (line : Nat)

structure Moment where
  task : Task
  machine : Machine

namespace Exec

/-- The value of an expression that has to have one. -/
def operand (limit : Option Nat) (e : Expr) (line n : Nat) : Exec Value :=
  required line (evaluate limit n e)

/-- The values of the arguments of a call. -/
def arguments (limit : Option Nat) (es : List Expr) (line n : Nat) : Exec (List Value) :=
  collect (fun e => operand limit e line n) es

/-- At most `k` rounds of a loop. -/
def rounds (limit : Option Nat) (condition : Expr) (update : Statement) (body : List Statement)
    (line n k : Nat) : Exec Unit :=
  repeatWhile (Value.isTruthy <$> operand limit condition line n)
    (do
      let _ ← executeAll limit n body
      let _ ← execute limit n update) k

theorem rounds_succ (limit : Option Nat) (condition : Expr) (update : Statement)
    (body : List Statement) (line n k : Nat) :
    rounds limit condition update body line n (k + 1) = (do
      let v ← operand limit condition line n
      if v.isTruthy then
        let _ ← executeAll limit n body
        let _ ← execute limit n update
        rounds limit condition update body line n k
      else pure ()) := by
  simp only [rounds, repeatWhile, bind_map_left, bind_assoc, pure_bind]

theorem execute_loop (limit : Option Nat) (n : Nat) (init : Statement) (condition : Expr)
    (update : Statement) (body : List Statement) (line : Nat) :
    execute limit (n + 1) (.loop init condition update body line) = (do
      let _ ← execute limit n init
      rounds limit condition update body line n n
      return none) := by
  rw [execute]
  rfl

theorem steady_operand (limit : Option Nat) (e : Expr) (line : Nat) :
    Steady (operand limit e line) :=
  (steady_evaluate limit e).required line

theorem steady_arguments (limit : Option Nat) (es : List Expr) (line : Nat) :
    Steady (arguments limit es line) :=
  Steady.collect (fun e => steady_operand limit e line) es

end Exec

namespace Moment

/-- From one moment the run comes to the other, into a part of what is about to be run or behind one
of its parts. -/
inductive Leads (limit : Option Nat) : Moment → Moment → Prop
  | left : Leads limit ⟨.expr (.binary l op r i), m⟩ ⟨.expr l, m⟩
  | right (first : Ends (operand limit l i) m (.ok v) m') :
      Leads limit ⟨.expr (.binary l op r i), m⟩ ⟨.expr r, m'⟩
  | arguments : Leads limit ⟨.expr (.call name es i), m⟩ ⟨.arguments es i, m⟩
  | call (given : Ends (arguments limit es i) m (.ok args) m') :
      Leads limit ⟨.expr (.call name es i), m⟩ ⟨.call name args i, m'⟩
  | length : Leads limit ⟨.expr (.length e i), m⟩ ⟨.expr e, m⟩
  | firstArgument : Leads limit ⟨.arguments (e :: es) i, m⟩ ⟨.expr e, m⟩
  | laterArguments (first : Ends (operand limit e i) m (.ok v) m') :
      Leads limit ⟨.arguments (e :: es) i, m⟩ ⟨.arguments es i, m'⟩
  | body (user : Builtin.find? name = none) (found : m.functions[name]? = some d)
      (arity : checkArity name d.params.length args.length = .ok ())
      (depth : checkDepth limit m.depth = .ok ()) :
      Leads limit ⟨.call name args i, m⟩
        ⟨.block (Statement.upToReturn d.body), m.enter (.ofArguments d.params args)⟩
  | ret : Leads limit ⟨.statement (.ret e i), m⟩ ⟨.expr e, m⟩
  | print : Leads limit ⟨.statement (.print e i), m⟩ ⟨.expr e, m⟩
  | condition : Leads limit ⟨.statement (.choose (.mk e ss o i)), m⟩ ⟨.expr e, m⟩
  | chosen (first : Ends (operand limit e i) m (.ok v) m') (holds : v.isTruthy) :
      Leads limit ⟨.statement (.choose (.mk e ss o i)), m⟩ ⟨.block ss, m'⟩
  | otherwise (first : Ends (operand limit e i) m (.ok v) m') (fails : ¬ v.isTruthy) :
      Leads limit ⟨.statement (.choose (.mk e ss (.block ss') i)), m⟩ ⟨.block ss', m'⟩
  | elseIf (first : Ends (operand limit e i) m (.ok v) m') (fails : ¬ v.isTruthy) :
      Leads limit ⟨.statement (.choose (.mk e ss (.elseIf c) i)), m⟩ ⟨.statement (.choose c), m'⟩
  | init : Leads limit ⟨.statement (.loop s e u ss i), m⟩ ⟨.statement s, m⟩
  | rounds (started : Ends (fun n => execute limit n s) m (.ok v) m') :
      Leads limit ⟨.statement (.loop s e u ss i), m⟩ ⟨.rounds e u ss i, m'⟩
  | roundCondition : Leads limit ⟨.rounds e u ss i, m⟩ ⟨.expr e, m⟩
  | roundBody (first : Ends (operand limit e i) m (.ok v) m') (holds : v.isTruthy) :
      Leads limit ⟨.rounds e u ss i, m⟩ ⟨.block ss, m'⟩
  | roundUpdate (first : Ends (operand limit e i) m (.ok v) m') (holds : v.isTruthy)
      (body : Ends (fun n => executeAll limit n ss) m' (.ok v') m'') :
      Leads limit ⟨.rounds e u ss i, m⟩ ⟨.statement u, m''⟩
  | nextRound (first : Ends (operand limit e i) m (.ok v) m') (holds : v.isTruthy)
      (body : Ends (fun n => executeAll limit n ss) m' (.ok v') m'')
      (update : Ends (fun n => execute limit n u) m'' (.ok v'') m₃) :
      Leads limit ⟨.rounds e u ss i, m⟩ ⟨.rounds e u ss i, m₃⟩
  | assignTyped : Leads limit ⟨.statement (.assignTyped name kind e i), m⟩ ⟨.expr e, m⟩
  | assign : Leads limit ⟨.statement (.assign name e i), m⟩ ⟨.expr e, m⟩
  | alone : Leads limit ⟨.statement (.expr e i), m⟩ ⟨.expr e, m⟩
  | firstStatement : Leads limit ⟨.block (s :: ss), m⟩ ⟨.statement s, m⟩
  | laterStatements (first : Ends (fun n => execute limit n s) m (.ok v) m') :
      Leads limit ⟨.block (s :: ss), m⟩ ⟨.block ss, m'⟩

/-- The run that starts at one moment passes through the other. -/
abbrev Reaches (limit : Option Nat) : Moment → Moment → Prop :=
  Relation.ReflTransGen (Leads limit)

end Moment

end Skript
