import Skript.Proofs.Ending
import Skript.Proofs.Respelling

/-!
# The first condition that holds decides

A choice that goes on with further choices is a chain of branches. Their conditions are evaluated
one after the other, each on the machine that the one before has left, until one holds; then its
block is run and nothing else. A condition that fails, or has no value, ends the whole chain.
-/
namespace Skript

/-- A condition and the block to run if it holds, after a keyword on `line`. -/
structure Branch where
  condition : Expr
  body : List Statement
  line : Nat

/-- What is left to do when no condition holds: to run the last block, if there is one. -/
def Otherwise.ofLast : Option (List Statement) → Otherwise
  | none => .nothing
  | some body => .block body

/-- The choice between branches in order, with a last block for the case that no condition holds. -/
def Choice.chain (first : Branch) (rest : List Branch) (last : Option (List Statement)) : Choice :=
  match rest with
  | [] => .mk first.condition first.body (.ofLast last) first.line
  | next :: rest => .mk first.condition first.body (.elseIf (chain next rest last)) first.line

/-- Every choice is a chain. -/
theorem Choice.exists_chain : ∀ c : Choice, ∃ first rest last, c = .chain first rest last
  | .mk condition body .nothing line => ⟨⟨condition, body, line⟩, [], none, rfl⟩
  | .mk condition body (.block otherwise) line =>
    ⟨⟨condition, body, line⟩, [], some otherwise, rfl⟩
  | .mk condition body (.elseIf c) line => by
    obtain ⟨first, rest, last, rfl⟩ := c.exists_chain
    exact ⟨⟨condition, body, line⟩, first :: rest, last, rfl⟩

namespace Exec

/-- The conditions of the branches are evaluated in order, starting on `m` and each on the machine
that the one before has left, and none of them holds. -/
inductive Refused (limit : Option Nat) : List Branch → Machine → Machine → Prop
  | nil (m : Machine) : Refused limit [] m m
  | cons {b : Branch} {bs : List Branch} {m middle after : Machine} {v : Value}
      (evaluated : Ends (fun n => evaluate limit n b.condition) m (.ok (some v)) middle)
      (refused : v.isTruthy = false) (rest : Refused limit bs middle after) :
      Refused limit (b :: bs) m after

/-- How a chain ends on `m`: with the block of the first condition that holds, with the fault or the
missing value of a condition before which none holds, or with what is done when none holds. -/
inductive Chosen (limit : Option Nat) (branches : List Branch) (last : Option (List Statement))
    (m : Machine) : Except RunFault (Option Value) → Machine → Prop
  | branch {earlier later : List Branch} {b : Branch} {before middle after : Machine} {v : Value}
      {result : Except RunFault (Option Value)} (split : branches = earlier ++ b :: later)
      (refused : Refused limit earlier m before)
      (evaluated : Ends (fun n => evaluate limit n b.condition) before (.ok (some v)) middle)
      (holds : v.isTruthy = true)
      (run : Ends (fun n => executeAll limit n b.body) middle result after) :
      Chosen limit branches last m result after
  | failed {earlier later : List Branch} {b : Branch} {before after : Machine} {fault : RunFault}
      (split : branches = earlier ++ b :: later) (refused : Refused limit earlier m before)
      (evaluated : Ends (fun n => evaluate limit n b.condition) before (.error fault) after) :
      Chosen limit branches last m (.error fault) after
  | missing {earlier later : List Branch} {b : Branch} {before after : Machine}
      (split : branches = earlier ++ b :: later) (refused : Refused limit earlier m before)
      (evaluated : Ends (fun n => evaluate limit n b.condition) before (.ok none) after) :
      Chosen limit branches last m (.error ⟨.missingValue, b.line⟩) after
  | last {body : List Statement} {before after : Machine}
      {result : Except RunFault (Option Value)} (refused : Refused limit branches m before)
      (block : last = some body)
      (run : Ends (fun n => executeAll limit n body) before result after) :
      Chosen limit branches last m result after
  | nothing {after : Machine} (refused : Refused limit branches m after) (block : last = none) :
      Chosen limit branches last m (.ok none) after

section Steps

variable {limit : Option Nat} {m after : Machine} {result : Except RunFault (Option Value)}

theorem steady_executeOtherwise (limit : Option Nat) (otherwise : Otherwise) :
    Steady fun n => executeOtherwise limit n otherwise := by
  cases otherwise with
  | nothing => exact fun _ _ _ => Matches.pure rfl
  | block body => exact steady_executeAll limit body
  | elseIf choice => exact steady_execute limit (.choose choice)

/-- How a single choice ends, by what comes of its condition. -/
theorem ends_choose_iff {condition : Expr} {body : List Statement} {otherwise : Otherwise}
    {line : Nat} :
    Ends (fun n => execute limit n (.choose (.mk condition body otherwise line))) m result after ↔
      (∃ fault, Ends (fun n => evaluate limit n condition) m (.error fault) after ∧
        result = .error fault) ∨
      (Ends (fun n => evaluate limit n condition) m (.ok none) after ∧
        result = .error ⟨.missingValue, line⟩) ∨
      ∃ v middle, Ends (fun n => evaluate limit n condition) m (.ok (some v)) middle ∧
        if v.isTruthy then Ends (fun n => executeAll limit n body) middle result after
        else Ends (fun n => executeOtherwise limit n otherwise) middle result after := by
  have hsteady : ∀ v : Value, Steady fun n =>
      if v.isTruthy then lastOf (execute limit n) none body
      else executeOtherwise limit n otherwise :=
    fun v => (steady_executeAll limit body).ite (steady_executeOtherwise limit otherwise) v.isTruthy
  rw [← (steady_execute limit _).ends_succ_iff]
  simp only [execute_choose]
  rw [ends_bind_iff ((steady_evaluate limit condition).required line) hsteady]
  simp only [ends_required_error_iff, ends_required_ok_iff, ends_ite]
  constructor
  · rintro (⟨fault, hfails | ⟨hnone, rfl⟩, hresult⟩ | hvalue)
    · exact .inl ⟨fault, hfails, hresult⟩
    · exact .inr (.inl ⟨hnone, hresult⟩)
    · exact .inr (.inr hvalue)
  · rintro (⟨fault, hfails, hresult⟩ | ⟨hnone, hresult⟩ | hvalue)
    · exact .inl ⟨fault, .inl hfails, hresult⟩
    · exact .inl ⟨_, .inr ⟨hnone, rfl⟩, hresult⟩
    · exact .inr hvalue

variable {last : Option (List Statement)}

theorem chosen_nil_iff : Chosen limit [] last m result after ↔
    Ends (fun n => executeOtherwise limit n (.ofLast last)) m result after := by
  constructor
  · intro h
    cases h with
    | branch split | failed split | missing split => simp at split
    | last refused block run =>
      cases refused
      subst block
      exact run
    | nothing refused block =>
      cases refused
      subst block
      exact ⟨0, rfl⟩
  · intro h
    cases last with
    | none =>
      obtain ⟨n, hn⟩ := h
      cases hn
      exact .nothing (.nil m) rfl
    | some body => exact .last (.nil m) rfl h

variable {b : Branch} {bs : List Branch}

theorem Chosen.cons {middle : Machine} {v : Value}
    (evaluated : Ends (fun n => evaluate limit n b.condition) m (.ok (some v)) middle)
    (refused : v.isTruthy = false) (h : Chosen limit bs last middle result after) :
    Chosen limit (b :: bs) last m result after := by
  cases h with
  | branch split passed condition holds run =>
    exact .branch (congrArg (b :: ·) split) (.cons evaluated refused passed) condition holds run
  | failed split passed condition =>
    exact .failed (congrArg (b :: ·) split) (.cons evaluated refused passed) condition
  | missing split passed condition =>
    exact .missing (congrArg (b :: ·) split) (.cons evaluated refused passed) condition
  | last passed block run => exact .last (.cons evaluated refused passed) block run
  | nothing passed block => exact .nothing (.cons evaluated refused passed) block

/-- A chain is decided by its first branch, or by the others on the machine that the first condition
has left. -/
theorem chosen_cons_iff : Chosen limit (b :: bs) last m result after ↔
    (∃ fault, Ends (fun n => evaluate limit n b.condition) m (.error fault) after ∧
      result = .error fault) ∨
    (Ends (fun n => evaluate limit n b.condition) m (.ok none) after ∧
      result = .error ⟨.missingValue, b.line⟩) ∨
    ∃ v middle, Ends (fun n => evaluate limit n b.condition) m (.ok (some v)) middle ∧
      if v.isTruthy then Ends (fun n => executeAll limit n b.body) middle result after
      else Chosen limit bs last middle result after := by
  constructor
  · intro h
    -- with the first condition refused, the same constructor describes the other branches
    have later {v : Value} {middle : Machine}
        (evaluated : Ends (fun n => evaluate limit n b.condition) m (.ok (some v)) middle)
        (refused : v.isTruthy = false) (rest : Chosen limit bs last middle result after) :
        ∃ v middle, Ends (fun n => evaluate limit n b.condition) m (.ok (some v)) middle ∧
          if v.isTruthy then Ends (fun n => executeAll limit n b.body) middle result after
          else Chosen limit bs last middle result after := by
      refine ⟨v, middle, evaluated, ?_⟩
      rw [refused]
      exact rest
    cases h with
    | branch split passed condition holds run =>
      cases passed with
      | nil =>
        cases split
        exact .inr (.inr ⟨_, _, condition, by rwa [if_pos holds]⟩)
      | cons evaluated refused passed =>
        cases split
        exact .inr (.inr (later evaluated refused (.branch rfl passed condition holds run)))
    | failed split passed condition =>
      cases passed with
      | nil =>
        cases split
        exact .inl ⟨_, condition, rfl⟩
      | cons evaluated refused passed =>
        cases split
        exact .inr (.inr (later evaluated refused (.failed rfl passed condition)))
    | missing split passed condition =>
      cases passed with
      | nil =>
        cases split
        exact .inr (.inl ⟨condition, rfl⟩)
      | cons evaluated refused passed =>
        cases split
        exact .inr (.inr (later evaluated refused (.missing rfl passed condition)))
    | last passed block run =>
      cases passed with
      | cons evaluated refused passed =>
        exact .inr (.inr (later evaluated refused (.last passed block run)))
    | nothing passed block =>
      cases passed with
      | cons evaluated refused passed =>
        exact .inr (.inr (later evaluated refused (.nothing passed block)))
  · rintro (⟨fault, hfails, rfl⟩ | ⟨hnone, rfl⟩ | ⟨v, middle, hvalue, hrest⟩)
    · exact .failed (List.nil_append _).symm (.nil m) hfails
    · exact .missing (List.nil_append _).symm (.nil m) hnone
    · cases htruthy : v.isTruthy with
      | true =>
        rw [htruthy] at hrest
        exact .branch (List.nil_append _).symm (.nil m) hvalue htruthy hrest
      | false =>
        rw [htruthy] at hrest
        exact .cons hvalue htruthy hrest

/-- A chain ends just as its branches say. The induction is on the branches behind the first one,
which are what the first choice does otherwise. -/
theorem ends_chain_iff (first : Branch) (rest : List Branch) :
    Ends (fun n => execute limit n (.choose (.chain first rest last))) m result after ↔
      Chosen limit (first :: rest) last m result after := by
  induction rest generalizing first m with
  | nil =>
    rw [Choice.chain, ends_choose_iff, chosen_cons_iff]
    simp only [chosen_nil_iff]
  | cons next rest ih =>
    rw [Choice.chain, ends_choose_iff, chosen_cons_iff]
    simp only [executeOtherwise, ih]

end Steps

end Exec

open Exec Grammar

/-- A choice is a chain of branches, and ends as these say: with the block of the first condition
that holds, or with the fault of one before it, or as it does when none holds. Whether a further
branch starts with `elf` or with `el` and `if`, the same program is read. -/
theorem first_condition_that_holds_decides :
    (∀ (limit : Option Nat) (first : Branch) (rest : List Branch) (last : Option (List Statement))
      (m after : Machine) (result : Except RunFault (Option Value)),
      Ends (fun n => execute limit n (.choose (.chain first rest last))) m result after ↔
        Chosen limit (first :: rest) last m result after) ∧
    (∀ c : Choice, ∃ first rest last, c = .chain first rest last) ∧
    ∀ (ls ls' : List Lexeme) (ss : List Statement),
      Respelled ls ls' → parse ls = .ok ss → parse ls' = .ok ss :=
  ⟨fun _ first rest _ _ _ _ => ends_chain_iff first rest, Choice.exists_chain,
    fun _ _ _ h hparse => parse_of_respelled h hparse⟩

/-- The first condition prints and does not hold, the second holds, and the third would fail if it
were evaluated. -/
theorem second_branch_is_chosen :
    let m : Machine := { functions := (∅ : FunctionTable).insert "f" ⟨"f", [],
      [.print (.literal (.num 7) 1) 1, .ret (.literal (.num 0) 1) 1], 1⟩ }
    let start : List Lexeme :=
      [⟨.keyword .cond, 2⟩, ⟨.identifier "f", 2⟩, ⟨.symbol .leftParen, 2⟩,
        ⟨.symbol .rightParen, 2⟩, ⟨.symbol .leftBrace, 2⟩, ⟨.integer 1, 2⟩,
        ⟨.symbol .rightBrace, 2⟩]
    let second : List Lexeme :=
      [⟨.integer 5, 3⟩, ⟨.symbol .leftBrace, 3⟩, ⟨.integer 2, 3⟩, ⟨.symbol .rightBrace, 3⟩]
    let third : List Lexeme :=
      [⟨.identifier "x", 4⟩, ⟨.symbol .leftBrace, 4⟩, ⟨.integer 3, 4⟩, ⟨.symbol .rightBrace, 4⟩,
        ⟨.endOfInput, 4⟩]
    ∃ s : Statement,
      parse (start ++ ⟨.keyword .elseIf, 3⟩ :: (second ++ ⟨.keyword .elseIf, 4⟩ :: third)) =
        .ok [s] ∧
      parse (start ++ ⟨.keyword .otherwise, 3⟩ :: ⟨.keyword .cond, 3⟩ ::
        (second ++ ⟨.keyword .elseIf, 4⟩ :: third)) = .ok [s] ∧
      ∃ after, Ends (fun n => execute none n s) m (.ok (some (.num 2))) after ∧
        after.console.output = "7\n".toUTF8.data := by
  intro m start second third
  let branches : List Branch :=
    [⟨.literal (.num 5) 3, [.expr (.literal (.num 2) 3) 3], 3⟩,
      ⟨.var "x" 4, [.expr (.literal (.num 3) 4) 4], 4⟩]
  let first : Branch := ⟨.call "f" [] 2, [.expr (.literal (.num 1) 2) 2], 2⟩
  obtain ⟨hends, -, hrespelled⟩ := first_condition_that_holds_decides
  have hparse : parse (start ++ ⟨.keyword .elseIf, 3⟩ ::
      (second ++ ⟨.keyword .elseIf, 4⟩ :: third)) =
        .ok [.choose (.chain first branches none)] := rfl
  have hsplit : Respelled (start ++ ⟨.keyword .elseIf, 3⟩ ::
      (second ++ ⟨.keyword .elseIf, 4⟩ :: third))
      (start ++ ⟨.keyword .otherwise, 3⟩ :: ⟨.keyword .cond, 3⟩ ::
        (second ++ ⟨.keyword .elseIf, 4⟩ :: third)) :=
    (Respelled.refl _).append (.split 3 (Respelled.refl _))
  refine ⟨.choose (.chain first branches none), hparse, hrespelled _ _ _ hsplit hparse, ?_⟩
  refine ⟨_, (hends none first branches none m _ _).2
    (.branch (show first :: branches = [first] ++ branches from rfl)
      (.cons ⟨5, rfl⟩ rfl (.nil _)) ⟨1, rfl⟩ rfl ⟨2, rfl⟩), ?_⟩
  rfl

end Skript
