import Skript.Proofs.Settling

/-!
# Only loops can go on for ever

Without a loop every run ends, however functions call each other. The size of the syntax does not
shrink at a call, and functions may be defined anew while they run; what shrinks is the number of
calls that may still be entered. Between two calls the syntax does shrink. This needs that no
function of the table ever gets a loop, and that the depth of calls is back when a call has ended.
-/
namespace Skript

mutual

/-- Whether no loop stands in the statement, at any nesting and in the functions it defines. -/
def Statement.isLoopFree : Statement → Bool
  | .function _ _ body _ => Statement.areLoopFree body
  | .choose choice => choice.isLoopFree
  | .loop .. => false
  | .ret .. | .print .. | .declare .. | .assignTyped .. | .assign .. | .expr .. => true

def Statement.areLoopFree : List Statement → Bool
  | [] => true
  | s :: ss => s.isLoopFree && Statement.areLoopFree ss

def Choice.isLoopFree : Choice → Bool
  | .mk _ body otherwise _ => Statement.areLoopFree body && otherwise.isLoopFree

def Otherwise.isLoopFree : Otherwise → Bool
  | .nothing => true
  | .block body => Statement.areLoopFree body
  | .elseIf choice => choice.isLoopFree

end

theorem Statement.areLoopFree_iff {ss : List Statement} :
    Statement.areLoopFree ss ↔ ∀ s ∈ ss, s.isLoopFree := by
  induction ss with
  | nil => simp [Statement.areLoopFree]
  | cons s ss ih => simp [Statement.areLoopFree, ih]

/-- No function of the table holds a loop. -/
def FunctionTable.LoopFree (table : FunctionTable) : Prop :=
  ∀ (name : String) (d : Definition), table[name]? = some d → Statement.areLoopFree d.body

theorem FunctionTable.LoopFree.insert {table : FunctionTable} (h : table.LoopFree) {d : Definition}
    (hd : Statement.areLoopFree d.body) : FunctionTable.LoopFree (table.insert d.name d) := by
  intro name found hfound
  rw [Std.TreeMap.getElem?_insert] at hfound
  split at hfound
  · cases hfound
    exact hd
  · exact h name found hfound

/-- A machine on which `depth` calls have not returned, with no loop in its functions. -/
structure Machine.LoopFreeAt (depth : Nat) (m : Machine) : Prop where
  functions : m.functions.LoopFree
  depth : m.depth = depth

namespace Exec

open Machine (LoopFreeAt)

variable {limit : Option Nat} {depth : Nat}

theorem settles_lookup (name : String) (line : Nat) :
    Settles (LoopFreeAt depth) fun _ => lookup name line := by
  refine Settles.machine fun m _ => ?_
  cases m.environment.get? name with
  | none => exact Settles.fail _ line
  | some v => exact Settles.pure v

theorem settles_input (prompt : Option String) (kind : Option Kind) (line : Nat) :
    Settles (LoopFreeAt depth) fun _ => input prompt kind line := by
  have hc : ∀ m c, LoopFreeAt depth m → LoopFreeAt depth { m with console := c } :=
    fun m c hm => ⟨hm.functions, hm.depth⟩
  have hp : Settles (LoopFreeAt depth) fun _ => showPrompt prompt line := by
    cases prompt with
    | none => exact Settles.pure ()
    | some s =>
      unfold showPrompt
      exact Settles.onConsole hc
  refine Settles.bind hp fun _ => ?_
  refine Settles.bind (Settles.onConsole hc) fun raw => ?_
  exact Settles.ofExcept line _

theorem settles_assignTyped (name : String) (kind : Kind) (v : Value) (line : Nat) :
    Settles (LoopFreeAt depth) fun _ => assignTyped name kind v line := by
  refine Settles.bind (Settles.ofExcept line _) fun stored => ?_
  refine Settles.bind (Settles.update fun m hm => ?_) fun _ => Settles.pure stored
  exact ⟨hm.functions, hm.depth⟩

theorem settles_assign (name : String) (v : Value) (line : Nat) :
    Settles (LoopFreeAt depth) fun _ => assign name v line := by
  have hstore : ∀ stored, Settles (LoopFreeAt depth) fun _ => do
      update fun m => { m with environment := m.environment.set name stored }
      return stored := by
    intro stored
    refine Settles.bind (Settles.update fun m hm => ?_) fun _ => Settles.pure stored
    exact ⟨hm.functions, hm.depth⟩
  refine Settles.machine fun m _ => ?_
  cases m.environment.declared? name with
  | none => exact Settles.bind (Settles.pure v) hstore
  | some kind => exact Settles.bind (Settles.ofExcept line _) hstore

theorem settles_define {d : Definition} (hd : Statement.areLoopFree d.body) :
    Settles (LoopFreeAt depth) fun _ => define d := by
  refine Settles.bind (Settles.ofExcept d.line _) fun _ => Settles.update fun m hm => ?_
  exact ⟨hm.functions.insert hd, hm.depth⟩

/-- All calls that are entered from this depth settle. -/
def CallsSettle (limit : Option Nat) (depth : Nat) : Prop :=
  ∀ name args line, Settles (LoopFreeAt depth) fun n => call limit (execute limit n) name args line

mutual

/-- An expression settles if the calls in it do. -/
theorem settles_evaluate (hcall : CallsSettle limit depth) :
    ∀ e : Expr, Settles (LoopFreeAt depth) fun n => evaluate limit n e
  | .literal value line => Settles.of_succ (by
    simp only [evaluate]
    exact Settles.pure _)
  | .var name line => Settles.of_succ (by
    simp only [evaluate]
    exact Settles.map some (settles_lookup name line))
  | .binary left op right line => Settles.of_succ (by
    simp only [evaluate]
    refine Settles.bind (Settles.required line (settles_evaluate hcall left)) fun l => ?_
    refine Settles.bind (Settles.required line (settles_evaluate hcall right)) fun r => ?_
    exact Settles.map some (Settles.ofExcept line _))
  | .call name arguments line => Settles.of_succ (by
    simp only [evaluate]
    refine Settles.bind (Settles.collect arguments fun e he => ?_) fun args => hcall name args line
    exact Settles.required line (settles_arguments hcall arguments e he))
  | .input prompt kind line => Settles.of_succ (by
    simp only [evaluate]
    exact Settles.map some (settles_input prompt kind line))
  | .length operand line => Settles.of_succ (by
    simp only [evaluate]
    refine Settles.bind (Settles.required line (settles_evaluate hcall operand)) fun v => ?_
    exact Settles.map some (Settles.ofExcept line _))

theorem settles_arguments (hcall : CallsSettle limit depth) :
    ∀ es : List Expr, ∀ e ∈ es, Settles (LoopFreeAt depth) fun n => evaluate limit n e
  | [] => by simp
  | e :: es => List.forall_mem_cons.2 ⟨settles_evaluate hcall e, settles_arguments hcall es⟩

end

/-- An operand that has to have a value settles too. -/
theorem settles_operand (hcall : CallsSettle limit depth) (line : Nat) (e : Expr) :
    Settles (LoopFreeAt depth) fun n => required line (evaluate limit n e) :=
  Settles.required line (settles_evaluate hcall e)

mutual

/-- A statement without a loop settles if the calls in it do. -/
theorem settles_execute (hcall : CallsSettle limit depth) :
    ∀ s : Statement, s.isLoopFree → Settles (LoopFreeAt depth) fun n => execute limit n s
  | .function name params body line, hs => Settles.of_succ (by
    simp only [execute]
    exact Settles.bind (settles_define hs) fun _ => Settles.pure none)
  | .ret value line, _ => Settles.of_succ (by
    simp only [execute]
    exact Settles.map some (settles_operand hcall line value))
  | .print operand line, _ => Settles.of_succ (by
    simp only [execute]
    refine Settles.bind (settles_operand hcall line operand) fun v => ?_
    refine Settles.bind (Settles.onConsole fun m c hm => ?_) fun _ => Settles.pure (some v)
    exact ⟨hm.functions, hm.depth⟩)
  | .choose choice, hs => settles_choice hcall choice hs
  | .loop .., hs => by cases hs
  | .declare name kind line, _ => Settles.of_succ (by
    simp only [execute]
    refine Settles.bind (Settles.update fun m hm => ?_) fun _ => Settles.pure none
    exact ⟨hm.functions, hm.depth⟩)
  | .assignTyped name kind value line, _ => Settles.of_succ (by
    simp only [execute]
    refine Settles.bind (settles_operand hcall line value) fun v => ?_
    exact Settles.map some (settles_assignTyped name kind v line))
  | .assign name value line, _ => Settles.of_succ (by
    simp only [execute]
    refine Settles.bind (settles_operand hcall line value) fun v => ?_
    exact Settles.map some (settles_assign name v line))
  | .expr operand line, _ => Settles.of_succ (by
    simp only [execute]
    exact settles_evaluate hcall operand)

theorem settles_statements (hcall : CallsSettle limit depth) :
    ∀ ss : List Statement, Statement.areLoopFree ss →
      ∀ s ∈ ss, Settles (LoopFreeAt depth) fun n => execute limit n s
  | [], _ => by simp
  | s :: ss, hs => by
    rw [Statement.areLoopFree, Bool.and_eq_true] at hs
    exact List.forall_mem_cons.2
      ⟨settles_execute hcall s hs.1, settles_statements hcall ss hs.2⟩

theorem settles_choice (hcall : CallsSettle limit depth) :
    ∀ c : Choice, c.isLoopFree → Settles (LoopFreeAt depth) fun n => execute limit n (.choose c)
  | .mk condition body otherwise line, hc => Settles.of_succ (by
    rw [Choice.isLoopFree, Bool.and_eq_true] at hc
    have hbody := Settles.lastOf none body (settles_statements hcall body hc.1)
    have hotherwise := settles_otherwise hcall otherwise hc.2
    simp only [execute_choose]
    refine Settles.bind (settles_operand hcall line condition) fun v => ?_
    by_cases hv : v.isTruthy
    · simpa only [if_pos hv] using hbody
    · simpa only [if_neg hv] using hotherwise)

theorem settles_otherwise (hcall : CallsSettle limit depth) :
    ∀ o : Otherwise, o.isLoopFree → Settles (LoopFreeAt depth) fun n => executeOtherwise limit n o
  | .nothing, _ => Settles.pure none
  | .block body, ho => Settles.lastOf none body (settles_statements hcall body ho)
  | .elseIf choice, ho => settles_choice hcall choice ho

end

/-- A call settles if, should it be entered, the calls from one level deeper do. -/
theorem callsSettle_of_deeper
    (hdeeper : checkDepth limit depth = .ok () → CallsSettle limit (depth + 1)) :
    CallsSettle limit depth := by
  intro name args line
  unfold call
  cases Builtin.find? name with
  | some f => exact Settles.map some (Settles.ofExcept line _)
  | none =>
    refine Settles.machine fun m hm => ?_
    cases hd : m.functions[name]? with
    | none => exact Settles.fail _ line
    | some d =>
      refine Settles.bind (Settles.ofExcept line _) fun _ => ?_
      -- The depth that is checked is the one the calls of the body are counted from.
      rw [hm.depth]
      cases hcheck : checkDepth limit depth with
      | error cause =>
        simp only [ofExcept, fail_bind]
        exact Settles.fail cause line
      | ok =>
        have hbody := Settles.lastUntil Statement.isReturn none d.body
          (settles_statements (hdeeper hcheck) d.body (hm.functions name d hd))
        refine Settles.bind (Settles.pure ()) fun _ => Settles.inCall hbody ?_ ?_
        · exact fun caller hcaller => ⟨hcaller.functions, congrArg (· + 1) hcaller.depth⟩
        · exact fun caller after hcaller hafter => ⟨hafter.functions, congrArg (· - 1) hafter.depth⟩

/-- With a limit on the depth of calls all of them settle, by induction on the calls that may still
be entered. -/
theorem callsSettle (most depth : Nat) : CallsSettle (some most) depth := by
  induction hleft : most - depth generalizing depth with
  | zero =>
    refine callsSettle_of_deeper fun hcheck => ?_
    have hle : most ≤ depth := by omega
    simp [checkDepth, hle] at hcheck
  | succ left ih => exact callsSettle_of_deeper fun _ => ih (depth + 1) (by omega)

end Exec

/-- Statements without a loop, run on a machine whose functions have none, come to an end, with a
result or with a fault: some bound is enough, and so is every larger one. A run that is broken off
for want of room counts as ended, with the fault `RunCause.capacity`. -/
theorem loop_free_programs_end (most : Nat) (statements : List Statement) (m : Machine)
    (hstatements : ∀ s ∈ statements, s.isLoopFree)
    (hfunctions : ∀ (name : String) (d : Definition), m.functions[name]? = some d →
      ∀ s ∈ d.body, s.isLoopFree) :
    ∃ result after least, ∀ fuel, least ≤ fuel →
      (executeAll (some most) fuel statements).run m = .finished result after := by
  have hm : m.LoopFreeAt m.depth :=
    ⟨fun name d hd => Statement.areLoopFree_iff.2 (hfunctions name d hd), rfl⟩
  have hsettles := Exec.Settles.lastOf none statements fun s hs =>
    Exec.settles_execute (Exec.callsSettle most m.depth) s (hstatements s hs)
  obtain ⟨result, after, -, least, hrun⟩ := hsettles m hm
  exact ⟨result, after, least, hrun⟩

/-- Two functions that call each other without end, one of which defines the other anew each time it
runs: the run ends at the limit of calls. -/
theorem runaway_recursion_ends :
    let f : Definition := ⟨"f", ["x"], [.ret (.call "g" [.var "x" 2] 2) 2], 1⟩
    let g : Definition :=
      ⟨"g", ["x"], [.function "f" f.params f.body 4, .ret (.call "f" [.var "x" 5] 5) 5], 3⟩
    let m : Machine := { functions := (∅ : FunctionTable).insert "f" f }
    let program : List Statement :=
      [.function "g" g.params g.body 3, .expr (.call "f" [.literal (.num 1) 6] 6) 6]
    (∃ result after least, ∀ fuel, least ≤ fuel →
      (executeAll (some 5) fuel program).run m = .finished result after) ∧
    ∃ after, (executeAll (some 5) 20 program).run m =
      .finished (.error ⟨.callDepth 5, 2⟩) after := by
  dsimp only
  refine ⟨?_, _, rfl⟩
  refine loop_free_programs_end 5 _ _ (by decide) fun name d hd => ?_
  rw [Std.TreeMap.getElem?_insert] at hd
  split at hd
  · cases hd
    decide
  · simp at hd

end Skript
