import Skript.Proofs.Running

/-!
# How a program uses its console

Most of what a program does is silent: it neither looks at the console nor changes it, and goes on
alike on any other. Only printing, showing a prompt and reading a line are not. A property that
these three have, that silent computations have and that is kept where computations are put together
is a property of every program.
-/
namespace Skript

namespace Console

theorem prompt_of_written {c d : Console} {s : String} (h : c.write (encode s) = (.ok (), d)) :
    c.prompt s = (if d.flushable then .ok () else .error (.console .flushRefused), d) := by
  simp only [prompt, h]
  split <;> rfl

theorem prompt_of_not_written {c d : Console} {s : String} {cause : RunCause}
    (h : c.write (encode s) = (.error cause, d)) : c.prompt s = (.error cause, d) := by
  simp only [prompt, h]

end Console

/-- The machine on another console. -/
def Machine.withConsole (m : Machine) (c : Console) : Machine :=
  { m with console := c }

namespace Exec

variable {α β γ : Type}

theorem run_onConsole (line : Nat) (action : Console → Except RunCause α × Console) (m : Machine)
    (c : Console) :
    (onConsole line action).run (m.withConsole c) =
      .finished ((action c).1.mapError (⟨·, line⟩)) (m.withConsole (action c).2) :=
  rfl

/-- On another console the computation does the same, and leaves that console as it is. -/
def Silent (x : Exec α) : Prop :=
  ∀ m c, x.run (m.withConsole c) =
    match x.run m with
    | .finished result after => .finished result (after.withConsole c)
    | .outOfFuel => .outOfFuel

namespace Silent

theorem run_eq {x : Exec α} (hx : Silent x) {m after : Machine} {result : Except RunFault α}
    (h : x.run m = .finished result after) (c : Console) :
    x.run (m.withConsole c) = .finished result (after.withConsole c) := by
  rw [hx m c, h]

theorem console_eq {x : Exec α} (hx : Silent x) {m after : Machine} {result : Except RunFault α}
    (h : x.run m = .finished result after) : after.console = m.console := by
  have hsame : x.run m = .finished result (after.withConsole m.console) := hx.run_eq h m.console
  rw [h] at hsame
  injection hsame with _ hafter
  rw [hafter]
  rfl

theorem pure (a : α) : Silent (Pure.pure a : Exec α) :=
  fun _ _ => rfl

theorem fail (cause : RunCause) (line : Nat) : Silent (Exec.fail cause line : Exec α) :=
  fun _ _ => rfl

theorem outOfFuel : Silent (Exec.outOfFuel : Exec α) :=
  fun _ _ => rfl

theorem ofExcept (line : Nat) (result : Except RunCause α) :
    Silent (Exec.ofExcept line result) := by
  cases result with
  | ok a => exact pure a
  | error cause => exact fail cause line

/-- Looking at anything but the console. -/
theorem look {g : Machine → γ} (hg : ∀ m c, g (m.withConsole c) = g m) :
    Silent (g <$> Exec.machine) := by
  intro m c
  show Outcome.finished (.ok (g (m.withConsole c))) (m.withConsole c) =
    .finished (.ok (g m)) (m.withConsole c)
  rw [hg]

/-- Changing anything but the console. -/
theorem update {f : Machine → Machine} (hf : ∀ m c, f (m.withConsole c) = (f m).withConsole c) :
    Silent (Exec.update f) := by
  intro m c
  show Outcome.finished (.ok ()) (f (m.withConsole c)) = .finished (.ok ()) ((f m).withConsole c)
  rw [hf]

end Silent

theorem silent_lookup (name : String) (line : Nat) : Silent (lookup name line) := by
  intro m c
  simp only [lookup, run_bind, machine, Machine.withConsole]
  cases m.environment.get? name <;> rfl

theorem silent_declare (name : String) (kind : Kind) : Silent (declare name kind) :=
  Silent.update fun _ _ => rfl

theorem silent_assignTyped (name : String) (kind : Kind) (v : Value) (line : Nat) :
    Silent (assignTyped name kind v line) := by
  intro m c
  rw [run_assignTyped, run_assignTyped]
  cases v.conform kind name <;> rfl

theorem silent_assign (name : String) (v : Value) (line : Nat) : Silent (assign name v line) := by
  intro m c
  rw [run_assign, run_assign]
  have hdeclared : (m.withConsole c).environment.declared? name = m.environment.declared? name :=
    rfl
  rw [hdeclared]
  cases v.settle (m.environment.declared? name) name <;> rfl

theorem silent_define (d : Definition) : Silent (define d) := by
  intro m c
  rw [run_define, run_define]
  cases Builtin.checkName d.name <;> rfl

/-- Calls the function that was found in the table, where calls are nested to the given depth. -/
def callFound (limit : Option Nat) (run : Statement → Exec (Option Value)) (name : String)
    (args : List Value) (line : Nat) (found : Option Definition) (depth : Nat) :
    Exec (Option Value) :=
  match found with
  | none => fail (.unknownFunction name) line
  | some d => do
      ofExcept line (checkArity name d.params.length args.length)
      ofExcept line (checkDepth limit depth)
      inCall (.ofArguments d.params args) (lastOf run none (Statement.upToReturn d.body))

/-- Of the machine, a call looks only at the table of functions and at the depth of calls. -/
theorem callDefined_eq (limit : Option Nat) (run : Statement → Exec (Option Value)) (name : String)
    (args : List Value) (line : Nat) :
    callDefined limit run name args line =
      (fun m => (m.functions[name]?, m.depth)) <$> machine >>= fun seen =>
        callFound limit run name args line seen.1 seen.2 := by
  ext m
  show (callDefined limit run name args line).run m =
    (callFound limit run name args line m.functions[name]? m.depth).run m
  cases hfound : m.functions[name]? with
  | none => simp [callDefined, callFound, run_bind, machine, hfound]
  | some d => simp [callDefined, callFound, lastUntil_isReturn, run_bind, machine, hfound]

/-- A property that silent computations and those that use the console have, and that is kept where
computations are put together. -/
structure Closed (P : ∀ {α : Type}, Exec α → Prop) : Prop where
  silent : ∀ {α : Type} {x : Exec α}, Silent x → P x
  bind : ∀ {α β : Type} {x : Exec α} {f : α → Exec β}, P x → (∀ a, P (f a)) → P (x >>= f)
  inCall : ∀ {α : Type} {x : Exec α} (locals : Environment), P x → P (inCall locals x)
  print : ∀ v line, P (print v line)
  prompt : ∀ s line, P (onConsole line (Console.prompt s))
  readLine : ∀ line, P (onConsole line Console.readLine)

namespace Closed

variable {P : ∀ {α : Type}, Exec α → Prop} (hP : Closed @P)

include hP

theorem pure (a : α) : P (Pure.pure a : Exec α) :=
  hP.silent (Silent.pure a)

theorem map (f : α → β) {x : Exec α} (hx : P x) : P (f <$> x) := by
  rw [map_eq_pure_bind]
  exact hP.bind hx fun a => hP.pure (f a)

theorem ofExcept (line : Nat) (result : Except RunCause α) : P (Exec.ofExcept line result) :=
  hP.silent (Silent.ofExcept line result)

theorem required (line : Nat) {x : Exec (Option Value)} (hx : P x) :
    P (Exec.required line x) := by
  refine hP.bind hx fun v => ?_
  cases v with
  | none => exact hP.silent (Silent.fail _ line)
  | some v => exact hP.pure v

theorem collect {f : α → Exec β} (hf : ∀ a, P (f a)) (as : List α) : P (Exec.collect f as) := by
  induction as with
  | nil => exact hP.pure []
  | cons a as ih => exact hP.bind (hf a) fun b => hP.bind ih fun bs => hP.pure (b :: bs)

theorem lastOf {run : α → Exec (Option β)} (hrun : ∀ a, P (run a)) (last : Option β)
    (as : List α) : P (Exec.lastOf run last as) := by
  induction as generalizing last with
  | nil => exact hP.pure last
  | cons a as ih => exact hP.bind (hrun a) ih

theorem repeatWhile {condition : Exec Bool} {round : Exec Unit} (hc : P condition) (hr : P round)
    (n : Nat) : P (Exec.repeatWhile condition round n) := by
  induction n with
  | zero => exact hP.silent Silent.outOfFuel
  | succ n ih =>
    refine hP.bind hc fun holds => ?_
    cases holds with
    | true => exact hP.bind hr fun _ => ih
    | false => exact hP.pure ()

theorem input (prompt : Option String) (kind : Option Kind) (line : Nat) :
    P (input prompt kind line) := by
  have hprompt : P (showPrompt prompt line) := by
    cases prompt with
    | none => exact hP.pure ()
    | some s => exact hP.prompt s line
  refine hP.bind hprompt fun _ => ?_
  exact hP.bind (hP.readLine line) fun raw => hP.ofExcept line (Value.ofInput kind raw)

theorem call (limit : Option Nat) {run : Statement → Exec (Option Value)} (hrun : ∀ s, P (run s))
    (name : String) (args : List Value) (line : Nat) : P (call limit run name args line) := by
  unfold Exec.call
  split
  · next f _ => exact hP.map some (hP.ofExcept line (f args))
  · rw [callDefined_eq]
    refine hP.bind (hP.silent (Silent.look fun _ _ => rfl)) fun seen => ?_
    unfold callFound
    split
    · exact hP.silent (Silent.fail _ line)
    · next d _ =>
      refine hP.bind (hP.ofExcept line _) fun _ => hP.bind (hP.ofExcept line _) fun _ => ?_
      exact hP.inCall _ (hP.lastOf hrun none _)

theorem evaluate_succ {limit : Option Nat} {n : Nat} (he : ∀ e, P (evaluate limit n e))
    (hs : ∀ s, P (execute limit n s)) (e : Expr) : P (evaluate limit (n + 1) e) := by
  have hv : ∀ line e, P (Exec.required line (evaluate limit n e)) :=
    fun line e => hP.required line (he e)
  cases e with
  | literal value line =>
    rw [evaluate]
    exact hP.pure _
  | var name line =>
    rw [evaluate]
    exact hP.map some (hP.silent (silent_lookup name line))
  | binary left op right line =>
    rw [evaluate]
    refine hP.bind (hv line left) fun l => hP.bind (hv line right) fun r => ?_
    exact hP.map some (hP.ofExcept line _)
  | call name arguments line =>
    rw [evaluate]
    refine hP.bind (hP.collect (hv line) arguments) fun args => ?_
    exact hP.call limit hs name args line
  | input prompt kind line =>
    rw [evaluate]
    exact hP.map some (hP.input prompt kind line)
  | length operand line =>
    rw [evaluate]
    exact hP.bind (hv line operand) fun v => hP.map some (hP.ofExcept line _)

theorem execute_succ {limit : Option Nat} {n : Nat} (he : ∀ e, P (evaluate limit n e))
    (hs : ∀ s, P (execute limit n s)) (s : Statement) : P (execute limit (n + 1) s) := by
  have hv : ∀ line e, P (Exec.required line (evaluate limit n e)) :=
    fun line e => hP.required line (he e)
  have hb : ∀ body, P (Exec.lastOf (execute limit n) none body) := hP.lastOf hs none
  cases s with
  | function name params body line =>
    rw [execute]
    exact hP.bind (hP.silent (silent_define _)) fun _ => hP.pure none
  | ret value line =>
    rw [execute]
    exact hP.map some (hv line value)
  | print operand line =>
    rw [execute]
    refine hP.bind (hv line operand) fun v => ?_
    exact hP.bind (hP.print v line) fun _ => hP.pure (some v)
  | choose choice =>
    obtain ⟨condition, body, otherwise, line⟩ := choice
    rw [execute_choose]
    refine hP.bind (hv line condition) fun v => ?_
    split
    · exact hb body
    · cases otherwise with
      | nothing => exact hP.pure none
      | block body => exact hb body
      | elseIf choice => exact hs (.choose choice)
  | loop init condition update body line =>
    rw [execute]
    refine hP.bind (hs init) fun _ => ?_
    have hround : P (do
        let _ ← Exec.lastOf (execute limit n) none body
        let _ ← execute limit n update) :=
      hP.bind (hb body) fun _ => hP.bind (hs update) fun _ => hP.pure ()
    have hcondition := hP.map Value.isTruthy (hv line condition)
    exact hP.bind (hP.repeatWhile hcondition hround n) fun _ => hP.pure none
  | declare name kind line =>
    rw [execute]
    exact hP.bind (hP.silent (silent_declare name kind)) fun _ => hP.pure none
  | assignTyped name kind value line =>
    rw [execute]
    refine hP.bind (hv line value) fun v => ?_
    exact hP.map some (hP.silent (silent_assignTyped name kind v line))
  | assign name value line =>
    rw [execute]
    refine hP.bind (hv line value) fun v => ?_
    exact hP.map some (hP.silent (silent_assign name v line))
  | expr operand line =>
    rw [execute]
    exact he operand

/-- The property is one of every expression and of every statement. The induction is on the bound,
which grows smaller both into a part of the program and into the body of a function. -/
theorem programs (limit : Option Nat) (n : Nat) :
    (∀ e, P (evaluate limit n e)) ∧ ∀ s, P (execute limit n s) := by
  induction n with
  | zero =>
    constructor
    · intro e
      rw [evaluate]
      exact hP.silent Silent.outOfFuel
    · intro s
      rw [execute]
      exact hP.silent Silent.outOfFuel
  | succ n ih => exact ⟨hP.evaluate_succ ih.1 ih.2, hP.execute_succ ih.1 ih.2⟩

theorem executeAll (limit : Option Nat) (n : Nat) (ss : List Statement) :
    P (executeAll limit n ss) :=
  hP.lastOf (hP.programs limit n).2 none ss

end Closed

end Exec

end Skript
