import Mathlib.Tactic.SplitIfs
import Skript.Proofs.Running

/-!
# What every run keeps

A relation between the machine before a computation and the machine after it holds of a whole run
once it holds of each single effect: writing to the console, to a variable or to the table of
functions, and entering and leaving a call. Whether the run ended well does not matter, so nothing
has to be said twice for faults.
-/
namespace Skript

/-- The sink of two consoles is the same, whatever they have printed and read. -/
def Console.SameSink (c d : Console) : Prop :=
  d.capacity = c.capacity ∧ d.flushable = c.flushable

namespace Console

theorem SameSink.refl (c : Console) : c.SameSink c := ⟨rfl, rfl⟩

theorem SameSink.trans {a b c : Console} (hab : a.SameSink b) (hbc : b.SameSink c) :
    a.SameSink c := ⟨hbc.1.trans hab.1, hbc.2.trans hab.2⟩

theorem sameSink_write (bytes : List UInt8) (c : Console) : c.SameSink (c.write bytes).2 := by
  unfold write
  split
  · exact SameSink.refl c
  · dsimp only
    split_ifs <;> exact SameSink.refl c

theorem sameSink_prompt (s : String) (c : Console) : c.SameSink (c.prompt s).2 := by
  have hw := sameSink_write (encode s) c
  unfold prompt
  split
  · next d hd =>
    rw [hd] at hw
    split_ifs <;> exact hw
  · next cause d hd =>
    rw [hd] at hw
    exact hw

theorem sameSink_readLine (c : Console) : c.SameSink (c.readLine).2 := by
  unfold readLine
  split_ifs
  · exact SameSink.refl c
  · dsimp only
    split <;> exact SameSink.refl c

end Console

namespace Value

@[simp] theorem kind_zero (kind : Kind) : (zero kind).kind = kind := by
  cases kind <;> rfl

/-- A value that conforms has the kind it was asked for, widened or not. -/
theorem kind_of_conform {kind : Kind} {name : String} {v stored : Value}
    (h : v.conform kind name = .ok stored) : stored.kind = kind := by
  unfold conform at h
  split_ifs at h with hk
  · cases h
    exact hk
  · cases kind with
    | dec => cases v with
      | num n => cases h; rfl
      | _ => cases h
    | str => cases v with
      | chr c => cases c <;> (cases h; rfl)
      | _ => cases h
    | chr => cases v with
      | str s =>
        dsimp only at h
        split at h
        · cases h; rfl
        · cases h
      | _ => cases h
    | _ => cases v <;> cases h

theorem kind_of_settle {declared : Option Kind} {name : String} {v stored : Value}
    (h : v.settle declared name = .ok stored) {kind : Kind} (hd : declared = some kind) :
    stored.kind = kind := by
  subst hd
  exact kind_of_conform h

end Value

mutual

/-- The variables that a statement may write, in its blocks and in the header of a loop too. What
the functions write that it defines or calls does not count. -/
def Statement.targets : Statement → List String
  | .function .. | .ret .. | .print .. | .expr .. => []
  | .choose choice => choice.targets
  | .loop init _ update body _ => init.targets ++ update.targets ++ Statement.targetsOfAll body
  | .declare name _ _ | .assignTyped name _ _ _ | .assign name _ _ => [name]

def Statement.targetsOfAll : List Statement → List String
  | [] => []
  | s :: ss => s.targets ++ Statement.targetsOfAll ss

def Choice.targets : Choice → List String
  | .mk _ body otherwise _ => Statement.targetsOfAll body ++ otherwise.targets

def Otherwise.targets : Otherwise → List String
  | .nothing => []
  | .block body => Statement.targetsOfAll body
  | .elseIf choice => choice.targets

end

theorem Statement.mem_targetsOfAll {s : Statement} {ss : List Statement} (hs : s ∈ ss)
    {name : String} (hn : name ∈ s.targets) : name ∈ Statement.targetsOfAll ss := by
  induction ss with
  | nil => cases hs
  | cons t ts ih =>
    rw [Statement.targetsOfAll, List.mem_append]
    obtain rfl | hs := List.mem_cons.mp hs
    · exact .inl hn
    · exact .inr (ih hs)

/-- A relation that holds of a run if it holds of its parts. -/
structure Sequential (R : Machine → Machine → Prop) : Prop where
  refl : ∀ m, R m m
  trans : ∀ {a b c}, R a b → R b c → R a c

/-- A relation that every effect of a statement respects. -/
structure Respected (R : Machine → Machine → Prop) : Prop extends Sequential R where
  console : ∀ m c, m.console.SameSink c → R m { m with console := c }
  declare : ∀ m name kind v, v.kind = kind →
    R m { m with environment := m.environment.declare name kind v }
  set : ∀ m name v, (∀ kind, m.environment.declared? name = some kind → v.kind = kind) →
    R m { m with environment := m.environment.set name v }
  define : ∀ m d, Builtin.checkName d.name = .ok () →
    R m { m with functions := m.functions.insert d.name d }
  call : ∀ m params args after,
    R (m.enter (.ofArguments params args)) after → R m (m.leave after)

/-- A relation that the effects of a statement on its own machine respect, as long as it writes no
other variables than those in `W`. -/
structure RespectedWithin (W : String → Prop) (R : Machine → Machine → Prop) : Prop
    extends Sequential R where
  console : ∀ m c, m.console.SameSink c → R m { m with console := c }
  declare : ∀ m name kind v, W name → v.kind = kind →
    R m { m with environment := m.environment.declare name kind v }
  set : ∀ m name v, W name → (∀ kind, m.environment.declared? name = some kind → v.kind = kind) →
    R m { m with environment := m.environment.set name v }
  define : ∀ m d, Builtin.checkName d.name = .ok () →
    R m { m with functions := m.functions.insert d.name d }

theorem Respected.within {R : Machine → Machine → Prop} (hR : Respected R) :
    RespectedWithin (fun _ => True) R where
  toSequential := hR.toSequential
  console := hR.console
  declare m name kind v _ := hR.declare m name kind v
  set m name v _ := hR.set m name v
  define := hR.define

namespace Exec

variable {α β : Type} {R : Machine → Machine → Prop}

/-- Whenever `x` ends, well or not, the machine it leaves is related to the one it started on. -/
def Keeps (R : Machine → Machine → Prop) (x : Exec α) : Prop :=
  ∀ m result after, x.run m = .finished result after → R m after

namespace Keeps

theorem pure (hR : Sequential R) (a : α) : Keeps R (Pure.pure a : Exec α) := by
  intro m result after h
  cases h
  exact hR.refl m

theorem bind (hR : Sequential R) {x : Exec α} {f : α → Exec β} (hx : Keeps R x)
    (hf : ∀ a, Keeps R (f a)) : Keeps R (x >>= f) := by
  intro m result after h
  obtain ⟨fault, hfirst, -⟩ | ⟨a, middle, hfirst, hsecond⟩ := finished_of_bind h
  · exact hx m _ after hfirst
  · exact hR.trans (hx m _ middle hfirst) (hf a middle result after hsecond)

theorem map (hR : Sequential R) {x : Exec α} (f : α → β) (hx : Keeps R x) :
    Keeps R (f <$> x) := by
  rw [map_eq_pure_bind]
  exact bind hR hx fun a => pure hR (f a)

theorem fail (hR : Sequential R) (cause : RunCause) (line : Nat) :
    Keeps R (Exec.fail cause line : Exec α) := by
  intro m result after h
  cases h
  exact hR.refl m

theorem outOfFuel : Keeps R (Exec.outOfFuel : Exec α) := by
  intro m result after h
  cases h

theorem machine (hR : Sequential R) : Keeps R Exec.machine := by
  intro m result after h
  cases h
  exact hR.refl m

theorem update {f : Machine → Machine} (hf : ∀ m, R m (f m)) : Keeps R (Exec.update f) := by
  intro m result after h
  cases h
  exact hf m

theorem ofExcept (hR : Sequential R) (line : Nat) (result : Except RunCause α) :
    Keeps R (Exec.ofExcept line result) := by
  cases result with
  | ok a => exact pure hR a
  | error cause => exact fail hR cause line

theorem onConsole {line : Nat} {action : Console → Except RunCause α × Console}
    (ha : ∀ m : Machine, R m { m with console := (action m.console).2 }) :
    Keeps R (Exec.onConsole line action) := by
  intro m result after h
  cases h
  exact ha m

theorem required (hR : Sequential R) (line : Nat) {x : Exec (Option Value)} (hx : Keeps R x) :
    Keeps R (Exec.required line x) := by
  refine bind hR hx fun v => ?_
  cases v with
  | none => exact fail hR _ line
  | some v => exact pure hR v

theorem collect (hR : Sequential R) {f : α → Exec β} (as : List α) (hf : ∀ a ∈ as, Keeps R (f a)) :
    Keeps R (Exec.collect f as) := by
  induction as with
  | nil => exact pure hR []
  | cons a as ih =>
    refine bind hR (hf a (by simp)) fun b => ?_
    exact bind hR (ih fun c hc => hf c (by simp [hc])) fun bs => pure hR (b :: bs)

theorem lastOf (hR : Sequential R) {run : α → Exec (Option β)} (last : Option β) (as : List α)
    (hrun : ∀ a ∈ as, Keeps R (run a)) : Keeps R (Exec.lastOf run last as) := by
  induction as generalizing last with
  | nil => exact pure hR last
  | cons a as ih =>
    exact bind hR (hrun a (by simp)) fun b => ih b fun c hc => hrun c (by simp [hc])

theorem lastUntil (hR : Sequential R) (stops : α → Bool) {run : α → Exec (Option β)}
    (last : Option β) (as : List α) (hrun : ∀ a ∈ as, Keeps R (run a)) :
    Keeps R (Exec.lastUntil stops run last as) := by
  induction as generalizing last with
  | nil => exact pure hR last
  | cons a as ih =>
    have ha := hrun a (by simp)
    simp only [Exec.lastUntil]
    split_ifs
    · exact ha
    · exact bind hR ha fun b => ih b fun c hc => hrun c (by simp [hc])

theorem repeatWhile (hR : Sequential R) {condition : Exec Bool} {round : Exec Unit}
    (hc : Keeps R condition) (hr : Keeps R round) (n : Nat) :
    Keeps R (Exec.repeatWhile condition round n) := by
  induction n with
  | zero => exact outOfFuel
  | succ n ih =>
    refine bind hR hc fun b => ?_
    cases b with
    | false => exact pure hR ()
    | true => exact bind hR hr fun _ => ih

/-- What a call keeps follows from what its body keeps. -/
theorem inCall {S : Machine → Machine → Prop} {locals : Environment} {body : Exec α}
    (hb : Keeps S body) (hS : ∀ m after, S (m.enter locals) after → R m (m.leave after)) :
    Keeps R (Exec.inCall locals body) := by
  intro m result after h
  obtain ⟨last, hbody, rfl⟩ := finished_of_inCall h
  exact hS m last (hb _ _ last hbody)

end Keeps

theorem keeps_print (hc : ∀ m c, m.console.SameSink c → R m { m with console := c }) (v : Value)
    (line : Nat) : Keeps R (print v line) :=
  Keeps.onConsole fun m => hc m _ (Console.sameSink_write _ m.console)

section Effects

variable (hR : Sequential R)
include hR

theorem keeps_lookup (name : String) (line : Nat) : Keeps R (lookup name line) := by
  refine Keeps.bind hR (Keeps.machine hR) fun m => ?_
  split
  · exact Keeps.pure hR _
  · exact Keeps.fail hR _ line

theorem keeps_input (hc : ∀ m c, m.console.SameSink c → R m { m with console := c })
    (prompt : Option String) (kind : Option Kind) (line : Nat) :
    Keeps R (input prompt kind line) := by
  have hp : Keeps R (showPrompt prompt line) := by
    cases prompt with
    | none => exact Keeps.pure hR ()
    | some s => exact Keeps.onConsole fun m => hc m _ (Console.sameSink_prompt s m.console)
  refine Keeps.bind hR hp fun _ => ?_
  refine Keeps.bind hR (Keeps.onConsole fun m => hc m _ (Console.sameSink_readLine m.console)) ?_
  intro raw
  exact Keeps.ofExcept hR line _

/-- A call keeps what the bodies of functions keep once the caller's frame is back. -/
theorem keeps_call {S : Machine → Machine → Prop} (hS : Sequential S)
    (hcall : ∀ m params args after,
      S (m.enter (.ofArguments params args)) after → R m (m.leave after))
    (limit : Option Nat) {run : Statement → Exec (Option Value)} (hrun : ∀ s, Keeps S (run s))
    (name : String) (args : List Value) (line : Nat) : Keeps R (call limit run name args line) := by
  unfold call
  split
  · exact Keeps.map hR some (Keeps.ofExcept hR line _)
  · refine Keeps.bind hR (Keeps.machine hR) fun m => ?_
    split
    · exact Keeps.fail hR _ line
    · next d _ =>
      refine Keeps.bind hR (Keeps.ofExcept hR line _) fun _ => ?_
      refine Keeps.bind hR (Keeps.ofExcept hR line _) fun _ => ?_
      have hbody := Keeps.lastUntil hS Statement.isReturn none d.body fun s _ => hrun s
      exact Keeps.inCall hbody fun caller after => hcall caller d.params args after

/-- An expression keeps what the calls in it keep. -/
theorem keeps_evaluate_of_call
    (hc : ∀ m c, m.console.SameSink c → R m { m with console := c }) (limit : Option Nat) (n : Nat)
    (hcall : ∀ k < n, ∀ name args line, Keeps R (call limit (execute limit k) name args line))
    (e : Expr) : Keeps R (evaluate limit n e) := by
  induction n generalizing e with
  | zero => rw [evaluate]; exact Keeps.outOfFuel
  | succ n ih =>
    have he := ih fun k hk => hcall k (Nat.lt_succ_of_lt hk)
    have hv : ∀ line e, Keeps R (required line (evaluate limit n e)) :=
      fun line e => Keeps.required hR line (he e)
    cases e with
    | literal value line => rw [evaluate]; exact Keeps.pure hR _
    | var name line => rw [evaluate]; exact Keeps.map hR some (keeps_lookup hR name line)
    | binary left op right line =>
      rw [evaluate]
      refine Keeps.bind hR (hv line left) fun l => Keeps.bind hR (hv line right) fun r => ?_
      exact Keeps.map hR some (Keeps.ofExcept hR line _)
    | call name arguments line =>
      rw [evaluate]
      refine Keeps.bind hR (Keeps.collect hR arguments fun e _ => hv line e) fun args => ?_
      exact hcall n (Nat.lt_succ_self n) name args line
    | input prompt kind line =>
      rw [evaluate]
      exact Keeps.map hR some (keeps_input hR hc prompt kind line)
    | length operand line =>
      rw [evaluate]
      exact Keeps.bind hR (hv line operand) fun v => Keeps.map hR some (Keeps.ofExcept hR line _)

end Effects

section Statements

variable {W : String → Prop} (hR : RespectedWithin W R)
include hR

theorem keeps_declare {name : String} (hname : W name) (kind : Kind) :
    Keeps R (declare name kind) :=
  Keeps.update fun m => hR.declare m name kind _ hname (Value.kind_zero kind)

theorem keeps_assignTyped {name : String} (hname : W name) (kind : Kind) (v : Value) (line : Nat) :
    Keeps R (assignTyped name kind v line) := by
  intro m result after h
  rw [run_assignTyped] at h
  split at h
  · next stored hv =>
    cases h
    exact hR.declare m name kind stored hname (Value.kind_of_conform hv)
  · cases h
    exact hR.refl m

theorem keeps_assign {name : String} (hname : W name) (v : Value) (line : Nat) :
    Keeps R (assign name v line) := by
  intro m result after h
  rw [run_assign] at h
  split at h
  · next stored hv =>
    cases h
    exact hR.set m name stored hname fun kind hd => Value.kind_of_settle hv hd
  · cases h
    exact hR.refl m

theorem keeps_define (d : Definition) : Keeps R (define d) := by
  intro m result after h
  rw [run_define] at h
  split at h
  · next hd =>
    cases h
    exact hR.define m d hd
  · cases h
    exact hR.refl m

/-- A statement keeps what the calls in it keep, if its own effects respect it. Expressions are no
case of their own: they only matter for the calls in them. -/
theorem keeps_execute_of_call (limit : Option Nat) (n : Nat)
    (hcall : ∀ k < n, ∀ name args line, Keeps R (call limit (execute limit k) name args line))
    (s : Statement) (hs : ∀ name ∈ s.targets, W name) : Keeps R (execute limit n s) := by
  have hS := hR.toSequential
  induction n generalizing s with
  | zero => rw [execute]; exact Keeps.outOfFuel
  | succ n ih =>
    have hcall' : ∀ k < n, ∀ name args line,
        Keeps R (call limit (execute limit k) name args line) :=
      fun k hk => hcall k (Nat.lt_succ_of_lt hk)
    have he : ∀ e, Keeps R (evaluate limit n e) :=
      keeps_evaluate_of_call hS hR.console limit n hcall'
    have hv : ∀ line e, Keeps R (required line (evaluate limit n e)) :=
      fun line e => Keeps.required hS line (he e)
    have hb : ∀ body, (∀ name ∈ Statement.targetsOfAll body, W name) →
        Keeps R (lastOf (execute limit n) none body) :=
      fun body hbody => Keeps.lastOf hS none body fun s hs =>
        ih hcall' s fun name hn => hbody name (Statement.mem_targetsOfAll hs hn)
    cases s with
    | function name params body line =>
      rw [execute]
      exact Keeps.bind hS (keeps_define hR _) fun _ => Keeps.pure hS none
    | ret value line => rw [execute]; exact Keeps.map hS some (hv line value)
    | print operand line =>
      rw [execute]
      refine Keeps.bind hS (hv line operand) fun v => ?_
      exact Keeps.bind hS (keeps_print hR.console v line) fun _ => Keeps.pure hS (some v)
    | choose choice =>
      obtain ⟨condition, body, otherwise, line⟩ := choice
      rw [Statement.targets, Choice.targets] at hs
      have hbody := hb body fun name hn => hs name (List.mem_append_left _ hn)
      have hotherwise : ∀ name ∈ otherwise.targets, W name :=
        fun name hn => hs name (List.mem_append_right _ hn)
      rw [execute_choose]
      refine Keeps.bind hS (hv line condition) fun v => ?_
      split_ifs
      · exact hbody
      · cases otherwise with
        | nothing => exact Keeps.pure hS none
        | block body => exact hb body hotherwise
        | elseIf choice => exact ih hcall' (.choose choice) hotherwise
    | loop init condition update body line =>
      rw [Statement.targets] at hs
      have hinit := ih hcall' init fun name hn => hs name (by simp [hn])
      have hupdate := ih hcall' update fun name hn => hs name (by simp [hn])
      have hbody := hb body fun name hn => hs name (by simp [hn])
      rw [execute]
      refine Keeps.bind hS hinit fun _ => ?_
      have hround : Keeps R (do
          let _ ← lastOf (execute limit n) none body
          let _ ← execute limit n update) :=
        Keeps.bind hS hbody fun _ => Keeps.bind hS hupdate fun _ => Keeps.pure hS ()
      refine Keeps.bind hS ?_ fun _ => Keeps.pure hS none
      exact Keeps.repeatWhile hS (Keeps.map hS Value.isTruthy (hv line condition)) hround n
    | declare name kind line =>
      have hname : W name := hs name (by simp [Statement.targets])
      rw [execute]
      exact Keeps.bind hS (keeps_declare hR hname kind) fun _ => Keeps.pure hS none
    | assignTyped name kind value line =>
      have hname : W name := hs name (by simp [Statement.targets])
      rw [execute]
      exact Keeps.bind hS (hv line value) fun v =>
        Keeps.map hS some (keeps_assignTyped hR hname kind v line)
    | assign name value line =>
      have hname : W name := hs name (by simp [Statement.targets])
      rw [execute]
      exact Keeps.bind hS (hv line value) fun v =>
        Keeps.map hS some (keeps_assign hR hname v line)
    | expr operand line => rw [execute]; exact he operand

end Statements

/-- A relation that every single effect respects holds of every statement that ends. The bodies of
the functions it calls are statements again, run with a smaller bound. -/
theorem keeps_execute (hR : Respected R) (limit : Option Nat) (n : Nat) (s : Statement) :
    Keeps R (execute limit n s) := by
  have hS := hR.toSequential
  induction n using Nat.strongRecOn generalizing s with
  | ind n ih =>
    refine keeps_execute_of_call hR.within limit n (fun k hk name args line => ?_) s
      fun _ _ => trivial
    exact keeps_call hS hS hR.call limit (ih k hk) name args line

theorem keeps_executeAll (hR : Respected R) (limit : Option Nat) (n : Nat)
    (statements : List Statement) : Keeps R (executeAll limit n statements) :=
  Keeps.lastOf hR.toSequential none statements fun s _ => keeps_execute hR limit n s

end Exec

end Skript
