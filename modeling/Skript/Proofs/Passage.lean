import Skript.Proofs.Keeping
import Skript.Proofs.Moments

/-!
# What holds at every moment of a run

Some properties of a computation on a machine are handed on, from the whole to the part that runs
first, and from there to what is run when that part has ended well. They hold at every moment that a
run passes through, once they hold at its start.
-/
namespace Skript

open Exec

/-- For some bound the property holds of what is about to be run. -/
def Moment.Has (Q : ∀ {α : Type}, Exec α → Machine → Prop) (limit : Option Nat) : Moment → Prop
  | ⟨.expr e, m⟩ => ∃ n, Q (evaluate limit n e) m
  | ⟨.arguments es line, m⟩ => ∃ n, Q (arguments limit es line n) m
  | ⟨.call name args line, m⟩ => ∃ n, Q (call limit (execute limit n) name args line) m
  | ⟨.statement s, m⟩ => ∃ n, Q (execute limit n s) m
  | ⟨.block ss, m⟩ => ∃ n last, Q (lastOf (execute limit n) last ss) m
  | ⟨.rounds condition update body line, m⟩ =>
      ∃ n k, Q (rounds limit condition update body line n k) m

theorem Moment.Has.mono {Q P : ∀ {α : Type}, Exec α → Machine → Prop}
    (hQP : ∀ {α : Type} {x : Exec α} {m}, Q x m → P x m) {limit : Option Nat} {moment : Moment}
    (h : moment.Has @Q limit) : moment.Has @P limit := by
  obtain ⟨task, m⟩ := moment
  cases task with
  | expr e => exact h.imp fun n => hQP
  | arguments es line => exact h.imp fun n => hQP
  | call name args line => exact h.imp fun n => hQP
  | statement s => exact h.imp fun n => hQP
  | block ss => exact h.imp fun n => Exists.imp fun last => hQP
  | rounds condition update body line => exact h.imp fun n => Exists.imp fun k => hQP

/-- The property is handed on by computations with `limit` to their parts. All that follows a first
part keeps `R`, and a part that has ended well has done so with `limit'`. -/
structure HandedOn (R : Machine → Machine → Prop) (limit limit' : Option Nat)
    (Q : ∀ {α : Type}, Exec α → Machine → Prop) : Prop where
  bound : ∀ {α : Type} {m}, ¬ Q (outOfFuel : Exec α) m
  first : ∀ {α β : Type} {x : Exec α} {f : α → Exec β} {m}, (∀ a, Keeps R (f a)) → Q (x >>= f) m →
    Q x m
  operand : ∀ {β : Type} {e line n} {f : Value → Exec β} {m v m'},
    Q (operand limit e line n >>= f) m → Ends (operand limit' e line) m (.ok v) m' → Q (f v) m'
  arguments : ∀ {β : Type} {es line n} {f : List Value → Exec β} {m args m'},
    Q (arguments limit es line n >>= f) m → Ends (arguments limit' es line) m (.ok args) m' →
      Q (f args) m'
  statement : ∀ {β : Type} {s n} {f : Option Value → Exec β} {m v m'},
    Q (execute limit n s >>= f) m → Ends (fun n => execute limit' n s) m (.ok v) m' → Q (f v) m'
  block : ∀ {β : Type} {ss n} {f : Option Value → Exec β} {m v m'},
    Q (executeAll limit n ss >>= f) m → Ends (fun n => executeAll limit' n ss) m (.ok v) m' →
      Q (f v) m'
  body : ∀ {name args line n d} {m : Machine}, Builtin.find? name = none →
    m.functions[name]? = some d → checkArity name d.params.length args.length = .ok () →
    checkDepth limit' m.depth = .ok () → Q (call limit (execute limit n) name args line) m →
      Q (executeAll limit n (Statement.upToReturn d.body)) (m.enter (.ofArguments d.params args))

namespace Exec

/-- A call of a function with enough arguments enters its body, if the depth allows it. -/
theorem run_call_of_defined {m : Machine} {name : String} {args : List Value} {d : Definition}
    (hname : Builtin.find? name = none) (hd : m.functions[name]? = some d)
    (harity : checkArity name d.params.length args.length = .ok ()) (limit : Option Nat)
    (run : Statement → Exec (Option Value)) (line : Nat) :
    (call limit run name args line).run m =
      match checkDepth limit m.depth with
      | .ok _ =>
          (inCall (.ofArguments d.params args)
            (lastOf run none (Statement.upToReturn d.body))).run m
      | .error cause => .finished (.error ⟨cause, line⟩) m := by
  simp only [call, hname, callDefined, run_bind, machine, hd, harity, ofExcept, run_pure,
    lastUntil_isReturn]
  cases checkDepth limit m.depth <;> rfl

section Parts

variable {R : Machine → Machine → Prop} (hR : Respected R)
include hR

theorem keeps_call_execute (limit : Option Nat) (n : Nat) (name : String) (args : List Value)
    (line : Nat) : Keeps R (call limit (execute limit n) name args line) :=
  keeps_call hR.toSequential hR.toSequential hR.call limit (keeps_execute hR limit n) name args line

theorem keeps_evaluate (limit : Option Nat) (n : Nat) (e : Expr) : Keeps R (evaluate limit n e) :=
  keeps_evaluate_of_call hR.toSequential hR.console limit n
    (fun k _ => keeps_call_execute hR limit k) e

theorem keeps_operand (limit : Option Nat) (e : Expr) (line n : Nat) :
    Keeps R (operand limit e line n) :=
  Keeps.required hR.toSequential line (keeps_evaluate hR limit n e)

theorem keeps_arguments (limit : Option Nat) (es : List Expr) (line n : Nat) :
    Keeps R (arguments limit es line n) :=
  Keeps.collect hR.toSequential es fun e _ => keeps_operand hR limit e line n

theorem keeps_rounds (limit : Option Nat) (condition : Expr) (update : Statement)
    (body : List Statement) (line n k : Nat) :
    Keeps R (rounds limit condition update body line n k) := by
  have hS := hR.toSequential
  have hcondition := Keeps.map hS Value.isTruthy (keeps_operand hR limit condition line n)
  refine Keeps.repeatWhile hS hcondition ?_ k
  refine Keeps.bind hS (keeps_executeAll hR limit n body) fun _ => ?_
  exact Keeps.bind hS (keeps_execute hR limit n update) fun _ => Keeps.pure hS ()

end Parts

end Exec

namespace HandedOn

variable {R : Machine → Machine → Prop} {limit limit' : Option Nat}
  {Q : ∀ {α : Type}, Exec α → Machine → Prop} {m : Machine}

section Layers

variable (hQ : HandedOn R limit limit' @Q)
include hQ

theorem evaluate_succ {e : Expr} (h : Moment.Has @Q limit ⟨.expr e, m⟩) :
    ∃ n, Q (evaluate limit (n + 1) e) m := by
  obtain ⟨_ | n, h⟩ := h
  · rw [evaluate] at h
    exact absurd h hQ.bound
  · exact ⟨n, h⟩

theorem execute_succ {s : Statement} (h : Moment.Has @Q limit ⟨.statement s, m⟩) :
    ∃ n, Q (execute limit (n + 1) s) m := by
  obtain ⟨_ | n, h⟩ := h
  · rw [execute] at h
    exact absurd h hQ.bound
  · exact ⟨n, h⟩

theorem rounds_succ {condition : Expr} {update : Statement} {body : List Statement} {line : Nat}
    (h : Moment.Has @Q limit ⟨.rounds condition update body line, m⟩) :
    ∃ n k, Q (rounds limit condition update body line n (k + 1)) m := by
  obtain ⟨n, _ | k, h⟩ := h
  · exact absurd h hQ.bound
  · exact ⟨n, k, h⟩

theorem of_map (hR : Sequential R) {α β : Type} {f : α → β} {x : Exec α} (h : Q (f <$> x) m) :
    Q x m := by
  rw [map_eq_pure_bind] at h
  exact hQ.first (fun a => Keeps.pure hR (f a)) h

theorem of_operand (hR : Sequential R) {e : Expr} {line n : Nat}
    (h : Q (Exec.operand limit e line n) m) : Q (evaluate limit n e) m := by
  refine hQ.first (fun v => ?_) h
  cases v with
  | none => exact Keeps.fail hR _ line
  | some v => exact Keeps.pure hR v

end Layers

/-- A step of the run hands the property on. One layer of it is laid open at a time. -/
theorem of_leads (hQ : HandedOn R limit limit' @Q) (hR : Respected R) {start next : Moment}
    (hleads : Moment.Leads limit' start next) (h : start.Has @Q limit) : next.Has @Q limit := by
  have hS := hR.toSequential
  cases hleads with
  | @left l op r i m =>
    obtain ⟨n, h⟩ := hQ.evaluate_succ h
    rw [evaluate] at h
    refine ⟨n, hQ.of_operand hS (hQ.first (fun v => ?_) h)⟩
    exact Keeps.bind hS (keeps_operand hR limit r i n) fun w =>
      Keeps.map hS some (Keeps.ofExcept hS i _)
  | right hends =>
    obtain ⟨n, h⟩ := hQ.evaluate_succ h
    rw [evaluate] at h
    refine ⟨n, hQ.of_operand hS (hQ.first (fun v => ?_) (hQ.operand h hends))⟩
    exact Keeps.map hS some (Keeps.ofExcept hS _ _)
  | arguments =>
    obtain ⟨n, h⟩ := hQ.evaluate_succ h
    rw [evaluate] at h
    exact ⟨n, hQ.first (fun args => keeps_call_execute hR limit n _ args _) h⟩
  | call hends =>
    obtain ⟨n, h⟩ := hQ.evaluate_succ h
    rw [evaluate] at h
    exact ⟨n, hQ.arguments h hends⟩
  | length =>
    obtain ⟨n, h⟩ := hQ.evaluate_succ h
    rw [evaluate] at h
    exact ⟨n, hQ.of_operand hS (hQ.first (fun v => Keeps.map hS some (Keeps.ofExcept hS _ _)) h)⟩
  | @firstArgument e es i m =>
    obtain ⟨n, h⟩ := h
    refine ⟨n, hQ.of_operand hS (hQ.first (fun v => ?_) h)⟩
    exact Keeps.bind hS (keeps_arguments hR limit es i n) fun vs => Keeps.pure hS (v :: vs)
  | laterArguments hends =>
    obtain ⟨n, h⟩ := h
    exact ⟨n, hQ.first (fun vs => Keeps.pure hS _) (hQ.operand h hends)⟩
  | body user found arity depth =>
    obtain ⟨n, h⟩ := h
    exact ⟨n, none, hQ.body user found arity depth h⟩
  | ret =>
    obtain ⟨n, h⟩ := hQ.execute_succ h
    rw [execute] at h
    exact ⟨n, hQ.of_operand hS (hQ.of_map hS h)⟩
  | print =>
    obtain ⟨n, h⟩ := hQ.execute_succ h
    rw [execute] at h
    refine ⟨n, hQ.of_operand hS (hQ.first (fun v => ?_) h)⟩
    exact Keeps.bind hS (keeps_print hR.console v _) fun _ => Keeps.pure hS (some v)
  | @condition e ss o i m =>
    obtain ⟨n, h⟩ := hQ.execute_succ h
    rw [execute_choose] at h
    refine ⟨n, hQ.of_operand hS (hQ.first (fun v => ?_) h)⟩
    split
    · exact keeps_executeAll hR limit n ss
    · cases o with
      | nothing => exact Keeps.pure hS none
      | block ss' => exact keeps_executeAll hR limit n ss'
      | elseIf c => exact keeps_execute hR limit n (.choose c)
  | chosen hends holds =>
    obtain ⟨n, h⟩ := hQ.execute_succ h
    rw [execute_choose] at h
    have h := hQ.operand h hends
    rw [if_pos holds] at h
    exact ⟨n, none, h⟩
  | otherwise hends fails =>
    obtain ⟨n, h⟩ := hQ.execute_succ h
    rw [execute_choose] at h
    have h := hQ.operand h hends
    rw [if_neg fails] at h
    exact ⟨n, none, h⟩
  | elseIf hends fails =>
    obtain ⟨n, h⟩ := hQ.execute_succ h
    rw [execute_choose] at h
    have h := hQ.operand h hends
    rw [if_neg fails] at h
    exact ⟨n, h⟩
  | init =>
    obtain ⟨n, h⟩ := hQ.execute_succ h
    rw [execute_loop] at h
    refine ⟨n, hQ.first (fun _ => ?_) h⟩
    exact Keeps.bind hS (keeps_rounds hR limit _ _ _ _ n n) fun _ => Keeps.pure hS none
  | rounds hends =>
    obtain ⟨n, h⟩ := hQ.execute_succ h
    rw [execute_loop] at h
    exact ⟨n, n, hQ.first (fun _ => Keeps.pure hS none) (hQ.statement h hends)⟩
  | roundCondition =>
    obtain ⟨n, k, h⟩ := hQ.rounds_succ h
    rw [Exec.rounds_succ] at h
    refine ⟨n, hQ.of_operand hS (hQ.first (fun v => ?_) h)⟩
    split
    · refine Keeps.bind hS (keeps_executeAll hR limit n _) fun _ => ?_
      exact Keeps.bind hS (keeps_execute hR limit n _) fun _ => keeps_rounds hR limit _ _ _ _ n k
    · exact Keeps.pure hS ()
  | roundBody hends holds =>
    obtain ⟨n, k, h⟩ := hQ.rounds_succ h
    rw [Exec.rounds_succ] at h
    have h := hQ.operand h hends
    rw [if_pos holds] at h
    refine ⟨n, none, hQ.first (fun _ => ?_) h⟩
    exact Keeps.bind hS (keeps_execute hR limit n _) fun _ => keeps_rounds hR limit _ _ _ _ n k
  | roundUpdate hends holds hbody =>
    obtain ⟨n, k, h⟩ := hQ.rounds_succ h
    rw [Exec.rounds_succ] at h
    have h := hQ.operand h hends
    rw [if_pos holds] at h
    exact ⟨n, hQ.first (fun _ => keeps_rounds hR limit _ _ _ _ n k) (hQ.block h hbody)⟩
  | nextRound hends holds hbody hupdate =>
    obtain ⟨n, k, h⟩ := hQ.rounds_succ h
    rw [Exec.rounds_succ] at h
    have h := hQ.operand h hends
    rw [if_pos holds] at h
    exact ⟨n, k, hQ.statement (hQ.block h hbody) hupdate⟩
  | assignTyped =>
    obtain ⟨n, h⟩ := hQ.execute_succ h
    rw [execute] at h
    refine ⟨n, hQ.of_operand hS (hQ.first (fun v => ?_) h)⟩
    exact Keeps.map hS some (keeps_assignTyped hR.within trivial _ v _)
  | assign =>
    obtain ⟨n, h⟩ := hQ.execute_succ h
    rw [execute] at h
    refine ⟨n, hQ.of_operand hS (hQ.first (fun v => ?_) h)⟩
    exact Keeps.map hS some (keeps_assign hR.within trivial v _)
  | alone =>
    obtain ⟨n, h⟩ := hQ.execute_succ h
    rw [execute] at h
    exact ⟨n, h⟩
  | firstStatement =>
    obtain ⟨n, last, h⟩ := h
    refine ⟨n, hQ.first (fun v => ?_) h⟩
    exact Keeps.lastOf hS v _ fun s _ => keeps_execute hR limit n s
  | laterStatements hends =>
    obtain ⟨n, last, h⟩ := h
    exact ⟨n, _, hQ.statement h hends⟩

theorem of_reaches (hQ : HandedOn R limit limit' @Q) (hR : Respected R) {start moment : Moment}
    (hreaches : Moment.Reaches limit' start moment) (h : start.Has @Q limit) :
    moment.Has @Q limit := by
  induction hreaches with
  | refl => exact h
  | tail _ hleads ih => exact hQ.of_leads hR hleads ih

end HandedOn

end Skript
