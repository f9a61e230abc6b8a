import Mathlib.Order.Basic
import Skript.Proofs.DepthFaults

/-!
# The limit on the depth of calls

The limit only cuts off runs that call too deep. A run that ends otherwise ends in the same way
without any limit, and never gets deeper than the limit allows; a run without a limit that never
gets deeper ends in the same way with it. The fault comes from a call that is attempted at the limit,
and from nothing else.
-/
namespace Skript

open Exec Moment

namespace Exec

variable {α : Type} {most : Nat} {m : Machine}

theorem run_call_at_limit {name : String} {args : List Value} {d : Definition}
    (hname : Builtin.find? name = none) (hd : m.functions[name]? = some d)
    (harity : checkArity name d.params.length args.length = .ok ())
    (run : Statement → Exec (Option Value)) (line : Nat) :
    (call (some m.depth) run name args line).run m =
      .finished (.error ⟨.callDepth m.depth, line⟩) m := by
  rw [run_call_of_defined hname hd harity, checkDepth, if_pos (Nat.le_refl m.depth)]

/-! ### Runs that stay within the limit -/

/-- With the limit the computation ends, and not with a complaint about the depth of calls. -/
def Calm (x : Exec α) (m : Machine) : Prop :=
  ∃ result after, x.run m = .finished result after ∧ Unlimited result

namespace Calm

variable {β : Type}

theorem not_outOfFuel : ¬ Calm (Exec.outOfFuel : Exec α) m := by
  rintro ⟨result, after, h, -⟩
  cases h

theorem first {x : Exec α} {f : α → Exec β} (h : Calm (x >>= f) m) : Calm x m := by
  obtain ⟨result, after, hrun, hresult⟩ := h
  obtain ⟨fault, hfirst, rfl⟩ | ⟨a, middle, hfirst, -⟩ := finished_of_bind hrun
  · refine ⟨_, after, hfirst, ?_⟩
    rintro limit line ⟨⟩
    exact hresult limit line rfl
  · exact ⟨_, middle, hfirst, unlimited_ok a⟩

/-- What follows a part that ends well without the limit is calm where that part has ended. -/
theorem second {x y : Nat → Exec α} (hy : Steady y)
    (hxy : ∀ n, Matches (cutOff most) Eq (x n) (y n)) {n : Nat} {f : α → Exec β}
    (h : Calm (x n >>= f) m) {a : α} {middle : Machine} (hends : Ends y m (.ok a) middle) :
    Calm (f a) middle := by
  obtain ⟨first, last, hx, hfirst⟩ := h.first
  -- The first part ends in the same way with and without the limit, and in one way only.
  obtain ⟨rfl, rfl⟩ := Ends.unique hy ⟨n, finished_of_cutOff (hxy n) hx hfirst⟩ hends
  obtain ⟨result, after, hrun, hresult⟩ := h
  rw [run_bind, hx] at hrun
  exact ⟨result, after, hrun, hresult⟩

theorem inCall {locals : Environment} {x : Exec α} (h : Calm (Exec.inCall locals x) m) :
    Calm x (m.enter locals) := by
  obtain ⟨result, after, hrun, hresult⟩ := h
  obtain ⟨last, hbody, -⟩ := finished_of_inCall hrun
  exact ⟨result, last, hbody, hresult⟩

end Calm

end Exec

/-- With the limit what is about to be run ends without a complaint about the depth of calls. -/
def Moment.Calm (most : Nat) : Moment → Prop
  | ⟨.expr e, m⟩ => ∃ n, Exec.Calm (evaluate (some most) n e) m
  | ⟨.arguments es line, m⟩ => ∃ n, Exec.Calm (Exec.arguments (some most) es line n) m
  | ⟨.call name args line, m⟩ =>
      ∃ n, Exec.Calm (Exec.call (some most) (execute (some most) n) name args line) m
  | ⟨.statement s, m⟩ => ∃ n, Exec.Calm (execute (some most) n s) m
  | ⟨.block ss, m⟩ => ∃ n last, Exec.Calm (lastOf (execute (some most) n) last ss) m
  | ⟨.rounds condition update body line, m⟩ =>
      ∃ n k, Exec.Calm (Exec.rounds (some most) condition update body line n k) m

namespace Moment

variable {most : Nat} {m : Machine}

/-- What follows an operand. -/
theorem calm_after_operand {β : Type} {e : Expr} {line n : Nat} {f : Value → Exec β}
    (h : Exec.Calm (operand (some most) e line n >>= f) m) {v : Value} {m' : Machine}
    (hends : Ends (operand none e line) m (.ok v) m') : Exec.Calm (f v) m' :=
  Calm.second (steady_operand none e line) (fun n => matches_operand_cutOff (.inr rfl) n e line)
    (x := operand (some most) e line) h hends

/-- What follows the arguments of a call. -/
theorem calm_after_arguments {β : Type} {es : List Expr} {line n : Nat} {f : List Value → Exec β}
    (h : Exec.Calm (Exec.arguments (some most) es line n >>= f) m) {args : List Value}
    {m' : Machine} (hends : Ends (Exec.arguments none es line) m (.ok args) m') : Exec.Calm (f args) m' :=
  Calm.second (steady_arguments none es line)
    (fun n => matches_arguments_cutOff (.inr rfl) n es line)
    (x := Exec.arguments (some most) es line) h hends

/-- What follows a statement. -/
theorem calm_after_statement {β : Type} {s : Statement} {n : Nat} {f : Option Value → Exec β}
    (h : Exec.Calm (execute (some most) n s >>= f) m) {v : Option Value} {m' : Machine}
    (hends : Ends (fun n => execute none n s) m (.ok v) m') : Exec.Calm (f v) m' :=
  Calm.second (steady_execute none s) (fun n => matches_execute_cutOff (.inr rfl) n s)
    (x := fun n => execute (some most) n s) h hends

/-- What follows a block. -/
theorem calm_after_block {β : Type} {ss : List Statement} {n : Nat} {f : Option Value → Exec β}
    (h : Exec.Calm (executeAll (some most) n ss >>= f) m) {v : Option Value} {m' : Machine}
    (hends : Ends (fun n => executeAll none n ss) m (.ok v) m') : Exec.Calm (f v) m' :=
  Calm.second (steady_executeAll none ss) (fun n => matches_executeAll_cutOff (.inr rfl) n ss)
    (x := fun n => executeAll (some most) n ss) h hends

/-- A body is entered below the limit, or the call would have complained. -/
theorem calm_body {name : String} {args : List Value} {line n : Nat} {d : Definition}
    (hname : Builtin.find? name = none) (hd : m.functions[name]? = some d)
    (harity : checkArity name d.params.length args.length = .ok ()) (hdepth : m.depth ≤ most)
    (h : Exec.Calm (Exec.call (some most) (execute (some most) n) name args line) m) :
    m.depth < most ∧ Exec.Calm (executeAll (some most) n (Statement.upToReturn d.body))
      (m.enter (.ofArguments d.params args)) := by
  obtain ⟨result, after, hrun, hresult⟩ := h
  by_cases hmost : m.depth = most
  · subst hmost
    rw [run_call_at_limit hname hd harity] at hrun
    cases hrun
    exact absurd rfl (hresult m.depth line)
  · have hbelow : m.depth < most := by omega
    refine ⟨hbelow, Calm.inCall ?_⟩
    rw [run_call_of_defined hname hd harity, checkDepth, if_neg (Nat.not_le.2 hbelow)] at hrun
    exact ⟨result, after, hrun, hresult⟩

/-- A calm run within the limit hands both on to its parts. Only a body changes the depth. -/
theorem handedOn_calm {R : Machine → Machine → Prop} :
    HandedOn R (some most) none fun x m => Exec.Calm x m ∧ m.depth ≤ most where
  bound h := Calm.not_outOfFuel h.1
  first _ h := ⟨h.1.first, h.2⟩
  operand h hends := ⟨calm_after_operand h.1 hends, (depth_of_operand hends).trans_le h.2⟩
  arguments h hends := ⟨calm_after_arguments h.1 hends, (depth_of_arguments hends).trans_le h.2⟩
  statement h hends := ⟨calm_after_statement h.1 hends, (depth_of_execute hends).trans_le h.2⟩
  block h hends := ⟨calm_after_block h.1 hends, (depth_of_executeAll hends).trans_le h.2⟩
  body user found arity _ h := by
    obtain ⟨hbelow, hbody⟩ := calm_body user found arity h.2 h.1
    exact ⟨hbody, hbelow⟩

theorem has_calm_iff {moment : Moment} :
    moment.Has (fun x m => Exec.Calm x m ∧ m.depth ≤ most) (some most) ↔
      Calm most moment ∧ moment.machine.depth ≤ most := by
  obtain ⟨task, m⟩ := moment
  cases task <;> simp only [Has, Calm, exists_and_right]

theorem calm_of_reaches {start moment : Moment} (hreaches : Reaches none start moment)
    (hcalm : Calm most start) (hdepth : start.machine.depth ≤ most) :
    Calm most moment ∧ moment.machine.depth ≤ most := by
  have hhas := handedOn_calm.of_reaches respected_depth hreaches (has_calm_iff.2 ⟨hcalm, hdepth⟩)
  exact has_calm_iff.1 hhas

/-- Without the limit the run never gets deeper than the limit would allow. -/
def NeverDeeper (most : Nat) (start : Moment) : Prop :=
  ∀ moment, Reaches none start moment → moment.machine.depth ≤ most

/-- A run that meets a call at the limit goes on, without the limit, beyond it. -/
theorem not_neverDeeper {start : Moment} {line : Nat} (h : start.MeetsLimit most none line) :
    ¬ start.NeverDeeper most := by
  intro hnever
  obtain ⟨name, args, there, d, hreaches, hdepth, hname, hd, harity⟩ := h
  have hdeeper := hnever _ (hreaches.tail (.body hname hd harity rfl))
  have hentered : there.depth + 1 ≤ most := hdeeper
  omega

end Moment

/-- A run that ends without a complaint about the depth of calls ends in the same way without the
limit, where it never gets deeper than that; a run that ends without the limit and never gets deeper
ends in the same way with it. A complaint comes from a call that is attempted at the limit. -/
theorem call_limit_only_cuts_off_deeper_runs (most : Nat) (ss : List Statement) (m : Machine)
    (hdepth : m.depth ≤ most) :
    (∀ result after, Unlimited result → Ends (fun n => executeAll (some most) n ss) m result after →
      Ends (fun n => executeAll none n ss) m result after ∧
        Moment.NeverDeeper most ⟨.block ss, m⟩) ∧
    (∀ result after, Ends (fun n => executeAll none n ss) m result after →
      Moment.NeverDeeper most ⟨.block ss, m⟩ →
        Ends (fun n => executeAll (some most) n ss) m result after) ∧
    ∀ k line after,
      Ends (fun n => executeAll (some most) n ss) m (.error ⟨.callDepth k, line⟩) after →
        k = most ∧ ∃ name args there,
          Reaches (some most) ⟨.block ss, m⟩ ⟨.call name args line, there⟩ ∧ there.depth = most ∧
          ∀ n, (call (some most) (execute (some most) n) name args line).run there =
            .finished (.error ⟨.callDepth most, line⟩) there := by
  refine ⟨?_, ?_, ?_⟩
  · rintro result after hresult ⟨n, hn⟩
    refine ⟨⟨n, finished_of_cutOff (matches_executeAll_cutOff (.inr rfl) n ss) hn hresult⟩, ?_⟩
    have hcalm : Moment.Calm most ⟨.block ss, m⟩ := ⟨n, none, result, after, hn, hresult⟩
    exact fun moment hreaches => (calm_of_reaches hreaches hcalm hdepth).2
  · rintro result after ⟨n, hn⟩ hnever
    obtain hsame | ⟨line, last, hfault⟩ :=
      finished_or_cutOff (matches_executeAll_cutOff (.inr rfl) n ss) hn
    · exact ⟨n, hsame⟩
    · obtain ⟨-, hmeets⟩ := failsBy_executeAll (.inr rfl) n ss hdepth _ last hfault most rfl
      exact absurd hnever (not_neverDeeper hmeets)
  · rintro k line after ⟨n, hn⟩
    obtain ⟨rfl, name, args, there, d, hreaches, hthere, hname, hd, harity⟩ :=
      failsBy_executeAll (.inl rfl) n ss hdepth _ after hn k rfl
    refine ⟨rfl, name, args, there, hreaches, hthere, fun n => ?_⟩
    subst hthere
    exact run_call_at_limit hname hd harity (execute (some there.depth) n) line

/-- The function calls itself once more. A limit of two is not met, a limit of one is. -/
theorem one_more_call_at_the_limit :
    let again : Statement := .choose (.mk (.var "more" 2)
      [.expr (.call "f" [.literal (.bool false) 3] 3) 3] .nothing 2)
    let m : Machine := { functions := (∅ : FunctionTable).insert "f" ⟨"f", ["more"], [again], 1⟩ }
    let program : List Statement := [.expr (.call "f" [.literal (.bool true) 5] 5) 5]
    m.depth ≤ 1 ∧
    (∃ after, Ends (fun n => executeAll (some 2) n program) m (.ok none) after ∧
      Ends (fun n => executeAll none n program) m (.ok none) after) ∧
    Moment.NeverDeeper 2 ⟨.block program, m⟩ ∧
    ∃ name args there, Reaches (some 1) ⟨.block program, m⟩ ⟨.call name args 3, there⟩ ∧
      there.depth = 1 := by
  intro again m program
  have hends : Ends (fun n => executeAll (some 2) n program) m (.ok none) m := ⟨8, rfl⟩
  have hfault : Ends (fun n => executeAll (some 1) n program) m (.error ⟨.callDepth 1, 3⟩) m :=
    ⟨8, rfl⟩
  obtain ⟨hfree, hnever⟩ := (call_limit_only_cuts_off_deeper_runs 2 program m (Nat.zero_le 2)).1 _ m
    (unlimited_ok none) hends
  obtain ⟨-, name, args, there, hreaches, hthere, -⟩ :=
    (call_limit_only_cuts_off_deeper_runs 1 program m (Nat.zero_le 1)).2.2 1 3 m hfault
  exact ⟨Nat.zero_le 1, ⟨m, hends, hfree⟩, hnever, name, args, there, hreaches, hthere⟩

end Skript
