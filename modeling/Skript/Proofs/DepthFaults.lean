import Skript.Proofs.CallerFrame
import Skript.Proofs.Causes
import Skript.Proofs.CutOff
import Skript.Proofs.Passage

/-!
# Faults at the limit on the depth of calls

A run complains about the depth of its calls only if it comes to the call of one of its functions at
the very limit. Every part of a program that runs is followed until the complaint is met.
-/
namespace Skript

open Exec Moment

/-- The run comes to a call of one of its functions at the limit, on the line of the fault. -/
def Moment.MeetsLimit (most : Nat) (limit : Option Nat) (start : Moment) (line : Nat) : Prop :=
  ∃ name args there d, Reaches limit start ⟨.call name args line, there⟩ ∧ there.depth = most ∧
    Builtin.find? name = none ∧ there.functions[name]? = some d ∧
    checkArity name d.params.length args.length = .ok ()

/-- A complaint about the depth of calls is the one of a call at the limit. -/
def Moment.Explains (most : Nat) (limit : Option Nat) (start : Moment) (fault : RunFault) : Prop :=
  ∀ k, fault.cause = .callDepth k → k = most ∧ start.MeetsLimit most limit fault.line

namespace Exec

variable {α : Type} {most : Nat} {limit : Option Nat} {m : Machine}

theorem explains_of_values {start : Moment} {cause : RunCause} {line : Nat}
    (h : cause.OfValues) : start.Explains most limit ⟨cause, line⟩ := by
  intro k hk
  obtain rfl : cause = .callDepth k := hk
  cases h

theorem explains_of_console {start : Moment} {cause : RunCause} {line : Nat}
    (h : cause.OfConsole) : start.Explains most limit ⟨cause, line⟩ := by
  intro k hk
  obtain rfl : cause = .callDepth k := hk
  cases h

theorem failsBy_values {start : Moment} {result : Except RunCause α} {line : Nat}
    (h : CausedBy RunCause.OfValues result) :
    FailsBy (start.Explains most limit) (ofExcept line result) m :=
  FailsBy.ofExcept h fun _ => explains_of_values

/-- What explains the fault of a part explains it for the whole. -/
theorem failsBy_part {start part : Moment} {x : Exec α} (hleads : Leads limit start part)
    (h : FailsBy (part.Explains most limit) x m) : FailsBy (start.Explains most limit) x m := by
  refine h.mono fun fault hfault k hk => ?_
  obtain ⟨hmost, name, args, there, d, hreaches, hthere⟩ := hfault k hk
  exact ⟨hmost, name, args, there, d, hreaches.head hleads, hthere⟩

theorem failsBy_lookup {start : Moment} (name : String) (line : Nat) :
    FailsBy (start.Explains most limit) (lookup name line) m := by
  refine FailsBy.machine ?_
  cases m.environment.get? name with
  | none => exact FailsBy.fail nofun
  | some v => exact FailsBy.pure v

theorem failsBy_input {start : Moment} (prompt : Option String) (kind : Option Kind) (line : Nat) :
    FailsBy (start.Explains most limit) (input prompt kind line) m := by
  have hprompt : FailsBy (start.Explains most limit) (showPrompt prompt line) m := by
    cases prompt with
    | none => exact FailsBy.pure ()
    | some s =>
      exact FailsBy.onConsole (Console.causedBy_prompt s m.console) fun _ => explains_of_console
  refine FailsBy.bind hprompt fun _ middle _ => ?_
  refine FailsBy.bind ?_ fun raw last _ => failsBy_values (Value.causedBy_ofInput kind raw)
  exact FailsBy.onConsole (Console.causedBy_readLine middle.console) fun _ => explains_of_console

theorem failsBy_print {start : Moment} (v : Value) (line : Nat) :
    FailsBy (start.Explains most limit) (print v line) m :=
  FailsBy.onConsole (Console.causedBy_write _ m.console) fun _ => explains_of_console

theorem failsBy_assignTyped {start : Moment} (name : String) (kind : Kind) (v : Value)
    (line : Nat) : FailsBy (start.Explains most limit) (assignTyped name kind v line) m := by
  refine FailsBy.bind (failsBy_values (Value.causedBy_conform kind name v)) fun stored _ _ => ?_
  exact FailsBy.bind (FailsBy.update _) fun _ _ _ => FailsBy.pure stored

theorem failsBy_assign {start : Moment} (name : String) (v : Value) (line : Nat) :
    FailsBy (start.Explains most limit) (assign name v line) m := by
  intro fault after h
  rw [run_assign] at h
  have hsettle := Value.causedBy_settle (m.environment.declared? name) name v
  generalize v.settle (m.environment.declared? name) name = result at h hsettle
  cases result with
  | ok stored => cases h
  | error cause =>
    cases h
    exact explains_of_values (hsettle cause rfl)

theorem failsBy_define {start : Moment} (d : Definition) :
    FailsBy (start.Explains most limit) (define d) m := by
  refine FailsBy.bind ?_ fun _ _ _ => FailsBy.update _
  unfold Builtin.checkName
  split
  · exact FailsBy.fail nofun
  · exact FailsBy.pure ()

/-- The statements that are run with bound `n` explain their faults. -/
def StatementsExplain (most : Nat) (limit : Option Nat) (n : Nat) : Prop :=
  ∀ s m, m.depth ≤ most →
    FailsBy (Moment.Explains most limit ⟨.statement s, m⟩) (execute (some most) n s) m

theorem depth_of_execute {s : Statement} {after : Machine} {result : Except RunFault (Option Value)}
    (h : Ends (fun n => execute limit n s) m result after) : after.depth = m.depth := by
  obtain ⟨n, hrun⟩ := h
  exact (keeps_execute respected_depth limit n s m result after hrun).1

theorem depth_of_executeAll {ss : List Statement} {after : Machine}
    {result : Except RunFault (Option Value)}
    (h : Ends (fun n => executeAll limit n ss) m result after) : after.depth = m.depth := by
  obtain ⟨n, hrun⟩ := h
  exact (keeps_executeAll respected_depth limit n ss m result after hrun).1

theorem depth_of_operand {e : Expr} {line : Nat} {after : Machine} {result : Except RunFault Value}
    (h : Ends (operand limit e line) m result after) : after.depth = m.depth := by
  obtain ⟨n, hrun⟩ := h
  exact (keeps_operand respected_depth limit e line n m result after hrun).1

theorem depth_of_arguments {es : List Expr} {line : Nat} {after : Machine}
    {result : Except RunFault (List Value)}
    (h : Ends (arguments limit es line) m result after) : after.depth = m.depth := by
  obtain ⟨n, hrun⟩ := h
  exact (keeps_arguments respected_depth limit es line n m result after hrun).1

theorem failsBy_block (hlimit : Eases most limit) {n : Nat}
    (hs : StatementsExplain most limit n) (last : Option Value) (ss : List Statement)
    (hdepth : m.depth ≤ most) :
    FailsBy (Moment.Explains most limit ⟨.block ss, m⟩)
      (lastOf (execute (some most) n) last ss) m := by
  induction ss generalizing last m with
  | nil => exact FailsBy.pure last
  | cons s ss ih =>
    refine FailsBy.bind (failsBy_part .firstStatement (hs s m hdepth)) fun v middle hrun => ?_
    -- What ended well with the limit did so without it, which is how the run gets to the rest.
    have hends := ends_of_cutOff (fun n => matches_execute_cutOff hlimit n s) hrun
    refine failsBy_part (.laterStatements hends) (ih v ?_)
    rwa [depth_of_execute hends]

/-- Of a call only the check of the depth can complain about it, or the body once it is entered. -/
theorem failsBy_call (hlimit : Eases most limit) {n : Nat} (hs : StatementsExplain most limit n)
    (name : String) (args : List Value) (line : Nat) (hdepth : m.depth ≤ most) :
    FailsBy (Moment.Explains most limit ⟨.call name args line, m⟩)
      (call (some most) (execute (some most) n) name args line) m := by
  unfold call
  cases hname : Builtin.find? name with
  | some f => exact FailsBy.map some (failsBy_values (causedBy_builtin hname args))
  | none =>
    refine FailsBy.machine ?_
    cases hd : m.functions[name]? with
    | none => exact FailsBy.fail nofun
    | some d =>
      dsimp only
      cases harity : checkArity name d.params.length args.length with
      | error cause =>
        exact FailsBy.fail (explains_of_values (causedBy_checkArity _ _ _ cause harity))
      | ok =>
        refine FailsBy.bind (FailsBy.pure ()) fun _ _ hrun => ?_
        cases hrun
        -- The depth never exceeds the limit, so a refused call is met at the limit itself.
        by_cases hmost : most ≤ m.depth
        · rw [checkDepth, if_pos hmost]
          refine FailsBy.bind (FailsBy.fail fun k hk => ?_) nofun
          cases hk
          have hmeets : m.depth = most := by omega
          exact ⟨rfl, name, args, m, d, .refl, hmeets, hname, hd, harity⟩
        · have hfree : checkDepth limit m.depth = .ok () := by
            obtain rfl | rfl := hlimit
            · rw [checkDepth, if_neg hmost]
            · rfl
          rw [checkDepth, if_neg hmost, lastUntil_isReturn]
          refine FailsBy.bind (FailsBy.pure ()) fun _ _ hrun => ?_
          cases hrun
          refine failsBy_part (.body hname hd harity hfree) (FailsBy.inCall ?_)
          refine failsBy_block hlimit hs none _ ?_
          show m.depth + 1 ≤ most
          omega

theorem failsBy_evaluate (hlimit : Eases most limit) {n : Nat}
    (hs : ∀ k < n, StatementsExplain most limit k) (e : Expr) (hdepth : m.depth ≤ most) :
    FailsBy (Moment.Explains most limit ⟨.expr e, m⟩) (evaluate (some most) n e) m := by
  induction n generalizing e m with
  | zero => rw [evaluate]; exact FailsBy.outOfFuel
  | succ n ih =>
    have hv : ∀ (e : Expr) (line : Nat) {m : Machine}, m.depth ≤ most →
        FailsBy (Moment.Explains most limit ⟨.expr e, m⟩) (operand (some most) e line n) m :=
      fun e line m hdepth =>
        FailsBy.required (ih (fun k hk => hs k (Nat.lt_succ_of_lt hk)) e hdepth) nofun
    have hends : ∀ {e : Expr} {line : Nat} {m after : Machine} {v : Value},
        (operand (some most) e line n).run m = .finished (.ok v) after →
        Ends (operand limit e line) m (.ok v) after :=
      ends_of_cutOff fun n => matches_operand_cutOff hlimit n _ _
    cases e with
    | literal value line => rw [evaluate]; exact FailsBy.pure _
    | var name line => rw [evaluate]; exact FailsBy.map some (failsBy_lookup name line)
    | binary left op right line =>
      rw [evaluate]
      refine FailsBy.bind (failsBy_part .left (hv left line hdepth)) fun l middle hl => ?_
      have hmiddle : middle.depth ≤ most := by rwa [depth_of_operand (hends hl)]
      refine FailsBy.bind (failsBy_part (.right (hends hl)) (hv right line hmiddle)) fun r _ _ => ?_
      exact FailsBy.map some (failsBy_values (Value.causedBy_binary op l r))
    | call name es line =>
      have hargs : ∀ (es : List Expr) {m : Machine}, m.depth ≤ most →
          FailsBy (Moment.Explains most limit ⟨.arguments es line, m⟩)
            (arguments (some most) es line n) m := by
        intro es
        induction es with
        | nil => exact fun _ => FailsBy.pure []
        | cons e es ihes =>
          intro m hdepth
          refine FailsBy.bind (failsBy_part .firstArgument (hv e line hdepth)) fun v middle hv => ?_
          have hmiddle : middle.depth ≤ most := by rwa [depth_of_operand (hends hv)]
          refine FailsBy.bind (failsBy_part (.laterArguments (hends hv)) (ihes hmiddle)) ?_
          exact fun vs _ _ => FailsBy.pure (v :: vs)
      rw [evaluate]
      refine FailsBy.bind (failsBy_part .arguments (hargs es hdepth)) fun args middle hrun => ?_
      have hgiven := ends_of_cutOff (fun n => matches_arguments_cutOff hlimit n es line) hrun
      have hmiddle : middle.depth ≤ most := by rwa [depth_of_arguments hgiven]
      exact failsBy_part (.call hgiven)
        (failsBy_call hlimit (hs n (Nat.lt_succ_self n)) name args line hmiddle)
    | input prompt kind line =>
      rw [evaluate]
      exact FailsBy.map some (failsBy_input prompt kind line)
    | length operand line =>
      rw [evaluate]
      refine FailsBy.bind (failsBy_part .length (hv operand line hdepth)) fun v _ _ => ?_
      exact FailsBy.map some (failsBy_values (Value.causedBy_length v))

theorem failsBy_operand (hlimit : Eases most limit) {n : Nat}
    (hs : ∀ k < n, StatementsExplain most limit k) (e : Expr) (line : Nat)
    (hdepth : m.depth ≤ most) :
    FailsBy (Moment.Explains most limit ⟨.expr e, m⟩) (operand (some most) e line n) m :=
  FailsBy.required (failsBy_evaluate hlimit hs e hdepth) nofun

theorem failsBy_rounds (hlimit : Eases most limit) {n : Nat}
    (hs : ∀ k ≤ n, StatementsExplain most limit k) (condition : Expr) (update : Statement)
    (body : List Statement) (line k : Nat) (hdepth : m.depth ≤ most) :
    FailsBy (Moment.Explains most limit ⟨.rounds condition update body line, m⟩)
      (rounds (some most) condition update body line n k) m := by
  induction k generalizing m with
  | zero => exact FailsBy.outOfFuel
  | succ k ih =>
    rw [rounds_succ]
    have hcondition :=
      failsBy_operand hlimit (fun k hk => hs k (Nat.le_of_lt hk)) condition line hdepth
    refine FailsBy.bind (failsBy_part .roundCondition hcondition) fun v m₁ h₁ => ?_
    have hends₁ := ends_of_cutOff (fun n => matches_operand_cutOff hlimit n condition line) h₁
    have hdepth₁ : m₁.depth ≤ most := by rwa [depth_of_operand hends₁]
    by_cases hholds : v.isTruthy
    case neg =>
      rw [if_neg hholds]
      exact FailsBy.pure ()
    case pos =>
      rw [if_pos hholds]
      refine FailsBy.bind (failsBy_part (.roundBody hends₁ hholds)
        (failsBy_block hlimit (hs n (Nat.le_refl n)) none body hdepth₁)) fun _ m₂ h₂ => ?_
      have hends₂ := ends_of_cutOff (fun n => matches_executeAll_cutOff hlimit n body) h₂
      have hdepth₂ : m₂.depth ≤ most := by rwa [depth_of_executeAll hends₂]
      refine FailsBy.bind (failsBy_part (.roundUpdate hends₁ hholds hends₂)
        (hs n (Nat.le_refl n) update m₂ hdepth₂)) fun _ m₃ h₃ => ?_
      have hends₃ := ends_of_cutOff (fun n => matches_execute_cutOff hlimit n update) h₃
      have hdepth₃ : m₃.depth ≤ most := by rwa [depth_of_execute hends₃]
      exact failsBy_part (.nextRound hends₁ hholds hends₂ hends₃) (ih hdepth₃)

theorem failsBy_execute (hlimit : Eases most limit) {n : Nat}
    (hs : ∀ k < n, StatementsExplain most limit k) : StatementsExplain most limit n := by
  intro s m hdepth
  cases n with
  | zero => rw [execute]; exact FailsBy.outOfFuel
  | succ n =>
    have hv : ∀ (e : Expr) (line : Nat),
        FailsBy (Moment.Explains most limit ⟨.expr e, m⟩) (operand (some most) e line n) m :=
      fun e line =>
        failsBy_operand hlimit (fun k hk => hs k (Nat.lt_succ_of_lt hk)) e line hdepth
    have hn : StatementsExplain most limit n := hs n (Nat.lt_succ_self n)
    cases s with
    | function name params body line =>
      rw [execute]
      exact FailsBy.bind (failsBy_define _) fun _ _ _ => FailsBy.pure none
    | ret value line => rw [execute]; exact FailsBy.map some (failsBy_part .ret (hv value line))
    | print operand line =>
      rw [execute]
      refine FailsBy.bind (failsBy_part .print (hv operand line)) fun v _ _ => ?_
      exact FailsBy.bind (failsBy_print v line) fun _ _ _ => FailsBy.pure (some v)
    | choose choice =>
      obtain ⟨condition, body, otherwise, line⟩ := choice
      rw [execute_choose]
      refine FailsBy.bind (failsBy_part .condition (hv condition line)) fun v m₁ h₁ => ?_
      have hends := ends_of_cutOff (fun n => matches_operand_cutOff hlimit n condition line) h₁
      have hdepth₁ : m₁.depth ≤ most := by rwa [depth_of_operand hends]
      by_cases hholds : v.isTruthy
      case pos =>
        rw [if_pos hholds]
        exact failsBy_part (.chosen hends hholds) (failsBy_block hlimit hn none body hdepth₁)
      case neg =>
        rw [if_neg hholds]
        cases otherwise with
        | nothing => exact FailsBy.pure none
        | block body =>
          exact failsBy_part (.otherwise hends hholds) (failsBy_block hlimit hn none body hdepth₁)
        | elseIf choice =>
          exact failsBy_part (.elseIf hends hholds) (hn (.choose choice) m₁ hdepth₁)
    | loop init condition update body line =>
      rw [execute_loop]
      refine FailsBy.bind (failsBy_part .init (hn init m hdepth)) fun _ m₁ h₁ => ?_
      have hends := ends_of_cutOff (fun n => matches_execute_cutOff hlimit n init) h₁
      have hdepth₁ : m₁.depth ≤ most := by rwa [depth_of_execute hends]
      refine FailsBy.bind (failsBy_part (.rounds hends) ?_) fun _ _ _ => FailsBy.pure none
      exact failsBy_rounds hlimit (fun k hk => hs k (Nat.lt_succ_of_le hk)) condition update body
        line n hdepth₁
    | declare name kind line =>
      rw [execute]
      exact FailsBy.bind (FailsBy.update _) fun _ _ _ => FailsBy.pure none
    | assignTyped name kind value line =>
      rw [execute]
      refine FailsBy.bind (failsBy_part .assignTyped (hv value line)) fun v _ _ => ?_
      exact FailsBy.map some (failsBy_assignTyped name kind v line)
    | assign name value line =>
      rw [execute]
      refine FailsBy.bind (failsBy_part .assign (hv value line)) fun v _ _ => ?_
      exact FailsBy.map some (failsBy_assign name v line)
    | expr operand line =>
      rw [execute]
      exact failsBy_part .alone
        (failsBy_evaluate hlimit (fun k hk => hs k (Nat.lt_succ_of_lt hk)) operand hdepth)

/-- Every complaint about the depth of calls comes from a call at the limit. -/
theorem failsBy_executeAll (hlimit : Eases most limit) (n : Nat) (ss : List Statement)
    (hdepth : m.depth ≤ most) :
    FailsBy (Moment.Explains most limit ⟨.block ss, m⟩) (executeAll (some most) n ss) m := by
  -- The bodies of functions run with a smaller bound than the call that enters them.
  have hs : StatementsExplain most limit n := by
    induction n using Nat.strongRecOn with
    | _ n ih => exact failsBy_execute hlimit ih
  exact failsBy_block hlimit hs none ss hdepth

end Exec

end Skript
