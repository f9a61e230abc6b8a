import Skript.Proofs.Passage
import Skript.Proofs.Session

/-!
# Where functions come from, and that they stay

A function gets into the table when its definition is run, be it in a block, in a loop or in the
body of another function, which an earlier program may have defined. So the functions in the table
are definitions that occur in the programs that were run. They have the names under which they are
found, and none of these is the name of a built-in function. A function can be replaced, but it is
never taken out of the table again, whatever becomes of the run that has defined it.
-/
namespace Skript

open Exec

mutual

/-- The definitions in a statement, also those in the bodies of others. -/
def Statement.definitions : Statement → List Definition
  | .function name params body line =>
      ⟨name, params, body, line⟩ :: Statement.definitionsOfAll body
  | .choose choice => choice.definitions
  | .loop init _ update body _ =>
      init.definitions ++ update.definitions ++ Statement.definitionsOfAll body
  | .ret .. | .print .. | .declare .. | .assignTyped .. | .assign .. | .expr .. => []

def Statement.definitionsOfAll : List Statement → List Definition
  | [] => []
  | s :: ss => s.definitions ++ Statement.definitionsOfAll ss

def Choice.definitions : Choice → List Definition
  | .mk _ body otherwise _ => Statement.definitionsOfAll body ++ otherwise.definitions

def Otherwise.definitions : Otherwise → List Definition
  | .nothing => []
  | .block body => Statement.definitionsOfAll body
  | .elseIf choice => choice.definitions

end

/-- A definition and those in its body. -/
def Definition.withNested (d : Definition) : List Definition :=
  d :: Statement.definitionsOfAll d.body

theorem Statement.mem_definitionsOfAll {s : Statement} {ss : List Statement} (hs : s ∈ ss)
    {d : Definition} (hd : d ∈ s.definitions) : d ∈ Statement.definitionsOfAll ss := by
  induction ss with
  | nil => cases hs
  | cons t ts ih =>
    rw [Statement.definitionsOfAll, List.mem_append]
    obtain rfl | hs := List.mem_cons.mp hs
    · exact .inl hd
    · exact .inr (ih hs)

/-! ### Functions are definitions that occur in a program -/

/-- The functions in the table and the definitions in their bodies are all in `D`. -/
def FunctionTable.Within (D : Definition → Prop) (table : FunctionTable) : Prop :=
  ∀ (name : String) (d : Definition), table[name]? = some d → ∀ e ∈ d.withNested, D e

variable {D : Definition → Prop}

theorem FunctionTable.Within.insert {table : FunctionTable} (h : table.Within D) {d : Definition}
    (hd : ∀ e ∈ d.withNested, D e) : FunctionTable.Within D (table.insert d.name d) := by
  intro name found hfound
  rw [Std.TreeMap.getElem?_insert] at hfound
  split at hfound
  · cases hfound
    exact hd
  · exact h name found hfound

/-- A part of a program in which all definitions are in `D` belongs to itself. -/
def Pairing.within (D : Definition → Prop) : Pairing where
  literals := Eq
  lines := Eq
  names _ := True
  exprs := Eq
  definitions d d' := d = d' ∧ ∀ e ∈ d.withNested, D e
  statements s s' := s = s' ∧ ∀ d ∈ s.definitions, D d

/-- A run beside itself, on a table whose functions are in `D`. -/
def Resemblance.within (D : Definition → Prop) : Resemblance :=
  .exact Eq (fun a b => a = b ∧ a.Within D) fun _ => False

namespace Pairing

theorem within_forall₂ {ss : List Statement} (h : ∀ d ∈ Statement.definitionsOfAll ss, D d) :
    List.Forall₂ (within D).statements ss ss :=
  List.forall₂_same.2 fun _ hs => ⟨rfl, fun d hd => h d (Statement.mem_definitionsOfAll hs hd)⟩

theorem within_exprForm {e e' : Expr} (h : (within D).exprs e e') :
    Expr.SameForm (within D) e e' := by
  obtain rfl : e = e' := h
  exact Expr.sameForm_self (fun _ => rfl) (fun _ => rfl) (fun _ => trivial) (fun _ => rfl) e

theorem within_statementForm {s s' : Statement} (h : (within D).statements s s') :
    Statement.SameForm (within D) s s' := by
  obtain ⟨rfl, hD⟩ := h
  cases s with
  | function name params body line =>
    rw [Statement.definitions] at hD
    exact .function ⟨rfl, hD⟩
  | ret value line => exact .ret rfl rfl
  | print operand line => exact .print rfl rfl
  | choose choice =>
    obtain ⟨condition, body, otherwise, line⟩ := choice
    simp only [Statement.definitions, Choice.definitions, List.forall_mem_append] at hD
    refine .choose rfl (within_forall₂ hD.1) ?_ rfl
    cases otherwise with
    | nothing => exact .nothing
    | block body => exact .block (within_forall₂ (by simpa only [Otherwise.definitions] using hD.2))
    | elseIf choice =>
      exact .elseIf ⟨rfl, by simpa only [Statement.definitions, Otherwise.definitions] using hD.2⟩
  | loop init condition update body line =>
    simp only [Statement.definitions, List.forall_mem_append] at hD
    exact .loop ⟨rfl, hD.1.1⟩ rfl ⟨rfl, hD.1.2⟩ (within_forall₂ hD.2) rfl
  | declare name kind line => exact .declare
  | assignTyped name kind value line => exact .assignTyped rfl rfl
  | assign name value line => exact .assign rfl rfl
  | expr operand line => exact .expr rfl

end Pairing

/-- What is looked up in the table is in `D`, and so are the definitions that its body can run. -/
theorem Resemblance.lawful_within (D : Definition → Prop) (limit : Option Nat) :
    (Resemblance.within D).Lawful (.within D) limit limit := by
  refine Resemblance.Lawful.exact Pairing.within_exprForm ?_ id ?_ ?_ ?_ ?_ ?_
  · rintro cause line _ rfl
    rfl
  · rintro a _ ⟨rfl, ha⟩ name
    cases hfound : a[name]? with
    | none => exact .none
    | some d => exact .some ⟨rfl, ha name d hfound⟩
  · rintro a _ d _ ⟨rfl, ha⟩ ⟨rfl, hd⟩
    exact ⟨rfl, ha.insert hd⟩
  · rintro d _ ⟨rfl, -⟩
    exact ⟨rfl, rfl, rfl⟩
  · rintro d _ ⟨rfl, hd⟩
    have hbody : ∀ e ∈ Statement.definitionsOfAll d.body, D e :=
      fun e he => hd e (List.mem_cons_of_mem d he)
    exact Statement.forall₂_upToReturn (fun s _ h => by rw [h.1]) (Pairing.within_forall₂ hbody)
  · rintro E line _ depth rfl
    cases checkDepth limit depth with
    | ok => exact Matches.pure rfl
    | error cause => exact Matches.fail rfl

theorem within_of_executeAll {limit : Option Nat} {n : Nat} {ss : List Statement}
    {m after : Machine} {result : Except RunFault (Option Value)}
    (hss : ∀ d ∈ Statement.definitionsOfAll ss, D d) (hm : m.functions.Within D)
    (h : (executeAll limit n ss).run m = .finished result after) : after.functions.Within D := by
  -- The run is compared with itself. All that the comparison adds is where definitions come from.
  have laws := (Resemblance.lawful_within D limit).statementLaws Pairing.within_statementForm
  have hmatches := laws.matches_executeAll (n := n) (.inl rfl) (Pairing.within_forall₂ hss) m m
    ⟨⟨rfl, hm⟩, rfl, rfl, rfl⟩
  rw [h] at hmatches
  cases hmatches with
  | ok _ machines => exact machines.functions.2
  | error _ machines => exact machines.functions.2
  | excusedFault excused => cases excused

namespace Request

/-- The statements that a request runs: none, if it is a script that cannot be read. -/
def statements : Request → List Statement
  | .script source => (Script.read source).toOption.getD []
  | .program statements => statements
  | .single statement => [statement]

def definitions (request : Request) : List Definition :=
  Statement.definitionsOfAll request.statements

/-- A request that ends is a run of its statements. -/
theorem Leads.run {request : Request} {m after : Machine} (h : request.Leads m after) :
    ∃ n result,
      (executeAll (some callLimit) n request.statements).run m = .finished result after := by
  cases h with
  | @script source _ _ fuel _ run =>
    unfold Script.run at run
    split at run
    · next hread =>
      cases run
      exact ⟨fuel, .ok none, by rw [statements, hread]; rfl⟩
    · next read hread =>
      rw [statements, hread]
      cases hrun : (executeAll (some callLimit) fuel read).run m with
      | outOfFuel => rw [hrun] at run; cases run
      | finished result last =>
        rw [hrun] at run
        cases run
        exact ⟨fuel, result, hrun⟩
  | program run => exact ⟨_, _, run⟩
  | @single statement _ _ fuel result run =>
    refine ⟨fuel, result, ?_⟩
    have hsingle : executeAll (some callLimit) fuel [statement] =
        execute (some callLimit) fuel statement := bind_pure _
    rw [statements, hsingle]
    exact run

end Request

theorem Session.within {requests : List Request} {m after : Machine}
    (h : Session requests m after) (hD : ∀ request ∈ requests, ∀ d ∈ request.definitions, D d)
    (hm : m.functions.Within D) : after.functions.Within D := by
  induction h with
  | done m => exact hm
  | @next request requests m middle after first _ ih =>
    obtain ⟨n, result, hrun⟩ := first.run
    have hmiddle : middle.functions.Within D :=
      within_of_executeAll (hD request (by simp)) hm hrun
    exact ih (fun other hother => hD other (by simp [hother])) hmiddle

/-! ### Functions have their own names -/

/-- Functions are found under their own names, and none has the name of a built-in function. -/
def FunctionTable.OwnNames (table : FunctionTable) : Prop :=
  ∀ (name : String) (d : Definition), table[name]? = some d →
    d.name = name ∧ Builtin.find? name = none

theorem Builtin.find?_eq_none_of_checkName {name : String} (h : checkName name = .ok ()) :
    find? name = none := by
  unfold checkName at h
  split at h
  · cases h
  · next hname => exact Option.not_isSome_iff_eq_none.1 hname

theorem respected_ownNames :
    Respected fun m after => m.functions.OwnNames → after.functions.OwnNames where
  refl _ h := h
  trans hab hbc h := hbc (hab h)
  console _ _ _ h := h
  declare _ _ _ _ _ h := h
  set _ _ _ _ h := h
  define m d hd h name found hfound := by
    rw [Std.TreeMap.getElem?_insert] at hfound
    split at hfound
    · next hname =>
      cases hfound
      rw [← Std.LawfulEqCmp.eq_of_compare hname]
      exact ⟨rfl, Builtin.find?_eq_none_of_checkName hd⟩
    · exact h name found hfound
  call _ _ _ _ h := h

/-! ### Functions stay -/

/-- Every name that has a function in the first table has one in the second. -/
def FunctionTable.KeptIn (a b : FunctionTable) : Prop :=
  ∀ name : String, a[name]?.isSome → b[name]?.isSome

theorem FunctionTable.KeptIn.trans {a b c : FunctionTable} (hab : a.KeptIn b) (hbc : b.KeptIn c) :
    a.KeptIn c :=
  fun name h => hbc name (hab name h)

theorem respected_keptIn : Respected fun m after => m.functions.KeptIn after.functions where
  refl _ _ h := h
  trans := FunctionTable.KeptIn.trans
  console _ _ _ _ h := h
  declare _ _ _ _ _ _ h := h
  set _ _ _ _ _ h := h
  define m d _ name h := by
    rw [Std.TreeMap.getElem?_insert]
    split
    · rfl
    · exact h
  call _ _ _ _ h := h

namespace Exec

variable {α β : Type} {T : FunctionTable} {m : Machine}

/-- The computation ends, well or not, and all names of functions that it leaves are in `T`. -/
def EndsWithin (T : FunctionTable) (x : Exec α) (m : Machine) : Prop :=
  ∃ result after, x.run m = .finished result after ∧ after.functions.KeptIn T

namespace EndsWithin

theorem first {x : Exec α} {f : α → Exec β}
    (hf : ∀ a, Keeps (fun m after => m.functions.KeptIn after.functions) (f a))
    (h : EndsWithin T (x >>= f) m) : EndsWithin T x m := by
  obtain ⟨result, after, hrun, hafter⟩ := h
  obtain ⟨fault, hfirst, -⟩ | ⟨a, middle, hfirst, hsecond⟩ := finished_of_bind hrun
  · exact ⟨_, after, hfirst, hafter⟩
  · have hkept := hf a middle result after hsecond
    exact ⟨_, middle, hfirst, hkept.trans hafter⟩

theorem second {x : Nat → Exec α} {n : Nat} {f : α → Exec β} (h : EndsWithin T (x n >>= f) m)
    (hx : Steady x) {a : α} {middle : Machine} (hends : Ends x m (.ok a) middle) :
    EndsWithin T (f a) middle := by
  obtain ⟨result, after, hrun, hafter⟩ := h
  obtain ⟨fault, hfirst, -⟩ | ⟨b, last, hfirst, hsecond⟩ := finished_of_bind hrun
  · obtain ⟨hresult, -⟩ := Ends.unique hx ⟨n, hfirst⟩ hends
    cases hresult
  · obtain ⟨hresult, rfl⟩ := Ends.unique hx ⟨n, hfirst⟩ hends
    cases hresult
    exact ⟨result, after, hsecond, hafter⟩

/-- The table that the body of a function leaves is the one that its call leaves. -/
theorem inCall {locals : Environment} {x : Exec α} (h : EndsWithin T (Exec.inCall locals x) m) :
    EndsWithin T x (m.enter locals) := by
  obtain ⟨result, after, hrun, hafter⟩ := h
  obtain ⟨last, hbody, rfl⟩ := finished_of_inCall hrun
  exact ⟨result, last, hbody, hafter⟩

end EndsWithin

theorem handedOn_endsWithin (T : FunctionTable) (limit : Option Nat) :
    HandedOn (fun m after => m.functions.KeptIn after.functions) limit limit
      fun x m => EndsWithin T x m where
  bound := by
    rintro α m ⟨result, after, h, -⟩
    cases h
  first := EndsWithin.first
  operand h hends := h.second (steady_operand limit _ _) hends
  arguments h hends := h.second (steady_arguments limit _ _) hends
  statement h hends := h.second (x := fun n => execute limit n _) (steady_execute limit _) hends
  block h hends := h.second (x := fun n => executeAll limit n _) (steady_executeAll limit _) hends
  body := by
    intro name args line n d m user found arity depth h
    refine EndsWithin.inCall ?_
    obtain ⟨result, after, hrun, hafter⟩ := h
    rw [run_call_of_defined user found arity, depth] at hrun
    exact ⟨result, after, hrun, hafter⟩

end Exec

namespace Moment

theorem keptIn_of_endsWithin {T : FunctionTable} {limit : Option Nat} {moment : Moment}
    (h : moment.Has (fun x m => EndsWithin T x m) limit) : moment.machine.functions.KeptIn T := by
  have hR := respected_keptIn
  obtain ⟨task, m⟩ := moment
  cases task with
  | expr e =>
    obtain ⟨n, result, after, hrun, hafter⟩ := h
    exact (keeps_evaluate hR limit n e m result after hrun).trans hafter
  | arguments es line =>
    obtain ⟨n, result, after, hrun, hafter⟩ := h
    exact (keeps_arguments hR limit es line n m result after hrun).trans hafter
  | call name args line =>
    obtain ⟨n, result, after, hrun, hafter⟩ := h
    exact (keeps_call_execute hR limit n name args line m result after hrun).trans hafter
  | statement s =>
    obtain ⟨n, result, after, hrun, hafter⟩ := h
    exact (keeps_execute hR limit n s m result after hrun).trans hafter
  | block ss =>
    obtain ⟨n, last, result, after, hrun, hafter⟩ := h
    have hkeeps := Keeps.lastOf hR.toSequential last ss fun s _ => keeps_execute hR limit n s
    exact (hkeeps m result after hrun).trans hafter
  | rounds condition update body line =>
    obtain ⟨n, k, result, after, hrun, hafter⟩ := h
    exact (keeps_rounds hR limit condition update body line n k m result after hrun).trans hafter

/-- What is about to be run ends, well or not, on this machine. -/
def EndsOn (limit : Option Nat) (moment : Moment) (after : Machine) : Prop :=
  moment.Has (fun x m => ∃ result, x.run m = .finished result after) limit

/-- Whatever is in the table at some moment of a run is in the table when the run has ended. -/
theorem keptIn_of_reaches {limit : Option Nat} {start moment : Moment} {after : Machine}
    (hends : start.EndsOn limit after) (hreaches : Reaches limit start moment) :
    moment.machine.functions.KeptIn after.functions := by
  have hstart : start.Has (fun x m => EndsWithin after.functions x m) limit := by
    refine hends.mono ?_
    rintro α x m ⟨result, hrun⟩
    exact ⟨result, after, hrun, fun _ h => h⟩
  exact keptIn_of_endsWithin
    ((handedOn_endsWithin after.functions limit).of_reaches respected_keptIn hreaches hstart)

end Moment

/-- After any session each function in the table is a definition in one of the programs that were
run, under its own name, which is not that of a built-in function. And whatever is run, a name that
has a function at some moment of the run still has one when the run has ended, well or not. -/
theorem functions_were_defined_and_stay :
    (∀ console requests m, Session requests (.fresh console) m →
      ∀ (name : String) (d : Definition), m.functions[name]? = some d →
        Builtin.find? name = none ∧ d.name = name ∧ ∃ request ∈ requests, d ∈ request.definitions) ∧
    ∀ limit start moment after, Moment.EndsOn limit start after →
      Moment.Reaches limit start moment →
      ∀ name : String, moment.machine.functions[name]?.isSome → after.functions[name]?.isSome := by
  refine ⟨fun console requests m h name d hd => ?_, fun limit start moment after => ?_⟩
  · have hempty : ∀ name : String, (Machine.fresh console).functions[name]? = none :=
      fun name => Std.TreeMap.getElem?_emptyc
    have hnames : m.functions.OwnNames := by
      refine h.keeps respected_ownNames fun other e he => ?_
      rw [hempty other] at he
      cases he
    -- What counts as defined is fixed before the session, so that a function may be called by a
    -- later program than the one that defined it.
    have hwithin : m.functions.Within fun e => ∃ request ∈ requests, e ∈ request.definitions := by
      refine h.within (fun request hrequest e he => ⟨request, hrequest, he⟩) fun other e he => ?_
      rw [hempty other] at he
      cases he
    obtain ⟨hname, hbuiltin⟩ := hnames name d hd
    exact ⟨hbuiltin, hname, hwithin name d hd d (by simp [Definition.withNested])⟩
  · exact Moment.keptIn_of_reaches

/-- The body of `f` defines `g` and then looks for a variable that is not there. The call of `f`
fails, and `g` stays. -/
theorem function_defined_in_a_failing_call_stays :
    let g : Definition := ⟨"g", [], [], 2⟩
    let f : Definition := ⟨"f", [], [.function "g" [] [] 2, .expr (.var "x" 3) 3], 1⟩
    let program : List Statement :=
      [.function "f" [] [.function "g" [] [] 2, .expr (.var "x" 3) 3] 1, .expr (.call "f" [] 5) 5]
    let start : Moment := ⟨.call "f" [] 5, { functions := (∅ : FunctionTable).insert "f" f }⟩
    (∃ m, Session [.program program] (.fresh {}) m ∧ m.functions["g"]? = some g ∧
      Builtin.find? "g" = none ∧ ∃ request ∈ [Request.program program], g ∈ request.definitions) ∧
    ∃ moment after, start.EndsOn none after ∧ Moment.Reaches none start moment ∧
      moment.machine.functions["g"]?.isSome ∧ after.functions["g"]?.isSome := by
  intro g f program start
  obtain ⟨hsession, hrun⟩ := functions_were_defined_and_stay
  have hfails : ∃ result m, (executeAll (some callLimit) 8 program).run (.fresh {}) =
      .finished result m ∧ m.functions["g"]? = some g := by
    refine ⟨_, _, rfl, ?_⟩
    rfl
  have hends : ∃ after, start.EndsOn none after := ⟨_, 8, .error ⟨.unknownVariable "x", 3⟩, rfl⟩
  have hreaches : ∃ moment, Moment.Reaches none start moment ∧
      moment.machine.functions["g"]?.isSome := by
    refine ⟨_, .tail (.single (.body rfl rfl rfl rfl)) (.laterStatements ⟨1, rfl⟩), ?_⟩
    rfl
  constructor
  · obtain ⟨result, m, hm, hg⟩ := hfails
    have hdone : Session [.program program] (.fresh {}) m := .next (.program hm) (.done m)
    obtain ⟨hbuiltin, -, hrequest⟩ := hsession {} _ m hdone "g" g hg
    exact ⟨m, hdone, hg, hbuiltin, hrequest⟩
  · obtain ⟨after, hafter⟩ := hends
    obtain ⟨moment, hmoment, hg⟩ := hreaches
    exact ⟨moment, after, hafter, hmoment, hg, hrun none start moment after hafter hmoment "g" hg⟩

end Skript
