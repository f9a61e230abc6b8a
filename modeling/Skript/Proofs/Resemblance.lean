import Skript.Proofs.Simulation

/-!
# Machines that resemble each other

Two machines have related environments and related tables of functions, and their depth and their
console in common. Programs of the same form match on them as soon as the operations on single
values, on environments and on tables keep to the relations.
-/
namespace Skript

variable {α β ε δ : Type}

/-- Two results agree: both are values or both are faults, and related. -/
inductive Agree (F : ε → δ → Prop) (V : α → β → Prop) : Except ε α → Except δ β → Prop
  | ok {a : α} {b : β} (values : V a b) : Agree F V (.ok a) (.ok b)
  | error {f : ε} {g : δ} (faults : F f g) : Agree F V (.error f) (.error g)

/-- Machines with related tables and environments that have all else in common. -/
structure Machine.Alike (T : FunctionTable → FunctionTable → Prop)
    (E : Environment → Environment → Prop) (m₁ m₂ : Machine) : Prop where
  functions : T m₁.functions m₂.functions
  environment : E m₁.environment m₂.environment
  depth : m₁.depth = m₂.depth
  console : m₁.console = m₂.console

/-- How the two runs of programs that belong together resemble each other. -/
structure Resemblance where
  values : Value → Value → Prop
  causes : RunCause → RunCause → Prop
  faults : RunFault → RunFault → Prop
  environments : Environment → Environment → Prop
  tables : FunctionTable → FunctionTable → Prop
  excused : Option RunFault → Prop

namespace Resemblance

/-- The comparison of machines whose active environments are related by `E`. -/
def comparison (R : Resemblance) (E : Environment → Environment → Prop) : Comparison where
  machines := Machine.Alike R.tables E
  faults := R.faults
  excused := R.excused

/-- The operations on values, environments and tables keep to the relations. -/
structure Lawful (R : Resemblance) (P : Pairing) (limit limit' : Option Nat) : Prop where
  exprForm : ∀ {e e'}, P.exprs e e' → Expr.SameForm P e e'
  sameValue : ∀ v, R.values v v
  sameCause : ∀ cause, R.causes cause cause
  fault : ∀ {cause cause' line line'}, R.causes cause cause' → P.lines line line' →
    R.faults ⟨cause, line⟩ ⟨cause', line'⟩
  literal : ∀ {a b}, P.literals a b → R.values a.toValue b.toValue
  truthy : ∀ {v w}, R.values v w → v.isTruthy = w.isTruthy
  text : ∀ {v w}, R.values v w → v.text = w.text
  binary : ∀ {op l l' r r'}, R.values l l' → R.values r r' →
    Agree R.causes R.values (Value.binary op l r) (Value.binary op l' r')
  length : ∀ {v w}, R.values v w → Agree R.causes R.values v.length w.length
  builtin : ∀ {name f args args'}, Builtin.find? name = some f → List.Forall₂ R.values args args' →
    Agree R.causes R.values (f args) (f args')
  conform : ∀ {kind name v w}, R.values v w →
    Agree R.causes R.values (v.conform kind name) (w.conform kind name)
  get? : ∀ {a b}, R.environments a b → ∀ name, Option.Rel R.values (a.get? name) (b.get? name)
  declared? : ∀ {a b}, R.environments a b → ∀ name, a.declared? name = b.declared? name
  empty : R.environments .empty .empty
  set : ∀ {a b v w}, R.environments a b → R.values v w → ∀ name,
    R.environments (a.set name v) (b.set name w)
  declare : ∀ {a b v w}, R.environments a b → R.values v w → ∀ name kind,
    R.environments (a.declare name kind v) (b.declare name kind w)
  find : ∀ {a b}, R.tables a b → ∀ name : String, Option.Rel P.definitions a[name]? b[name]?
  insert : ∀ {a b d d'}, R.tables a b → P.definitions d d' →
    R.tables (a.insert d.name d) (b.insert d'.name d')
  head : ∀ {d d'}, P.definitions d d' →
    d.name = d'.name ∧ d.params = d'.params ∧ P.lines d.line d'.line
  body : ∀ {d d'}, P.definitions d d' →
    List.Forall₂ P.statements (Statement.upToReturn d.body) (Statement.upToReturn d'.body)
  depth : ∀ {E line line'} (depth : Nat), P.lines line line' →
    Exec.Matches (R.comparison E) Eq (Exec.ofExcept line (Exec.checkDepth limit depth))
      (Exec.ofExcept line' (Exec.checkDepth limit' depth))

/-- The resemblance of runs that compute the same values in the same environments. -/
def exact (faults : RunFault → RunFault → Prop) (tables : FunctionTable → FunctionTable → Prop)
    (excused : Option RunFault → Prop) : Resemblance where
  values := Eq
  causes := Eq
  faults := faults
  environments := Eq
  tables := tables
  excused := excused

end Resemblance

/-- Bodies whose statements belong together do so up to their first `return`. -/
theorem Statement.forall₂_upToReturn {S : Statement → Statement → Prop}
    (hreturn : ∀ s s', S s s' → s.isReturn = s'.isReturn) {ss ss' : List Statement}
    (h : List.Forall₂ S ss ss') :
    List.Forall₂ S (Statement.upToReturn ss) (Statement.upToReturn ss') := by
  induction h with
  | nil => exact .nil
  | cons hs _ ih =>
    rw [Statement.upToReturn, Statement.upToReturn, hreturn _ _ hs]
    split
    · exact .cons hs .nil
    · exact .cons hs ih

namespace Resemblance.Lawful

open Exec

variable {R : Resemblance} {P : Pairing} {limit limit' : Option Nat}
  {E : Environment → Environment → Prop}

section Effects

variable (hR : R.Lawful P limit limit')
include hR

theorem locals (params : List String) {args args' : List Value}
    (hargs : List.Forall₂ R.values args args') :
    R.environments (.ofArguments params args) (.ofArguments params args') := by
  have hfold : ∀ (params : List String) {a b : Environment}, R.environments a b →
      R.environments
        ((params.zip args).foldl (fun env binding => env.set binding.1 binding.2) a)
        ((params.zip args').foldl (fun env binding => env.set binding.1 binding.2) b) := by
    induction hargs with
    | nil => intro params a b hab; simpa using hab
    | cons hv _ ih =>
      intro params a b hab
      cases params with
      | nil => exact hab
      | cons name params => exact ih params (hR.set hab hv name)
  exact hfold params hR.empty

theorem matches_agree {V : α → β → Prop} {result : Except RunCause α}
    {result' : Except RunCause β} {line line' : Nat} (h : Agree R.causes V result result')
    (hline : P.lines line line') :
    Matches (R.comparison E) V (ofExcept line result) (ofExcept line' result') := by
  cases h with
  | ok values => exact Matches.pure values
  | error faults => exact Matches.fail (hR.fault faults hline)

/-- The same result on both sides. -/
theorem agree_self {V : α → α → Prop} (hV : ∀ a, V a a) (result : Except RunCause α) :
    Agree R.causes V result result := by
  cases result with
  | ok a => exact .ok (hV a)
  | error cause => exact .error (hR.sameCause cause)

theorem matches_onConsole {line line' : Nat} (hline : P.lines line line')
    (action : Console → Except RunCause α × Console) :
    Matches (R.comparison E) Eq (onConsole line action) (onConsole line' action) := by
  intro m₁ m₂ hm
  have hconsole : m₁.console = m₂.console := hm.console
  simp only [onConsole, hconsole]
  cases (action m₂.console).1 with
  | ok a => exact .ok rfl ⟨hm.functions, hm.environment, hm.depth, rfl⟩
  | error cause =>
    exact .error (hR.fault (hR.sameCause cause) hline)
      ⟨hm.functions, hm.environment, hm.depth, rfl⟩

theorem matches_lookup {name : String} {line line' : Nat}
    (hE : ∀ a b, E a b → Option.Rel R.values (a.get? name) (b.get? name))
    (hline : P.lines line line') :
    Matches (R.comparison E) R.values (lookup name line) (lookup name line') := by
  refine Matches.bind Matches.machine fun m₁ m₂ hm => ?_
  have hget := hE _ _ hm.environment
  generalize m₁.environment.get? name = found at hget ⊢
  generalize m₂.environment.get? name = found' at hget ⊢
  cases hget with
  | none => exact Matches.fail (hR.fault (hR.sameCause _) hline)
  | some values => exact Matches.pure values

theorem matches_input (prompt : Option String) (kind : Option Kind) {line line' : Nat}
    (hline : P.lines line line') :
    Matches (R.comparison E) R.values (input prompt kind line) (input prompt kind line') := by
  have hp : Matches (R.comparison E) Eq (showPrompt prompt line) (showPrompt prompt line') := by
    cases prompt with
    | none => exact Matches.pure rfl
    | some s => exact hR.matches_onConsole hline (Console.prompt s)
  refine Matches.bind hp fun _ _ _ => ?_
  refine Matches.bind (hR.matches_onConsole hline Console.readLine) fun raw _ hraw => ?_
  subst hraw
  exact hR.matches_agree (hR.agree_self hR.sameValue _) hline

/-- Calls with related arguments match in any environments of their callers, if the statements of
the bodies match in environments that are related. -/
theorem matches_call {run run' : Statement → Exec (Option Value)}
    (hrun : ∀ s s', P.statements s s' →
      Matches (R.comparison R.environments) (Option.Rel R.values) (run s) (run' s'))
    {name : String} {args args' : List Value} {line line' : Nat}
    (hargs : List.Forall₂ R.values args args') (hline : P.lines line line') :
    Matches (R.comparison E) (Option.Rel R.values) (call limit run name args line)
      (call limit' run' name args' line') := by
  unfold call
  split
  · next f hf =>
    exact Matches.map (hR.matches_agree (hR.builtin hf hargs) hline) fun _ _ h => .some h
  · refine Matches.bind Matches.machine fun m₁ m₂ hm => ?_
    have hfind := hR.find hm.functions name
    generalize m₁.functions[name]? = found at hfind ⊢
    generalize m₂.functions[name]? = found' at hfind ⊢
    cases hfind with
    | none => exact Matches.fail (hR.fault (hR.sameCause _) hline)
    | @some d d' hd =>
      obtain ⟨-, hparams, -⟩ := hR.head hd
      dsimp only
      rw [hparams, hargs.length_eq, hm.depth, lastUntil_isReturn, lastUntil_isReturn]
      refine Matches.bind (hR.matches_agree (hR.agree_self (V := Eq) (fun _ => rfl) _) hline)
        fun _ _ _ => ?_
      refine Matches.bind (hR.depth m₂.depth hline) fun _ _ _ => ?_
      have hbody := Matches.lastOf hrun (hR.body hd) .none
      refine Matches.inCall hbody ?_ ?_ (fun _ _ h => h) (fun _ h => h)
      · intro a b h
        exact ⟨h.functions, hR.locals d'.params hargs, congrArg (· + 1) h.depth, h.console⟩
      · intro a b c e h k
        exact ⟨k.functions, h.environment, congrArg (· - 1) k.depth, k.console⟩

theorem matches_assignTyped (name : String) (kind : Kind) {v w : Value} {line line' : Nat}
    (hv : R.values v w) (hline : P.lines line line') :
    Matches (R.comparison R.environments) R.values (assignTyped name kind v line)
      (assignTyped name kind w line') := by
  refine Matches.bind (hR.matches_agree (hR.conform hv) hline) fun stored stored' hstored => ?_
  refine Matches.bind (Matches.update fun m₁ m₂ hm => ?_) fun _ _ _ => Matches.pure hstored
  exact ⟨hm.functions, hR.declare hm.environment hstored name kind, hm.depth, hm.console⟩

theorem matches_assign (name : String) {v w : Value} {line line' : Nat} (hv : R.values v w)
    (hline : P.lines line line') :
    Matches (R.comparison R.environments) R.values (assign name v line) (assign name w line') := by
  have hstore : ∀ stored stored', R.values stored stored' →
      Matches (R.comparison R.environments) R.values
        (do
          update fun m => { m with environment := m.environment.set name stored }
          return stored)
        (do
          update fun m => { m with environment := m.environment.set name stored' }
          return stored') := by
    intro stored stored' hstored
    refine Matches.bind (Matches.update fun m₁ m₂ hm => ?_) fun _ _ _ => Matches.pure hstored
    exact ⟨hm.functions, hR.set hm.environment hstored name, hm.depth, hm.console⟩
  refine Matches.bind Matches.machine fun m₁ m₂ hm => ?_
  rw [hR.declared? hm.environment name]
  cases m₂.environment.declared? name with
  | none => exact Matches.bind (Matches.pure hv) hstore
  | some kind => exact Matches.bind (hR.matches_agree (hR.conform hv) hline) hstore

theorem matches_define {d d' : Definition} (hd : P.definitions d d') :
    Matches (R.comparison R.environments) Eq (define d) (define d') := by
  obtain ⟨hname, -, hline⟩ := hR.head hd
  have hcheck := hR.matches_agree (E := R.environments)
    (hR.agree_self (V := Eq) (fun _ => rfl) (Builtin.checkName d.name)) hline
  rw [define, define, ← hname]
  refine Matches.bind hcheck fun _ _ _ => Matches.update fun m₁ m₂ hm => ?_
  have hinsert := hR.insert hm.functions hd
  rw [← hname] at hinsert
  exact ⟨hinsert, hm.environment, hm.depth, hm.console⟩

end Effects

/-- Where values and environments are the same, operations on them cannot differ. -/
theorem exact {faults : RunFault → RunFault → Prop} {tables : FunctionTable → FunctionTable → Prop}
    {excused : Option RunFault → Prop}
    (exprForm : ∀ {e e'}, P.exprs e e' → Expr.SameForm P e e')
    (fault : ∀ cause {line line'}, P.lines line line' → faults ⟨cause, line⟩ ⟨cause, line'⟩)
    (literal : ∀ {a b}, P.literals a b → a = b)
    (find : ∀ {a b}, tables a b → ∀ name : String, Option.Rel P.definitions a[name]? b[name]?)
    (insert : ∀ {a b d d'}, tables a b → P.definitions d d' →
      tables (a.insert d.name d) (b.insert d'.name d'))
    (head : ∀ {d d'}, P.definitions d d' →
      d.name = d'.name ∧ d.params = d'.params ∧ P.lines d.line d'.line)
    (body : ∀ {d d'}, P.definitions d d' →
      List.Forall₂ P.statements (Statement.upToReturn d.body) (Statement.upToReturn d'.body))
    (depth : ∀ {E line line'} (depth : Nat), P.lines line line' →
      Matches ((Resemblance.exact faults tables excused).comparison E) Eq
        (ofExcept line (checkDepth limit depth)) (ofExcept line' (checkDepth limit' depth))) :
    (Resemblance.exact faults tables excused).Lawful P limit limit' := by
  have hself : ∀ result : Except RunCause Value, Agree Eq Eq result result := fun result => by
    cases result <;> constructor <;> rfl
  refine {
    exprForm := exprForm, find := find, insert := insert, head := head, body := body, depth := depth
    sameValue := fun _ => rfl
    sameCause := fun _ => rfl
    fault := ?_, literal := ?_, truthy := ?_, text := ?_, binary := ?_, length := ?_, builtin := ?_
    conform := ?_, get? := ?_, declared? := ?_, empty := rfl, set := ?_, declare := ?_ }
  · rintro cause _ line line' rfl hline
    exact fault cause hline
  · intro a b h
    exact congrArg Literal.toValue (literal h)
  · rintro v _ rfl
    rfl
  · rintro v _ rfl
    rfl
  · rintro op l _ r _ rfl rfl
    exact hself _
  · rintro v _ rfl
    exact hself _
  · intro name f args args' _ hargs
    have hargs : args = args' := by rwa [← List.forall₂_eq_eq_eq]
    exact hargs ▸ hself _
  · rintro kind name v _ rfl
    exact hself _
  · rintro a _ rfl name
    cases a.get? name with
    | none => exact .none
    | some v => exact .some rfl
  · rintro a _ rfl name
    rfl
  · rintro a _ v _ rfl rfl name
    rfl
  · rintro a _ v _ rfl rfl name kind
    rfl

/-- Expressions match in environments in which their variables have related values. -/
theorem exprLaws (hR : R.Lawful P limit limit')
    (hE : ∀ name, P.names name → ∀ a b, E a b → Option.Rel R.values (a.get? name) (b.get? name)) :
    ExprLaws P R.values (R.comparison E) (R.comparison R.environments) limit limit' where
  exprForm := hR.exprForm
  literal := hR.literal
  missing hline := hR.fault (hR.sameCause _) hline
  lookup hname hline := hR.matches_lookup (hE _ hname) hline
  binary hl hr hline := hR.matches_agree (hR.binary hl hr) hline
  input hline := hR.matches_input _ _ hline
  length hv hline := hR.matches_agree (hR.length hv) hline
  call hrun hargs hline := hR.matches_call hrun hargs hline

theorem statementLaws (hR : R.Lawful P limit limit')
    (hform : ∀ {s s'}, P.statements s s' → Statement.SameForm P s s') :
    StatementLaws P R.values (R.comparison R.environments) limit limit' where
  toExprLaws := hR.exprLaws fun name _ _ _ h => hR.get? h name
  statementForm := hform
  truthy := hR.truthy
  print hv hline := by
    rw [Exec.print, Exec.print, hR.text hv]
    exact hR.matches_onConsole hline _
  declare := Matches.update fun m₁ m₂ hm => by
    exact ⟨hm.functions, hR.declare hm.environment (hR.sameValue _) _ _, hm.depth, hm.console⟩
  assignTyped hv hline := hR.matches_assignTyped _ _ hv hline
  assign hv hline := hR.matches_assign _ hv hline
  define := hR.matches_define

end Resemblance.Lawful

end Skript
