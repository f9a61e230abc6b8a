import Skript.Proofs.CallerFrame

/-!
# What a statement can write

Which variables a statement can change is seen from its text: they are the targets of the
assignments and declarations in it. How often its loops run, which of its branches are taken, where
it fails and what the functions it calls assign to makes no difference. Nothing is ever taken out of
an environment.
-/
namespace Skript

/-- Outside of `W` the variables are what they were, and all variables are still there. -/
structure Machine.KeepsOutside (W : String → Prop) (m after : Machine) : Prop where
  outside : ∀ name, ¬ W name → after.environment.slot? name = m.environment.slot? name
  bound : ∀ name, (m.environment.get? name).isSome → (after.environment.get? name).isSome
  declared : ∀ name,
    (m.environment.declared? name).isSome → (after.environment.declared? name).isSome

namespace Machine

variable {W : String → Prop}

theorem keepsOutside_of_eq {m after : Machine} (h : after.environment = m.environment) :
    m.KeepsOutside W after := by
  refine ⟨fun name _ => ?_, fun name hb => ?_, fun name hd => ?_⟩
  · rw [h]
  · rwa [h]
  · rwa [h]

theorem keepsOutside_declare (m : Machine) {name : String} (kind : Kind) (v : Value)
    (hname : W name) :
    m.KeepsOutside W { m with environment := m.environment.declare name kind v } := by
  refine ⟨fun other hother => ?_, fun other hb => ?_, fun other hd => ?_⟩
  · have hne : name ≠ other := fun h => hother (h ▸ hname)
    rw [Environment.slot?_declare, if_neg hne]
  · rw [Environment.get?_declare]
    split
    · rfl
    · exact hb
  · rw [Environment.declared?_declare]
    split
    · rfl
    · exact hd

theorem keepsOutside_set (m : Machine) {name : String} (v : Value) (hname : W name) :
    m.KeepsOutside W { m with environment := m.environment.set name v } := by
  refine ⟨fun other hother => ?_, fun other hb => ?_, fun other hd => ?_⟩
  · have hne : name ≠ other := fun h => hother (h ▸ hname)
    rw [Environment.slot?_set, if_neg hne]
  · rw [Environment.get?_set]
    split
    · rfl
    · exact hb
  · rwa [Environment.declared?_set]

theorem respectedWithin_keepsOutside : RespectedWithin W (KeepsOutside W) where
  refl _ := keepsOutside_of_eq rfl
  trans hab hbc :=
    ⟨fun name hn => (hbc.outside name hn).trans (hab.outside name hn),
      fun name hb => hbc.bound name (hab.bound name hb),
      fun name hd => hbc.declared name (hab.declared name hd)⟩
  console _ _ _ := keepsOutside_of_eq rfl
  declare m _ kind v hname _ := keepsOutside_declare m kind v hname
  set m _ v hname _ := keepsOutside_set m v hname
  define _ _ _ := keepsOutside_of_eq rfl

end Machine

/-- However a statement ends, the variables that are no targets of it have the values and the kinds
that they had, and no variable has lost its value or its kind. -/
theorem statements_write_only_their_targets (limit : Option Nat) (n : Nat) (s : Statement)
    (m after : Machine) (result : Except RunFault (Option Value))
    (h : (execute limit n s).run m = .finished result after) :
    (∀ name ∉ s.targets, after.environment.get? name = m.environment.get? name ∧
      after.environment.declared? name = m.environment.declared? name) ∧
    ∀ name, ((m.environment.get? name).isSome → (after.environment.get? name).isSome) ∧
      ((m.environment.declared? name).isSome → (after.environment.declared? name).isSome) := by
  -- A call gives the caller's environment back as it was, so only the statement's own writes count.
  have hcall : ∀ k < n, ∀ name args line, Exec.Keeps (Machine.KeepsOutside (· ∈ s.targets))
      (Exec.call limit (execute limit k) name args line) := by
    intro k _ name args line caller r last hr
    exact Machine.keepsOutside_of_eq
      (Exec.keepsFrame_call limit k name args line caller r last hr).environment
  have hkeeps : m.KeepsOutside (· ∈ s.targets) after :=
    Exec.keeps_execute_of_call Machine.respectedWithin_keepsOutside limit n hcall s
      (fun _ hname => hname) m result after h
  refine ⟨fun name hname => ?_, fun name => ⟨hkeeps.bound name, hkeeps.declared name⟩⟩
  have hslot := hkeeps.outside name hname
  exact ⟨congrArg (Option.map Slot.value) hslot, congrArg (Option.bind · Slot.declared) hslot⟩

/-- A loop that fails in its second round. It calls a function that assigns to `y` and defines one
that would assign to `z`; only the variables of its header and its block are written. -/
theorem failing_loop_writes_only_its_targets :
    let f : Definition :=
      ⟨"f", ["x"], [.assign "y" (.var "x" 1) 1, .ret (.var "y" 1) 1], 1⟩
    let condition : Expr := .binary (.var "i" 2) .less (.literal (.num 3) 2) 2
    let update : Statement :=
      .assign "i" (.binary (.var "i" 2) .add (.literal (.num 1) 2) 2) 2
    let body : List Statement :=
      [.assign "w" (.call "f" [.var "i" 3] 3) 3,
        .function "g" [] [.assign "z" (.literal (.num 0) 4) 4] 4,
        .choose (.mk (.var "i" 5) [.declare "v" .chr 5, .expr (.var "u" 6) 6] .nothing 5)]
    let loop : Statement := .loop (.assignTyped "i" .num (.literal (.num 0) 2) 2) condition update
      body 2
    let m : Machine :=
      { environment := (Environment.empty.declare "y" .str (.str "kept")).set "w" (.bool true)
        functions := (∅ : FunctionTable).insert "f" f }
    ∃ after, (execute (some callLimit) 9 loop).run m =
        .finished (.error ⟨.unknownVariable "u", 6⟩) after ∧
      loop.targets = ["i", "i", "w", "v"] ∧
      after.environment.get? "i" = some (.num 1) ∧ after.environment.get? "w" = some (.num 1) ∧
      after.environment.get? "y" = m.environment.get? "y" ∧
      after.environment.declared? "y" = m.environment.declared? "y" := by
  intro f condition update body loop m
  refine ⟨_, rfl, rfl, rfl, rfl, ?_⟩
  have hframe := statements_write_only_their_targets (some callLimit) 9 loop m _ _ rfl
  exact hframe.1 "y" (by decide)

end Skript
