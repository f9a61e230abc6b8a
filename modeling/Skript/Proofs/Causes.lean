import Skript.Proofs.Running

/-!
# Where faults come from

Operations on values fail for reasons of their own, and the console does so too. Neither of them
ever complains about the depth of calls. A property of faults holds of a whole computation if it
holds of the faults of each of its parts, on the machines that they are started on.
-/
namespace Skript

variable {α β : Type}

/-- The causes that an operation on values can have for failing. -/
inductive RunCause.OfValues : RunCause → Prop
  | typeMismatch (clash : Clash) : OfValues (.typeMismatch clash)
  | conversion (misreading : Misreading) : OfValues (.conversion misreading)
  | argumentCount (name : String) (expected found : Nat) :
      OfValues (.argumentCount name expected found)
  | divisionByZero : OfValues .divisionByZero
  | overflow : OfValues .overflow
  | capacity : OfValues .capacity

/-- The causes that the console can have for failing. -/
inductive RunCause.OfConsole : RunCause → Prop
  | inputUnavailable : OfConsole .inputUnavailable
  | trouble (trouble : ConsoleTrouble) : OfConsole (.console trouble)

/-- A result that, if it is a fault, has a cause with the property. -/
def CausedBy (P : RunCause → Prop) (result : Except RunCause α) : Prop :=
  ∀ cause, result = .error cause → P cause

theorem causedBy_ok {P : RunCause → Prop} (a : α) : CausedBy P (.ok a) := by
  intro cause h
  cases h

theorem causedBy_error {P : RunCause → Prop} {cause : RunCause} (h : P cause) :
    CausedBy P (.error cause : Except RunCause α) := by
  intro other hother
  cases hother
  exact h

/-! ### Values -/

namespace Value

open RunCause (OfValues)

theorem causedBy_orOverflow {f : Int64 → Value} (n : Option Int64) :
    CausedBy OfValues (f <$> RunCause.orOverflow n) := by
  cases n with
  | none => exact causedBy_error .overflow
  | some n => exact causedBy_ok (f n)

theorem causedBy_divide (x y : Float) : CausedBy OfValues (divide x y) := by
  unfold divide
  split
  · exact causedBy_error .divisionByZero
  · exact causedBy_ok _

theorem causedBy_computeDecimals (op : Operator) (x y : Float) :
    CausedBy OfValues (computeDecimals op x y) := by
  cases op with
  | add => exact causedBy_ok _
  | sub => exact causedBy_ok _
  | mul => exact causedBy_ok _
  | _ => exact causedBy_divide x y

theorem causedBy_computeIntegers (op : Operator) (a b : Int64) :
    CausedBy OfValues (computeIntegers op a b) := by
  cases op with
  | add => exact causedBy_orOverflow _
  | sub => exact causedBy_orOverflow _
  | mul => exact causedBy_orOverflow _
  | _ => exact causedBy_divide _ _

theorem causedBy_repeated (s : String) (n : Int64) : CausedBy OfValues (repeated s n) := by
  unfold repeated
  dsimp only
  split
  · exact causedBy_error .overflow
  · split
    · exact causedBy_error .capacity
    · exact causedBy_ok _

theorem causedBy_joined (s t : String) : CausedBy OfValues (joined s t) := by
  unfold joined
  split
  · exact causedBy_error .capacity
  · exact causedBy_ok _

theorem causedBy_clash (op : Operator) (l r : Value) : CausedBy OfValues (clash op l r) :=
  causedBy_error (.typeMismatch _)

theorem causedBy_computeTexts (op : Operator) (l r : Value) :
    CausedBy OfValues (computeTexts op l r) := by
  cases op with
  | add =>
    unfold computeTexts
    cases l.asText? with
    | none => exact causedBy_clash .add l r
    | some s =>
      cases r.asText? with
      | none => exact causedBy_clash .add l r
      | some t => exact causedBy_joined s t
  | mul =>
    cases r with
    | num n =>
      cases l with
      | str s => exact causedBy_repeated s n
      | chr c => cases c <;> exact causedBy_repeated _ n
      | _ => exact causedBy_clash .mul _ _
    | str s =>
      cases l with
      | num n => exact causedBy_repeated s n
      | _ => exact causedBy_clash .mul _ _
    | chr c =>
      cases l with
      | num n => cases c <;> exact causedBy_repeated _ n
      | _ => exact causedBy_clash .mul _ _
    | _ => cases l <;> exact causedBy_clash .mul _ _
  | _ => exact causedBy_clash _ l r

theorem causedBy_arithmetic (op : Operator) (l r : Value) :
    CausedBy OfValues (arithmetic op l r) := by
  cases l with
  | num a =>
    cases r with
    | num b => exact causedBy_computeIntegers op a b
    | dec y => exact causedBy_computeDecimals op _ y
    | _ => exact causedBy_computeTexts op _ _
  | dec x =>
    cases r with
    | num b => exact causedBy_computeDecimals op x _
    | dec y => exact causedBy_computeDecimals op x y
    | _ => exact causedBy_computeTexts op _ _
  | _ => exact causedBy_computeTexts op _ r

theorem order_of_isText {l r : Value} (h : l.asText?.isSome ∨ r.asText?.isSome) :
    order l r = match l.asText?, r.asText? with
      | some s, some t => .ok (some (compare s t))
      | _, _ => .error (.typeMismatch (.unordered l.kind r.kind)) := by
  obtain h | h := h
  · cases l with
    | str s => rfl
    | chr c => rfl
    | _ => cases h
  · cases r with
    | str s => cases l <;> rfl
    | chr c => cases l <;> rfl
    | _ => cases h

theorem causedBy_order (l r : Value) : CausedBy OfValues (order l r) := by
  have htext : l.asText?.isSome → CausedBy OfValues (order l r) := by
    intro h
    rw [order_of_isText (.inl h)]
    cases l.asText? with
    | none => exact causedBy_error (.typeMismatch _)
    | some s =>
      cases r.asText? with
      | none => exact causedBy_error (.typeMismatch _)
      | some t => exact causedBy_ok _
  cases l with
  | num a =>
    cases r with
    | num b => exact causedBy_ok _
    | dec y => exact causedBy_ok _
    | _ => exact causedBy_error (.typeMismatch _)
  | dec x =>
    cases r with
    | num b => exact causedBy_ok _
    | dec y => exact causedBy_ok _
    | _ => exact causedBy_error (.typeMismatch _)
  | str s => exact htext rfl
  | chr c => cases c <;> exact htext rfl
  | bool b => exact causedBy_error (.typeMismatch _)

theorem causedBy_comparison (op : Operator) (l r : Value) :
    CausedBy OfValues (comparison op l r) := by
  have hordering : CausedBy OfValues (do return bool ((← order l r).any (accepts op))) := by
    have horder := causedBy_order l r
    generalize order l r = o at horder ⊢
    cases o with
    | ok o => exact causedBy_ok _
    | error cause => exact causedBy_error (horder cause rfl)
  cases op with
  | equal => exact causedBy_ok _
  | notEqual => exact causedBy_ok _
  | _ => exact hordering

theorem causedBy_binary (op : Operator) (l r : Value) : CausedBy OfValues (binary op l r) := by
  unfold binary
  split
  · exact causedBy_comparison op l r
  · exact causedBy_arithmetic op l r

theorem causedBy_length (v : Value) : CausedBy OfValues v.length := by
  cases v with
  | str s => exact causedBy_orOverflow _
  | chr c => exact causedBy_ok _
  | _ => exact causedBy_error (.typeMismatch _)

theorem causedBy_conform (kind : Kind) (name : String) (v : Value) :
    CausedBy OfValues (v.conform kind name) := by
  have hslot : CausedBy OfValues
      (.error (.typeMismatch (.slot v kind name)) : Except RunCause Value) :=
    causedBy_error (.typeMismatch _)
  unfold conform
  split
  · exact causedBy_ok v
  · cases kind with
    | dec => cases v with
      | num n => exact causedBy_ok _
      | _ => exact hslot
    | str => cases v with
      | chr c => cases c <;> exact causedBy_ok _
      | _ => exact hslot
    | chr => cases v with
      | str s =>
        dsimp only
        split
        · exact causedBy_ok _
        · exact hslot
      | _ => exact hslot
    | _ => cases v <;> exact hslot

theorem causedBy_settle (declared : Option Kind) (name : String) (v : Value) :
    CausedBy OfValues (v.settle declared name) := by
  cases declared with
  | none => exact causedBy_ok v
  | some kind => exact causedBy_conform kind name v

theorem causedBy_ofInput (kind : Option Kind) (raw : String) :
    CausedBy OfValues (ofInput kind raw) := by
  cases kind with
  | none => exact causedBy_ok _
  | some k =>
    unfold ofInput
    dsimp only
    cases read? raw k with
    | none => exact causedBy_error (.conversion _)
    | some v => exact causedBy_ok v

theorem causedBy_toNumber (v : Value) : CausedBy OfValues v.toNumber := by
  unfold toNumber
  split
  · exact causedBy_ok v
  · cases v.asText? with
    | none => exact causedBy_error (.typeMismatch _)
    | some s =>
      dsimp only
      cases read? s .num <|> read? s .dec with
      | none => exact causedBy_error (.conversion _)
      | some n => exact causedBy_ok n

end Value

theorem causedBy_checkArity (name : String) (expected found : Nat) :
    CausedBy RunCause.OfValues (checkArity name expected found) := by
  unfold checkArity
  split
  · exact causedBy_ok ()
  · exact causedBy_error (.argumentCount ..)

theorem Builtin.find?_eq_some {name : String} {f : List Value → Except RunCause Value}
    (h : Builtin.find? name = some f) : f = Builtin.toNum := by
  simp only [Builtin.find?, Builtin.table, List.lookup_cons, List.lookup_nil] at h
  cases hname : name == "to_num" with
  | false => rw [hname] at h; cases h
  | true => rw [hname] at h; cases h; rfl

theorem causedBy_builtin {name : String} {f : List Value → Except RunCause Value}
    (h : Builtin.find? name = some f) (args : List Value) :
    CausedBy RunCause.OfValues (f args) := by
  rw [Builtin.find?_eq_some h]
  match args with
  | [] => exact causedBy_error (.argumentCount ..)
  | [v] => exact Value.causedBy_toNumber v
  | _ :: _ :: _ => exact causedBy_error (.argumentCount ..)

/-! ### The console -/

namespace Console

open RunCause (OfConsole)

theorem causedBy_write (bytes : List UInt8) (c : Console) :
    CausedBy OfConsole (c.write bytes).1 := by
  unfold write
  cases c.capacity with
  | none => exact causedBy_ok ()
  | some most =>
    dsimp only
    split
    · exact causedBy_ok ()
    · exact causedBy_error (.trouble .sinkFull)

theorem causedBy_prompt (s : String) (c : Console) : CausedBy OfConsole (c.prompt s).1 := by
  have hwrite := causedBy_write (encode s) c
  unfold prompt
  generalize c.write (encode s) = written at hwrite ⊢
  obtain ⟨result, c⟩ := written
  cases result with
  | error cause => exact hwrite
  | ok =>
    dsimp only
    split
    · exact causedBy_ok ()
    · exact causedBy_error (.trouble .flushRefused)

theorem causedBy_readLine (c : Console) : CausedBy OfConsole c.readLine.1 := by
  unfold readLine
  split
  · exact causedBy_error .inputUnavailable
  · dsimp only
    split
    · exact causedBy_ok _
    · exact causedBy_error (.trouble .notUtf8)

end Console

/-! ### Computations -/

namespace Exec

/-- If the computation fails on this machine, its fault has the property. -/
def FailsBy (G : RunFault → Prop) (x : Exec α) (m : Machine) : Prop :=
  ∀ fault after, x.run m = .finished (.error fault) after → G fault

namespace FailsBy

variable {G : RunFault → Prop} {m : Machine}

theorem mono {G' : RunFault → Prop} {x : Exec α} (h : FailsBy G x m)
    (hG : ∀ fault, G fault → G' fault) : FailsBy G' x m :=
  fun fault after hrun => hG fault (h fault after hrun)

theorem pure (a : α) : FailsBy G (Pure.pure a : Exec α) m := by
  intro fault after h
  cases h

theorem fail {cause : RunCause} {line : Nat} (h : G ⟨cause, line⟩) :
    FailsBy G (Exec.fail cause line : Exec α) m := by
  intro fault after hrun
  cases hrun
  exact h

theorem outOfFuel : FailsBy G (Exec.outOfFuel : Exec α) m := by
  intro fault after h
  cases h

theorem update (f : Machine → Machine) : FailsBy G (Exec.update f) m := by
  intro fault after h
  cases h

/-- The second part matters only on the machines that the first one leaves when it ends well. -/
theorem bind {x : Exec α} {f : α → Exec β} (hx : FailsBy G x m)
    (hf : ∀ a middle, x.run m = .finished (.ok a) middle → FailsBy G (f a) middle) :
    FailsBy G (x >>= f) m := by
  intro fault after h
  obtain ⟨other, hfirst, hother⟩ | ⟨a, middle, hfirst, hsecond⟩ := finished_of_bind h
  · cases hother
    exact hx fault after hfirst
  · exact hf a middle hfirst fault after hsecond

theorem map {x : Exec α} (f : α → β) (hx : FailsBy G x m) : FailsBy G (f <$> x) m := by
  rw [map_eq_pure_bind]
  exact bind hx fun a _ _ => pure (f a)

theorem machine {f : Machine → Exec α} (h : FailsBy G (f m) m) :
    FailsBy G (Exec.machine >>= f) m := h

theorem ofExcept {P : RunCause → Prop} {result : Except RunCause α} (h : CausedBy P result)
    {line : Nat} (hP : ∀ cause, P cause → G ⟨cause, line⟩) :
    FailsBy G (Exec.ofExcept line result) m := by
  cases result with
  | ok a => exact pure a
  | error cause => exact fail (hP cause (h cause rfl))

theorem onConsole {P : RunCause → Prop} {action : Console → Except RunCause α × Console}
    (h : CausedBy P (action m.console).1) {line : Nat} (hP : ∀ cause, P cause → G ⟨cause, line⟩) :
    FailsBy G (Exec.onConsole line action) m := by
  intro fault after hrun
  simp only [Exec.onConsole] at hrun
  cases hresult : (action m.console).1 with
  | ok a => rw [hresult] at hrun; cases hrun
  | error cause =>
    rw [hresult] at hrun h
    cases hrun
    exact hP cause (h cause rfl)

theorem required {x : Exec (Option Value)} {line : Nat} (hx : FailsBy G x m)
    (h : G ⟨.missingValue, line⟩) : FailsBy G (Exec.required line x) m := by
  refine bind hx fun v middle _ => ?_
  cases v with
  | none => exact fail h
  | some v => exact pure v

theorem inCall {x : Exec α} {locals : Environment} (hx : FailsBy G x (m.enter locals)) :
    FailsBy G (Exec.inCall locals x) m := by
  intro fault after h
  obtain ⟨last, hbody, -⟩ := finished_of_inCall h
  exact hx fault last hbody

end FailsBy

end Exec

end Skript
