import Skript.Proofs.Causes
import Skript.Proofs.Resemblance

/-!
# Characters and texts of one character

A quoted text of one character is read as a character, so a script cannot choose between the two.
Every operation treats them alike: it fails for both or for none, and gives the same results but for
characters that stand in place of their texts. Only the names of kinds in messages tell them apart.
-/
namespace Skript

/-- The same value twice, or a character and the text that it alone makes up. -/
inductive Value.Similar : Value → Value → Prop
  | same (v : Value) : Similar v v
  | charText (c : Char) : Similar (.chr (some c)) (.str (String.singleton c))
  | textChar (c : Char) : Similar (.str (String.singleton c)) (.chr (some c))

inductive Kind.Similar : Kind → Kind → Prop
  | same (kind : Kind) : Similar kind kind
  | chrStr : Similar .chr .str
  | strChr : Similar .str .chr

/-- Clashes of the same sort between similar values. -/
inductive Clash.Similar : Clash → Clash → Prop
  | same (clash : Clash) : Similar clash clash
  | operands {op : Operator} {l l' r r' : Kind} (left : l.Similar l') (right : r.Similar r') :
      Similar (.operands op l r) (.operands op l' r')
  | unordered {l l' r r' : Kind} (left : l.Similar l') (right : r.Similar r') :
      Similar (.unordered l r) (.unordered l' r')
  | slot {v v' : Value} {kind : Kind} {name : String} (value : v.Similar v') :
      Similar (.slot v kind name) (.slot v' kind name)

inductive RunCause.Similar : RunCause → RunCause → Prop
  | same (cause : RunCause) : Similar cause cause
  | clash {clash clash' : Clash} (clashes : clash.Similar clash') :
      Similar (.typeMismatch clash) (.typeMismatch clash')

/-- Two texts are put together in the same way, with names of similar kinds in the same places. -/
inductive Reworded : String → String → Prop
  | same (s : String) : Reworded s s
  | kind {k k' : Kind} (kinds : k.Similar k') : Reworded k.name k'.name
  | append {s s' t t' : String} (first : Reworded s s') (second : Reworded t t') :
      Reworded (s ++ t) (s' ++ t')

theorem Reworded.before {s s' : String} (h : Reworded s s') (t : String) :
    Reworded (s ++ t) (s' ++ t) :=
  .append h (.same t)

namespace Value.Similar

variable {v w l l' r r' : Value}

theorem kind (h : v.Similar w) : v.kind.Similar w.kind := by
  cases h with
  | same => exact .same _
  | charText c => exact .chrStr
  | textChar c => exact .strChr

theorem asText? (h : v.Similar w) : v.asText? = w.asText? := by
  cases h <;> rfl

theorem text (h : v.Similar w) : v.text = w.text := by
  cases h <;> rfl

/-- Values that are similar and not the same are texts. -/
theorem eq_or_isText (h : v.Similar w) : v = w ∨ v.asText?.isSome ∧ w.asText?.isSome := by
  cases h with
  | same => exact .inl rfl
  | charText c => exact .inr ⟨rfl, rfl⟩
  | textChar c => exact .inr ⟨rfl, rfl⟩

theorem isTruthy (h : v.Similar w) : v.isTruthy = w.isTruthy := by
  have hne : ∀ c, String.singleton c ≠ "" := by simp
  cases h with
  | same => rfl
  | charText c => simp [Value.isTruthy, hne c]
  | textChar c => simp [Value.isTruthy, hne c]

end Value.Similar

/-! ### Messages -/

theorem Clash.Similar.message {clash clash' : Clash} (h : clash.Similar clash') :
    Reworded clash.message clash'.message := by
  cases h with
  | same => exact .same _
  | @operands op l l' r r' left right =>
    show Reworded ("cannot apply '" ++ op.text ++ "' to " ++ l.name ++ " and " ++ r.name)
      ("cannot apply '" ++ op.text ++ "' to " ++ l'.name ++ " and " ++ r'.name)
    exact .append (Reworded.append (.same _) (.kind left) |>.before _) (.kind right)
  | @unordered l l' r r' left right =>
    show Reworded ("cannot order " ++ l.name ++ " and " ++ r.name)
      ("cannot order " ++ l'.name ++ " and " ++ r'.name)
    exact .append (Reworded.append (.same _) (.kind left) |>.before _) (.kind right)
  | @slot v v' kind name value =>
    show Reworded
      ("cannot assign " ++ v.kind.name ++ " value '" ++ v.text ++ "' to " ++ kind.name ++
        " variable '" ++ name ++ "'")
      ("cannot assign " ++ v'.kind.name ++ " value '" ++ v'.text ++ "' to " ++ kind.name ++
        " variable '" ++ name ++ "'")
    have hfound : Reworded ("cannot assign " ++ v.kind.name) ("cannot assign " ++ v'.kind.name) :=
      .append (.same _) (.kind value.kind)
    rw [value.text]
    exact ((((((hfound.before _).before _).before _).before _).before _).before _).before _

theorem RunCause.Similar.message {cause cause' : RunCause} (h : cause.Similar cause') :
    Reworded cause.message cause'.message := by
  cases h with
  | same => exact .same _
  | @clash clash clash' clashes =>
    show Reworded ("Type mismatch: " ++ clash.message) ("Type mismatch: " ++ clash'.message)
    exact .append (.same _) clashes.message

/-- Faults of one sort on the same line. -/
structure RunFault.Similar (f g : RunFault) : Prop where
  cause : f.cause.Similar g.cause
  line : f.line = g.line

theorem RunFault.Similar.message {f g : RunFault} (h : f.Similar g) :
    Reworded f.message g.message := by
  show Reworded ("Error on line " ++ toString f.line ++ ": " ++ f.cause.message ++ ".")
    ("Error on line " ++ toString g.line ++ ": " ++ g.cause.message ++ ".")
  rw [h.line]
  exact (Reworded.append (.same _) h.cause.message).before _

/-- The results of an operation on similar values: similar values, or faults of one sort. -/
abbrev ResultsSimilar : Except RunCause Value → Except RunCause Value → Prop :=
  Agree RunCause.Similar Value.Similar

theorem ResultsSimilar.same (result : Except RunCause Value) : ResultsSimilar result result := by
  cases result with
  | ok v => exact .ok (.same v)
  | error cause => exact .error (.same cause)

namespace Value

variable {v w l l' r r' : Value} {op : Operator}

/-! ### Computing -/

theorem arithmetic_of_isText (h : l.asText?.isSome ∨ r.asText?.isSome) :
    arithmetic op l r = computeTexts op l r := by
  obtain h | h := h
  · cases l with
    | str s => rfl
    | chr c => rfl
    | _ => cases h
  · cases r with
    | str s => cases l <;> rfl
    | chr c => cases l <;> rfl
    | _ => cases h

theorem Similar.clash (hl : l.Similar l') (hr : r.Similar r') :
    ResultsSimilar (clash op l r) (clash op l' r') :=
  .error (.clash (.operands hl.kind hr.kind))

/-- A text is repeated in the same way whichever of the two it is. -/
theorem Similar.repeated {t t' : Value} {n : Int64} {fault fault' : Except RunCause Value}
    (ht : t.Similar t') (hfault : ResultsSimilar fault fault') :
    ResultsSimilar
      (match t.asText? with
        | some s => repeated s n
        | none => fault)
      (match t'.asText? with
        | some s => repeated s n
        | none => fault') := by
  rw [ht.asText?]
  cases t'.asText? with
  | none => exact hfault
  | some s => exact .same _

theorem Similar.joined (hl : l.Similar l') (hr : r.Similar r') :
    ResultsSimilar (computeTexts .add l r) (computeTexts .add l' r') := by
  unfold computeTexts
  rw [hl.asText?, hr.asText?]
  cases l'.asText? with
  | none => exact hl.clash hr
  | some s =>
    cases r'.asText? with
    | none => exact hl.clash hr
    | some t => exact .same _

theorem Similar.multiplied (hl : l.Similar l') (hr : r.Similar r') :
    ResultsSimilar (computeTexts .mul l r) (computeTexts .mul l' r') := by
  have hclash : ResultsSimilar (Value.clash .mul l r) (Value.clash .mul l' r') :=
    hl.clash hr
  cases hl with
  | same l =>
    cases l with
    | num n => exact hr.repeated hclash
    | _ =>
      cases hr with
      | same r => exact .same _
      | _ => exact hclash
  | _ =>
    cases hr with
    | same r =>
      cases r with
      | num n => exact .same _
      | _ => exact hclash
    | _ => exact hclash

theorem Similar.computeTexts (hl : l.Similar l') (hr : r.Similar r') :
    ResultsSimilar (computeTexts op l r) (computeTexts op l' r') := by
  cases op with
  | add => exact hl.joined hr
  | mul => exact hl.multiplied hr
  | _ => exact hl.clash hr

theorem Similar.arithmetic (hl : l.Similar l') (hr : r.Similar r') :
    ResultsSimilar (arithmetic op l r) (arithmetic op l' r') := by
  obtain rfl | ⟨h, h'⟩ := hl.eq_or_isText
  · obtain rfl | ⟨h, h'⟩ := hr.eq_or_isText
    · exact .same _
    · rw [arithmetic_of_isText (.inr h), arithmetic_of_isText (.inr h')]
      exact hl.computeTexts hr
  · rw [arithmetic_of_isText (.inl h), arithmetic_of_isText (.inl h')]
    exact hl.computeTexts hr

/-! ### Comparing -/

theorem equals_of_isText (h : l.asText?.isSome ∨ r.asText?.isSome) :
    equals l r = match l.asText?, r.asText? with
      | some s, some t => decide (s = t)
      | _, _ => false := by
  obtain h | h := h
  · cases l with
    | str s => rfl
    | chr c => rfl
    | _ => cases h
  · cases r with
    | str s => cases l <;> rfl
    | chr c => cases l <;> rfl
    | _ => cases h

theorem Similar.equals (hl : l.Similar l') (hr : r.Similar r') : equals l r = equals l' r' := by
  obtain rfl | ⟨h, h'⟩ := hl.eq_or_isText
  · obtain rfl | ⟨h, h'⟩ := hr.eq_or_isText
    · rfl
    · rw [equals_of_isText (.inr h), equals_of_isText (.inr h'), hr.asText?]
  · rw [equals_of_isText (.inl h), equals_of_isText (.inl h'), hl.asText?, hr.asText?]

theorem Similar.orderTexts (hl : l.Similar l') (hr : r.Similar r')
    (h : l.asText?.isSome ∨ r.asText?.isSome) (h' : l'.asText?.isSome ∨ r'.asText?.isSome) :
    Agree RunCause.Similar Eq (order l r) (order l' r') := by
  rw [order_of_isText h, order_of_isText h', hl.asText?, hr.asText?]
  have hunordered := RunCause.Similar.clash (.unordered hl.kind hr.kind)
  cases l'.asText? with
  | none => exact .error hunordered
  | some s =>
    cases r'.asText? with
    | none => exact .error hunordered
    | some t => exact .ok rfl

theorem Similar.order (hl : l.Similar l') (hr : r.Similar r') :
    Agree RunCause.Similar Eq (order l r) (order l' r') := by
  obtain rfl | ⟨h, h'⟩ := hl.eq_or_isText
  · obtain rfl | ⟨h, h'⟩ := hr.eq_or_isText
    · cases Value.order l r with
      | ok o => exact .ok rfl
      | error cause => exact .error (.same cause)
    · exact hl.orderTexts hr (.inr h) (.inr h')
  · exact hl.orderTexts hr (.inl h) (.inl h')

theorem Similar.comparison (hl : l.Similar l') (hr : r.Similar r') :
    ResultsSimilar (comparison op l r) (comparison op l' r') := by
  have hordering : ResultsSimilar (do return bool ((← Value.order l r).any (accepts op)))
      (do return bool ((← Value.order l' r').any (accepts op))) := by
    have horder := hl.order hr
    generalize Value.order l r = o at horder ⊢
    generalize Value.order l' r' = o' at horder ⊢
    cases horder with
    | ok values => rw [values]; exact .same _
    | error faults => exact .error faults
  cases op with
  | equal => rw [Value.comparison, Value.comparison, hl.equals hr]; exact .same _
  | notEqual => rw [Value.comparison, Value.comparison, hl.equals hr]; exact .same _
  | _ => exact hordering

theorem Similar.binary (hl : l.Similar l') (hr : r.Similar r') :
    ResultsSimilar (binary op l r) (binary op l' r') := by
  unfold Value.binary
  split
  · exact hl.comparison hr
  · exact hl.arithmetic hr

/-! ### Converting -/

theorem Similar.conform {kind : Kind} {name : String} (h : v.Similar w) :
    ResultsSimilar (v.conform kind name) (w.conform kind name) := by
  have hchr : ∀ c, Value.conform .chr name (str (String.singleton c)) = .ok (chr (some c)) := by
    intro c
    have hkind : (str (String.singleton c)).kind ≠ .chr := nofun
    unfold Value.conform
    rw [if_neg hkind]
    dsimp only
    rw [String.toList_singleton]
  have hslot : ResultsSimilar (.error (.typeMismatch (.slot v kind name)))
      (.error (.typeMismatch (.slot w kind name))) := .error (.clash (.slot h))
  cases h with
  | same => exact .same _
  | charText c =>
    cases kind with
    | str => exact .same _
    | chr => rw [hchr]; exact .same _
    | _ => exact hslot
  | textChar c =>
    cases kind with
    | str => exact .same _
    | chr => rw [hchr]; exact .same _
    | _ => exact hslot

theorem Similar.length (h : v.Similar w) : ResultsSimilar v.length w.length := by
  have hone : ∀ c, Value.length (str (String.singleton c)) = .ok (num 1) := by
    intro c
    rw [Value.length, String.length_singleton]
    rfl
  cases h with
  | same => exact .same _
  | charText c => rw [hone]; exact .same _
  | textChar c => rw [hone]; exact .same _

theorem Similar.toNumber (h : v.Similar w) : ResultsSimilar v.toNumber w.toNumber := by
  cases h <;> exact .same _

end Value

theorem Builtin.similar {name : String} {f : List Value → Except RunCause Value}
    (hf : Builtin.find? name = some f) {args args' : List Value}
    (hargs : List.Forall₂ Value.Similar args args') : ResultsSimilar (f args) (f args') := by
  rw [Builtin.find?_eq_some hf]
  cases hargs with
  | nil => exact .same _
  | cons hv hrest =>
    cases hrest with
    | nil => exact hv.toNumber
    | cons hw hrest =>
      have hlength := hrest.length_eq
      rw [Builtin.toNum, Builtin.toNum]
      · simp only [List.length_cons, hlength]
        exact .same _
      · simp
      · simp

end Skript
