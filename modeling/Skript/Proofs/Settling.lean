import Skript.Proofs.Running

/-!
# Computations that settle

A computation is given once for every bound on its nesting and its rounds. It settles if, from some
bound on, it always ends, and always in the same way. Settling is shown together with a property of
machines that the computation keeps up, since whether the next part settles depends on the machine
that the part before it has left.
-/
namespace Skript.Exec

variable {α β : Type} {I J : Machine → Prop}

/-- On every machine with the property `I` the computation ends in one way from some bound on, well or
with a fault, and leaves a machine with the property. -/
def Settles (I : Machine → Prop) (x : Nat → Exec α) : Prop :=
  ∀ m, I m → ∃ result after, I after ∧
    ∃ least, ∀ n, least ≤ n → (x n).run m = .finished result after

@[simp] theorem fail_bind (cause : RunCause) (line : Nat) (f : α → Exec β) :
    (fail cause line >>= f) = fail cause line := rfl

namespace Settles

/-- A computation that ends at once, whatever the bound. -/
theorem of_run {x : Exec α} (result : Machine → Except RunFault α) {next : Machine → Machine}
    (hrun : ∀ m, x.run m = .finished (result m) (next m)) (hnext : ∀ m, I m → I (next m)) :
    Settles I fun _ => x :=
  fun m hm => ⟨result m, next m, hnext m hm, 0, fun _ _ => hrun m⟩

theorem pure (a : α) : Settles I fun _ => (Pure.pure a : Exec α) :=
  of_run (fun _ => .ok a) (fun _ => rfl) fun _ hm => hm

theorem fail (cause : RunCause) (line : Nat) : Settles I fun _ => (Exec.fail cause line : Exec α) :=
  of_run (fun _ => .error ⟨cause, line⟩) (fun _ => rfl) fun _ hm => hm

theorem update {f : Machine → Machine} (hf : ∀ m, I m → I (f m)) :
    Settles I fun _ => Exec.update f :=
  of_run (fun _ => .ok ()) (fun _ => rfl) hf

theorem onConsole {line : Nat} {action : Console → Except RunCause α × Console}
    (hc : ∀ m c, I m → I { m with console := c }) : Settles I fun _ => Exec.onConsole line action :=
  of_run (fun m => (action m.console).1.mapError (⟨·, line⟩)) (fun _ => rfl)
    fun m hm => hc m _ hm

theorem ofExcept (line : Nat) (result : Except RunCause α) :
    Settles I fun _ => Exec.ofExcept line result := by
  cases result with
  | ok a => exact pure a
  | error cause => exact fail cause line

/-- The first step of a nested evaluation uses up one unit of the bound. -/
theorem of_succ {x : Nat → Exec α} (hx : Settles I fun n => x (n + 1)) : Settles I x := by
  intro m hm
  obtain ⟨result, after, hafter, least, hrun⟩ := hx m hm
  refine ⟨result, after, hafter, least + 1, fun n hn => ?_⟩
  obtain ⟨n, rfl⟩ : ∃ k, n = k + 1 := Nat.exists_eq_add_of_le' (by omega)
  exact hrun n (by omega)

/-- Of two computations in a row, the larger of both bounds settles both. -/
theorem bind {x : Nat → Exec α} {f : α → Nat → Exec β} (hx : Settles I x)
    (hf : ∀ a, Settles I (f a)) : Settles I fun n => x n >>= fun a => f a n := by
  intro m hm
  obtain ⟨first, middle, hmiddle, least, hrun⟩ := hx m hm
  cases first with
  | error fault =>
    refine ⟨.error fault, middle, hmiddle, least, fun n hn => ?_⟩
    rw [run_bind, hrun n hn]
  | ok a =>
    obtain ⟨result, after, hafter, least', hrun'⟩ := hf a middle hmiddle
    refine ⟨result, after, hafter, max least least', fun n hn => ?_⟩
    rw [run_bind, hrun n (by omega)]
    exact hrun' n (by omega)

theorem map {x : Nat → Exec α} (f : α → β) (hx : Settles I x) : Settles I fun n => f <$> x n := by
  simp only [map_eq_pure_bind]
  exact bind hx fun a => pure (f a)

/-- A computation that looks at the machine settles if it does for what it can see there. -/
theorem machine {f : Machine → Nat → Exec α} (hf : ∀ m, I m → Settles I (f m)) :
    Settles I fun n => Exec.machine >>= fun m => f m n :=
  fun m hm => hf m hm m hm

theorem required (line : Nat) {x : Nat → Exec (Option Value)} (hx : Settles I x) :
    Settles I fun n => Exec.required line (x n) := by
  refine bind hx fun v => ?_
  cases v with
  | none => exact fail _ line
  | some v => exact pure v

theorem collect {f : Nat → α → Exec β} (as : List α) (hf : ∀ a ∈ as, Settles I fun n => f n a) :
    Settles I fun n => Exec.collect (f n) as := by
  induction as with
  | nil => exact pure []
  | cons a as ih =>
    refine bind (hf a (by simp)) fun b => ?_
    exact bind (ih fun c hc => hf c (by simp [hc])) fun bs => pure (b :: bs)

theorem lastOf {run : Nat → α → Exec (Option β)} (last : Option β) (as : List α)
    (hrun : ∀ a ∈ as, Settles I fun n => run n a) :
    Settles I fun n => Exec.lastOf (run n) last as := by
  induction as generalizing last with
  | nil => exact pure last
  | cons a as ih => exact bind (hrun a (by simp)) fun b => ih b fun c hc => hrun c (by simp [hc])

theorem lastUntil (stops : α → Bool) {run : Nat → α → Exec (Option β)} (last : Option β)
    (as : List α) (hrun : ∀ a ∈ as, Settles I fun n => run n a) :
    Settles I fun n => Exec.lastUntil stops (run n) last as := by
  induction as generalizing last with
  | nil => exact pure last
  | cons a as ih =>
    have ha := hrun a (by simp)
    simp only [Exec.lastUntil]
    by_cases hstop : stops a
    · simpa only [if_pos hstop] using ha
    · simp only [if_neg hstop]
      exact bind ha fun b => ih b fun c hc => hrun c (by simp [hc])

/-- A call settles if its body does, on machines with a property of their own. -/
theorem inCall {locals : Environment} {body : Nat → Exec α} (hb : Settles J body)
    (henter : ∀ m, I m → J (m.enter locals))
    (hleave : ∀ m after, I m → J after → I (m.leave after)) :
    Settles I fun n => Exec.inCall locals (body n) := by
  intro m hm
  obtain ⟨result, after, hafter, least, hrun⟩ := hb _ (henter m hm)
  refine ⟨result, m.leave after, hleave m after hm hafter, least, fun n hn => ?_⟩
  rw [run_inCall, hrun n hn]

end Settles

end Skript.Exec
