import Skript.Console
import Skript.Environment

/-!
# The machine and its computations

A computation takes a machine and leaves a machine, whether it gives a result or a fault. A
computation that needs more depth or more rounds than it is allowed has no outcome at all, which is
told apart from every fault.
-/
namespace Skript

abbrev FunctionTable := Std.TreeMap String Definition

/-- All that a running script can change. -/
structure Machine where
  environment : Environment := {}
  functions : FunctionTable := ∅
  /-- The number of calls that have not returned. -/
  depth : Nat := 0
  console : Console := {}

/-- How a computation ends. -/
inductive Outcome (ε α : Type) where
  | finished (result : Except ε α) (machine : Machine)
  | outOfFuel

namespace Outcome

variable {ε δ α : Type}

def mapError (f : ε → δ) : Outcome ε α → Outcome δ α
  | finished result m => finished (result.mapError f) m
  | outOfFuel => outOfFuel

end Outcome

/-- A computation with a result of type `α`. -/
structure Exec (α : Type) where
  run : Machine → Outcome RunFault α

namespace Exec

variable {α β : Type}

@[always_inline, inline]
protected def pure (a : α) : Exec α := ⟨fun m => .finished (.ok a) m⟩

/-- Goes on with the result, in the machine that the first computation left. -/
@[always_inline, inline]
protected def bind (x : Exec α) (f : α → Exec β) : Exec β := ⟨fun m =>
  match x.run m with
  | .finished (.ok a) m => (f a).run m
  | .finished (.error fault) m => .finished (.error fault) m
  | .outOfFuel => .outOfFuel⟩

instance : Monad Exec where
  pure := Exec.pure
  bind := Exec.bind

@[ext] protected theorem ext {x y : Exec α} (h : ∀ m, x.run m = y.run m) : x = y := by
  cases x
  cases y
  exact congrArg Exec.mk (funext h)

@[simp] theorem run_pure (a : α) (m : Machine) :
    (pure a : Exec α).run m = .finished (.ok a) m := rfl

theorem run_bind (x : Exec α) (f : α → Exec β) (m : Machine) :
    (x >>= f).run m =
      match x.run m with
      | .finished (.ok a) m => (f a).run m
      | .finished (.error fault) m => .finished (.error fault) m
      | .outOfFuel => .outOfFuel := rfl

instance : LawfulMonad Exec := LawfulMonad.mk' Exec
  (fun x => by
    ext m
    change (x >>= fun a => pure a).run m = x.run m
    rw [run_bind]
    cases x.run m with
    | outOfFuel => rfl
    | finished result after => cases result <;> rfl)
  (fun _ _ => rfl)
  (fun x f g => by
    ext m
    simp only [run_bind]
    cases x.run m with
    | outOfFuel => rfl
    | finished result after => cases result <;> rfl)

def fail (cause : RunCause) (line : Nat) : Exec α := ⟨fun m =>
  .finished (.error ⟨cause, line⟩) m⟩

def outOfFuel : Exec α := ⟨fun _ => .outOfFuel⟩

/-- The machine as it is. -/
def machine : Exec Machine := ⟨fun m => .finished (.ok m) m⟩

def update (f : Machine → Machine) : Exec Unit := ⟨fun m => .finished (.ok ()) (f m)⟩

/-- A result that needs no machine; its fault is reported on `line`. -/
def ofExcept (line : Nat) : Except RunCause α → Exec α
  | .ok a => pure a
  | .error cause => fail cause line

/-- An action on the console; its fault is reported on `line`. -/
def onConsole (line : Nat) (action : Console → Except RunCause α × Console) : Exec α := ⟨fun m =>
  let (result, console) := action m.console
  .finished (result.mapError (⟨·, line⟩)) { m with console := console }⟩

/-- The value of a computation that has to give one. -/
def required (line : Nat) (x : Exec (Option Value)) : Exec Value := do
  match ← x with
  | some v => pure v
  | none => fail .missingValue line

/-- The results for all elements in order. -/
def collect (f : α → Exec β) : List α → Exec (List β)
  | [] => pure []
  | a :: as => do
      let b ← f a
      let bs ← collect f as
      return b :: bs

/-- Runs all elements in order and gives the result of the last, or `last` if there are none. -/
def lastOf (run : α → Exec (Option β)) (last : Option β) : List α → Exec (Option β)
  | [] => pure last
  | a :: as => do
      let b ← run a
      lastOf run b as

/-- As `lastOf`, but the first element that `stops` is the last to run. -/
def lastUntil (stops : α → Bool) (run : α → Exec (Option β)) (last : Option β) :
    List α → Exec (Option β)
  | [] => pure last
  | a :: as =>
      if stops a then run a
      else do
        let b ← run a
        lastUntil stops run b as

/-- Repeats `round` for as long as `condition` holds, at most the given number of times. -/
def repeatWhile (condition : Exec Bool) (round : Exec Unit) : Nat → Exec Unit
  | 0 => outOfFuel
  | n + 1 => do
      if ← condition then
        round
        repeatWhile condition round n
      else pure ()

/-- Runs `body` one call deeper in an environment of its own. The caller's environment is back
afterwards, also if the body failed. -/
def inCall (locals : Environment) (body : Exec α) : Exec α := ⟨fun m =>
  match body.run { m with environment := locals, depth := m.depth + 1 } with
  | .finished result after =>
      .finished result { after with environment := m.environment, depth := after.depth - 1 }
  | .outOfFuel => .outOfFuel⟩

end Exec

end Skript
