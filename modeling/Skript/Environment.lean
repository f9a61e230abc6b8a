import Std.Data.TreeMap
import Skript.Value

/-!
# Environments

The variables of a running script by name. A variable that was declared keeps its kind for as
long as it is only assigned to.
-/
namespace Skript

/-- What a variable holds, and the kind it was declared with. -/
structure Slot where
  value : Value
  declared : Option Kind
  deriving DecidableEq

structure Environment where
  slots : Std.TreeMap String Slot := ∅

namespace Environment

def empty : Environment := {}

def slot? (env : Environment) (name : String) : Option Slot :=
  env.slots[name]?

def get? (env : Environment) (name : String) : Option Value :=
  (env.slot? name).map Slot.value

def declared? (env : Environment) (name : String) : Option Kind :=
  (env.slot? name).bind Slot.declared

/-- Gives a variable a value. Its declared kind stays, and is not looked at. -/
def set (env : Environment) (name : String) (value : Value) : Environment :=
  ⟨env.slots.insert name ⟨value, env.declared? name⟩⟩

/-- Gives a variable a kind and a value, in place of what it had. -/
def declare (env : Environment) (name : String) (kind : Kind) (value : Value) : Environment :=
  ⟨env.slots.insert name ⟨value, some kind⟩⟩

/-- The variables in ascending order of their names. -/
def toList (env : Environment) : List (String × Slot) :=
  env.slots.toList

/-- The environment in which a function's body starts: each parameter holds its argument, and of
parameters with one name the last counts. -/
def ofArguments (params : List String) (args : List Value) : Environment :=
  (params.zip args).foldl (fun env (name, value) => env.set name value) empty

@[simp] theorem slot?_set (env : Environment) (name : String) (value : Value) (other : String) :
    (env.set name value).slot? other =
      if name = other then some ⟨value, env.declared? name⟩ else env.slot? other := by
  simp [slot?, set, Std.TreeMap.getElem?_insert]

@[simp] theorem slot?_declare (env : Environment) (name : String) (kind : Kind) (value : Value)
    (other : String) :
    (env.declare name kind value).slot? other =
      if name = other then some ⟨value, some kind⟩ else env.slot? other := by
  simp [slot?, declare, Std.TreeMap.getElem?_insert]

@[simp] theorem slot?_empty (name : String) : empty.slot? name = none := by
  simp [slot?, empty]

@[simp] theorem get?_set (env : Environment) (name : String) (value : Value) (other : String) :
    (env.set name value).get? other = if name = other then some value else env.get? other := by
  simp only [get?, slot?_set]
  split <;> rfl

@[simp] theorem declared?_set (env : Environment) (name : String) (value : Value)
    (other : String) : (env.set name value).declared? other = env.declared? other := by
  simp only [declared?, slot?_set]
  split
  · next h => subst h; rfl
  · rfl

@[simp] theorem get?_declare (env : Environment) (name : String) (kind : Kind) (value : Value)
    (other : String) :
    (env.declare name kind value).get? other =
      if name = other then some value else env.get? other := by
  simp only [get?, slot?_declare]
  split <;> rfl

@[simp] theorem declared?_declare (env : Environment) (name : String) (kind : Kind)
    (value : Value) (other : String) :
    (env.declare name kind value).declared? other =
      if name = other then some kind else env.declared? other := by
  simp only [declared?, slot?_declare]
  split <;> rfl

/-! ### Variables in the order of their names -/

/-- The variables with their values, in ascending order of the names. -/
def entries (env : Environment) : List (String × Value) :=
  env.toList.map fun entry => (entry.1, entry.2.value)

theorem mem_entries {env : Environment} {name : String} {v : Value} :
    (name, v) ∈ env.entries ↔ env.get? name = some v := by
  simp only [entries, toList, List.mem_map, get?, slot?, Option.map_eq_some_iff]
  constructor
  · rintro ⟨⟨other, slot⟩, hmem, hentry⟩
    cases hentry
    exact ⟨slot, Std.TreeMap.mem_toList_iff_getElem?_eq_some.1 hmem, rfl⟩
  · rintro ⟨slot, hslot, rfl⟩
    exact ⟨(name, slot), Std.TreeMap.mem_toList_iff_getElem?_eq_some.2 hslot, rfl⟩

theorem ascending_entries (env : Environment) : (env.entries.map Prod.fst).Pairwise (· < ·) := by
  have hnames : env.entries.map Prod.fst = env.slots.keys := by
    rw [entries, List.map_map]
    exact Std.TreeMap.map_fst_toList_eq_keys
  have hordered : env.slots.keys.Pairwise fun a b => compare a b = .lt := Std.TreeMap.ordered_keys
  rw [hnames]
  exact hordered.imp compareOfLessAndEq_eq_lt.1

end Environment

end Skript
