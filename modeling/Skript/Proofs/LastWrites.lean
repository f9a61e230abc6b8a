import Skript.Environment

/-!
# The last write counts

What an environment holds after any number of writes is what the last write to each name gave it,
and a variable has the kind of its last declaration, whatever was assigned to it since. The listing
by names depends on nothing else: however the variables come in, sorted by name they are one and the
same list.
-/
namespace Skript

/-- A write to an environment. -/
inductive Write where
  | set (name : String) (value : Value)
  | declare (name : String) (kind : Kind) (value : Value)

namespace Write

variable {α : Type}

def name : Write → String
  | set name _ => name
  | declare name _ _ => name

def value : Write → Value
  | set _ value => value
  | declare _ _ value => value

/-- The value that the write gives to the variable `x`. -/
def gives? (x : String) (w : Write) : Option Value :=
  if w.name = x then some w.value else none

/-- The kind that the write declares the variable `x` with. -/
def declares? (x : String) : Write → Option Kind
  | set _ _ => none
  | declare name kind _ => if name = x then some kind else none

def apply (env : Environment) : Write → Environment
  | set name value => env.set name value
  | declare name kind value => env.declare name kind value

/-- What the last of the writes that tells something tells. -/
def last? (tells : Write → Option α) (ws : List Write) : Option α :=
  ws.reverse.findSome? tells

theorem last?_cons (tells : Write → Option α) (w : Write) (ws : List Write) :
    last? tells (w :: ws) = (last? tells ws).or (tells w) := by
  rw [last?, List.reverse_cons, List.findSome?_append, List.findSome?_singleton]
  rfl

theorem last?_gives?_isSome_iff {x : String} {ws : List Write} :
    (last? (gives? x) ws).isSome ↔ ∃ w ∈ ws, w.name = x := by
  rw [last?, List.findSome?_isSome_iff]
  constructor
  · rintro ⟨w, hw, hgives⟩
    refine ⟨w, List.mem_reverse.1 hw, ?_⟩
    by_cases hname : w.name = x
    · exact hname
    · rw [gives?, if_neg hname] at hgives
      cases hgives
  · rintro ⟨w, hw, hname⟩
    exact ⟨w, List.mem_reverse.2 hw, by rw [gives?, if_pos hname]; rfl⟩

end Write

namespace Environment

variable {α : Type}

/-- The environment after these writes, in order, to an empty one. -/
def written (ws : List Write) : Environment :=
  ws.foldl Write.apply empty

theorem get?_apply (env : Environment) (w : Write) (x : String) :
    (w.apply env).get? x = (w.gives? x).or (env.get? x) := by
  have hboth : (w.apply env).get? x = if w.name = x then some w.value else env.get? x := by
    cases w with
    | set name value => exact get?_set env name value x
    | declare name kind value => exact get?_declare env name kind value x
  rw [hboth, Write.gives?]
  by_cases hname : w.name = x
  · rw [if_pos hname, if_pos hname, Option.some_or]
  · rw [if_neg hname, if_neg hname, Option.none_or]

theorem declared?_apply (env : Environment) (w : Write) (x : String) :
    (w.apply env).declared? x = (w.declares? x).or (env.declared? x) := by
  cases w with
  | set name value => simp only [Write.apply, declared?_set, Write.declares?, Option.none_or]
  | declare name kind value =>
    rw [Write.apply, declared?_declare, Write.declares?]
    by_cases hname : name = x
    · rw [if_pos hname, if_pos hname, Option.some_or]
    · rw [if_neg hname, if_neg hname, Option.none_or]

/-- What each write replaces is in the end what the last write has put there. -/
theorem view_foldl (view : Environment → Option α) (tells : Write → Option α)
    (hview : ∀ env w, view (w.apply env) = (tells w).or (view env)) (ws : List Write)
    (env : Environment) :
    view (ws.foldl Write.apply env) = (Write.last? tells ws).or (view env) := by
  induction ws generalizing env with
  | nil => rfl
  | cons w ws ih => rw [List.foldl_cons, ih, hview, Write.last?_cons, Option.or_assoc]

theorem get?_written (ws : List Write) (x : String) :
    (written ws).get? x = Write.last? (Write.gives? x) ws := by
  have hview := view_foldl (get? · x) (Write.gives? x) (fun env w => get?_apply env w x) ws empty
  have hempty : empty.get? x = none := by rw [get?, slot?_empty, Option.map_none]
  rwa [hempty, Option.or_none] at hview

theorem declared?_written (ws : List Write) (x : String) :
    (written ws).declared? x = Write.last? (Write.declares? x) ws := by
  have hview := view_foldl (declared? · x) (Write.declares? x)
    (fun env w => declared?_apply env w x) ws empty
  have hempty : empty.declared? x = none := by rw [declared?, slot?_empty, Option.bind_none]
  rwa [hempty, Option.or_none] at hview

/-! ### Listings -/

theorem mem_names_written (ws : List Write) (x : String) :
    x ∈ (written ws).entries.map Prod.fst ↔ x ∈ ws.map Write.name := by
  have hsome : x ∈ (written ws).entries.map Prod.fst ↔ ((written ws).get? x).isSome := by
    simp only [List.mem_map, Prod.exists, mem_entries, exists_and_right, exists_eq_right,
      Option.isSome_iff_exists]
  rw [hsome, get?_written, Write.last?_gives?_isSome_iff, List.mem_map]

/-- The variables with their values, each once, in whatever order. -/
structure Enumerates (bindings : List (String × Value)) (env : Environment) : Prop where
  once : (bindings.map Prod.fst).Nodup
  holds : ∀ x v, (x, v) ∈ bindings ↔ env.get? x = some v

/-- The bindings in the order of their names. -/
def sortByName (bindings : List (String × Value)) : List (String × Value) :=
  bindings.mergeSort fun a b => (compare a.1 b.1).isLE

theorem nodup_names (env : Environment) : (env.entries.map Prod.fst).Nodup := by
  refine env.ascending_entries.imp fun {a b} hlt heq => ?_
  rw [heq] at hlt
  exact String.lt_irrefl b hlt

theorem enumerates_entries (env : Environment) : Enumerates env.entries env where
  once := env.nodup_names
  holds _ _ := mem_entries

theorem Enumerates.perm {bs cs : List (String × Value)} {env env' : Environment}
    (hbs : Enumerates bs env) (hcs : Enumerates cs env')
    (henv : ∀ x, env.get? x = env'.get? x) : bs.Perm cs := by
  refine (List.perm_ext_iff_of_nodup ?_ ?_).2 fun entry => ?_
  · exact (List.pairwise_map.1 hbs.once).imp fun hne heq => hne (congrArg Prod.fst heq)
  · exact (List.pairwise_map.1 hcs.once).imp fun hne heq => hne (congrArg Prod.fst heq)
  · rw [hbs.holds entry.1 entry.2, hcs.holds entry.1 entry.2, henv]

theorem ordered_sortByName (bs : List (String × Value)) :
    (sortByName bs).Pairwise fun a b => (compare a.1 b.1).isLE := by
  refine List.pairwise_mergeSort (fun a b c => Std.TransCmp.isLE_trans) (fun a b => ?_) bs
  rw [show compare b.1 a.1 = (compare a.1 b.1).swap from Std.OrientedOrd.eq_swap]
  cases compare a.1 b.1 <;> rfl

/-- Sorting leaves no trace of the order in which the variables came. -/
theorem Enumerates.sortByName_eq {bs : List (String × Value)} {env env' : Environment}
    (hbs : Enumerates bs env) (henv : ∀ x, env.get? x = env'.get? x) :
    sortByName bs = env'.entries := by
  have hentries := env'.enumerates_entries
  have hordered : env'.entries.Pairwise fun a b => (compare a.1 b.1).isLE := by
    refine (List.pairwise_map.1 env'.ascending_entries).imp fun {a b} hlt => ?_
    rw [show compare a.1 b.1 = .lt from compareOfLessAndEq_eq_lt.2 hlt]
    rfl
  have hperm : (sortByName bs).Perm env'.entries :=
    (List.mergeSort_perm bs _).trans (hbs.perm hentries henv)
  refine List.Perm.eq_of_pairwise ?_ (ordered_sortByName bs) hordered hperm
  rintro ⟨x, v⟩ ⟨y, w⟩ hx hy hxy hyx
  -- of two entries with one name both are what the environment holds under it
  have hname : x = y := Std.LawfulEqCmp.eq_of_compare (Std.OrientedCmp.isLE_antisymm hxy hyx)
  subst hname
  have hv := mem_entries.1 (hperm.mem_iff.1 hx)
  rw [mem_entries.1 hy] at hv
  cases hv
  rfl

/-- After any writes to an empty environment a variable has the value of the last write to it and the
kind of its last declaration. The listing has the names that were written in ascending order, each
once and with the value that it has now. Wherever the last write to each name gives the same, sorting
the variables by name gives this same listing, in whatever order they come. -/
theorem last_writes_decide (ws : List Write) :
    (∀ x, (written ws).get? x = Write.last? (Write.gives? x) ws) ∧
    (∀ x, (written ws).declared? x = Write.last? (Write.declares? x) ws) ∧
    ((written ws).entries.map Prod.fst).Pairwise (· < ·) ∧
    (∀ x, ((written ws).entries.map Prod.fst).count x = if x ∈ ws.map Write.name then 1 else 0) ∧
    (∀ x v, (x, v) ∈ (written ws).entries ↔ (written ws).get? x = some v) ∧
    ∀ ws' bs bs', (∀ x, Write.last? (Write.gives? x) ws = Write.last? (Write.gives? x) ws') →
      Enumerates bs (written ws) → Enumerates bs' (written ws') →
      sortByName bs = (written ws).entries ∧ sortByName bs' = (written ws).entries := by
  refine ⟨get?_written ws, declared?_written ws, ascending_entries _, fun x => ?_,
    fun x v => mem_entries, fun ws' bs bs' hlast hbs hbs' => ⟨?_, ?_⟩⟩
  · rw [(nodup_names _).count]
    simp only [mem_names_written]
  · exact hbs.sortByName_eq fun _ => rfl
  · refine hbs'.sortByName_eq fun x => ?_
    rw [get?_written, get?_written, hlast]

/-- The names are written in another order, one of them more often, and declared elsewhere. -/
theorem order_of_writes_leaves_no_trace :
    let ws : List Write := [.set "b" (.num 1), .declare "a" .num (.num 2), .set "b" (.num 3),
      .set "a" (.num 5)]
    let ws' : List Write := [.set "a" (.num 5), .declare "b" .num (.num 3)]
    let bs : List (String × Value) := [("b", .num 3), ("a", .num 5)]
    (∀ x, Write.last? (Write.gives? x) ws = Write.last? (Write.gives? x) ws') ∧
    Enumerates bs (written ws) ∧ Enumerates bs (written ws') ∧
    sortByName bs = (written ws).entries ∧
    (written ws).declared? "a" = some .num ∧ (written ws').declared? "a" = none := by
  intro ws ws' bs
  have hws : ∀ x, Write.last? (Write.gives? x) ws =
      if "a" = x then some (.num 5) else if "b" = x then some (.num 3) else none := by
    intro x
    by_cases ha : "a" = x
    · subst ha
      rfl
    by_cases hb : "b" = x
    · subst hb
      rfl
    simp [ws, Write.last?, Write.gives?, Write.name, ha, hb]
  have hlast : ∀ x, Write.last? (Write.gives? x) ws = Write.last? (Write.gives? x) ws' := by
    intro x
    rw [hws]
    by_cases hb : "b" = x
    · subst hb
      rfl
    by_cases ha : "a" = x
    · subst ha
      rfl
    simp [ws', Write.last?, Write.gives?, Write.name, ha, hb]
  have hbs : Enumerates bs (written ws) := by
    refine ⟨by decide, fun x v => ?_⟩
    rw [get?_written, hws]
    by_cases ha : "a" = x
    · subst ha
      simp [bs, eq_comm]
    by_cases hb : "b" = x
    · subst hb
      simp [bs, eq_comm]
    simp [bs, Ne.symm ha, Ne.symm hb, ha, hb]
  have hbs' : Enumerates bs (written ws') :=
    ⟨hbs.once, fun x v => by rw [hbs.holds, get?_written, get?_written, hlast]⟩
  refine ⟨hlast, hbs, hbs', ((last_writes_decide ws).2.2.2.2.2 ws' bs bs hlast hbs hbs').1, ?_, ?_⟩
  · rw [(last_writes_decide ws).2.1]
    rfl
  · rw [(last_writes_decide ws').2.1]
    rfl

end Environment

end Skript
