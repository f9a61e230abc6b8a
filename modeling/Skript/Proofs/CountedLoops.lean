import Mathlib.Data.List.Induction
import Skript.Proofs.Moments
import Skript.Proofs.WriteSet

/-!
# Loops that count

A loop that sets a variable to `a`, goes on while it is less than `b` and adds one to it each time
runs its block once for each integer from `a` to the one before `b`, as long as the block does not
write the variable itself. Its condition and its update cannot fail: the variable only holds
integers up to `b`, and one more than an integer less than `b` fits.
-/
namespace Skript

/-- The integers from `a` to the one before `b`, in order. -/
def Integer.upTo (a b : Int64) : List Int64 :=
  (List.range (b.toInt - a.toInt).toNat).map fun j : Nat => Int64.ofInt (a.toInt + j)

namespace Integer

theorem upTo_of_le {a b : Int64} (h : b.toInt ≤ a.toInt) : upTo a b = [] := by
  have hcount : (b.toInt - a.toInt).toNat = 0 := by omega
  rw [upTo, hcount]
  rfl

theorem upTo_of_lt {a b next : Int64} (h : a.toInt < b.toInt) (hnext : next.toInt = a.toInt + 1) :
    upTo a b = a :: upTo next b := by
  have hcount : (b.toInt - a.toInt).toNat = (b.toInt - next.toInt).toNat + 1 := by omega
  rw [upTo, upTo, hcount, List.range_succ_eq_map, List.map_cons, List.map_map]
  congr 1
  · simp
  · refine List.map_congr_left fun j _ => ?_
    have hsum : a.toInt + ((j + 1 : Nat) : Int) = next.toInt + j := by omega
    exact congrArg Int64.ofInt hsum

theorem add?_one {a next : Int64} (hnext : next.toInt = a.toInt + 1) : add? a 1 = some next :=
  ofInt?_eq_some_iff.2 hnext

/-- Below another integer there is room for one more. -/
theorem exists_next {a b : Int64} (h : a.toInt < b.toInt) :
    ∃ next : Int64, next.toInt = a.toInt + 1 ∧ next.toInt ≤ b.toInt := by
  have ha := Int64.le_toInt a
  have hb := Int64.toInt_lt b
  have hnext : (Int64.ofInt (a.toInt + 1)).toInt = a.toInt + 1 :=
    Int64.toInt_ofInt_of_le (by omega) (by omega)
  exact ⟨Int64.ofInt (a.toInt + 1), hnext, by omega⟩

theorem max_of_le {a b : Int64} (h : a.toInt ≤ b.toInt) : max a b = b := by
  have hle : a ≤ b := Int64.le_iff_toInt_le.2 h
  exact if_pos hle

theorem max_of_ge {a b : Int64} (h : b.toInt ≤ a.toInt) : max a b = a := by
  by_cases hle : a ≤ b
  · have hab : a.toInt ≤ b.toInt := Int64.le_iff_toInt_le.1 hle
    have heq : a.toInt = b.toInt := by omega
    rw [max_of_le hab, Int64.toInt_inj.1 heq]
  · exact if_neg hle

end Integer

/-- The loop `for (name = a; name < b; name = name + 1)`, its parts on any lines. -/
def Statement.countedLoop (name : String) (a b : Int64) (body : List Statement)
    (line : Fin 10 → Nat) : Statement :=
  .loop (.assign name (.literal (.num a) (line 0)) (line 1))
    (.binary (.var name (line 2)) .less (.literal (.num b) (line 3)) (line 4))
    (.assign name (.binary (.var name (line 5)) .add (.literal (.num 1) (line 6)) (line 7))
      (line 8))
    body (line 9)

/-- The machine on which the variable holds the number. -/
def Machine.setNumber (m : Machine) (name : String) (k : Int64) : Machine :=
  { m with environment := m.environment.set name (.num k) }

/-- The variable may hold any number. -/
def Machine.MayCount (name : String) (m : Machine) : Prop :=
  m.environment.declared? name = none ∨ m.environment.declared? name = some .num

namespace Exec

def setNumber (name : String) (k : Int64) : Exec Unit :=
  update fun m => m.setNumber name k

/-- Sets the variable to each of the numbers in turn and runs `body` every time. -/
def withEach (name : String) (body : Exec (Option Value)) (ks : List Int64) :
    Exec (Option Value) :=
  lastOf (fun k => do
    setNumber name k
    body) none ks

/-- Runs `body` for each integer from `a` to the one before `b`, and leaves the variable at the
first integer that is not less than `b`. -/
def countUp (name : String) (a b : Int64) (body : Exec (Option Value)) : Exec (Option Value) := do
  let _ ← withEach name body (Integer.upTo a b)
  setNumber name (max a b)
  return none

section Parts

variable {name : String} {m : Machine}

theorem run_assign_num (hm : m.MayCount name) (k : Int64) (line : Nat) :
    (assign name (.num k) line).run m = .finished (.ok (.num k)) (m.setNumber name k) := by
  have hsettle : (Value.num k).settle (m.environment.declared? name) name = .ok (.num k) := by
    obtain h | h := hm
    · rw [h]
      rfl
    · rw [h]
      rfl
  rw [run_assign, hsettle]
  rfl

theorem run_operands {k : Int64} (h : m.environment.get? name = some (.num k)) (limit : Option Nat)
    (n : Nat) (op : Operator) (b : Int64) (i j l : Nat) :
    (evaluate limit (n + 2) (.binary (.var name i) op (.literal (.num b) j) l)).run m =
      (some <$> ofExcept l (Value.binary op (.num k) (.num b))).run m := by
  simp only [evaluate, required, map_eq_pure_bind, run_bind, run_lookup h, run_pure]
  rfl

/-- The condition compares the variable with the bound, and nothing else happens. -/
theorem run_condition {k : Int64} (h : m.environment.get? name = some (.num k)) (limit : Option Nat)
    (n : Nat) (b : Int64) (i j l line : Nat) :
    (operand limit (.binary (.var name i) .less (.literal (.num b) j) l) line (n + 2)).run m =
      .finished (.ok (.bool (decide (k.toInt < b.toInt)))) m := by
  have hless : Value.binary .less (.num k) (.num b) = .ok (.bool (decide (k.toInt < b.toInt))) := by
    have hcompare : (compare k.toInt b.toInt).isLT = decide (k.toInt < b.toInt) := by
      rw [Bool.eq_iff_iff, Ordering.isLT_iff_eq_lt, Int.compare_eq_lt, decide_eq_true_iff]
    change Except.ok (Value.bool (compare k.toInt b.toInt).isLT) = _
    rw [hcompare]
  rw [operand, required, run_bind, run_operands h, hless]
  rfl

/-- The update adds one to the variable, if the sum fits. -/
theorem run_update {k next : Int64} (h : m.environment.get? name = some (.num k))
    (hm : m.MayCount name) (hnext : next.toInt = k.toInt + 1) (limit : Option Nat) (n : Nat)
    (i j l line : Nat) :
    (execute limit (n + 3) (.assign name (.binary (.var name i) .add (.literal (.num 1) j) l)
      line)).run m = .finished (.ok (some (.num next))) (m.setNumber name next) := by
  have hsum : Value.binary .add (.num k) (.num 1) = .ok (.num next) := by
    have hadd : Integer.add? k 1 = some next := Integer.add?_one hnext
    change Value.num <$> RunCause.orOverflow (Integer.add? k 1) = .ok (.num next)
    rw [hadd]
    rfl
  rw [execute, run_bind, required, run_bind, run_operands h, hsum]
  change (some <$> assign name (.num next) line).run m = _
  rw [map_eq_pure_bind, run_bind, run_assign_num hm]
  rfl

end Parts

theorem get?_setNumber (m : Machine) (name : String) (k : Int64) :
    (m.setNumber name k).environment.get? name = some (.num k) := by
  simp [Machine.setNumber]

theorem mayCount_setNumber {m : Machine} {name : String} (hm : m.MayCount name) (k : Int64) :
    (m.setNumber name k).MayCount name := by
  simpa [Machine.MayCount, Machine.setNumber] using hm

/-- A block that does not write a variable leaves it alone, whatever the functions write that it
calls. -/
theorem slot?_of_executeAll {name : String} {body : List Statement}
    (hbody : name ∉ Statement.targetsOfAll body) {limit : Option Nat} {n : Nat} {m after : Machine}
    {result : Except RunFault (Option Value)}
    (h : (executeAll limit n body).run m = .finished result after) :
    after.environment.slot? name = m.environment.slot? name := by
  have hR : RespectedWithin (· ≠ name) (Machine.KeepsOutside (· ≠ name)) :=
    Machine.respectedWithin_keepsOutside
  have hcall : ∀ k < n, ∀ f args line, Keeps (Machine.KeepsOutside (· ≠ name))
      (call limit (execute limit k) f args line) := by
    intro k _ f args line caller r last hr
    have hframe := keepsFrame_call limit k f args line caller r last hr
    exact Machine.keepsOutside_of_eq hframe.environment
  have hkeeps : Keeps (Machine.KeepsOutside (· ≠ name)) (executeAll limit n body) := by
    refine Keeps.lastOf hR.toSequential none body fun s hs => ?_
    refine keeps_execute_of_call hR limit n hcall s fun target htarget => ?_
    rintro rfl
    exact hbody (Statement.mem_targetsOfAll hs htarget)
  exact (hkeeps m result after h).outside name (not_not_intro rfl)

/-- The rounds that are left when the variable is set to `k`. The induction is on their number: each
one leaves the variable as it found it, so that the update sets it to the next integer. -/
theorem run_rounds {name : String} {body : List Statement}
    (hbody : name ∉ Statement.targetsOfAll body) (limit : Option Nat) (n : Nat) (b : Int64)
    (line : Fin 10 → Nat) {count : Nat} {k : Int64} (hcount : (b.toInt - k.toInt).toNat = count)
    {most : Nat} (hmost : count < most) (last : Option Value) {m : Machine}
    (hm : m.MayCount name) :
    (rounds limit (.binary (.var name (line 2)) .less (.literal (.num b) (line 3)) (line 4))
      (.assign name (.binary (.var name (line 5)) .add (.literal (.num 1) (line 6)) (line 7))
        (line 8))
      body (line 9) (n + 3) most).run (m.setNumber name k) =
    (do
      let _ ← lastOf (fun k => do
        setNumber name k
        executeAll limit (n + 3) body) last (Integer.upTo k b)
      setNumber name (max k b)).run m := by
  induction count generalizing k most last m with
  | zero =>
    obtain ⟨most, rfl⟩ : ∃ r, most = r + 1 := Nat.exists_eq_add_one.mpr (by omega)
    have hle : b.toInt ≤ k.toInt := by omega
    have hfalse : decide (k.toInt < b.toInt) = false := by simpa using hle
    rw [rounds_succ, run_bind, run_condition (get?_setNumber m name k), hfalse,
      Integer.upTo_of_le hle, Integer.max_of_ge hle]
    rfl
  | succ count ih =>
    obtain ⟨most, rfl⟩ : ∃ r, most = r + 1 := Nat.exists_eq_add_one.mpr (by omega)
    have hlt : k.toInt < b.toInt := by omega
    have htrue : decide (k.toInt < b.toInt) = true := by simpa using hlt
    obtain ⟨next, hnext, hle⟩ := Integer.exists_next hlt
    rw [rounds_succ, run_bind, run_condition (get?_setNumber m name k), htrue,
      Integer.upTo_of_lt hlt hnext, Integer.max_of_le (Int.le_of_lt hlt), lastOf, bind_assoc,
      bind_assoc]
    change (executeAll limit (n + 3) body >>= fun _ => _).run (m.setNumber name k) =
      (executeAll limit (n + 3) body >>= fun _ => _).run (m.setNumber name k)
    rw [run_bind, run_bind]
    cases hround : (executeAll limit (n + 3) body).run (m.setNumber name k) with
    | outOfFuel => rfl
    | finished result middle =>
      cases result with
      | error fault => rfl
      | ok v =>
        have hslot := slot?_of_executeAll hbody hround
        have hget : middle.environment.get? name = some (.num k) := by
          rw [← get?_setNumber m name k, Environment.get?, Environment.get?, hslot]
        have hmiddle : middle.MayCount name := by
          have hcounts := mayCount_setNumber hm k
          unfold Machine.MayCount Environment.declared? at hcounts ⊢
          rwa [hslot]
        have hrest := ih (by omega) (Nat.lt_of_succ_lt_succ hmost) v hmiddle (k := next)
        dsimp only
        rw [run_bind, run_update hget hmiddle hnext]
        dsimp only
        rw [hrest, Integer.max_of_le hle]

/-- With enough rounds the loop is the count. -/
theorem run_countedLoop {name : String} {body : List Statement}
    (hbody : name ∉ Statement.targetsOfAll body) (limit : Option Nat) {n : Nat} {a b : Int64}
    (hn : (b.toInt - a.toInt).toNat < n + 3) (line : Fin 10 → Nat) {m : Machine}
    (hm : m.MayCount name) :
    (execute limit (n + 4) (.countedLoop name a b body line)).run m =
      (countUp name a b (executeAll limit (n + 3) body)).run m := by
  have hinit : (execute limit (n + 3) (.assign name (.literal (.num a) (line 0)) (line 1))).run m =
      .finished (.ok (some (.num a))) (m.setNumber name a) := by
    simp only [execute, required, evaluate, Literal.toValue, map_eq_pure_bind, pure_bind, run_bind,
      run_assign_num hm]
    rfl
  have hcountUp : countUp name a b (executeAll limit (n + 3) body) = (do
      let _ ← (do
        let _ ← withEach name (executeAll limit (n + 3) body) (Integer.upTo a b)
        setNumber name (max a b))
      return none) := by
    rw [bind_assoc]
    rfl
  rw [Statement.countedLoop, execute_loop, run_bind, hinit, hcountUp, run_bind]
  dsimp only
  rw [run_bind, run_rounds hbody limit n b line rfl hn none hm]
  rfl

section Each

variable (name : String)

theorem withEach_concat (body : Exec (Option Value)) (ks : List Int64) (k : Int64) :
    withEach name body (ks ++ [k]) = (do
      let _ ← withEach name body ks
      setNumber name k
      body) := by
  simp only [withEach, lastOf_append, lastOf, bind_pure]

theorem matches_setNumber (k : Int64) :
    Matches (alike Eq Eq True) Eq (setNumber name k) (setNumber name k) := by
  refine Matches.update fun m₁ m₂ hm => ?_
  rw [eq_of_alike hm]
  exact alike_self

variable {block : Nat → Exec (Option Value)} (hblock : Steady block)
include hblock

theorem steady_withEach (ks : List Int64) : Steady fun n => withEach name (block n) ks := by
  intro n k hn
  refine Matches.lastOf (P := Eq) (fun j _ hj => ?_) (List.forall₂_refl ks) rfl
  subst hj
  exact Matches.bind (matches_setNumber name j) fun _ _ _ => hblock n k hn

theorem steady_countUp (a b : Int64) : Steady fun n => countUp name a b (block n) := by
  intro n k hn
  refine Matches.bind (steady_withEach name hblock _ n k hn) fun _ _ _ => ?_
  exact Matches.bind (matches_setNumber name _) fun _ _ _ => Matches.pure rfl

omit hblock in
/-- A run for each number that fails has failed in the run for one of them. -/
theorem exists_failing_round {body : Exec (Option Value)} {ks : List Int64} {m after : Machine}
    {fault : RunFault} (h : (withEach name body ks).run m = .finished (.error fault) after) :
    ∃ earlier k later, ks = earlier ++ k :: later ∧ ∃ v before,
      (withEach name body earlier).run m = .finished (.ok v) before ∧
      body.run (before.setNumber name k) = .finished (.error fault) after := by
  induction ks using List.reverseRecOn with
  | nil => cases h
  | append_singleton ks k ih =>
    rw [withEach_concat] at h
    obtain ⟨fault', hfirst, hfault⟩ | ⟨v, before, hfirst, hsecond⟩ := finished_of_bind h
    · cases hfault
      obtain ⟨earlier, j, later, rfl, hround⟩ := ih hfirst
      exact ⟨earlier, j, later ++ [k], by simp, hround⟩
    · exact ⟨ks, k, [], rfl, v, before, hfirst, hsecond⟩

/-- A run for each number ends if all the runs in it do. -/
theorem ends_withEach {ks : List Int64} {m : Machine}
    (h : ∀ earlier k later, ks = earlier ++ k :: later → ∀ v before,
      Ends (fun n => withEach name (block n) earlier) m (.ok v) before →
      ∃ result after, Ends block (before.setNumber name k) result after) :
    ∃ result after, Ends (fun n => withEach name (block n) ks) m result after := by
  induction ks using List.reverseRecOn with
  | nil => exact ⟨.ok none, m, 0, rfl⟩
  | append_singleton ks k ih =>
    have hks := ih fun earlier j later hj => h earlier j (later ++ [k]) (by simp [hj])
    simp only [withEach_concat]
    obtain ⟨result, before, hbefore⟩ := hks
    cases result with
    | error fault =>
      obtain ⟨n, hn⟩ := hbefore
      exact ⟨.error fault, before, n, by rw [run_bind, hn]⟩
    | ok v =>
      obtain ⟨result, after, n₂, hround⟩ := h ks k [] rfl v before hbefore
      obtain ⟨n₁, hfirst⟩ := hbefore
      refine ⟨result, after, max n₁ n₂, ?_⟩
      have hfirst' := (steady_withEach name hblock ks).finished_of_le (Nat.le_max_left n₁ n₂) hfirst
      have hround' := hblock.finished_of_le (Nat.le_max_right n₁ n₂) hround
      dsimp only at hfirst' ⊢
      rw [run_bind, hfirst']
      exact hround'

end Each

end Exec

open Exec

/-- A loop that counts from `a` up to `b` in a variable that may hold numbers and that its block
does not write ends if and only if the count does, with the same result and the same machine: the
variable is set to each integer from `a` to the one before `b` and the block is run each time, until
it fails, and in the end the variable is set to the larger of `a` and `b`. A fault of the loop is
one of its block, in the round for one of the integers and on the machine that the rounds before
have left. The loop ends if the block does in every round. -/
theorem counted_loops_run_once_for_each_integer (limit : Option Nat) (name : String) (a b : Int64)
    (body : List Statement) (line : Fin 10 → Nat) (m : Machine)
    (hbody : name ∉ Statement.targetsOfAll body)
    (hkind : m.environment.declared? name = none ∨ m.environment.declared? name = some .num) :
    let loop := fun n => execute limit n (.countedLoop name a b body line)
    let block := fun n => executeAll limit n body
    (∀ result after, Ends loop m result after ↔
      Ends (fun n => countUp name a b (block n)) m result after) ∧
    (∀ fault after, Ends loop m (.error fault) after → ∃ earlier k later v before,
      Integer.upTo a b = earlier ++ k :: later ∧
      Ends (fun n => withEach name (block n) earlier) m (.ok v) before ∧
      Ends block (before.setNumber name k) (.error fault) after) ∧
    ((∀ earlier k later v before, Integer.upTo a b = earlier ++ k :: later →
        Ends (fun n => withEach name (block n) earlier) m (.ok v) before →
        ∃ result after, Ends block (before.setNumber name k) result after) →
      ∃ result after, Ends loop m result after) := by
  intro loop block
  have hblock : Steady block := steady_executeAll limit body
  have hloop : Steady loop := steady_execute limit _
  have hcount := steady_countUp name hblock a b
  -- Where the bound is large enough for all rounds, both are the same run.
  have hsame : ∀ n, (loop (n + (b.toInt - a.toInt).toNat + 4)).run m =
      (countUp name a b (block (n + (b.toInt - a.toInt).toNat + 3))).run m :=
    fun n => run_countedLoop hbody limit (by omega) line hkind
  have hends : ∀ result after, Ends loop m result after ↔
      Ends (fun n => countUp name a b (block n)) m result after := by
    intro result after
    constructor
    · rintro ⟨n, hn⟩
      have hlarge := hloop.finished_of_le
        (show n ≤ n + (b.toInt - a.toInt).toNat + 4 by omega) hn
      exact ⟨_, (hsame n).symm.trans hlarge⟩
    · rintro ⟨n, hn⟩
      have hlarge := hcount.finished_of_le
        (show n ≤ n + (b.toInt - a.toInt).toNat + 3 by omega) hn
      exact ⟨_, (hsame n).trans hlarge⟩
  refine ⟨hends, ?_, ?_⟩
  · intro fault after hfails
    obtain ⟨n, hn⟩ := (hends _ after).1 hfails
    obtain ⟨fault', hfirst, hfault⟩ | ⟨v, middle, -, hset⟩ := finished_of_bind hn
    · cases hfault
      obtain ⟨earlier, k, later, hks, v, before, hearlier, hround⟩ :=
        exists_failing_round name hfirst
      exact ⟨earlier, k, later, v, before, hks, ⟨n, hearlier⟩, n, hround⟩
    · cases hset
  · intro hrounds
    obtain ⟨result, middle, n, hn⟩ := ends_withEach name hblock
      fun earlier k later hks v before => hrounds earlier k later v before hks
    dsimp only at hn
    cases result with
    | error fault =>
      refine ⟨.error fault, middle, (hends _ _).2 ⟨n, ?_⟩⟩
      simp only [countUp, run_bind, hn]
    | ok v =>
      refine ⟨.ok none, middle.setNumber name (max a b), (hends _ _).2 ⟨n, ?_⟩⟩
      simp only [countUp, run_bind, hn]
      rfl

/-- A count up to the largest integer, in a variable that was declared: the last sum still fits. -/
theorem count_reaches_the_largest_integer :
    let body : List Statement := [.assign "x" (.var "i" 2) 2]
    let m : Machine := { environment := Environment.empty.declare "i" .num (.num 0) }
    let a : Int64 := 9223372036854775805
    let b : Int64 := 9223372036854775807
    "i" ∉ Statement.targetsOfAll body ∧ m.environment.declared? "i" = some .num ∧
    ∃ after, Ends (fun n => execute none n (.countedLoop "i" a b body fun _ => 1)) m (.ok none)
        after ∧
      after.environment.get? "i" = some (.num b) ∧
      after.environment.get? "x" = some (.num 9223372036854775806) := by
  intro body m a b
  have hbody : "i" ∉ Statement.targetsOfAll body := by decide
  have hkind : m.environment.declared? "i" = some .num := rfl
  have hcount : ∃ after, Ends (fun n => countUp "i" a b (executeAll none n body)) m (.ok none)
      after ∧ after.environment.get? "i" = some (.num b) ∧
      after.environment.get? "x" = some (.num 9223372036854775806) := by
    have hks : Integer.upTo a b = [a, 9223372036854775806] := by decide
    have hmax : max a b = b := by decide
    simp only [countUp, hks, hmax]
    refine ⟨_, ⟨3, rfl⟩, ?_, ?_⟩
    · rfl
    · rfl
  obtain ⟨after, hends, hi, hx⟩ := hcount
  have hloop := counted_loops_run_once_for_each_integer none "i" a b body (fun _ => 1) m hbody
    (.inr hkind)
  exact ⟨hbody, hkind, after, (hloop.1 (.ok none) after).2 hends, hi, hx⟩

end Skript
