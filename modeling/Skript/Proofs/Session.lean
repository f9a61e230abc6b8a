import Skript.Proofs.Keeping

/-!
# Sessions

A machine serves one request after another: a script text, a list of statements or a single
statement. A request that ends with a fault leaves its machine to the next one. What every effect
respects holds between the two ends of any session.
-/
namespace Skript

/-- A machine that has run nothing yet, on any console. -/
def Machine.fresh (console : Console) : Machine := { console := console }

/-- What a machine can be asked to run. -/
inductive Request where
  | script (source : String)
  | program (statements : List Statement)
  | single (statement : Statement)

/-- The request ends, well or not, and takes one machine to the other. -/
inductive Request.Leads : Request → Machine → Machine → Prop
  | script {source : String} {m after : Machine} {fuel : Nat}
      {result : Except ScriptFault (Option Value)}
      (run : Script.run fuel source m = .finished result after) : Leads (.script source) m after
  | program {statements : List Statement} {m after : Machine} {fuel : Nat}
      {result : Except RunFault (Option Value)}
      (run : (executeAll (some callLimit) fuel statements).run m = .finished result after) :
      Leads (.program statements) m after
  | single {statement : Statement} {m after : Machine} {fuel : Nat}
      {result : Except RunFault (Option Value)}
      (run : (execute (some callLimit) fuel statement).run m = .finished result after) :
      Leads (.single statement) m after

/-- Requests that were made in order, each of which ended. -/
inductive Session : List Request → Machine → Machine → Prop
  | done (m : Machine) : Session [] m m
  | next {request : Request} {requests : List Request} {m middle after : Machine}
      (first : request.Leads m middle) (rest : Session requests middle after) :
      Session (request :: requests) m after

variable {R : Machine → Machine → Prop}

theorem Script.keeps_run (hR : Respected R) {fuel : Nat} {source : String} {m after : Machine}
    {result : Except ScriptFault (Option Value)}
    (h : Script.run fuel source m = .finished result after) : R m after := by
  unfold Script.run at h
  split at h
  · cases h
    exact hR.refl m
  · next statements _ =>
    cases hr : (executeAll (some callLimit) fuel statements).run m with
    | outOfFuel => rw [hr] at h; cases h
    | finished inner last =>
      rw [hr] at h
      cases h
      exact Exec.keeps_executeAll hR _ fuel statements m inner after hr

theorem Request.Leads.keeps (hR : Respected R) {request : Request} {m after : Machine}
    (h : request.Leads m after) : R m after := by
  cases h with
  | script run => exact Script.keeps_run hR run
  | program run => exact Exec.keeps_executeAll hR _ _ _ _ _ _ run
  | single run => exact Exec.keeps_execute hR _ _ _ _ _ _ run

theorem Session.keeps (hR : Respected R) {requests : List Request} {m after : Machine}
    (h : Session requests m after) : R m after := by
  induction h with
  | done m => exact hR.refl m
  | next first rest ih => exact hR.trans (first.keeps hR) ih

end Skript
