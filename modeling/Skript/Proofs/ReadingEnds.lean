import Skript.Proofs.LookAhead
import Skript.Proofs.MovedLexemes

/-!
# Reading makes progress and ends

Readers are given some depth, and with as much of it as `parse` starts with they never use it up.
Without a bound on their depth the readers of statements, expressions, blocks and choices take at
least one lexeme whenever they succeed, never the end of the input, and look one lexeme ahead. So
every round of a loop over statements, listed items or the operators of a chain leaves fewer lexemes
than it found, and the loop comes to an end whatever the lexemes are.
-/
namespace Skript

open Grammar

namespace Parse

variable {α β σ : Type}

/-! ### Depth -/

/-- The reader with all the depth that its lexemes can use. -/
def unbounded (x : Nat → Parse α) : Parse α :=
  ⟨fun ls => (x (parseDepth ls)).run ls⟩

/-- Depth beyond the one that `parse` starts with makes no difference. -/
def Saturates (x : Nat → Parse α) : Prop :=
  ∀ n ls, parseDepth ls ≤ n → (x n).run ls = (unbounded x).run ls

theorem Tracked.unique {move : Nat → Nat} {tail : List Lexeme} {f : α → β} {j k : Nat}
    {first : Except SourceFault (α × List Lexeme)}
    {second third : Except SourceFault (β × List Lexeme)} (h : Tracked move tail f j k first second)
    (h' : Tracked move tail f j k first third) : second = third := by
  cases h <;> cases h' <;> rfl

/-- With lines left where they are and no `tail`, a reader with more depth and the reader itself
both follow the reader. -/
theorem saturates_of_tracks {x : Nat → Parse α} {f : α → α} {j : Nat}
    (h : ∀ d n K, 10 * K ≤ n → Tracks id [] f j K (x n) (x (d + n))) : Saturates x := by
  intro n ls hn
  obtain ⟨d, rfl⟩ : ∃ d, n = d + parseDepth ls := Nat.exists_eq_add_of_le' hn
  have htracked : ∀ d, Tracked id [] f j ls.length ((x (parseDepth ls)).run ls)
      ((x (d + parseDepth ls)).run ls) := by
    intro d
    have hfollows := h d (parseDepth ls) (ls.length + 1) (Nat.le_refl _) ls (.inr ⟨rfl, rfl⟩)
      (Nat.lt_succ_self _)
    have hstay : ls.map (Lexeme.mapLine id) = ls := List.map_id ls
    rwa [hstay, List.append_nil] at hfollows
  have hsame := htracked 0
  rw [Nat.zero_add] at hsame
  exact (htracked d).unique hsame

theorem Saturates.within {x : Nat → Parse α} (hx : Saturates x) {ls rest : List Lexeme}
    (h : rest.length < ls.length + 1) : (x (parseDepth ls)).run rest = (unbounded x).run rest :=
  hx _ rest (by unfold parseDepth; omega)

theorem saturates_statement : Saturates statement :=
  saturates_of_tracks fun _ n K hn => tracks_statement n K hn

theorem saturates_expression : Saturates expression :=
  saturates_of_tracks fun _ n _ hn => tracks_expression n (by omega)

theorem saturates_operand (level : Level) : Saturates (operand · level) :=
  saturates_of_tracks fun _ n K hn => tracks_operand n level K (by omega)

theorem saturates_block : Saturates fun n => block (statement n) n :=
  saturates_of_tracks fun _ n K hn => tracks_block (tracks_statement n K hn) n (by omega)

theorem saturates_choice (line : Nat) : Saturates fun n => choice (statement n) n line :=
  saturates_of_tracks fun _ n K hn =>
    tracks_choice (tracks_statement n K hn) n K hn (Nat.le_refl K) line

/-! ### Progress -/

/-- The reader takes at least one lexeme whenever it succeeds, never the end of the input, and looks
one lexeme ahead. -/
structure Careful (x : Parse α) : Prop where
  takes : Yields x fun p _ => p ≠ [] ∧ Unended p
  oneAhead : OneAhead x

theorem Careful.advances {x : Parse α} (hx : Careful x) : Advances x :=
  Yields.advances (hx.takes.mono fun _ _ h => h.1)

theorem careful_unbounded {x : Nat → Parse α} (hx : Saturates x) (hlocal : ∀ n, Local (x n))
    (htakes : ∀ n, Yields (x n) fun p _ => p ≠ [] ∧ Unended p) : Careful (unbounded x) where
  takes := fun _ _ _ hrun => htakes _ hrun
  oneAhead := by
    intro p a t rest hrun rest'
    -- the two lists ask for different depths, and both readers can be given the larger one
    let n := max (parseDepth (p ++ t :: rest)) (parseDepth (p ++ t :: rest'))
    rw [← hx n _ (Nat.le_max_left _ _)] at hrun
    rw [← hx n _ (Nat.le_max_right _ _)]
    exact (hlocal n).oneAhead hrun rest'

theorem careful_statement : Careful (unbounded statement) :=
  careful_unbounded saturates_statement local_statement fun n =>
    (yields_statement n).mono fun _ _ hp => ⟨hp.ne_nil, hp.unended⟩

theorem careful_expression : Careful (unbounded expression) :=
  careful_unbounded saturates_expression local_expression fun n =>
    (yields_chain n .relational).mono fun _ _ hp => ⟨hp.ne_nil, hp.unended⟩

theorem careful_operand (level : Level) : Careful (unbounded (operand · level)) :=
  careful_unbounded (saturates_operand level) (local_operand · level) fun n =>
    (yields_operand n level).mono fun _ _ hp => ⟨hp.ne_nil, hp.unended⟩

theorem careful_block : Careful (unbounded fun n => block (statement n) n) := by
  refine careful_unbounded saturates_block (fun n => local_block (local_statement n) n) fun n => ?_
  refine (yields_block (yields_statement n) n).mono fun p ss hp => ⟨?_, hp.unended⟩
  cases hp
  exact List.cons_ne_nil _ _

theorem careful_choice (line : Nat) :
    Careful (unbounded fun n => choice (statement n) n line) := by
  refine careful_unbounded (saturates_choice line)
    (fun n => local_choice (local_statement n) n line) fun n => ?_
  refine (yields_choice (yields_statement n) n line).mono fun p c hp => ⟨?_, hp.unended⟩
  cases hp with
  | mk _ hcondition _ _ => exact List.append_ne_nil_of_left_ne_nil hcondition.ne_nil _

theorem advances_identifier : Advances identifier := by
  refine Yields.advances (yields_identifier.mono ?_)
  rintro _ name ⟨line, rfl⟩
  exact List.cons_ne_nil _ _

/-! ### Loops -/

/-- What a round of a loop comes to. -/
inductive Round (σ α : Type) where
  | again (s : σ) (rest : List Lexeme)
  | last (out : Except SourceFault (α × List Lexeme))

/-- A round that goes on with what a reader gave. -/
def Round.next (state : α → σ) : Except SourceFault (α × List Lexeme) → Round σ β
  | .ok (a, rest) => .again (state a) rest
  | .error fault => .last (.error fault)

theorem Round.ok_of_next {state : α → σ} {out : Except SourceFault (α × List Lexeme)} {s : σ}
    {rest : List Lexeme} (h : (Round.next state out : Round σ β) = .again s rest) :
    ∃ a, out = .ok (a, rest) := by
  cases out with
  | error fault => cases h
  | ok r =>
    obtain ⟨a, rest⟩ := r
    cases h
    exact ⟨a, rfl⟩

/-- The loop comes to an end after finitely many rounds, with this outcome. -/
inductive ComesTo (round : σ → List Lexeme → Round σ α) :
    σ → List Lexeme → Except SourceFault (α × List Lexeme) → Prop
  | last {s ls out} (h : round s ls = .last out) : ComesTo round s ls out
  | again {s ls s' rest out} (h : round s ls = .again s' rest) (later : ComesTo round s' rest out) :
      ComesTo round s ls out

/-- No round but the last leaves as many lexemes as it found. -/
def Shrinks (round : σ → List Lexeme → Round σ α) : Prop :=
  ∀ ⦃s ls s' rest⦄, round s ls = .again s' rest → rest.length < ls.length

/-- The outcome is that of the round, or what the rounds after it are said to give. -/
def Round.Gives (later : σ → List Lexeme → Except SourceFault (α × List Lexeme) → Prop)
    (out : Except SourceFault (α × List Lexeme)) : Round σ α → Prop
  | .again s rest => later s rest out
  | .last out' => out = out'

/-- The reader does what the loop does from `s` on, and the loop always ends. -/
def Loops (round : σ → List Lexeme → Round σ α) (s : σ) (x : Parse α) : Prop :=
  ∀ ls out, ComesTo round s ls out ↔ out = x.run ls

section Loops

variable {round : σ → List Lexeme → Round σ α} {s : σ} {ls : List Lexeme}
  {out out' : Except SourceFault (α × List Lexeme)}

theorem ComesTo.unique (h : ComesTo round s ls out) (h' : ComesTo round s ls out') :
    out = out' := by
  induction h with
  | last hlast =>
    cases h' with
    | last hlast' => exact Round.last.inj (hlast.symm.trans hlast')
    | again hagain' _ => exact absurd (hlast.symm.trans hagain') nofun
  | again hagain _ ih =>
    cases h' with
    | last hlast' => exact absurd (hagain.symm.trans hlast') nofun
    | again hagain' later' =>
      obtain ⟨rfl, rfl⟩ := Round.again.inj (hagain.symm.trans hagain')
      exact ih later'

/-- A loop that runs out of lexemes ends, with the outcome that every round hands on. -/
theorem Shrinks.comesTo (hround : Shrinks round)
    {later : σ → List Lexeme → Except SourceFault (α × List Lexeme) → Prop}
    (hstep : ∀ ⦃s ls out⦄, later s ls out → (round s ls).Gives later out) (h : later s ls out) :
    ComesTo round s ls out := by
  induction hlength : ls.length using Nat.strongRecOn generalizing s ls with
  | ind n ih =>
    have hgives := hstep h
    cases hr : round s ls with
    | last out' =>
      rw [hr] at hgives
      cases hgives
      exact .last hr
    | again s' rest =>
      rw [hr] at hgives
      have hshorter := hround hr
      exact .again hr (ih rest.length (by omega) hgives rfl)

theorem loops_of_comesTo {x : Parse α} (h : ∀ ls, ComesTo round s ls (x.run ls)) :
    Loops round s x := by
  intro ls out
  constructor
  · exact fun hout => hout.unique (h ls)
  · rintro rfl
    exact h ls

end Loops

/-! ### Loops that collect what they read -/

/-- The outcome with more before what was collected. -/
def prepend (as : List α) (out : Except SourceFault (List α × List Lexeme)) :
    Except SourceFault (List α × List Lexeme) :=
  out.map fun r => (as ++ r.1, r.2)

theorem prepend_nil (out : Except SourceFault (List α × List Lexeme)) : prepend [] out = out := by
  cases out <;> rfl

theorem prepend_prepend (as bs : List α) (out : Except SourceFault (List α × List Lexeme)) :
    prepend as (prepend bs out) = prepend (as ++ bs) out := by
  cases out with
  | error fault => rfl
  | ok r => exact congrArg (fun more => Except.ok (more, r.2)) (List.append_assoc as bs r.1).symm

/-- What the reader gives on fewer than `K` lexemes with enough depth for them, after `as`. -/
def Collects (x : Nat → Parse (List α)) (K : Nat) (as : List α) (ls : List Lexeme)
    (out : Except SourceFault (List α × List Lexeme)) : Prop :=
  ∃ n, ls.length < n ∧ ls.length < K ∧ out = prepend as ((x n).run ls)

theorem comesTo_of_collects {x : Nat → Parse (List α)}
    {round : List α → List Lexeme → Round (List α) (List α)} (hround : Shrinks round)
    {ls : List Lexeme}
    (hstep : ∀ ⦃as rest out⦄, Collects x (ls.length + 1) as rest out →
      (round as rest).Gives (Collects x (ls.length + 1)) out) :
    ComesTo round [] ls ((x (parseDepth ls)).run ls) := by
  refine hround.comesTo hstep ⟨parseDepth ls, ?_, Nat.lt_succ_self _, (prepend_nil _).symm⟩
  unfold parseDepth
  omega

section Collecting

variable {x : Parse α} {y : Parse (List α)} {ls rest : List Lexeme}

theorem run_cons_of_ok {a : α} (h : x.run ls = .ok (a, rest)) :
    Parse.run (do
      let first ← x
      let rest ← y
      return first :: rest) ls = prepend [a] (y.run rest) := by
  rw [run_bind_of_ok h, run_bind]
  cases y.run rest <;> rfl

theorem run_cons_of_error {fault : SourceFault} (h : x.run ls = .error fault) :
    Parse.run (do
      let first ← x
      let rest ← y
      return first :: rest) ls = .error fault := by
  rw [run_bind, h]

end Collecting

/-- What follows a semicolon, if it comes first. -/
def pastSeparator? : List Lexeme → Option (List Lexeme)
  | ⟨.symbol .semicolon, _⟩ :: ls => some ls
  | _ => none

theorem length_of_pastSeparator? {ls rest : List Lexeme} (h : pastSeparator? ls = some rest) :
    ls.length = rest.length + 1 := by
  cases ls with
  | nil => cases h
  | cons l ls =>
    obtain ⟨t, line⟩ := l
    cases t with
    | symbol sign =>
      cases sign with
      | semicolon =>
        cases h
        rfl
      | _ => cases h
    | _ => cases h

/-- Where a program ends. -/
def programEnd? : List Lexeme → Option (Except SourceFault (List Lexeme))
  | [] => some (.ok [])
  | ⟨.endOfInput, line⟩ :: ls => some (.ok (⟨.endOfInput, line⟩ :: ls))
  | _ => none

/-- Where a block ends whose brace was opened on `line`. -/
def blockEnd? (line : Nat) : List Lexeme → Option (Except SourceFault (List Lexeme))
  | [] => some (.error ⟨.unexpectedEnd (.symbol .rightBrace), line⟩)
  | ⟨.symbol .rightBrace, _⟩ :: ls => some (.ok ls)
  | ⟨.endOfInput, last⟩ :: _ => some (.error ⟨.unexpectedEnd (.symbol .rightBrace), last⟩)
  | _ => none

/-- A round of a loop over statements up to their `ending?`, after the statements `ss`. -/
def sequenceRound (ending? : List Lexeme → Option (Except SourceFault (List Lexeme)))
    (read : Parse Statement) (ss : List Statement) (ls : List Lexeme) :
    Round (List Statement) (List Statement) :=
  match pastSeparator? ls, ending? ls with
  | some rest, _ => .again ss rest
  | none, some out => .last (out.map fun rest => (ss, rest))
  | none, none => .next (fun s => ss ++ [s]) (read.run ls)

/-- A reader of statements, with `more` for what follows a separator or the first statement. -/
def sequenceStep (ending? : List Lexeme → Option (Except SourceFault (List Lexeme)))
    (read : Parse Statement) (more : Parse (List Statement)) : Parse (List Statement) :=
  ⟨fun ls =>
    match pastSeparator? ls, ending? ls with
    | some rest, _ => more.run rest
    | none, some out => out.map fun rest => ([], rest)
    | none, none =>
        Parse.run (do
          let first ← read
          let rest ← more
          return first :: rest) ls⟩

theorem program_succ (read : Parse Statement) (n : Nat) :
    program read (n + 1) = sequenceStep programEnd? read (program read n) := by
  refine congrArg Parse.mk (funext fun ls => ?_)
  cases ls with
  | nil => rfl
  | cons l ls =>
    obtain ⟨t, line⟩ := l
    cases t with
    | symbol sign => cases sign <;> rfl
    | _ => rfl

theorem blockAfter_succ (read : Parse Statement) (line n : Nat) :
    blockAfter read line (n + 1) =
      sequenceStep (blockEnd? line) read (blockAfter read line n) := by
  refine congrArg Parse.mk (funext fun ls => ?_)
  cases ls with
  | nil => rfl
  | cons l ls =>
    obtain ⟨t, l₁⟩ := l
    cases t with
    | symbol sign => cases sign <;> rfl
    | _ => rfl

section Sequences

variable {ending? : List Lexeme → Option (Except SourceFault (List Lexeme))}
  {read full : Parse Statement} (hfull : Advances full)

include hfull

theorem shrinks_sequenceRound : Shrinks (sequenceRound ending? full) := by
  intro ss ls ss' rest h
  simp only [sequenceRound] at h
  cases hpast : pastSeparator? ls with
  | some rest' =>
    rw [hpast] at h
    cases h
    have hlength := length_of_pastSeparator? hpast
    omega
  | none =>
    rw [hpast] at h
    cases hend : ending? ls with
    | some out =>
      rw [hend] at h
      cases h
    | none =>
      rw [hend] at h
      obtain ⟨s, hrun⟩ := Round.ok_of_next h
      exact hfull hrun

theorem gives_sequenceRound {K : Nat} (hread : ∀ ls, ls.length < K → read.run ls = full.run ls)
    {x : Nat → Parse (List Statement)} (hx : ∀ n, x (n + 1) = sequenceStep ending? read (x n))
    {ss : List Statement} {ls : List Lexeme}
    {out : Except SourceFault (List Statement × List Lexeme)} (h : Collects x K ss ls out) :
    (sequenceRound ending? full ss ls).Gives (Collects x K) out := by
  obtain ⟨n, hn, hK, rfl⟩ := h
  obtain ⟨m, rfl⟩ : ∃ m, n = m + 1 := ⟨n - 1, by omega⟩
  simp only [hx, sequenceRound, sequenceStep]
  cases hpast : pastSeparator? ls with
  | some rest =>
    have hlength := length_of_pastSeparator? hpast
    exact ⟨m, by omega, by omega, rfl⟩
  | none =>
    cases ending? ls with
    | some out =>
      cases out with
      | error fault => rfl
      | ok rest => exact congrArg (fun more => Except.ok (more, rest)) (List.append_nil ss)
    | none =>
      dsimp only
      cases hrun : full.run ls with
      | error fault =>
        rw [run_cons_of_error ((hread ls hK).trans hrun)]
        rfl
      | ok r =>
        have hshorter := hfull hrun
        rw [run_cons_of_ok ((hread ls hK).trans hrun), prepend_prepend]
        exact ⟨m, by omega, by omega, rfl⟩

omit hfull

/-- A reader that goes through its statements step by step does as the loop does whose rounds are
these steps. -/
theorem loops_sequence {x : Parse Statement → Nat → Parse (List Statement)}
    (hx : ∀ read n, x read (n + 1) = sequenceStep ending? read (x read n)) :
    Loops (sequenceRound ending? (unbounded statement)) []
      (unbounded fun n => x (statement n) n) := by
  have hadvances := careful_statement.advances
  refine loops_of_comesTo fun ls => comesTo_of_collects (shrinks_sequenceRound hadvances) ?_
  intro ss rest out h
  exact gives_sequenceRound hadvances (fun _ h => saturates_statement.within h) (hx _) h

end Sequences

/-- What follows an item, after the items `as`. -/
def afterItem (closing : Symbol) (as : List α) : List Lexeme → Round (List α) (List α)
  | [] => .last (.error (.nothingLeft (.symbol closing)))
  | l :: ls =>
      if l.token = .symbol .comma then .again as ls
      else if l.token = .symbol closing then .last (.ok (as, ls))
      else .last (.error (.unexpected (.commaOr closing) l))

/-- A round of a loop over items with commas between them, after the items `as`. -/
def itemRound (closing : Symbol) (item : Parse α) (as : List α) (ls : List Lexeme) :
    Round (List α) (List α) :=
  match item.run ls with
  | .ok (a, rest) => afterItem closing (as ++ [a]) rest
  | .error fault => .last (.error fault)

section Items

variable {item full : Parse α} (closing : Symbol) (hfull : Advances full)

include hfull

theorem shrinks_itemRound : Shrinks (itemRound closing full) := by
  intro as ls as' rest h
  simp only [itemRound] at h
  cases hrun : full.run ls with
  | error fault =>
    rw [hrun] at h
    cases h
  | ok r =>
    obtain ⟨a, mid⟩ := r
    have hshorter := hfull hrun
    rw [hrun] at h
    cases mid with
    | nil => cases h
    | cons l mid =>
      simp only [afterItem] at h
      by_cases hcomma : l.token = .symbol .comma
      · rw [if_pos hcomma] at h
        cases h
        exact Nat.lt_of_succ_lt hshorter
      rw [if_neg hcomma] at h
      by_cases hclosing : l.token = .symbol closing
      · rw [if_pos hclosing] at h
        cases h
      · rw [if_neg hclosing] at h
        cases h

theorem gives_itemRound {K : Nat} (hitem : ∀ ls, ls.length < K → item.run ls = full.run ls)
    {as : List α} {ls : List Lexeme} {out : Except SourceFault (List α × List Lexeme)}
    (h : Collects (items item closing) K as ls out) :
    (itemRound closing full as ls).Gives (Collects (items item closing) K) out := by
  obtain ⟨n, hn, hK, rfl⟩ := h
  obtain ⟨m, rfl⟩ : ∃ m, n = m + 1 := ⟨n - 1, by omega⟩
  simp only [items, itemRound]
  cases hrun : full.run ls with
  | error fault =>
    rw [run_cons_of_error ((hitem ls hK).trans hrun)]
    rfl
  | ok r =>
    obtain ⟨a, rest⟩ := r
    have hshorter := hfull hrun
    -- the item took a lexeme, so that there is depth left for what follows it
    obtain ⟨k, rfl⟩ : ∃ k, m = k + 1 := ⟨m - 1, by omega⟩
    rw [run_cons_of_ok ((hitem ls hK).trans hrun), prepend_prepend]
    cases rest with
    | nil => rfl
    | cons l rest =>
      rw [List.length_cons] at hshorter
      simp only [itemsAfter, afterItem]
      by_cases hcomma : l.token = .symbol .comma
      · rw [if_pos hcomma, if_pos hcomma]
        exact ⟨k, by omega, by omega, rfl⟩
      rw [if_neg hcomma, if_neg hcomma]
      by_cases hclosing : l.token = .symbol closing
      · rw [if_pos hclosing, if_pos hclosing]
        exact congrArg (fun more => Except.ok (more, rest)) (List.append_nil _)
      · rw [if_neg hclosing, if_neg hclosing]
        rfl

omit hfull

theorem loops_items {full : Parse α} (closing : Symbol) (hfull : Advances full) {item : Nat → Parse α}
    (hitem : ∀ ls rest : List Lexeme, rest.length < ls.length + 1 →
      (item (parseDepth ls)).run rest = full.run rest) :
    Loops (itemRound closing full) [] (unbounded fun n => items (item n) closing n) := by
  refine loops_of_comesTo fun ls => ?_
  refine comesTo_of_collects (x := items (item (parseDepth ls)) closing)
    (shrinks_itemRound closing hfull) ?_
  intro as rest out h
  exact gives_itemRound closing hfull (hitem ls) h

end Items

/-! ### Chains of operators -/

/-- A round of the loop over the operators of a level, after the expression `left`. -/
def chainRound (level : Level) (operand : Parse Expr) (left : Expr) :
    List Lexeme → Round Expr Expr
  | [] => .last (.ok (left, []))
  | l :: ls =>
      match l.token.operator? with
      | none => .last (.ok (left, l :: ls))
      | some op =>
          if op.level = level then .next (fun right => .binary left op right l.line) (operand.run ls)
          else .last (.ok (left, l :: ls))

theorem shrinks_chainRound (level : Level) {operand : Parse Expr} (hoperand : Advances operand) :
    Shrinks (chainRound level operand) := by
  intro left ls left' rest h
  cases ls with
  | nil => cases h
  | cons l ls =>
    simp only [chainRound] at h
    cases hop : l.token.operator? with
    | none =>
      rw [hop] at h
      cases h
    | some op =>
      simp only [hop] at h
      by_cases hlevel : op.level = level
      · rw [if_pos hlevel] at h
        obtain ⟨right, hrun⟩ := Round.ok_of_next h
        exact Nat.lt_succ_of_lt (hoperand hrun)
      · rw [if_neg hlevel] at h
        cases h

/-- What is read after `left` with enough depth. -/
def Continues (level : Level) (left : Expr) (ls : List Lexeme)
    (out : Except SourceFault (Expr × List Lexeme)) : Prop :=
  ∃ n, parseDepth ls ≤ n ∧ out = (chainAfter n level left).run ls

theorem gives_chainRound (level : Level) {left : Expr} {ls : List Lexeme}
    {out : Except SourceFault (Expr × List Lexeme)} (h : Continues level left ls out) :
    (chainRound level (unbounded (operand · level)) left ls).Gives (Continues level) out := by
  obtain ⟨n, hn, rfl⟩ := h
  obtain ⟨m, rfl⟩ : ∃ m, n = m + 2 := ⟨n - 2, by unfold parseDepth at hn; omega⟩
  cases ls with
  | nil => rfl
  | cons l ls =>
    simp only [chainRound, chainAfter]
    cases hop : l.token.operator? with
    | none => rfl
    | some op =>
      dsimp only
      by_cases hlevel : op.level = level
      · rw [if_pos hlevel, if_pos hlevel]
        have hdepth : parseDepth ls ≤ m := by
          simp only [parseDepth, List.length_cons] at hn ⊢
          omega
        have hoperand : (operand m level).run ls = (unbounded (operand · level)).run ls :=
          saturates_operand level m ls hdepth
        simp only [chainLink, run_bind, hoperand]
        cases hrun : (unbounded (operand · level)).run ls with
        | error fault => rfl
        | ok r =>
          have hshorter := (careful_operand level).advances hrun
          refine ⟨m, ?_, rfl⟩
          simp only [parseDepth] at hdepth ⊢
          omega
      · rw [if_neg hlevel, if_neg hlevel]
        rfl

theorem loops_chainAfter (level : Level) (left : Expr) :
    Loops (chainRound level (unbounded (operand · level))) left
      (unbounded fun n => chainAfter n level left) :=
  loops_of_comesTo fun ls => (shrinks_chainRound level (careful_operand level).advances).comesTo
    (fun _ _ _ h => gives_chainRound level h) ⟨parseDepth ls, Nat.le_refl _, rfl⟩

end Parse

open Parse

/-- Readers make progress and look one lexeme ahead, and no depth beyond that of `parse` makes a
difference to them. The loops over the statements of a program and of a block, over listed
expressions and names, and over the operators of each level are stated without any bound on their
rounds: they end on every list of lexemes, and the bounded readers give what they end with. -/
theorem readers_advance_and_loops_end :
    (Careful (unbounded statement) ∧ Careful (unbounded expression) ∧
      Careful (unbounded fun n => block (statement n) n) ∧
      ∀ line, Careful (unbounded fun n => choice (statement n) n line)) ∧
    (Saturates statement ∧ Saturates expression ∧ (Saturates fun n => block (statement n) n) ∧
      ∀ line, Saturates fun n => choice (statement n) n line) ∧
    Loops (sequenceRound programEnd? (unbounded statement)) []
      (unbounded fun n => program (statement n) n) ∧
    (∀ line, Loops (sequenceRound (blockEnd? line) (unbounded statement)) []
      (unbounded fun n => blockAfter (statement n) line n)) ∧
    (∀ closing, Loops (itemRound closing (unbounded expression)) []
      (unbounded fun n => items (expression n) closing n)) ∧
    (∀ closing, Loops (itemRound closing identifier) []
      (unbounded fun n => items identifier closing n)) ∧
    ∀ level left, Loops (chainRound level (unbounded (operand · level))) left
      (unbounded fun n => chainAfter n level left) := by
  refine ⟨⟨careful_statement, careful_expression, careful_block, careful_choice⟩,
    ⟨saturates_statement, saturates_expression, saturates_block, saturates_choice⟩,
    ?_, fun line => ?_, fun closing => ?_, fun closing => ?_, loops_chainAfter⟩
  · exact loops_sequence program_succ
  · exact loops_sequence fun read n => blockAfter_succ read line n
  · exact loops_items closing careful_expression.advances fun _ _ h => saturates_expression.within h
  · exact loops_items closing advances_identifier fun _ _ _ => rfl

/-- The assignment ends before its semicolon, also where there is more after it. -/
theorem assignment_ends_whatever_follows :
    (unbounded statement).run ([⟨.identifier "x", 1⟩, ⟨.symbol .equals, 1⟩, ⟨.integer 1, 1⟩] ++
        ⟨.symbol .semicolon, 1⟩ :: []) =
      .ok (.assign "x" (.literal (.num 1) 1) 1, [⟨.symbol .semicolon, 1⟩]) ∧
    (unbounded statement).run ([⟨.identifier "x", 1⟩, ⟨.symbol .equals, 1⟩, ⟨.integer 1, 1⟩] ++
        ⟨.symbol .semicolon, 1⟩ :: [⟨.symbol .rightBrace, 2⟩]) =
      .ok (.assign "x" (.literal (.num 1) 1) 1,
        [⟨.symbol .semicolon, 1⟩, ⟨.symbol .rightBrace, 2⟩]) := by
  have hrun : (unbounded statement).run
      ([⟨.identifier "x", 1⟩, ⟨.symbol .equals, 1⟩, ⟨.integer 1, 1⟩] ++
        ⟨.symbol .semicolon, 1⟩ :: []) =
      .ok (.assign "x" (.literal (.num 1) 1) 1, [⟨.symbol .semicolon, 1⟩]) := rfl
  exact ⟨hrun, readers_advance_and_loops_end.1.1.oneAhead hrun [⟨.symbol .rightBrace, 2⟩]⟩

end Skript
