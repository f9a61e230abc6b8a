import Skript.Proofs.GreedyReading
import Skript.Proofs.Lines

/-!
# Reading lexemes that were moved

On lexemes that were moved to other lines every reader does what it does on the lexemes as they
stood: it takes as many, and gives the same tree or the same fault with its lines moved. Whatever
stands behind the end of the input is left alone, and so is any depth beyond the one that reading
starts with, since this is never used up.
-/
namespace Skript

/-- One of the lexemes ends the input. -/
def Ended (ls : List Lexeme) : Prop :=
  ∃ l ∈ ls, l.token = .endOfInput

theorem Ended.tail {l : Lexeme} {ls : List Lexeme} (h : Ended (l :: ls))
    (hl : l.token ≠ .endOfInput) : Ended ls := by
  obtain ⟨last, hlast, htoken⟩ := h
  cases hlast with
  | head => exact absurd htoken hl
  | tail _ hlast => exact ⟨last, hlast, htoken⟩

/-- No reader gets to `tail` behind these lexemes: they end the input, or there is no `tail`. In the
second case the lexemes can run out, which is a fault on line zero. -/
def Covered (move : Nat → Nat) (tail ls : List Lexeme) : Prop :=
  Ended ls ∨ tail = [] ∧ move 0 = 0

theorem Covered.tail {move : Nat → Nat} {tail ls : List Lexeme} {l : Lexeme}
    (h : Covered move tail (l :: ls)) (hl : l.token ≠ .endOfInput) : Covered move tail ls :=
  h.imp_left fun hended => hended.tail hl

theorem Covered.nil {move : Nat → Nat} {tail : List Lexeme} (h : Covered move tail []) :
    tail = [] ∧ move 0 = 0 := by
  obtain ⟨l, hl, -⟩ | h := h
  · cases hl
  · exact h

def SourceFault.mapLine (move : Nat → Nat) (fault : SourceFault) : SourceFault :=
  ⟨fault.cause, move fault.line⟩

open Grammar

namespace Parse

variable (move : Nat → Nat) (tail : List Lexeme) {α β γ δ : Type}

/-- The second outcome is the first one with its lines moved and `tail` left over as well. What is
left still keeps readers from `tail`, and at least `j` lexemes out of `length` were taken. -/
inductive Tracked (f : α → β) (j length : Nat) :
    Except SourceFault (α × List Lexeme) → Except SourceFault (β × List Lexeme) → Prop
  | ok (a : α) {rest : List Lexeme} (covered : Covered move tail rest)
      (shorter : rest.length + j ≤ length) :
      Tracked f j length (.ok (a, rest)) (.ok (f a, rest.map (Lexeme.mapLine move) ++ tail))
  | error (fault : SourceFault) :
      Tracked f j length (.error fault) (.error (fault.mapLine move))

/-- On fewer than `K` lexemes, moved and with `tail` behind them, the second reader follows the first,
which takes at least `j` of them. -/
def Tracks (f : α → β) (j K : Nat) (x : Parse α) (y : Parse β) : Prop :=
  ∀ ls, Covered move tail ls → ls.length < K →
    Tracked move tail f j ls.length (x.run ls) (y.run (ls.map (Lexeme.mapLine move) ++ tail))

-- The second reader may be given `d` more depth than the first.
variable {move tail} {f : α → β} {g : γ → δ} {j K d : Nat} {x : Parse α} {y : Parse β}

theorem Tracked.mono {i k l : Nat} {first : Except SourceFault (α × List Lexeme)}
    {second : Except SourceFault (β × List Lexeme)} (h : Tracked move tail f i k first second)
    (hk : k + j ≤ l + i) : Tracked move tail f j l first second := by
  cases h with
  | ok a covered shorter => exact .ok a covered (by omega)
  | error fault => exact .error fault

theorem tracked_unexpected (expected : Expectation) (l : Lexeme) {length : Nat} :
    Tracked move tail f j length (.error (.unexpected expected l))
      (.error (.unexpected expected (l.mapLine move))) := by
  obtain ⟨t, line⟩ := l
  cases t <;> exact .error _

theorem tracked_nothingLeft (hmove : move 0 = 0) (expected : Expectation) {length : Nat} :
    Tracked move tail f j length (.error (.nothingLeft expected))
      (.error (.nothingLeft expected)) := by
  have hfault : (SourceFault.nothingLeft expected).mapLine move = .nothingLeft expected :=
    congrArg (SourceFault.mk _) hmove
  have htracked : Tracked move tail f j length (.error (.nothingLeft expected)) _ := .error _
  rwa [hfault] at htracked

theorem Tracks.of_cases
    (hnil : 0 < K → tail = [] → move 0 = 0 → Tracked move tail f j 0 (x.run []) (y.run []))
    (hcons : ∀ l ls, Covered move tail (l :: ls) → ls.length + 1 < K →
      Tracked move tail f j (ls.length + 1) (x.run (l :: ls))
        (y.run (l.mapLine move :: (ls.map (Lexeme.mapLine move) ++ tail)))) :
    Tracks move tail f j K x y := by
  intro ls hcovered hlength
  cases ls with
  | nil =>
    obtain ⟨rfl, hmove⟩ := hcovered.nil
    exact hnil hlength rfl hmove
  | cons l ls => exact hcons l ls hcovered hlength

theorem tracks_none (h : K = 0) : Tracks move tail f j K x y :=
  fun _ _ hlength => absurd hlength (by omega)

theorem Tracks.mono {i L : Nat} (h : Tracks move tail f j K x y) (hj : i ≤ j) (hK : L ≤ K) :
    Tracks move tail f i L x y :=
  fun ls hcovered hlength => (h ls hcovered (by omega)).mono (by omega)

theorem Tracks.any (h : Tracks move tail f j K x y) : Tracks move tail f 0 K x y :=
  h.mono (Nat.zero_le j) (Nat.le_refl K)

theorem tracks_pure (a : α) : Tracks move tail f 0 K (pure a) (pure (f a)) :=
  fun _ hcovered _ => .ok a hcovered (Nat.le_refl _)

/-- The second part is only started on what the first one leaves. -/
theorem Tracks.bind_shorter {L : Nat} {h : α → Parse γ} {h' : β → Parse δ}
    (hx : Tracks move tail f j K x y) (hL : K ≤ L + j)
    (hh : ∀ a, Tracks move tail g 0 L (h a) (h' (f a))) :
    Tracks move tail g j K (x >>= h) (y >>= h') := by
  intro ls hcovered hlength
  rw [run_bind, run_bind]
  have hfirst := hx ls hcovered hlength
  generalize x.run ls = first at hfirst ⊢
  generalize y.run (ls.map (Lexeme.mapLine move) ++ tail) = second at hfirst ⊢
  cases hfirst with
  | ok a covered shorter => exact (hh a _ covered (by omega)).mono (by omega)
  | error fault => exact .error fault

theorem Tracks.bind {h : α → Parse γ} {h' : β → Parse δ} (hx : Tracks move tail f j K x y)
    (hh : ∀ a, Tracks move tail g 0 K (h a) (h' (f a))) :
    Tracks move tail g j K (x >>= h) (y >>= h') :=
  hx.bind_shorter (Nat.le_add_right K j) hh

theorem Tracks.map {h : α → γ} {h' : β → δ} (hx : Tracks move tail f j K x y)
    (hg : ∀ a, h' (f a) = g (h a)) : Tracks move tail g j K (h <$> x) (h' <$> y) := by
  refine hx.bind fun a => ?_
  have hpure : Tracks move tail g 0 K (pure (h a)) (pure (g (h a))) := tracks_pure (h a)
  rwa [← hg] at hpure

/-- A reader that comes in once a lexeme is passed. -/
theorem Tracks.passed {l : Lexeme} {ls : List Lexeme} {i length : Nat}
    (hx : Tracks move tail f j K x y) (hcovered : Covered move tail (l :: ls))
    (hl : l.token ≠ .endOfInput) (hK : ls.length < K) (hi : ls.length + i ≤ length + j) :
    Tracked move tail f i length (x.run ls) (y.run (ls.map (Lexeme.mapLine move) ++ tail)) :=
  (hx ls (hcovered.tail hl) hK).mono hi

theorem tracks_expect (sign : Symbol) : Tracks move tail move 1 K (expect sign) (expect sign) := by
  refine .of_cases (fun _ _ hmove => tracked_nothingLeft hmove (.symbol sign))
    fun l ls hcovered hlength => ?_
  have htoken : (l.mapLine move).token = l.token := rfl
  simp only [expect, htoken]
  by_cases hl : l.token = .symbol sign
  · rw [if_pos hl, if_pos hl]
    exact .ok l.line (hcovered.tail (by rw [hl]; nofun)) (Nat.le_refl _)
  · rw [if_neg hl, if_neg hl]
    exact tracked_unexpected (.symbol sign) l

theorem tracks_identifier : Tracks move tail id 1 K identifier identifier := by
  refine .of_cases (fun _ _ hmove => tracked_nothingLeft hmove .identifier)
    fun ⟨t, line⟩ ls hcovered hlength => ?_
  cases t with
  | identifier name => exact .ok name (hcovered.tail nofun) (Nat.le_refl _)
  | _ => exact tracked_unexpected .identifier _

theorem tracks_kind : Tracks move tail id 1 K kind kind := by
  refine .of_cases (fun _ _ hmove => tracked_nothingLeft hmove .kind)
    fun ⟨t, line⟩ ls hcovered hlength => ?_
  cases t with
  | kind k => exact .ok k (hcovered.tail nofun) (Nat.le_refl _)
  | _ => exact tracked_unexpected .kind _

theorem tracks_closed (hx : Tracks move tail f j K x y) :
    Tracks move tail f j K (closed x) (closed y) := by
  refine hx.bind fun a => ?_
  refine (tracks_expect .rightParen).any.bind ?_
  exact fun _ => tracks_pure a

theorem tracks_parenthesized (hx : Tracks move tail f 0 K x y) :
    Tracks move tail f 1 K (parenthesized x) (parenthesized y) :=
  (tracks_expect .leftParen).bind fun _ => tracks_closed hx

/-! ### Lists -/

mutual

theorem tracks_items (hx : Tracks move tail f 1 K x y) (closing : Symbol) : ∀ n L, L ≤ n → L ≤ K →
    Tracks move tail (List.map f) 0 L (items x closing n) (items y closing (d + n))
  | 0, L, hn, _ => tracks_none (by omega)
  | n + 1, L, hn, hL => by
    refine ((hx.mono (Nat.le_refl 1) hL).bind_shorter (L := L - 1) (by omega) fun a => ?_).any
    refine (tracks_itemsAfter hx closing n (L - 1) (by omega) (by omega)).bind ?_
    exact fun as => tracks_pure (a :: as)

theorem tracks_itemsAfter (hx : Tracks move tail f 1 K x y) (closing : Symbol) :
    ∀ n L, L ≤ n → L ≤ K →
      Tracks move tail (List.map f) 0 L (itemsAfter x closing n) (itemsAfter y closing (d + n))
  | 0, L, hn, _ => tracks_none (by omega)
  | n + 1, L, hn, hL => by
    refine .of_cases (fun _ _ hmove => tracked_nothingLeft hmove (.symbol closing))
      fun l ls hcovered hlength => ?_
    have htoken : (l.mapLine move).token = l.token := rfl
    simp only [itemsAfter, htoken]
    by_cases hcomma : l.token = .symbol .comma
    · rw [if_pos hcomma, if_pos hcomma]
      exact (tracks_items hx closing n (L - 1) (by omega) (by omega)).passed hcovered
        (by rw [hcomma]; nofun) (by omega) (by omega)
    rw [if_neg hcomma, if_neg hcomma]
    by_cases hclosing : l.token = .symbol closing
    · rw [if_pos hclosing, if_pos hclosing]
      exact .ok [] (hcovered.tail (by rw [hclosing]; nofun)) (by omega)
    · rw [if_neg hclosing, if_neg hclosing]
      exact tracked_unexpected (.commaOr closing) l

end

theorem tracks_commaSeparated (hx : Tracks move tail f 1 K x y) (closing : Symbol) (n : Nat)
    (hn : K ≤ n) :
    Tracks move tail (List.map f) 0 K (commaSeparated x closing n)
      (commaSeparated y closing (d + n)) := by
  have hitems := tracks_items (d := d) hx closing n K hn (Nat.le_refl K)
  refine .of_cases ?_ fun l ls hcovered hlength => ?_
  · rintro hK rfl hmove
    exact hitems [] (.inr ⟨rfl, hmove⟩) hK
  have htoken : (l.mapLine move).token = l.token := rfl
  simp only [commaSeparated, htoken]
  by_cases hclosing : l.token = .symbol closing
  · rw [if_pos hclosing, if_pos hclosing]
    exact .ok [] (hcovered.tail (by rw [hclosing]; nofun)) (by omega)
  · rw [if_neg hclosing, if_neg hclosing]
    exact hitems (l :: ls) hcovered hlength

/-! ### Expressions -/

theorem tracks_inputArguments : Tracks move tail id 0 K inputArguments inputArguments := by
  refine .of_cases ?_ fun ⟨t, line⟩ ls hcovered hlength => ?_
  · rintro - rfl hmove
    exact .ok (none, none) (.inr ⟨rfl, hmove⟩) (Nat.le_refl _)
  cases t with
  | str prompt =>
    have hcovered := hcovered.tail nofun
    cases ls with
    | nil =>
      obtain ⟨rfl, -⟩ := hcovered.nil
      exact .ok (some prompt, none) hcovered (Nat.le_succ _)
    | cons l ls =>
      obtain ⟨t, line⟩ := l
      have hkind : Tracks move tail id 0 K ((some prompt, some ·) <$> kind)
          ((some prompt, some ·) <$> kind) := tracks_kind.any.map fun _ => rfl
      cases t with
      | symbol s =>
        cases s with
        | comma =>
          rw [List.length_cons] at hlength
          exact hkind.passed hcovered nofun (by omega) (by rw [List.length_cons]; omega)
        | _ => exact .ok (some prompt, none) hcovered (Nat.le_succ _)
      | _ => exact .ok (some prompt, none) hcovered (Nat.le_succ _)
  | kind k => exact .ok (none, some k) (hcovered.tail nofun) (Nat.le_succ _)
  | _ => exact .ok (none, none) hcovered (Nat.le_refl _)

theorem tracks_inputAfter (line : Nat) :
    Tracks move tail (Expr.mapLine move) 1 K (inputAfter line) (inputAfter (move line)) :=
  (tracks_parenthesized tracks_inputArguments).bind fun arguments =>
    tracks_pure (Expr.input arguments.1 arguments.2 line)

theorem map_call (name : String) (line : Nat) (es : List Expr) :
    Expr.call name (es.map (Expr.mapLine move)) (move line) =
      (Expr.call name es line).mapLine move := by
  rw [Expr.mapLine, Expr.mapLines_eq]

theorem slack_pos (phrase : Phrase) : 1 ≤ slack phrase := by
  rcases phrase with (_ | _ | _) | _ | _ <;> decide

mutual

theorem tracks_chain : ∀ n level K, 10 * K ≤ n + slack (.chain level) →
    Tracks move tail (Expr.mapLine move) 1 K (chain n level) (chain (d + n) level)
  | 0, level, K, hn => tracks_none (by have := slack_le (.chain level); omega)
  | n + 1, level, K, hn => by
    have hslack := slack_le (.chain level)
    -- The operand takes a lexeme, and every lexeme taken makes up for ten readers entered.
    exact (tracks_operand n level K (by omega)).bind_shorter (L := K - 1) (by omega) fun left =>
      tracks_chainAfter n level (K - 1) (by omega) left

theorem tracks_operand : ∀ n level K, 10 * K ≤ n + slack (.chain level) + 1 →
    Tracks move tail (Expr.mapLine move) 1 K (operand n level) (operand (d + n) level)
  | 0, level, K, hn => tracks_none (by have := slack_le (.chain level); omega)
  | n + 1, .relational, K, hn => tracks_chain n .additive K hn
  | n + 1, .additive, K, hn => tracks_chain n .multiplicative K hn
  | n + 1, .multiplicative, K, hn => tracks_unary n K hn

theorem tracks_chainAfter : ∀ n level K, 10 * K ≤ n → ∀ left : Expr,
    Tracks move tail (Expr.mapLine move) 0 K (chainAfter n level left)
      (chainAfter (d + n) level (left.mapLine move))
  | 0, _, _, hn, _ => tracks_none (by omega)
  | n + 1, level, K, hn, left => by
    refine .of_cases ?_ fun l ls hcovered hlength => ?_
    · rintro - rfl hmove
      exact .ok left (.inr ⟨rfl, hmove⟩) (Nat.le_refl _)
    have hstop : Tracked move tail (Expr.mapLine move) 0 (ls.length + 1) (.ok (left, l :: ls))
        (.ok (left.mapLine move, l.mapLine move :: ls.map (Lexeme.mapLine move) ++ tail)) :=
      .ok left hcovered (Nat.le_refl _)
    have htoken : (l.mapLine move).token = l.token := rfl
    simp only [chainAfter, htoken]
    cases hop : l.token.operator? with
    | none => exact hstop
    | some op =>
      dsimp only
      by_cases hlevel : op.level = level
      · rw [if_pos hlevel, if_pos hlevel]
        exact (tracks_chainLink n level (K - 1) (by omega) left op l.line).passed hcovered
          (by rintro hl; rw [hl] at hop; cases hop) (by omega) (by omega)
      · rw [if_neg hlevel, if_neg hlevel]
        exact hstop

theorem tracks_chainLink : ∀ n level K, 10 * K ≤ n → ∀ (left : Expr) (op : Operator) (line : Nat),
    Tracks move tail (Expr.mapLine move) 0 K (chainLink n level left op line)
      (chainLink (d + n) level (left.mapLine move) op (move line))
  | 0, _, _, hn, _, _, _ => tracks_none (by omega)
  | n + 1, level, K, hn, left, op, line => by
    have hslack := slack_pos (.chain level)
    have hright := tracks_operand n level K (by omega)
    refine (hright.bind_shorter (L := K - 1) (by omega) fun right => ?_).any
    exact tracks_chainAfter n level (K - 1) (by omega) (.binary left op right line)

theorem tracks_unary : ∀ n K, 10 * K ≤ n + slack .unary →
    Tracks move tail (Expr.mapLine move) 1 K (unary n) (unary (d + n))
  | 0, K, hn => tracks_none (by have := slack_le .unary; omega)
  | n + 1, K, hn => by
    have hn : 10 * K ≤ n + 8 := hn
    have hprimary := tracks_primary n K hn
    refine .of_cases ?_ fun ⟨t, line⟩ ls hcovered hlength => ?_
    · rintro hK rfl hmove
      exact hprimary [] (.inr ⟨rfl, hmove⟩) hK
    have hplain := hprimary (⟨t, line⟩ :: ls) hcovered hlength
    cases t with
    | symbol s =>
      cases s with
      | minus =>
        have hminus : Tracks move tail (Expr.mapLine move) 1 (K - 1)
            ((.binary (.literal (.num 0) line) .sub · line) <$> unary n)
            ((.binary (.literal (.num 0) (move line)) .sub · (move line)) <$>
              unary (d + n)) :=
          (tracks_unary n (K - 1) (by simp only [slack]; omega)).map fun _ => rfl
        exact hminus.passed hcovered nofun (by omega) (by omega)
      | _ => exact hplain
    | _ => exact hplain

theorem tracks_primary : ∀ n K, 10 * K ≤ n + slack .primary →
    Tracks move tail (Expr.mapLine move) 1 K (primary n) (primary (d + n))
  | 0, K, hn => tracks_none (by have := slack_le .primary; omega)
  | n + 1, K, hn => by
    have hn : 10 * K ≤ n + 9 := hn
    refine .of_cases (fun _ _ hmove => tracked_nothingLeft hmove .expression)
      fun ⟨t, line⟩ ls hcovered hlength => ?_
    have hexpression := tracks_chain n .relational (K - 1) (by simp only [slack]; omega)
    cases t with
    | decimal x => exact .ok (Expr.literal (.dec x) line) (hcovered.tail nofun) (Nat.le_refl _)
    | integer k => exact .ok (Expr.literal (.num k) line) (hcovered.tail nofun) (Nat.le_refl _)
    | str s => exact .ok (Expr.literal (.ofText s) line) (hcovered.tail nofun) (Nat.le_refl _)
    | bool b => exact .ok (Expr.literal (.bool b) line) (hcovered.tail nofun) (Nat.le_refl _)
    | keyword word =>
      cases word with
      | input => exact (tracks_inputAfter line).passed hcovered nofun (Nat.le_refl _) (by omega)
      | len =>
        have hoperand := tracks_parenthesized hexpression.any
        have hlen : Tracks move tail (Expr.mapLine move) 1 (K - 1)
            ((.length · line) <$> parenthesized (chain n .relational))
            ((.length · (move line)) <$> parenthesized (chain (d + n) .relational)) :=
          hoperand.map fun _ => rfl
        exact hlen.passed hcovered nofun (by omega) (by omega)
      | _ => exact tracked_unexpected .expression _
    | kind k => exact .error ⟨.kindInExpression k, line⟩
    | identifier name =>
      have hcovered := hcovered.tail nofun
      cases ls with
      | nil =>
        obtain ⟨rfl, -⟩ := hcovered.nil
        exact .ok (Expr.var name line) hcovered (Nat.le_refl _)
      | cons l ls =>
        obtain ⟨t, line'⟩ := l
        have hvar : Tracked move tail (Expr.mapLine move) 1 (ls.length + 2)
            (.ok (.var name line, ⟨t, line'⟩ :: ls))
            (.ok (.var name (move line), (⟨t, line'⟩ :: ls).map (Lexeme.mapLine move) ++ tail)) :=
          .ok (Expr.var name line) hcovered (Nat.le_refl _)
        rw [List.length_cons] at hlength
        cases t with
        | symbol s =>
          cases s with
          | leftParen =>
            have hargs := tracks_commaSeparated (d := d) hexpression .rightParen n (by omega)
            exact (hargs.map (map_call name line)).passed hcovered nofun (by omega)
              (by rw [List.length_cons]; omega)
          | _ => exact hvar
        | _ => exact hvar
    | symbol s =>
      cases s with
      | leftParen => exact (tracks_closed hexpression).passed hcovered nofun (by omega) (by omega)
      | _ => exact tracked_unexpected .expression _
    | _ => exact tracked_unexpected .expression _

end

theorem tracks_expression (n : Nat) (hn : 10 * K ≤ n + 1) :
    Tracks move tail (Expr.mapLine move) 1 K (expression n) (expression (d + n)) :=
  tracks_chain n .relational K hn

/-! ### Statements -/

theorem map_function (name : String) (params : List String) (line : Nat) (ss : List Statement) :
    Statement.function name params (ss.map (Statement.mapLine move)) (move line) =
      (Statement.function name params ss line).mapLine move := by
  rw [Statement.mapLine, Statement.mapLines_eq]

theorem map_loop (init : Statement) (condition : Expr) (update : Statement) (line : Nat)
    (ss : List Statement) :
    Statement.loop (init.mapLine move) (condition.mapLine move) (update.mapLine move)
        (ss.map (Statement.mapLine move)) (move line) =
      (Statement.loop init condition update ss line).mapLine move := by
  rw [Statement.mapLine, Statement.mapLines_eq]

theorem map_choice (condition : Expr) (ss : List Statement) (rest : Otherwise) (line : Nat) :
    Choice.mk (condition.mapLine move) (ss.map (Statement.mapLine move)) (rest.mapLine move)
        (move line) =
      (Choice.mk condition ss rest line).mapLine move := by
  rw [Choice.mapLine, Statement.mapLines_eq]

theorem map_block (ss : List Statement) :
    Otherwise.block (ss.map (Statement.mapLine move)) = (Otherwise.block ss).mapLine move := by
  rw [Otherwise.mapLine, Statement.mapLines_eq]

section Statements

variable {read read' : Parse Statement}
  (hread : Tracks move tail (Statement.mapLine move) 1 K read read')

include hread

/-- A statement and those that a reader of more of them adds to it. -/
theorem tracks_sequence {L : Nat} (hL : L ≤ K) {x y : Parse (List Statement)}
    (hx : Tracks move tail (List.map (Statement.mapLine move)) 0 (L - 1) x y) :
    Tracks move tail (List.map (Statement.mapLine move)) 0 L
      (do
        let first ← read
        let rest ← x
        return first :: rest)
      (do
        let first ← read'
        let rest ← y
        return first :: rest) := by
  refine ((hread.mono (Nat.le_refl 1) hL).bind_shorter (L := L - 1) (by omega) fun s => ?_).any
  exact hx.bind fun ss => tracks_pure (s :: ss)

theorem tracks_blockAfter (line : Nat) : ∀ n L, L ≤ n → L ≤ K →
    Tracks move tail (List.map (Statement.mapLine move)) 0 L (blockAfter read line n)
      (blockAfter read' (move line) (d + n))
  | 0, L, hn, _ => tracks_none (by omega)
  | n + 1, L, hn, hL => by
    have ih := tracks_blockAfter line n (L - 1) (by omega) (by omega)
    refine .of_cases (fun _ _ _ => .error ⟨.unexpectedEnd (.symbol .rightBrace), line⟩)
      fun ⟨t, l⟩ ls hcovered hlength => ?_
    have hstatement := tracks_sequence hread hL ih (⟨t, l⟩ :: ls) hcovered hlength
    cases t with
    | symbol s =>
      cases s with
      | semicolon => exact ih.passed hcovered nofun (by omega) (by omega)
      | rightBrace => exact .ok [] (hcovered.tail nofun) (by omega)
      | _ => exact hstatement
    | endOfInput => exact .error ⟨.unexpectedEnd (.symbol .rightBrace), l⟩
    | _ => exact hstatement

theorem tracks_block (n : Nat) (hn : K ≤ n) :
    Tracks move tail (List.map (Statement.mapLine move)) 0 K (block read n)
      (block read' (d + n)) :=
  (tracks_expect .leftBrace).any.bind fun line =>
    tracks_blockAfter hread line n K hn (Nat.le_refl K)

mutual

theorem tracks_choice : ∀ n L, 10 * L ≤ n → L ≤ K → ∀ line,
    Tracks move tail (Choice.mapLine move) 0 L (choice read n line)
      (choice read' (d + n) (move line))
  | 0, L, hn, _, _ => tracks_none (by omega)
  | n + 1, L, hn, hL, line => by
    refine (tracks_expression n hn).any.bind ?_
    intro condition
    refine (tracks_block (hread.mono (Nat.le_refl 1) hL) n (by omega)).bind fun body => ?_
    refine (tracks_otherwise n L hn hL).bind fun rest => ?_
    rw [map_choice]
    exact tracks_pure (Choice.mk condition body rest line)

theorem tracks_otherwise : ∀ n L, 10 * L ≤ n + 1 → L ≤ K →
    Tracks move tail (Otherwise.mapLine move) 0 L (otherwise read n)
      (otherwise read' (d + n))
  | 0, L, hn, _ => tracks_none (by omega)
  | n + 1, L, hn, hL => by
    have helseIf : ∀ line, Tracks move tail (Otherwise.mapLine move) 0 (L - 1)
        (.elseIf <$> choice read n line) (.elseIf <$> choice read' (d + n) (move line)) :=
      fun line => (tracks_choice n (L - 1) (by omega) (by omega) line).map fun _ => rfl
    have hblock : Tracks move tail (Otherwise.mapLine move) 0 (L - 1) (.block <$> block read n)
        (.block <$> block read' (d + n)) :=
      (tracks_block (hread.mono (Nat.le_refl 1) (by omega)) n (by omega)).map map_block
    refine .of_cases ?_ fun ⟨t, line⟩ ls hcovered hlength => ?_
    · rintro - rfl hmove
      exact .ok Otherwise.nothing (.inr ⟨rfl, hmove⟩) (Nat.le_refl _)
    have hnothing : Tracked move tail (Otherwise.mapLine move) 0 (ls.length + 1)
        (.ok (.nothing, ⟨t, line⟩ :: ls))
        (.ok (.nothing, (⟨t, line⟩ :: ls).map (Lexeme.mapLine move) ++ tail)) :=
      .ok Otherwise.nothing hcovered (Nat.le_refl _)
    cases t with
    | keyword word =>
      cases word with
      | elseIf => exact (helseIf line).passed hcovered nofun (by omega) (by omega)
      | otherwise =>
        have hlast := hblock.passed (i := 0) hcovered nofun (by omega) (Nat.le_succ ls.length)
        have hcovered := hcovered.tail nofun
        cases ls with
        | nil =>
          obtain ⟨rfl, -⟩ := hcovered.nil
          exact hlast
        | cons l ls =>
          obtain ⟨t, line⟩ := l
          rw [List.length_cons] at hlength
          cases t with
          | keyword word =>
            cases word with
            | cond =>
              exact (helseIf line).passed hcovered nofun (by omega) (by rw [List.length_cons]; omega)
            | _ => exact hlast
          | _ => exact hlast
      | _ => exact hnothing
    | _ => exact hnothing

end

theorem tracks_functionAfter (n : Nat) (hn : K ≤ n) (line : Nat) :
    Tracks move tail (Statement.mapLine move) 0 K (functionAfter read n line)
      (functionAfter read' (d + n) (move line)) := by
  refine tracks_identifier.any.bind fun name => ?_
  refine (tracks_expect .leftParen).any.bind ?_
  intro _
  refine (tracks_commaSeparated tracks_identifier .rightParen n hn).bind ?_
  intro params
  refine (tracks_block hread n hn).bind fun body => ?_
  rw [List.map_id, id, map_function]
  exact tracks_pure (Statement.function name params body line)

theorem tracks_loopAfter (n : Nat) (hn : 10 * K ≤ n + 1) (line : Nat) :
    Tracks move tail (Statement.mapLine move) 0 K (loopAfter read n line)
      (loopAfter read' (d + n) (move line)) := by
  have hsign : ∀ sign, Tracks move tail move 0 K (expect sign) (expect sign) :=
    fun sign => (tracks_expect sign).any
  have hstatement := hread.any
  refine (hsign .leftParen).bind fun _ => ?_
  refine hstatement.bind fun init => ?_
  refine (hsign .semicolon).bind fun _ => ?_
  refine (tracks_expression n hn).any.bind ?_
  intro condition
  refine (hsign .semicolon).bind fun _ => ?_
  refine hstatement.bind fun update => ?_
  refine (hsign .rightParen).bind fun _ => ?_
  refine (tracks_block hread n (by omega)).bind fun body => ?_
  rw [map_loop]
  exact tracks_pure (Statement.loop init condition update body line)

theorem tracks_program : ∀ n L, L ≤ n → L ≤ K →
    Tracks move tail (List.map (Statement.mapLine move)) 0 L (program read n)
      (program read' (d + n))
  | 0, L, hn, _ => tracks_none (by omega)
  | n + 1, L, hn, hL => by
    have ih := tracks_program n (L - 1) (by omega) (by omega)
    refine .of_cases ?_ fun ⟨t, l⟩ ls hcovered hlength => ?_
    · rintro - rfl hmove
      exact .ok [] (.inr ⟨rfl, hmove⟩) (Nat.le_refl _)
    have hstatement := tracks_sequence hread hL ih (⟨t, l⟩ :: ls) hcovered hlength
    cases t with
    | symbol s =>
      cases s with
      | semicolon => exact ih.passed hcovered nofun (by omega) (by omega)
      | _ => exact hstatement
    | endOfInput => exact .ok [] hcovered (Nat.le_refl _)
    | _ => exact hstatement

end Statements

theorem tracks_initialValue (n : Nat) (hn : 10 * K ≤ n + 1) (kind : Kind) (name : String)
    (line : Nat) :
    Tracks move tail (Statement.mapLine move) 0 K (initialValue n kind name line)
      (initialValue (d + n) kind name (move line)) := by
  have hvalue : Tracks move tail (Statement.mapLine move) 1 K
      ((.assignTyped name kind · line) <$> expression n)
      ((.assignTyped name kind · (move line)) <$> expression (d + n)) :=
    (tracks_expression n hn).map fun _ => rfl
  refine .of_cases ?_ fun ⟨t, l⟩ ls hcovered hlength => ?_
  · rintro - rfl hmove
    exact .ok (Statement.declare name kind line) (.inr ⟨rfl, hmove⟩) (Nat.le_refl _)
  have hnone : Tracked move tail (Statement.mapLine move) 0 (ls.length + 1)
      (.ok (.declare name kind line, ⟨t, l⟩ :: ls))
      (.ok (.declare name kind (move line), (⟨t, l⟩ :: ls).map (Lexeme.mapLine move) ++ tail)) :=
    .ok (Statement.declare name kind line) hcovered (Nat.le_refl _)
  cases t with
  | symbol s =>
    cases s with
    | equals => exact hvalue.passed hcovered nofun (by omega) (by omega)
    | _ => exact hnone
  | _ => exact hnone

theorem tracks_declarationAfter (n : Nat) (hn : 10 * K ≤ n + 1) (kind : Kind) (line : Nat) :
    Tracks move tail (Statement.mapLine move) 0 K (declarationAfter n kind line)
      (declarationAfter (d + n) kind (move line)) :=
  tracks_identifier.any.bind fun name =>
    tracks_initialValue n hn kind name line

theorem tracks_statement : ∀ n K, 10 * K ≤ n →
    Tracks move tail (Statement.mapLine move) 1 K (statement n) (statement (d + n))
  | 0, K, hn => tracks_none (by omega)
  | n + 1, K, hn => by
    have hread := tracks_statement n (K - 1) (by omega)
    have hexpression : Tracks move tail (Expr.mapLine move) 1 (K - 1) (expression n)
        (expression (d + n)) := tracks_expression n (by omega)
    have halone : Tracks move tail (Statement.mapLine move) 1 K
        ((fun e => .expr e e.line) <$> expression n)
        ((fun e => .expr e e.line) <$> expression (d + n)) :=
      (tracks_expression n hn).map fun e => by rw [Expr.line_mapLine, Statement.mapLine]
    refine .of_cases ?_ fun ⟨t, line⟩ ls hcovered hlength => ?_
    · rintro hK rfl hmove
      exact halone [] (.inr ⟨rfl, hmove⟩) hK
    have hstatement := halone (⟨t, line⟩ :: ls) hcovered hlength
    cases t with
    | keyword word =>
      cases word with
      | func =>
        exact (tracks_functionAfter hread n (by omega) line).passed hcovered nofun (by omega)
          (by omega)
      | ret =>
        have hret : Tracks move tail (Statement.mapLine move) 1 (K - 1)
            ((.ret · line) <$> expression n) ((.ret · (move line)) <$> expression (d + n)) :=
          hexpression.map fun _ => rfl
        exact hret.passed hcovered nofun (by omega) (by omega)
      | print =>
        have hoperand := tracks_parenthesized hexpression.any
        have hprint : Tracks move tail (Statement.mapLine move) 1 (K - 1)
            ((.print · line) <$> parenthesized (expression n))
            ((.print · (move line)) <$> parenthesized (expression (d + n))) :=
          hoperand.map fun _ => rfl
        exact hprint.passed hcovered nofun (by omega) (by omega)
      | cond =>
        have hchoose : Tracks move tail (Statement.mapLine move) 0 (K - 1)
            (.choose <$> choice (statement n) n line)
            (.choose <$> choice (statement (d + n)) (d + n) (move line)) :=
          (tracks_choice hread n (K - 1) (by omega) (Nat.le_refl _) line).map fun _ => rfl
        exact hchoose.passed hcovered nofun (by omega) (by omega)
      | loop =>
        exact (tracks_loopAfter hread n (by omega) line).passed hcovered nofun (by omega) (by omega)
      | _ => exact hstatement
    | kind k =>
      exact (tracks_declarationAfter (K := K - 1) n (by omega) k line).passed hcovered nofun
        (by omega) (by omega)
    | identifier name =>
      have hcovered := hcovered.tail nofun
      cases ls with
      | nil =>
        obtain ⟨rfl, -⟩ := hcovered.nil
        exact hstatement
      | cons l ls =>
        obtain ⟨t, line⟩ := l
        have hassign : Tracks move tail (Statement.mapLine move) 1 (K - 1)
            ((.assign name · line) <$> expression n)
            ((.assign name · (move line)) <$> expression (d + n)) :=
          hexpression.map fun _ => rfl
        rw [List.length_cons] at hlength
        cases t with
        | symbol s =>
          cases s with
          | equals => exact hassign.passed hcovered nofun (by omega) (by rw [List.length_cons]; omega)
          | _ => exact hstatement
        | _ => exact hstatement
    | _ => exact hstatement

end Parse

/-- Parsing carries lines along and does nothing else with them. What stands behind the end of the
input does not matter. -/
theorem parse_mapLine_append (move : Nat → Nat) {ls : List Lexeme} (h : Ended ls)
    (tail : List Lexeme) :
    parse (ls.map (Lexeme.mapLine move) ++ tail) =
      ((parse ls).map (List.map (Statement.mapLine move))).mapError (SourceFault.mapLine move) := by
  have hdepth : parseDepth (ls.map (Lexeme.mapLine move) ++ tail) =
      10 * tail.length + parseDepth ls := by
    simp only [parseDepth, List.length_append, List.length_map]
    omega
  have hread : Parse.Tracks move tail (Statement.mapLine move) 1 (ls.length + 1)
      (Parse.statement (parseDepth ls)) (Parse.statement (10 * tail.length + parseDepth ls)) :=
    Parse.tracks_statement _ _ (by unfold parseDepth; omega)
  have htracked := Parse.tracks_program (d := 10 * tail.length) hread (parseDepth ls)
    (ls.length + 1) (by unfold parseDepth; omega) (Nat.le_refl _) ls (.inl h) (Nat.lt_succ_self _)
  simp only [parse, hdepth]
  generalize (Parse.program (Parse.statement (parseDepth ls)) (parseDepth ls)).run ls = first
    at htracked ⊢
  generalize (Parse.program _ _).run (ls.map (Lexeme.mapLine move) ++ tail) = second at htracked ⊢
  cases htracked <;> rfl

theorem parse_mapLine (move : Nat → Nat) {ls : List Lexeme} (h : Ended ls) :
    parse (ls.map (Lexeme.mapLine move)) =
      ((parse ls).map (List.map (Statement.mapLine move))).mapError (SourceFault.mapLine move) := by
  have hparse := parse_mapLine_append move h []
  rwa [List.append_nil] at hparse

/-- Reading never gets behind the end of the input. -/
theorem parse_append_of_ended {ls : List Lexeme} (h : Ended ls) (tail : List Lexeme) :
    parse (ls ++ tail) = parse ls := by
  have hstay : ls.map (Lexeme.mapLine id) = ls := List.map_id ls
  have hboth := parse_mapLine_append id h tail
  have halone := parse_mapLine id h
  rw [hstay] at hboth halone
  rw [hboth, ← halone]

end Skript
