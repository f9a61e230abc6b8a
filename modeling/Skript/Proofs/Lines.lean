import Skript.Proofs.GreedyGrammar

/-!
# Moving a script to other lines

Lines are only carried along: where the lexemes of a program stand on other lines, they spell the
same program with its lines moved in the same way.
-/
namespace Skript

variable (move : Nat → Nat)

def Lexeme.mapLine (l : Lexeme) : Lexeme :=
  ⟨l.token, move l.line⟩

mutual

def Expr.mapLine : Expr → Expr
  | .literal value line => .literal value (move line)
  | .var name line => .var name (move line)
  | .binary left op right line => .binary left.mapLine op right.mapLine (move line)
  | .call name arguments line => .call name (Expr.mapLines arguments) (move line)
  | .input prompt kind line => .input prompt kind (move line)
  | .length operand line => .length operand.mapLine (move line)

def Expr.mapLines : List Expr → List Expr
  | [] => []
  | e :: es => e.mapLine :: Expr.mapLines es

end

mutual

def Statement.mapLine : Statement → Statement
  | .function name params body line => .function name params (Statement.mapLines body) (move line)
  | .ret value line => .ret (value.mapLine move) (move line)
  | .print operand line => .print (operand.mapLine move) (move line)
  | .choose choice => .choose choice.mapLine
  | .loop init condition update body line =>
      .loop init.mapLine (condition.mapLine move) update.mapLine (Statement.mapLines body)
        (move line)
  | .declare name kind line => .declare name kind (move line)
  | .assignTyped name kind value line => .assignTyped name kind (value.mapLine move) (move line)
  | .assign name value line => .assign name (value.mapLine move) (move line)
  | .expr operand line => .expr (operand.mapLine move) (move line)

def Statement.mapLines : List Statement → List Statement
  | [] => []
  | s :: ss => s.mapLine :: Statement.mapLines ss

def Choice.mapLine : Choice → Choice
  | .mk condition body otherwise line =>
      .mk (condition.mapLine move) (Statement.mapLines body) otherwise.mapLine (move line)

def Otherwise.mapLine : Otherwise → Otherwise
  | .nothing => .nothing
  | .block body => .block (Statement.mapLines body)
  | .elseIf choice => .elseIf choice.mapLine

end

variable {move : Nat → Nat}

theorem Expr.mapLines_eq (es : List Expr) : mapLines move es = es.map (mapLine move) := by
  induction es with
  | nil => rfl
  | cons e es ih => rw [mapLines, ih, List.map_cons]

theorem Statement.mapLines_eq (ss : List Statement) :
    mapLines move ss = ss.map (mapLine move) := by
  induction ss with
  | nil => rfl
  | cons s ss ih => rw [mapLines, ih, List.map_cons]

@[simp] theorem Expr.line_mapLine (e : Expr) : (e.mapLine move).line = move e.line := by
  cases e <;> rfl

@[simp] theorem Statement.isOpen_mapLine (s : Statement) : (s.mapLine move).isOpen = s.isOpen := by
  cases s <;> rfl

namespace Grammar

variable {α : Type} {p rest : List Lexeme} {phrase : Phrase}

theorem EndsInName.of_mapLine (h : EndsInName (p.map (Lexeme.mapLine move))) : EndsInName p := by
  obtain ⟨name, line, hlast⟩ := h
  rw [List.getLast?_map] at hlast
  obtain ⟨⟨t, l⟩, hlexeme, hl⟩ := Option.map_eq_some_iff.1 hlast
  cases hl
  exact ⟨name, l, hlexeme⟩

theorem Stops.mapLine (h : Stops phrase p rest) :
    Stops phrase (p.map (Lexeme.mapLine move)) (rest.map (Lexeme.mapLine move)) := by
  cases rest with
  | nil => exact stops_nil
  | cons l rest =>
    constructor
    · rintro _ ⟨⟩ op hop
      exact h.operator l rfl op hop
    · rintro _ ⟨⟩ hparen hname
      exact h.call l rfl hparen hname.of_mapLine

theorem CommaSeparated.mapLine {f : α → α} {items : List (List Lexeme × α)}
    (h : CommaSeparated items p) :
    CommaSeparated (items.map (Prod.map (List.map (Lexeme.mapLine move)) f))
      (p.map (Lexeme.mapLine move)) := by
  induction h with
  | none => exact .none
  | one item => exact .one _
  | more item line _ ih =>
    rw [List.map_append]
    exact .more _ (move line) ih

theorem Listed.mapLine {params : List String} (h : Listed Name p params) :
    Listed Name (p.map (Lexeme.mapLine move)) params := by
  obtain ⟨items, hp, hitems, rfl⟩ := h
  refine ⟨_, hp.mapLine (f := id), ?_, by simp⟩
  intro moved hmoved
  obtain ⟨item, hitem, rfl⟩ := List.mem_map.1 hmoved
  obtain ⟨line, hname⟩ := hitems item hitem
  exact ⟨move line, by simp [hname, Lexeme.mapLine]⟩

theorem InputArguments.mapLine {prompt : Option String} {kind : Option Kind}
    (h : InputArguments p prompt kind) :
    InputArguments (p.map (Lexeme.mapLine move)) prompt kind := by
  cases h with
  | none => exact .none
  | prompt s line => exact .prompt s (move line)
  | promptAndKind s k l₁ l₂ l₃ => exact .promptAndKind s k (move l₁) (move l₂) (move l₃)
  | kind k line => exact .kind k (move line)

theorem Derives.mapLine {e : Expr} (h : Derives phrase p e) :
    Derives phrase (p.map (Lexeme.mapLine move)) (e.mapLine move) := by
  induction h with
  | first _ ih => exact ih.first
  | link line _ hsign _ ihp ihq =>
    rw [List.map_append]
    exact ihp.link (move line) hsign ihq
  | minus line _ ih => exact ih.minus (move line)
  | plain _ ih => exact ih.plain
  | literal line hv => exact .literal (move line) hv
  | var name line => exact .var name (move line)
  | @call p items name line l₁ l₂ hp _ ih =>
    have hitems : ∀ item ∈ items.map (Prod.map (List.map (Lexeme.mapLine move)) (Expr.mapLine move)),
        Derives .expression item.1 item.2 := by
      intro moved hmoved
      obtain ⟨item, hitem, rfl⟩ := List.mem_map.1 hmoved
      exact ih item hitem
    have hcall := Derives.call name (move line) (move l₁) (move l₂) hp.mapLine hitems
    simpa [Expr.mapLine, Expr.mapLines_eq, Lexeme.mapLine, Function.comp_def] using hcall
  | group l₁ l₂ _ ih =>
    simpa [Lexeme.mapLine] using Derives.group (move l₁) (move l₂) ih
  | input line l₁ l₂ h =>
    simpa [Lexeme.mapLine, Expr.mapLine] using
      Derives.input (move line) (move l₁) (move l₂) h.mapLine
  | length line l₁ l₂ _ ih =>
    simpa [Lexeme.mapLine, Expr.mapLine] using
      Derives.length (move line) (move l₁) (move l₂) ih

mutual

theorem DerivesStatement.mapLine : ∀ {p : List Lexeme} {s : Statement},
    DerivesStatement greedyJoin p s →
      DerivesStatement greedyJoin (p.map (Lexeme.mapLine move)) (s.mapLine move)
  | _, _, .function name line l₁ l₂ l₃ hp hb => by
    simpa [Lexeme.mapLine, Statement.mapLine] using
      DerivesStatement.function name (move line) (move l₁) (move l₂) (move l₃) hp.mapLine hb.mapLine
  | _, _, .ret line h => .ret (move line) h.mapLine
  | _, _, .print line l₁ l₂ h => by
    simpa [Lexeme.mapLine, Statement.mapLine] using
      @DerivesStatement.print greedyJoin _ _ (move line) (move l₁) (move l₂) h.mapLine
  | _, _, .choose h => .choose h.mapLine
  | _, _, .loop line l₁ l₂ l₃ l₄ hi hc hu hb => by
    simpa [Lexeme.mapLine, Statement.mapLine] using
      DerivesStatement.loop (move line) (move l₁) (move l₂) (move l₃) (move l₄) hi.mapLine hc.mapLine
        hu.mapLine hb.mapLine
  | _, _, .declare name k line l₁ => .declare name k (move line) (move l₁)
  | _, _, .assignTyped name k line l₁ l₂ h =>
    .assignTyped name k (move line) (move l₁) (move l₂) h.mapLine
  | _, _, .assign name line l₁ h => .assign name (move line) (move l₁) h.mapLine
  | _, _, .expr h => by
    simpa [Statement.mapLine] using @DerivesStatement.expr greedyJoin _ _ h.mapLine

theorem DerivesBlock.mapLine : ∀ {p : List Lexeme} {ss : List Statement},
    DerivesBlock greedyJoin p ss →
      DerivesBlock greedyJoin (p.map (Lexeme.mapLine move)) (Statement.mapLines move ss)
  | _, _, .braces l₁ l₂ h => by
    simpa [Lexeme.mapLine] using DerivesBlock.braces (move l₁) (move l₂) h.mapLine

theorem DerivesSequence.mapLine : ∀ {p : List Lexeme} {ss : List Statement},
    DerivesSequence greedyJoin p ss →
      DerivesSequence greedyJoin (p.map (Lexeme.mapLine move)) (Statement.mapLines move ss)
  | _, _, .done => .done
  | _, _, .semicolon line h => .semicolon (move line) h.mapLine
  | _, _, .statement hs hss hjoin => by
    rw [List.map_append]
    refine .statement hs.mapLine hss.mapLine fun hopen => ?_
    rw [Statement.isOpen_mapLine] at hopen
    exact (hjoin hopen).mapLine

theorem DerivesChoice.mapLine : ∀ {line : Nat} {p : List Lexeme} {c : Choice},
    DerivesChoice greedyJoin line p c →
      DerivesChoice greedyJoin (move line) (p.map (Lexeme.mapLine move)) (c.mapLine move)
  | _, _, _, .mk line h hb hr => by
    rw [List.map_append, List.map_append]
    exact .mk (move line) h.mapLine hb.mapLine hr.mapLine

theorem DerivesTail.mapLine : ∀ {p : List Lexeme} {o : Otherwise},
    DerivesTail greedyJoin p o →
      DerivesTail greedyJoin (p.map (Lexeme.mapLine move)) (o.mapLine move)
  | _, _, .nothing => .nothing
  | _, _, .elseIf h => .elseIf h.mapLine
  | _, _, .otherwiseIf l₁ h => .otherwiseIf (move l₁) h.mapLine
  | _, _, .otherwise l₁ hb => .otherwise (move l₁) hb.mapLine

end

end Grammar

end Skript
