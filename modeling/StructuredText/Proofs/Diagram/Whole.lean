import StructuredText.Proofs.Conditional.Limits
import StructuredText.Proofs.Diagram.Growth

/- Drawing without a limit to nesting.  The limited drawing is the same unless an expression is too
   high for the conditionals around it, and of those that are read from a source only a long chain
   of one connective is. -/
namespace StructuredText

def drawWholeExpression (inputs : List (Text × Nat)) : Expression → Drawing → List Nat × Drawing
  | .negation operand, d =>
    let (nodes, d) := drawWholeExpression inputs operand d
    (nodes, d.closeFirst nodes)
  | .connective op left right, d =>
    let (lefts, d) := drawWholeExpression inputs left d
    let (rights, d) := drawWholeExpression inputs right d
    (lefts ++ rights, if op = .and then d.connect lefts.getLast? rights.head? else d)
  | e, d => drawExpression inputs 1 e d

def drawWholeCondition (surface : Surface) (condition : Option Expression) (d : Drawing) :
    Drawing :=
  match condition with
  | none => d
  | some e => (drawWholeExpression surface.inputs e d).2.nextRung

mutual
def drawWholeStatement (surface : Surface) : Statement → Drawing → Drawing
  | .assignment target value, d =>
    let (nodes, d) := drawWholeExpression surface.inputs value d
    (d.connect nodes.getLast? (surface.coils.lookup target)).nextRung
  | .conditional condition thenBranch elseBranch, d =>
    let d := drawWholeCondition surface condition d
    let d := drawWholeBranch surface thenBranch d
    if surface.drawsElse then drawWholeBranch surface elseBranch d else d
  | .call target _ arguments, d => drawCall surface target arguments d
  | _, d => d

def drawWholeBranch (surface : Surface) : Option (List Statement) → Drawing → Drawing
  | none, d => d
  | some branch, d => drawWholeAll surface branch d

def drawWholeAll (surface : Surface) : List Statement → Drawing → Drawing
  | [], d => d
  | s :: rest, d => drawWholeAll surface rest (drawWholeStatement surface s d)
end

mutual
def Statement.targets : Statement → List Text
  | .assignment target _ => [target]
  | .conditional _ thenBranch elseBranch =>
    Statement.branchTargets thenBranch ++ Statement.branchTargets elseBranch
  | _ => []

def Statement.branchTargets : Option (List Statement) → List Text
  | none => []
  | some branch => Statement.allTargets branch

def Statement.allTargets : List Statement → List Text
  | [] => []
  | s :: rest => s.targets ++ Statement.allTargets rest
end

namespace Pou

def wholeCoilNames (pou : Pou) : List Text :=
  ((pou.declared.filter fun v => (v.role = .output || v.role = .internal) &&
    (Statement.allTargets pou.statements).contains v.name).map (·.name)).eraseDups

def wholeSurface (pou : Pou) (drawsElse : Bool) : Surface × Drawing :=
  let inputNames := pou.inputs.map (·.name)
  let draft := Draft.empty.addAll
    ((.unit, pou.blockSymbol) :: inputNodes inputNames ++ coilNodes pou.wholeCoilNames)
  (⟨pou, (numberedFrom 1 inputNames).reverse,
    numberedFrom (1 + inputNames.length) pou.wholeCoilNames, drawsElse⟩,
    { Drawing.start with draft })

def drawWhole (pou : Pou) (drawsElse : Bool) : Drawing :=
  let (surface, d) := pou.wholeSurface drawsElse
  drawWholeAll surface pou.statements d

end Pou

def Layout.wholeDiagram? (layout : Layout) (pou : Pou) : Option (Diagram Position) :=
  let d := pou.drawWhole layout.drawsElse
  if d.isWritable then some (d.draft.diagram.mapPlaces layout.position) else none

mutual
/-- The expressions that are drawn, each with the number of conditionals around it. -/
def Statement.drawn (drawsElse : Bool) : (around : Nat) → Statement → List (Nat × Expression)
  | around, .assignment _ value => [(around, value)]
  | around, .conditional condition thenBranch elseBranch =>
    condition.toList.map (around, ·) ++ Statement.branchDrawn drawsElse (around + 1) thenBranch ++
      if drawsElse then Statement.branchDrawn drawsElse (around + 1) elseBranch else []
  | _, _ => []

def Statement.branchDrawn (drawsElse : Bool) :
    (around : Nat) → Option (List Statement) → List (Nat × Expression)
  | _, none => []
  | around, some branch => Statement.allDrawn drawsElse around branch

def Statement.allDrawn (drawsElse : Bool) :
    (around : Nat) → List Statement → List (Nat × Expression)
  | _, [] => []
  | around, s :: rest => s.drawn drawsElse around ++ Statement.allDrawn drawsElse around rest
end

def Pou.drawn (pou : Pou) (drawsElse : Bool) : List (Nat × Expression) :=
  Statement.allDrawn drawsElse 0 pou.statements

section Expression
variable (inputs : List (Text × Nat)) {levels : Nat} {e : Expression}

theorem drawExpression_whole (enough : e.height ≤ levels) (d : Drawing) :
    drawExpression inputs levels e d = drawWholeExpression inputs e d := by
  induction levels generalizing e d with
  | zero => exact absurd enough (Nat.not_le_of_lt e.height_pos)
  | succ levels ih =>
    cases e with
    | literal value => cases value <;> rfl
    | «variable» name => rfl
    | negation operand =>
      rw [drawExpression, drawWholeExpression, ih (Nat.le_of_succ_le_succ enough)]
    | connective op left right =>
      obtain ⟨first, second⟩ := Nat.max_le.mp (Nat.le_of_succ_le_succ enough)
      simp only [drawExpression, drawWholeExpression, ih first, ih second]
    | comparison op left right => rfl
    | call name arguments => rfl

end Expression

def Drawing.Notes (noted : Remark → Prop) (d d' : Drawing) : Prop :=
  ∀ r, r ∈ d'.remarks ↔ r ∈ d.remarks ∨ noted r

namespace Drawing.Notes
variable {noted more : Remark → Prop} {d e f : Drawing}

theorem of_remarks (none : ∀ r, ¬ noted r) (same : e.remarks = d.remarks) : Notes noted d e := by
  intro r
  rw [same]
  exact ⟨Or.inl, fun new => new.resolve_right (none r)⟩

theorem trans (first : Notes noted d e) (second : Notes more e f) :
    Notes (fun r => noted r ∨ more r) d f := by
  intro r
  rw [second, first, or_assoc]

theorem congr (notes : Notes noted d e) (same : ∀ r, noted r ↔ more r) : Notes more d e := by
  intro r
  rw [notes, same]

theorem further (notes : Notes noted d e) (same : f.remarks = e.remarks) : Notes noted d f := by
  intro r
  rw [same, notes]

end Drawing.Notes

theorem notes_remark (d : Drawing) (r : Remark) : Drawing.Notes (· = r) d (d.remark r) := by
  intro other
  simp [Drawing.remark]

theorem remarks_connect (d : Drawing) (source target : Option Nat) :
    (d.connect source target).remarks = d.remarks := by
  unfold Drawing.connect
  split <;> rfl

theorem remarks_closeFirst (d : Drawing) (nodes : List Nat) :
    (d.closeFirst nodes).remarks = d.remarks := by
  unfold Drawing.closeFirst
  split <;> rfl

theorem LeafDrawing.height {inputs : List (Text × Nat)} {e : Expression} {d : Drawing}
    {drawn : List Nat × Drawing} (leaf : LeafDrawing inputs e d drawn) : e.height = 1 := by
  cases leaf with
  | silent unseen => rfl
  | known found => rfl
  | fresh unknown shape => cases e <;> first | rfl | contradiction

theorem LeafDrawing.remarks {inputs : List (Text × Nat)} {e : Expression} {d : Drawing}
    {drawn : List Nat × Drawing} (leaf : LeafDrawing inputs e d drawn) :
    drawn.2.remarks = d.remarks := by
  cases leaf <;> rfl

def Expression.Notes (levels : Nat) (e : Expression) (r : Remark) : Prop :=
  levels < e.height ∧ r = .expressionNotDrawn

theorem ExpressionDrawing.notes {inputs : List (Text × Nat)} {levels : Nat} {e : Expression}
    {d : Drawing} {drawn : List Nat × Drawing}
    (drawing : ExpressionDrawing inputs levels e d drawn) :
    Drawing.Notes (e.Notes levels) d drawn.2 := by
  have joined {levels : Nat} (op : Connective) (left right : Expression) (r : Remark) :
      left.Notes levels r ∨ right.Notes levels r ↔
        (Expression.connective op left right).Notes (levels + 1) r := by
    rw [Expression.Notes, Expression.Notes, Expression.Notes, Expression.height,
      Nat.succ_lt_succ_iff, lt_max_iff, or_and_right]
  induction drawing with
  | cut =>
    refine (notes_remark _ _).congr fun r => ?_
    rw [Expression.Notes, and_iff_right (Expression.height_pos _)]
  | leaf leaf =>
    refine .of_remarks (fun r noted => ?_) leaf.remarks
    rw [Expression.Notes, leaf.height] at noted
    exact absurd noted.1 (by omega)
  | negation _ ih =>
    refine (ih.further (remarks_closeFirst _ _)).congr fun r => ?_
    rw [Expression.Notes, Expression.Notes, Expression.height, Nat.succ_lt_succ_iff]
  | or _ _ first second => exact (first.trans second).congr (joined _ _ _)
  | and _ _ first second =>
    exact ((first.trans second).further (remarks_connect _ _ _)).congr (joined _ _ _)

def Part.Notes : Part → Remark → Prop
  | .assignment levels _ e, r | .condition levels e, r => e.Notes levels r
  | .call .., _ => False
  | .cutOff, r => r = .statementNotDrawn

theorem Part.notes (surface : Surface) (part : Part) (d : Drawing) :
    Drawing.Notes part.Notes d (part.draw surface d) := by
  have drawing := part.drawing surface d
  generalize part.draw surface d = d' at drawing ⊢
  cases drawing with
  | assignment inner => exact inner.notes.further (remarks_connect _ _ _)
  | condition inner => exact inner.notes.further rfl
  | timer typed => exact .of_remarks (fun _ => id) rfl
  | call untyped => exact .of_remarks (fun _ => id) rfl
  | cutOff => exact notes_remark _ _

theorem drawParts_notes (surface : Surface) (parts : List Part) (d : Drawing) :
    Drawing.Notes (fun r => ∃ part ∈ parts, part.Notes r) d (drawParts surface parts d) := by
  induction parts generalizing d with
  | nil => exact .of_remarks (by simp) rfl
  | cons part rest ih =>
    exact ((part.notes surface d).trans (ih _)).congr fun r => by simp

section Branches
variable (drawsElse : Bool) (around : Nat)

theorem Statement.allTargets_eq (statements : List Statement) :
    allTargets statements = statements.flatMap targets := by
  induction statements with
  | nil => rfl
  | cons s rest ih => rw [allTargets, ih, List.flatMap_cons]

theorem Statement.branchTargets_eq (branch : Option (List Statement)) :
    branchTargets branch = (branch.getD []).flatMap targets := by
  cases branch with
  | none => rfl
  | some statements => exact allTargets_eq statements

theorem Statement.allDrawn_eq (statements : List Statement) :
    allDrawn drawsElse around statements = statements.flatMap (drawn drawsElse around) := by
  induction statements with
  | nil => rfl
  | cons s rest ih => rw [allDrawn, ih, List.flatMap_cons]

theorem Statement.branchDrawn_eq (branch : Option (List Statement)) :
    branchDrawn drawsElse around branch = (branch.getD []).flatMap (drawn drawsElse around) := by
  cases branch with
  | none => rfl
  | some statements => exact allDrawn_eq drawsElse around statements

theorem Statement.blockNesting_lt_of_mem_branch (branch : Option (List Statement)) {s : Statement}
    (mem : s ∈ branch.getD []) : s.blockNesting < branchBlockNesting branch := by
  cases branch with
  | none => contradiction
  | some statements => exact Nat.lt_succ_of_le (blockNesting_le_of_mem mem)

variable (surface : Surface)

theorem Statement.drawn_conditional (condition : Option Expression)
    (thenBranch elseBranch : Option (List Statement)) :
    (Statement.conditional condition thenBranch elseBranch).drawn surface.drawsElse around =
      condition.toList.map (around, ·) ++ (surface.drawnBranches thenBranch elseBranch).flatMap
        (drawn surface.drawsElse (around + 1)) := by
  rw [drawn, branchDrawn_eq, branchDrawn_eq, Surface.drawnBranches, List.flatMap_append,
    List.append_assoc]
  cases surface.drawsElse <;> rfl

theorem drawWholeAll_append (first second : List Statement) (d : Drawing) :
    drawWholeAll surface (first ++ second) d =
      drawWholeAll surface second (drawWholeAll surface first d) := by
  induction first generalizing d with
  | nil => rfl
  | cons s rest ih => exact ih _

theorem drawWholeBranch_eq (branch : Option (List Statement)) (d : Drawing) :
    drawWholeBranch surface branch d = drawWholeAll surface (branch.getD []) d := by
  cases branch <;> rfl

theorem drawWholeStatement_conditional (condition : Option Expression)
    (thenBranch elseBranch : Option (List Statement)) (d : Drawing) :
    drawWholeStatement surface (.conditional condition thenBranch elseBranch) d =
      drawWholeAll surface (surface.drawnBranches thenBranch elseBranch)
        (drawWholeCondition surface condition d) := by
  rw [drawWholeStatement, drawWholeBranch_eq, drawWholeBranch_eq, Surface.drawnBranches,
    drawWholeAll_append]
  cases surface.drawsElse <;> rfl

theorem blockNesting_lt_of_mem_drawnBranches (condition : Option Expression)
    {thenBranch elseBranch : Option (List Statement)} {s : Statement}
    (mem : s ∈ surface.drawnBranches thenBranch elseBranch) :
    s.blockNesting < (Statement.conditional condition thenBranch elseBranch).blockNesting := by
  rw [Statement.blockNesting]
  rcases List.mem_append.mp mem with first | second
  · exact Nat.lt_of_lt_of_le (Statement.blockNesting_lt_of_mem_branch _ first) (Nat.le_max_left ..)
  · split at second
    · exact Nat.lt_of_lt_of_le (Statement.blockNesting_lt_of_mem_branch _ second)
        (Nat.le_max_right ..)
    · contradiction

end Branches

section Statements
variable (surface : Surface)

theorem drawAll_whole {levels : Nat} {statements : List Statement}
    (each : ∀ s ∈ statements, ∀ d,
      drawStatement surface levels s d = drawWholeStatement surface s d)
    (d : Drawing) : drawAll surface levels statements d = drawWholeAll surface statements d := by
  induction statements generalizing d with
  | nil => rfl
  | cons s rest ih =>
    obtain ⟨here, later⟩ := List.forall_mem_cons.mp each
    rw [drawWholeAll, ← here, ← ih later]
    rfl

theorem drawCondition_whole {levels : Nat} {condition : Option Expression}
    (low : ∀ e ∈ condition, e.height ≤ levels) (d : Drawing) :
    drawCondition surface levels condition d = drawWholeCondition surface condition d := by
  cases condition with
  | none => rfl
  | some e => rw [drawCondition, drawWholeCondition, drawExpression_whole _ (low e rfl)]

/-- Each level that is used up around an expression is one of the conditionals around it. -/
theorem drawStatement_whole {levels : Nat} (around : Nat) {s : Statement}
    (shallow : s.blockNesting < levels) (low : ∀ entry ∈ s.drawn surface.drawsElse around,
      entry.1 + entry.2.height < levels + around) (d : Drawing) :
    drawStatement surface levels s d = drawWholeStatement surface s d := by
  induction levels generalizing s around d with
  | zero => contradiction
  | succ levels ih =>
    cases s with
    | assignment target value =>
      have enough : value.height ≤ levels := by
        have : around + value.height < levels + 1 + around := low _ (List.mem_singleton_self _)
        omega
      rw [drawStatement, drawAssignment, drawWholeStatement, drawExpression_whole _ enough]
    | conditional condition thenBranch elseBranch =>
      rw [drawStatement_conditional, drawWholeStatement_conditional]
      rw [Statement.drawn_conditional, List.forall_mem_append] at low
      rw [drawCondition_whole surface (fun e mem => ?_), drawAll_whole surface fun s mem d => ?_]
      · have deeper := blockNesting_lt_of_mem_drawnBranches surface condition mem
        refine @ih (around + 1) s (by omega) (fun entry drawn => ?_) d
        have := low.2 entry (List.mem_flatMap.mpr ⟨s, mem, drawn⟩)
        omega
      · have : around + e.height < levels + 1 + around :=
          low.1 (around, e) (List.mem_map.mpr ⟨e, Option.mem_toList.mpr mem, rfl⟩)
        omega
    | call target name arguments => rfl
    | forLoop body => rfl
    | whileLoop condition body => rfl
    | ret value => rfl

/-- Some expression is too high for what is left of a number of levels. -/
def IsCut (levels : Nat) (drawn : List (Nat × Expression)) : Prop :=
  ∃ entry ∈ drawn, levels ≤ entry.1 + entry.2.height

instance (levels : Nat) (drawn : List (Nat × Expression)) : Decidable (IsCut levels drawn) :=
  inferInstanceAs (Decidable (∃ entry ∈ drawn, levels ≤ entry.1 + entry.2.height))

theorem isCut_singleton {levels : Nat} {entry : Nat × Expression} :
    IsCut levels [entry] ↔ levels ≤ entry.1 + entry.2.height := by
  simp [IsCut]

theorem isCut_append {levels : Nat} {first second : List (Nat × Expression)} :
    IsCut levels (first ++ second) ↔ IsCut levels first ∨ IsCut levels second := by
  simp only [IsCut, List.mem_append, or_and_right, exists_or]

theorem exists_notes_flatMap {levels total : Nat} {drawn : Statement → List (Nat × Expression)}
    {statements : List Statement} {r : Remark}
    (each : ∀ s ∈ statements, (∃ part ∈ s.parts surface levels, part.Notes r) ↔
      IsCut total (drawn s) ∧ r = .expressionNotDrawn) :
    (∃ part ∈ statements.flatMap (Statement.parts surface levels), part.Notes r) ↔
      IsCut total (statements.flatMap drawn) ∧ r = .expressionNotDrawn := by
  constructor
  · rintro ⟨part, mem, noted⟩
    obtain ⟨s, inside, mem⟩ := List.mem_flatMap.mp mem
    obtain ⟨⟨entry, mem, high⟩, same⟩ := (each s inside).mp ⟨part, mem, noted⟩
    exact ⟨⟨entry, List.mem_flatMap.mpr ⟨s, inside, mem⟩, high⟩, same⟩
  · rintro ⟨⟨entry, mem, high⟩, same⟩
    obtain ⟨s, inside, mem⟩ := List.mem_flatMap.mp mem
    obtain ⟨part, mem, noted⟩ := (each s inside).mpr ⟨⟨entry, mem, high⟩, same⟩
    exact ⟨part, List.mem_flatMap.mpr ⟨s, inside, mem⟩, noted⟩

/-- Of the parts of a statement whose conditionals the levels are enough for, only its expressions
    are remarked on. -/
theorem Statement.exists_notes {levels : Nat} (around : Nat) {s : Statement}
    (shallow : s.blockNesting < levels) (r : Remark) :
    (∃ part ∈ s.parts surface levels, part.Notes r) ↔
      IsCut (levels + around) (s.drawn surface.drawsElse around) ∧ r = .expressionNotDrawn := by
  induction levels generalizing s around with
  | zero => contradiction
  | succ levels ih =>
    have one (e : Expression) : e.Notes levels r ↔
        IsCut (levels + 1 + around) [(around, e)] ∧ r = .expressionNotDrawn := by
      rw [Expression.Notes, isCut_singleton, Nat.add_comm _ around, Nat.add_le_add_iff_left,
        Nat.succ_le_iff]
    cases s with
    | assignment target value =>
      rw [parts, drawn, ← one]
      simp [Part.Notes]
    | conditional condition thenBranch elseBranch =>
      have outside : (∃ part ∈ condition.toList.map (Part.condition levels), part.Notes r) ↔
          IsCut (levels + 1 + around) (condition.toList.map (around, ·)) ∧
            r = .expressionNotDrawn := by
        cases condition with
        | none => simp [IsCut]
        | some e =>
          rw [Option.toList_some, List.map_singleton, List.map_singleton, ← one]
          simp [Part.Notes]
      have inside : ∀ s ∈ surface.drawnBranches thenBranch elseBranch,
          ((∃ part ∈ s.parts surface levels, part.Notes r) ↔
            IsCut (levels + 1 + around) (s.drawn surface.drawsElse (around + 1)) ∧
              r = .expressionNotDrawn) := by
        intro s mem
        have deeper := blockNesting_lt_of_mem_drawnBranches surface condition mem
        rw [@ih (around + 1) s (by omega), ← Nat.add_assoc, Nat.add_right_comm]
      rw [parts, drawn_conditional, isCut_append, or_and_right, ← outside,
        ← exists_notes_flatMap surface inside]
      simp only [List.mem_append, or_and_right, exists_or]
    | _ => simp [parts, drawn, IsCut, Part.Notes]

theorem assignedTargets_whole {levels : Nat} {s : Statement} (shallow : s.blockNesting < levels) :
    assignedTargets levels s = s.targets := by
  induction levels generalizing s with
  | zero => contradiction
  | succ levels ih =>
    cases s with
    | conditional condition thenBranch elseBranch =>
      rw [Statement.blockNesting, Nat.lt_succ_iff, Nat.max_le] at shallow
      have branch {b : Option (List Statement)} (within : Statement.branchBlockNesting b ≤ levels) :
          (b.getD []).flatMap (assignedTargets levels) = Statement.branchTargets b := by
        rw [Statement.branchTargets_eq]
        exact List.flatMap_congr fun s mem =>
          ih (Nat.lt_of_lt_of_le (Statement.blockNesting_lt_of_mem_branch b mem) within)
      rw [assignedTargets, Statement.targets, branch shallow.1, branch shallow.2]
    | _ => rfl

end Statements

namespace Pou
variable {pou : Pou} (shallow : ∀ s ∈ pou.statements, s.blockNesting < drawingLimit)
  (drawsElse : Bool)
include shallow

theorem surface_whole : pou.surface drawsElse = pou.wholeSurface drawsElse := by
  have targets : pou.statements.flatMap (assignedTargets drawingLimit) =
      Statement.allTargets pou.statements := by
    rw [Statement.allTargets_eq]
    exact List.flatMap_congr fun s mem => assignedTargets_whole (shallow s mem)
  have names : pou.coilNames = pou.wholeCoilNames := by
    rw [coilNames, wholeCoilNames, targets]
  simp only [surface, wholeSurface, names]

theorem draw_notes : Drawing.Notes
    (fun r => IsCut drawingLimit (pou.drawn drawsElse) ∧ r = .expressionNotDrawn)
    (pou.surface drawsElse).2 (pou.draw drawsElse) := by
  have notes := drawParts_notes (pou.surface drawsElse).1 (pou.parts drawsElse)
    (pou.surface drawsElse).2
  rw [← draw_eq_drawParts] at notes
  refine notes.congr fun r => ?_
  rw [drawn, Statement.allDrawn_eq]
  exact exists_notes_flatMap _ fun s mem => s.exists_notes _ 0 (shallow s mem) r

theorem warns_iff (layout : Layout) : (∃ r ∈ layout.remarks pou, r.isWarning = true) ↔
    IsCut drawingLimit (pou.drawn layout.drawsElse) := by
  have notes := draw_notes shallow layout.drawsElse
  have start : (pou.surface layout.drawsElse).2.remarks = [] := rfl
  constructor
  · rintro ⟨r, mem, warns⟩
    rcases List.mem_append.mp mem with noted | done
    · rcases (notes r).mp noted with old | ⟨cut, -⟩
      · rw [start] at old
        contradiction
      · exact cut
    · obtain rfl := List.mem_singleton.mp done
      contradiction
  · intro cut
    exact ⟨.expressionNotDrawn, List.mem_append_left _ ((notes _).mpr (Or.inr ⟨cut, rfl⟩)), rfl⟩

theorem draw_whole (low : ¬ IsCut drawingLimit (pou.drawn drawsElse)) :
    pou.draw drawsElse = pou.drawWhole drawsElse := by
  have each : ∀ s ∈ pou.statements, ∀ d,
      drawStatement (pou.surface drawsElse).1 drawingLimit s d =
        drawWholeStatement (pou.surface drawsElse).1 s d := by
    intro s mem d
    refine drawStatement_whole _ 0 (shallow s mem) (fun entry drawn => ?_) d
    apply Nat.lt_of_not_le
    intro high
    refine low ⟨entry, ?_, high⟩
    rw [Pou.drawn, Statement.allDrawn_eq]
    exact List.mem_flatMap.mpr ⟨s, mem, drawn⟩
  rw [drawWhole, ← surface_whole shallow drawsElse]
  exact drawAll_whole _ each _

end Pou

section Read
variable {s : Statement} {drawsElse : Bool}

theorem Statement.mem_drawn_conditional {around : Nat} {condition : Option Expression}
    {thenBranch elseBranch : Option (List Statement)} {entry : Nat × Expression}
    (mem : entry ∈ (Statement.conditional condition thenBranch elseBranch).drawn drawsElse around) :
    (∃ e ∈ condition, entry = (around, e)) ∨
      ∃ s, (s ∈ thenBranch.getD [] ∨ s ∈ elseBranch.getD []) ∧
        entry ∈ s.drawn drawsElse (around + 1) := by
  rw [drawn, branchDrawn_eq, branchDrawn_eq] at mem
  rcases List.mem_append.mp mem with mem | mem
  · rcases List.mem_append.mp mem with mem | mem
    · obtain ⟨e, given, rfl⟩ := List.mem_map.mp mem
      exact Or.inl ⟨e, Option.mem_toList.mp given, rfl⟩
    · obtain ⟨s, inside, mem⟩ := List.mem_flatMap.mp mem
      exact Or.inr ⟨s, Or.inl inside, mem⟩
  · split at mem
    · obtain ⟨s, inside, mem⟩ := List.mem_flatMap.mp mem
      exact Or.inr ⟨s, Or.inr inside, mem⟩
    · contradiction

theorem around_le_of_mem_drawn {around : Nat} {entry : Nat × Expression}
    (mem : entry ∈ s.drawn drawsElse around) : entry.1 ≤ around + s.blockNesting := by
  induction s generalizing around with
  | assignment target value =>
    obtain rfl := List.mem_singleton.mp mem
    exact Nat.le_add_right ..
  | conditional condition thenBranch elseBranch first second =>
    rw [Statement.blockNesting]
    rcases Statement.mem_drawn_conditional mem with ⟨e, -, rfl⟩ | ⟨s, inside | inside, mem⟩
    · exact Nat.le_add_right ..
    · have := first s inside mem
      have := Statement.blockNesting_lt_of_mem_branch _ inside
      omega
    · have := second s inside mem
      have := Statement.blockNesting_lt_of_mem_branch _ inside
      omega
  | _ => contradiction

theorem depth_le_of_mem_drawn (found : s.IsFound) {around : Nat} {entry : Nat × Expression}
    (mem : entry ∈ s.drawn drawsElse around) : entry.2.depth ≤ expressionLimit + 1 := by
  induction s generalizing around with
  | assignment target value =>
    obtain rfl := List.mem_singleton.mp mem
    exact found.depth_le value (List.mem_singleton_self value)
  | conditional condition thenBranch elseBranch first second =>
    rcases Statement.mem_drawn_conditional mem with ⟨e, given, rfl⟩ | ⟨s, inside | inside, deeper⟩
    · exact found.depth_le e (Option.mem_toList.mpr given)
    · cases thenBranch with
      | none => contradiction
      | some branch => exact first s inside (found.of_mem_branch (Or.inl rfl) s inside) deeper
    · cases elseBranch with
      | none => contradiction
      | some branch => exact second s inside (found.of_mem_branch (Or.inr rfl) s inside) deeper
  | _ => contradiction

/-- What is drawn of a unit that was read: only the repetition of a connective has no bound. -/
theorem Pou.drawn_le {source : Text} {pou : Pou} (read : Pou.ofSource? source = some pou)
    (drawsElse : Bool) : ∀ entry ∈ pou.drawn drawsElse, entry.1 ≤ blockLimit ∧
      entry.2.height ≤ expressionLimit + 2 + entry.2.chained := by
  intro entry mem
  rw [drawn, Statement.allDrawn_eq] at mem
  obtain ⟨s, inside, mem⟩ := List.mem_flatMap.mp mem
  have around := around_le_of_mem_drawn mem
  have shallow := blockNesting_le_blockLimit read inside
  have deep := depth_le_of_mem_drawn (isFound_of_ofSource? read s inside) mem
  have high := entry.2.height_le
  exact ⟨by omega, by omega⟩

end Read

/-- What is read from a source is drawn whole, and without a warning, unless the conditionals around
    an expression and its levels come up to the limit; that they do only where one connective is
    repeated 70 times: conditionals and levels of other kinds are too few, however they are combined.
-/
theorem Layout.diagram?_whole {source : Text} {pou : Pou} (read : Pou.ofSource? source = some pou)
    (layout : Layout) :
    ((∃ r ∈ layout.remarks pou, r.isWarning = true) ↔
        IsCut drawingLimit (pou.drawn layout.drawsElse)) ∧
      (¬ IsCut drawingLimit (pou.drawn layout.drawsElse) →
        layout.diagram? pou = layout.wholeDiagram? pou) ∧
      (∀ entry ∈ pou.drawn layout.drawsElse, entry.1 ≤ blockLimit ∧
        entry.2.height ≤ expressionLimit + 2 + entry.2.chained) ∧
      (IsCut drawingLimit (pou.drawn layout.drawsElse) →
        ∃ entry ∈ pou.drawn layout.drawsElse, 70 ≤ entry.2.chained) := by
  have shallow : ∀ s ∈ pou.statements, s.blockNesting < drawingLimit := fun s mem =>
    Nat.lt_of_le_of_lt (blockNesting_le_blockLimit read mem) (by decide)
  have caps := Pou.drawn_le read layout.drawsElse
  refine ⟨Pou.warns_iff shallow layout, fun low => ?_, caps, ?_⟩
  · rw [diagram?, wholeDiagram?, Pou.draw_whole shallow layout.drawsElse low]
  · rintro ⟨entry, mem, high⟩
    obtain ⟨around, height⟩ := caps entry mem
    unfold drawingLimit at high
    unfold blockLimit at around
    unfold expressionLimit at height
    exact ⟨entry, mem, by omega⟩

def guardedChain : Text :=
  "PROGRAM P\nVAR\nx : BOOL;\nEND_VAR\nIF NOT a THEN\nx := a OR b OR c;\nEND_IF\nEND_PROGRAM".toList

theorem diagram?_whole_guardedChain : ∃ pou, Pou.ofSource? guardedChain = some pou ∧
    (pou.drawn true).map (·.1) = [0, 1] ∧ ¬ IsCut drawingLimit (pou.drawn true) ∧
      ∀ layout : Layout, layout.drawsElse = true →
        layout.diagram? pou = layout.wholeDiagram? pou := by
  have facts : (Pou.ofSource? guardedChain).any (fun pou => (pou.drawn true).map (·.1) = [0, 1] ∧
      ¬ IsCut drawingLimit (pou.drawn true)) = true := by decide +kernel
  cases read : Pou.ofSource? guardedChain with
  | none =>
    rw [read] at facts
    contradiction
  | some pou =>
    rw [read, Option.any_some, decide_eq_true_eq] at facts
    refine ⟨pou, rfl, facts.1, facts.2, fun layout drawsElse => ?_⟩
    refine (Layout.diagram?_whole read layout).2.1 ?_
    rw [drawsElse]
    exact facts.2

def wideOr : Text :=
  "PROGRAM P\nx := ".toList ++
    ((List.replicate drawingLimit "a".toList).intersperse " OR ".toList).flatten ++
      ";\nEND_PROGRAM".toList

/-- The first two of its operands are not drawn. -/
theorem diagram?_ne_wholeDiagram? : ∃ pou, Pou.ofSource? wideOr = some pou ∧
    .expressionNotDrawn ∈ Layout.standard.remarks pou ∧
      Layout.standard.diagram? pou ≠ Layout.standard.wholeDiagram? pou := by
  have facts : (Pou.ofSource? wideOr).any (fun pou =>
      .expressionNotDrawn ∈ Layout.standard.remarks pou ∧
        (Layout.standard.diagram? pou).map (·.nodes.length) ≠
          (Layout.standard.wholeDiagram? pou).map (·.nodes.length)) = true := by decide +kernel
  cases read : Pou.ofSource? wideOr with
  | none =>
    rw [read] at facts
    contradiction
  | some pou =>
    rw [read, Option.any_some, decide_eq_true_eq] at facts
    exact ⟨pou, rfl, facts.1, fun same => facts.2 (by rw [same])⟩

end StructuredText
