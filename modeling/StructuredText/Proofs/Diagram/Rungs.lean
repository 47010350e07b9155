import StructuredText.Proofs.Diagram.Links

/- The assignments of a unit that are drawn, each added to what is drawn before it, and what the
   rest of the drawing leaves of them. -/
namespace StructuredText
open Drawing

/-- An assignment as it is drawn: so many levels of its value, into a drawing. -/
structure Rung where
  levels : Nat
  target : Text
  value : Expression
  before : Drawing

namespace Rung
variable (surface : Surface) (rung : Rung)

def nodes : List Nat := (drawExpression surface.inputs rung.levels rung.value rung.before).1

def after : Drawing := drawAssignment surface rung.levels rung.target rung.value rung.before

end Rung

inductive Draws (surface : Surface) : (levels : Nat) → List Statement → Drawing → Rung → Prop
  | assignment {levels : Nat} {target : Text} {value : Expression} {rest : List Statement}
      {d : Drawing} :
      Draws surface (levels + 1) (.assignment target value :: rest) d ⟨levels, target, value, d⟩
  | branch {levels : Nat} {condition : Option Expression}
      {thenBranch elseBranch : Option (List Statement)} {rest : List Statement} {d : Drawing}
      {rung : Rung} (inner : Draws surface levels (surface.drawnBranches thenBranch elseBranch)
        (drawCondition surface levels condition d) rung) :
      Draws surface (levels + 1) (.conditional condition thenBranch elseBranch :: rest) d rung
  | later {levels : Nat} {s : Statement} {rest : List Statement} {d : Drawing} {rung : Rung}
      (behind : Draws surface levels rest (drawStatement surface levels s d) rung) :
      Draws surface levels (s :: rest) d rung

section Extension
variable {d e f : Drawing}

/-- The second drawing comes from the first by adding to it and closing contacts of inputs. -/
def Drawing.Extends (d e : Drawing) : Prop := ∃ places labels, Grows places labels d e

theorem extends_drawParts (surface : Surface) (parts : List Part) (d : Drawing) :
    d.Extends (drawParts surface parts d) :=
  ⟨_, _, drawParts_grows surface parts d⟩

end Extension

section Draws
variable {surface : Surface} {levels : Nat} {statements : List Statement} {d : Drawing}
  {rung : Rung}

theorem Draws.split (draws : Draws surface levels statements d rung) : ∃ before behind,
    statements.flatMap (Statement.parts surface levels) =
      before ++ .assignment rung.levels rung.target rung.value :: behind ∧
    rung.before = drawParts surface before d := by
  induction draws with
  | @assignment levels target value rest d => exact ⟨[], _, rfl, rfl⟩
  | @branch levels condition thenBranch elseBranch rest d rung _ ih =>
    obtain ⟨before, behind, parts, place⟩ := ih
    refine ⟨condition.toList.map (.condition levels) ++ before,
      behind ++ rest.flatMap (Statement.parts surface (levels + 1)), ?_, ?_⟩
    · rw [List.flatMap_cons, Statement.parts, parts]
      simp only [List.append_assoc, List.cons_append]
    · rw [drawParts_append, drawParts_condition, place]
  | @later levels s rest d rung _ ih =>
    obtain ⟨before, behind, parts, place⟩ := ih
    refine ⟨s.parts surface levels ++ before, behind, ?_, ?_⟩
    · rw [List.flatMap_cons, parts, List.append_assoc]
    · rw [drawParts_append, ← drawStatement_eq_drawParts, place]

/-- What an assignment is drawn into comes from the drawing at the start, and what the statements
    draw in the end comes from what it leaves. -/
theorem Draws.extends (draws : Draws surface levels statements d rung) :
    d.Extends rung.before ∧ (rung.after surface).Extends
      (drawParts surface (statements.flatMap (Statement.parts surface levels)) d) := by
  obtain ⟨before, behind, parts, place⟩ := draws.split
  rw [parts, drawParts_append, ← place]
  refine ⟨?_, extends_drawParts surface behind _⟩
  rw [place]
  exact extends_drawParts surface before d

theorem Draws.wired (draws : Draws surface levels statements d rung) {origins : List Origin}
    (interface : HasInterface surface origins) (wired : d.draft.IsWired origins) :
    ∃ more, rung.before.draft.IsWired (origins ++ more) := by
  obtain ⟨before, -, -, place⟩ := draws.split
  rw [place]
  exact ⟨_, drawParts_wired before interface wired⟩

theorem Draws.target_mem (draws : Draws surface levels statements d rung) :
    rung.target ∈ statements.flatMap (assignedTargets levels) := by
  induction draws with
  | assignment => exact List.mem_append_left _ List.mem_cons_self
  | @branch levels _ thenBranch elseBranch _ _ _ _ ih =>
    refine List.mem_append_left _ ?_
    rw [assignedTargets, ← List.flatMap_append]
    rw [Surface.drawnBranches, List.flatMap_append] at ih
    rw [List.flatMap_append]
    refine (List.mem_append.mp ih).elim (List.mem_append_left _) fun mem => ?_
    split at mem
    · exact List.mem_append_right _ mem
    · contradiction
  | later _ ih => exact List.mem_append_right _ ih

/-- Where else branches are drawn, every assignment that counts for the coils is drawn. -/
theorem exists_draws (walks : surface.drawsElse = true) {name : Text}
    (mem : name ∈ statements.flatMap (assignedTargets levels)) (d : Drawing) :
    ∃ rung, Draws surface levels statements d rung ∧ rung.target = name := by
  induction levels generalizing statements d with
  | zero =>
    obtain ⟨s, -, none⟩ := List.mem_flatMap.mp mem
    contradiction
  | succ levels ih =>
    induction statements generalizing d with
    | nil => contradiction
    | cons s rest behind =>
      rcases List.mem_append.mp mem with first | mem
      · cases s with
        | assignment target value =>
          obtain rfl := List.mem_singleton.mp first
          exact ⟨_, .assignment, rfl⟩
        | conditional condition thenBranch elseBranch =>
          rw [assignedTargets, ← List.flatMap_append] at first
          have drawn : surface.drawnBranches thenBranch elseBranch =
              thenBranch.getD [] ++ elseBranch.getD [] := by
            rw [Surface.drawnBranches, if_pos walks]
          rw [← drawn] at first
          obtain ⟨rung, inner, target⟩ := ih first (drawCondition surface levels condition d)
          exact ⟨rung, .branch inner, target⟩
        | _ => contradiction
      · obtain ⟨rung, later, target⟩ := behind mem (drawStatement surface (levels + 1) s d)
        exact ⟨rung, .later later, target⟩

end Draws

section Wires
variable {surface : Surface} {rung : Rung}

theorem Rung.wires {origins : List Origin} (interface : HasInterface surface origins)
    (wired : rung.before.draft.IsWired origins) :
    ∃ links, Wires (links ++ joint (rung.nodes surface).getLast? (surface.coils.lookup rung.target))
        rung.before (rung.after surface) ∧
      rung.value.IsLinked (rung.nodes surface) links := by
  have drawing := drawExpression_drawing surface.inputs rung.levels rung.value rung.before
  obtain ⟨links, wires, linked⟩ := drawing.wires interface.inputs wired
  obtain ⟨wired', sources⟩ := drawing.wired interface.inputs wired
  refine ⟨links, ?_, linked⟩
  refine (wires.trans (grows_connect _ _ _) (wires_connect ?_ ?_)).further (grows_nextRung _) rfl
  · exact fun i mem => lt_of_areSources wired' sources i (List.mem_of_getLast? mem)
  · intro i mem
    rw [← wired'.length_eq]
    exact (List.getElem?_eq_some_iff.mp ((interface.append _).coils rung.target i mem)).1

end Wires

section Unit
variable {pou : Pou} {drawsElse : Bool}

def Pou.DrawsRung (pou : Pou) (drawsElse : Bool) (rung : Rung) : Prop :=
  Draws (pou.surface drawsElse).1 drawingLimit pou.statements (pou.surface drawsElse).2 rung

variable {rung : Rung} (draws : pou.DrawsRung drawsElse rung)
include draws

theorem Pou.DrawsRung.extends_draw :
    (rung.after (pou.surface drawsElse).1).Extends (pou.draw drawsElse) := by
  rw [draw_eq_drawParts]
  exact (Draws.extends draws).2

theorem Pou.DrawsRung.wired :
    ∃ more, rung.before.draft.IsWired (pou.interfaceOrigins ++ more) :=
  Draws.wired draws (surface_hasInterface pou drawsElse) (surface_wired pou drawsElse)

/-- The edges of an assignment stay together in the diagram, behind the earlier ones and before the
    later ones. -/
theorem Pou.DrawsRung.wires : ∃ added later links,
    (rung.after (pou.surface drawsElse).1).draft.edges = rung.before.draft.edges ++ added ∧
      (pou.draw drawsElse).draft.edges =
        (rung.after (pou.surface drawsElse).1).draft.edges ++ later ∧
      rung.value.IsLinked (rung.nodes (pou.surface drawsElse).1) links ∧
      List.Forall₂ (pou.draw drawsElse).draft.diagram.Joins added (links ++
        joint (rung.nodes (pou.surface drawsElse).1).getLast?
          ((pou.surface drawsElse).1.coils.lookup rung.target)) := by
  obtain ⟨more, wired⟩ := draws.wired
  obtain ⟨links, ⟨added, edges, joins⟩, linked⟩ :=
    rung.wires ((surface_hasInterface pou drawsElse).append more) wired
  obtain ⟨places, labels, grows⟩ := draws.extends_draw
  obtain ⟨later, rest⟩ := grows.edges
  exact ⟨added, later, links, edges, rest.symm, linked,
    joins.imp fun _ _ joined => grows.joins joined⟩

end Unit
end StructuredText
