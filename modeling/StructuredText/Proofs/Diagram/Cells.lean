import Mathlib.Data.Prod.Lex
import StructuredText.Proofs.Diagram.Isolation
import StructuredText.Proofs.Number.Whole

/- Where nodes are drawn.  The cells between inputs and coils are taken rung by rung and from left
   to right, none of them twice, so that no node of a diagram in the standard layout hides another.
-/
namespace StructuredText

abbrev Cell := Nat ×ₗ Nat

def Cell.spot (cell : Cell) : Spot := .logic (ofLex cell).1 (ofLex cell).2

namespace Drawing

def spots (d : Drawing) : List Spot := d.draft.nodes.map (·.place)

def cursor (d : Drawing) : Cell := toLex (d.rung, d.column)

/-- The new nodes of the second drawing are in cells in order, from the cursor of the first one up
    to its own. -/
structure Advances (d d' : Drawing) : Prop where
  spots : ∃ cells : List Cell, d'.spots = d.spots ++ cells.map Cell.spot ∧
    cells.Pairwise (· < ·) ∧ ∀ cell ∈ cells, d.cursor ≤ cell ∧ cell < d'.cursor
  cursor_le : d.cursor ≤ d'.cursor

variable {d e f : Drawing}

theorem Advances.of_spots (same : e.spots = d.spots) (later : d.cursor ≤ e.cursor) :
    Advances d e :=
  ⟨⟨[], by rw [same, List.map_nil, List.append_nil], .nil, nofun⟩, later⟩

theorem Advances.refl (d : Drawing) : Advances d d := .of_spots rfl le_rfl

theorem Advances.trans (first : Advances d e) (second : Advances e f) : Advances d f := by
  obtain ⟨cells, spots, sorted, bounds⟩ := first.spots
  obtain ⟨cells', spots', sorted', bounds'⟩ := second.spots
  refine ⟨⟨cells ++ cells', ?_, ?_, ?_⟩, first.cursor_le.trans second.cursor_le⟩
  · rw [spots', spots, List.append_assoc, List.map_append]
  · refine List.pairwise_append.mpr ⟨sorted, sorted', ?_⟩
    intro cell mem cell' mem'
    exact (bounds cell mem).2.trans_le (bounds' cell' mem').1
  · intro cell mem
    rcases List.mem_append.mp mem with mem | mem
    · exact ⟨(bounds cell mem).1, (bounds cell mem).2.trans_le second.cursor_le⟩
    · exact ⟨first.cursor_le.trans (bounds' cell mem).1, (bounds' cell mem).2⟩

variable (d)

theorem advances_addLogic (symbol : Symbol) : Advances d (d.addLogic symbol).2 := by
  have later : d.cursor < (d.addLogic symbol).2.cursor :=
    Prod.Lex.toLex_lt_toLex.mpr (Or.inr ⟨rfl, Nat.lt_succ_self _⟩)
  refine ⟨⟨[d.cursor], ?_, List.pairwise_singleton _ _, ?_⟩, later.le⟩
  · exact List.map_append
  · intro cell mem
    obtain rfl := List.mem_singleton.mp mem
    exact ⟨le_rfl, later⟩

theorem advances_remark (r : Remark) : Advances d (d.remark r) := .of_spots rfl le_rfl

theorem advances_writing (es : List Expression) : Advances d (d.writing es) := .of_spots rfl le_rfl

theorem advances_nextRung : Advances d d.nextRung :=
  .of_spots rfl (Prod.Lex.toLex_le_toLex.mpr (Or.inl (Nat.lt_succ_self _)))

theorem spots_connect (source target : Option Nat) :
    (d.connect source target).spots = d.spots := by
  unfold Drawing.connect
  split
  · exact congrArg (List.map _) (nodes_connect ..)
  · rfl

theorem cursor_connect (source target : Option Nat) :
    (d.connect source target).cursor = d.cursor := by
  unfold Drawing.connect
  split <;> rfl

theorem advances_connect (source target : Option Nat) : Advances d (d.connect source target) :=
  .of_spots (d.spots_connect ..) (d.cursor_connect ..).ge

theorem advances_closeFirst (nodes : List Nat) : Advances d (d.closeFirst nodes) := by
  cases nodes with
  | nil => exact .refl d
  | cons i rest =>
    refine .of_spots ?_ le_rfl
    rw [spots, spots, Drawing.closeFirst, List.head?_cons]
    simp only [nodes_closeContact]
    exact map_closeAt_of_invariant (fun _ => rfl) _ _

end Drawing

open Drawing

theorem ExpressionDrawing.advances {inputs : List (Text × Nat)} {levels : Nat} {e : Expression}
    {d : Drawing} {drawn : List Nat × Drawing} (drawing : ExpressionDrawing inputs levels e d drawn) :
    Advances d drawn.2 := by
  induction drawing with
  | cut => exact advances_remark _ _
  | leaf leaf =>
    cases leaf with
    | silent => exact .refl _
    | known => exact .refl _
    | fresh => exact (advances_writing _ _).trans (advances_addLogic _ _)
  | negation _ ih => exact ih.trans (advances_closeFirst _ _)
  | or _ _ first second => exact first.trans second
  | and _ _ first second => exact (first.trans second).trans (advances_connect _ _ _)

theorem Part.advances (surface : Surface) (part : Part) (d : Drawing) :
    Advances d (part.draw surface d) := by
  have drawing := part.drawing surface d
  generalize part.draw surface d = d' at drawing ⊢
  cases drawing with
  | assignment inner =>
    exact (inner.advances.trans (advances_connect _ _ _)).trans (advances_nextRung _)
  | condition inner => exact inner.advances.trans (advances_nextRung _)
  | timer => exact (advances_addLogic _ _).trans (advances_nextRung _)
  | call =>
    exact ((advances_writing _ _).trans (advances_addLogic _ _)).trans (advances_nextRung _)
  | cutOff => exact advances_remark _ _

theorem drawParts_advances (surface : Surface) (parts : List Part) (d : Drawing) :
    Advances d (drawParts surface parts d) := by
  induction parts generalizing d with
  | nil => exact .refl d
  | cons part rest ih => exact (part.advances surface d).trans (ih _)

section Unit
variable (pou : Pou) (drawsElse : Bool)

def Pou.interfaceSpots : List Spot :=
  .unit :: (List.range pou.inputs.length).map .input ++ (List.range pou.coilNames.length).map .coil

theorem spots_surface : (pou.surface drawsElse).2.spots = pou.interfaceSpots := by
  have rows {α : Type} (place : Nat → Spot) (content : Text → α) (names : List Text) :
      (names.mapIdx fun row name => (place row, content name)).map (·.1) =
        (List.range names.length).map place := by
    apply List.ext_getElem <;> simp
  have all := (Draft.empty : Draft Spot).map_addAll ((.unit, pou.blockSymbol) ::
    inputNodes (pou.inputs.map (·.name)) ++ coilNodes pou.coilNames) Prod.fst
  refine all.trans ?_
  rw [inputNodes, coilNodes, List.cons_append, List.map_cons, List.map_append, rows, rows,
    List.length_map]
  rfl

theorem spots_draw : ∃ cells : List Cell, (pou.draw drawsElse).spots =
    pou.interfaceSpots ++ cells.map Cell.spot ∧ cells.Pairwise (· < ·) := by
  have advances := drawParts_advances (pou.surface drawsElse).1 (pou.parts drawsElse)
    (pou.surface drawsElse).2
  rw [← draw_eq_drawParts] at advances
  obtain ⟨cells, spots, sorted, -⟩ := advances.spots
  rw [spots_surface] at spots
  exact ⟨cells, spots, sorted⟩

theorem nodup_interfaceSpots : pou.interfaceSpots.Nodup := by
  have column {place : Nat → Spot} (injective : Function.Injective place) (rows : Nat) :
      ((List.range rows).map place).Nodup := List.nodup_range.map injective
  have inputs := column (fun _ _ => Spot.input.inj) pou.inputs.length
  have coils := column (fun _ _ => Spot.coil.inj) pou.coilNames.length
  refine List.nodup_cons.mpr ⟨?_, inputs.append coils ?_⟩
  · simp
  · intro spot left right
    obtain ⟨row, -, rfl⟩ := List.mem_map.mp left
    simp at right

theorem nodup_spots : (pou.draw drawsElse).spots.Nodup := by
  obtain ⟨cells, spots, sorted⟩ := spots_draw pou drawsElse
  have injective : Function.Injective Cell.spot := by
    intro cell other same
    exact ofLex.injective (Prod.ext (Spot.logic.inj same).1 (Spot.logic.inj same).2)
  rw [spots]
  refine (nodup_interfaceSpots pou).append (sorted.nodup.map injective) ?_
  intro spot left right
  obtain ⟨cell, -, rfl⟩ := List.mem_map.mp right
  simp [Pou.interfaceSpots, Cell.spot] at left

end Unit

def Spot.size : Spot → Nat
  | .unit => 0
  | .input row | .coil row => row
  | .logic rung column => max rung column

def wholeRaster : Raster Nat := ⟨100, 300, 800, 1000, 100, 100, 150⟩

/-- The columns of the standard layout never meet. -/
theorem point_wholeRaster_injective : Function.Injective wholeRaster.point := by
  intro spot other same
  cases spot <;> cases other <;>
    simp only [Raster.point, Raster.rowY, wholeRaster, Point.mk.injEq, Nat.cast_id] at same <;>
    grind

theorem Raster.point_map_cast (raster : Raster Nat) (spot : Spot) :
    (raster.map (Nat.cast : Nat → ℚ)).point spot = (raster.point spot).map Nat.cast := by
  cases spot <;> simp [Raster.point, Raster.rowY, Raster.map, Point.map]

namespace Layout

def exactPoint (layout : Layout) : Spot → Point ℚ := (layout.toRaster.map LReal.value).point

theorem map_value_standard : standard.toRaster.map LReal.value = wholeRaster.map Nat.cast := by
  have numeral (n : Nat) (small : n < 2 ^ LReal.precision) : (LReal.ofInt n).value = n :=
    LReal.value_of_isInteger (LReal.isInteger_ofInt small)
  have hundred : LReal.value 100 = 100 := numeral 100 (by decide)
  have logic : LReal.value 300 = 300 := numeral 300 (by decide)
  have coil : LReal.value 800 = 800 := numeral 800 (by decide)
  have block : LReal.value 1000 = 1000 := numeral 1000 (by decide)
  have series : LReal.value 150 = 150 := numeral 150 (by decide)
  simp [standard, wholeRaster, Raster.map, hundred, logic, coil, block, series]

theorem exactPoint_standard_injective : Function.Injective standard.exactPoint := by
  intro spot other same
  rw [exactPoint, map_value_standard, Raster.point_map_cast, Raster.point_map_cast] at same
  apply point_wholeRaster_injective
  simp only [Point.map, Point.mk.injEq, Nat.cast_inj] at same
  exact Point.ext same.1 same.2

/-- While the numbers need no more bits than a mantissa has, positions are computed without any
    rounding. -/
theorem value_position_standard (spot : Spot) (near : spot.size < 2 ^ 45) :
    (standard.position spot).map LReal.value = standard.exactPoint spot := by
  have hundred : LReal.isInteger 100 (.ofInt 100) = true := LReal.isInteger_ofInt (by decide)
  have row (r : Nat) (near : r < 2 ^ 45) :
      (standard.rowY r).value = (standard.toRaster.map LReal.value).rowY r := by
    apply LReal.value_add_mul (a := 100) (b := 100) hundred hundred <;> rw [LReal.precision] <;>
      omega
  cases spot with
  | unit => rfl
  | input r => exact Point.ext rfl (row r near)
  | coil r => exact Point.ext rfl (row r near)
  | logic rung column =>
    have near : rung < 2 ^ 45 ∧ column < 2 ^ 45 := Nat.max_lt.mp near
    refine Point.ext ?_ (row rung near.1)
    apply LReal.value_add_mul (a := 300) (b := 150)
    · exact LReal.isInteger_ofInt (by decide)
    · exact LReal.isInteger_ofInt (by decide)
    · rw [LReal.precision]
      omega
    · rw [LReal.precision]
      omega

def exactDiagram (layout : Layout) (pou : Pou) : Diagram (Point ℚ) :=
  (pou.draw layout.drawsElse).draft.diagram.mapPlaces layout.exactPoint

theorem nodup_exactDiagram (pou : Pou) :
    ((standard.exactDiagram pou).nodes.map (·.place)).Nodup := by
  have places := (nodup_spots pou standard.drawsElse).map exactPoint_standard_injective
  rw [Drawing.spots, List.map_map] at places
  rw [exactDiagram, Diagram.mapPlaces, List.map_map]
  exact places

theorem exactDiagram_of_near {pou : Pou} {d : Diagram Position}
    (drawn : standard.diagram? pou = some d)
    (near : ∀ spot ∈ (pou.draw standard.drawsElse).spots, spot.size < 2 ^ 45) :
    d.mapPlaces (Point.map LReal.value) = standard.exactDiagram pou := by
  obtain rfl := standard.of_diagram? drawn
  rw [exactDiagram, Diagram.mapPlaces, Diagram.mapPlaces, Diagram.mapPlaces, List.map_map]
  congr 1
  apply List.map_congr_left
  intro n mem
  have unrounded := value_position_standard n.place (near n.place (List.mem_map_of_mem mem))
  rw [Function.comp, unrounded]

end Layout

/-- Behind the unit, its inputs and its coils the nodes of a diagram are in cells that are read in
    order, each once.  In the standard layout no two nodes have the same position when positions are
    exact numbers, and these are the positions that are given to them, unless a diagram is so large
    that they are rounded. -/
theorem diagram?_places_nodup (pou : Pou) :
    (∀ layout : Layout, ∃ cells : List Cell, (pou.draw layout.drawsElse).spots =
        pou.interfaceSpots ++ cells.map Cell.spot ∧ cells.Pairwise (· < ·)) ∧
      ((Layout.standard.exactDiagram pou).nodes.map (·.place)).Nodup ∧
      ∀ d, Layout.standard.diagram? pou = some d →
        (∀ spot ∈ (pou.draw Layout.standard.drawsElse).spots, spot.size < 2 ^ 45) →
        d.mapPlaces (Point.map LReal.value) = Layout.standard.exactDiagram pou ∧
          (d.nodes.map (·.place)).Nodup := by
  have apart := Layout.nodup_exactDiagram pou
  refine ⟨fun layout => spots_draw pou layout.drawsElse, apart, fun d drawn near => ?_⟩
  have same := Layout.exactDiagram_of_near drawn near
  refine ⟨same, List.Nodup.of_map (Point.map LReal.value) ?_⟩
  rw [← same, Diagram.mapPlaces, List.map_map] at apart
  rwa [List.map_map]

def rungsUnit : Pou :=
  ⟨.program, "Rungs".toList, none,
    [⟨"a".toList, "BOOL".toList, .input, none⟩, ⟨"x".toList, "BOOL".toList, .output, none⟩],
    [.assignment "x".toList (.connective .and (.variable "p".toList) (.variable "q".toList)),
      .call "f".toList "f".toList [.variable "a".toList]]⟩

theorem diagram?_places_nodup_rungsUnit :
    (rungsUnit.draw false).spots =
        [.unit, .input 0, .coil 0, .logic 0 0, .logic 0 1, .logic 1 0] ∧
      ∃ d, Layout.standard.diagram? rungsUnit = some d ∧
        d.mapPlaces (Point.map LReal.value) = Layout.standard.exactDiagram rungsUnit ∧
        (d.nodes.map (·.place)).Nodup := by
  have spots : (rungsUnit.draw false).spots =
      [.unit, .input 0, .coil 0, .logic 0 0, .logic 0 1, .logic 1 0] := by decide
  refine ⟨spots, _, rfl, ?_⟩
  apply (diagram?_places_nodup rungsUnit).2.2 _ rfl
  intro spot mem
  have size : ∀ spot ∈ (rungsUnit.draw false).spots, spot.size < 2 := by decide
  exact (size spot mem).trans (by decide)

end StructuredText
