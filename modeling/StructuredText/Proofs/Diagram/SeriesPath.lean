import StructuredText.Proofs.Diagram.Coils

/- An assignment of a value without an OR is drawn as one path: the nodes of its atoms from left to
   right, each wired to the next, and the last one to the coil. -/
namespace StructuredText
open Drawing

def Pou.inputPlaces (pou : Pou) : List (Text × Nat) :=
  (numberedFrom 1 (pou.inputs.map (·.name))).reverse

/-- The nodes for the value are those of its atoms, and the edges of the assignment are, in some
    order, one from each of these nodes to the next and one from the last to the coil of the target,
    if it has one. -/
structure Rung.IsSeriesPath {Place : Type} (rung : Rung) (pou : Pou) (drawsElse : Bool)
    (d : Diagram Place) : Prop where
  places : rung.nodes (pou.surface drawsElse).1 =
    atomPlaces pou.inputPlaces rung.before.draft.nodes.length rung.value.atoms
  shown : List.Forall₂ d.Shows rung.value.atoms (rung.nodes (pou.surface drawsElse).1)
  wires : ∃ added later links,
    (rung.after (pou.surface drawsElse).1).draft.edges = rung.before.draft.edges ++ added ∧
      d.edges = (rung.after (pou.surface drawsElse).1).draft.edges ++ later ∧
      List.Forall₂ d.Joins added links ∧
      links.Perm ((rung.nodes (pou.surface drawsElse).1).consecutivePairs ++
        joint (rung.nodes (pou.surface drawsElse).1).getLast? (d.coil? rung.target))

section Unit
variable {pou : Pou} {drawsElse : Bool} {rung : Rung}

theorem surface_showsInputs :
    ShowsInputs (pou.surface drawsElse).1.inputs (pou.surface drawsElse).2 := by
  intro name node found
  obtain ⟨n, here, symbol⟩ := Option.map_eq_some_iff.mp (surface_contact found)
  exact ⟨n, _, here, rfl, Or.inl symbol⟩

theorem Pou.DrawsRung.isSeriesPath (draws : pou.DrawsRung drawsElse rung)
    (orFree : rung.value.isOrFree = true) (low : rung.value.height ≤ rung.levels) :
    rung.IsSeriesPath pou drawsElse (pou.draw drawsElse).draft.diagram := by
  obtain ⟨⟨_, _, start⟩, -⟩ := Draws.extends draws
  obtain ⟨_, _, final⟩ := draws.extends_draw
  have atoms := (drawExpression_drawing _ _ _ _).showsAtoms low (surface_showsInputs.later start)
  have shown : ShowsAtoms (pou.surface drawsElse).1.inputs rung.value.atoms rung.before
      (rung.nodes (pou.surface drawsElse).1, rung.after (pou.surface drawsElse).1) :=
    atoms.further ((grows_connect _ _ _).further (grows_nextRung _))
      (congrArg List.length (nodes_connect_draft _ _ _))
  refine ⟨shown.places, shown.shown.imp fun _ _ shows => final.shows shows, ?_⟩
  obtain ⟨added, later, links, edges, rest, linked, joins⟩ := draws.wires
  rw [← draw_coil?] at joins
  exact ⟨added, later, _, edges, rest, joins, (linked.series orFree).append_right _⟩

theorem Rung.IsSeriesPath.mapPlaces {Place Place' : Type} {d : Diagram Place} (f : Place → Place')
    (path : rung.IsSeriesPath pou drawsElse d) :
    rung.IsSeriesPath pou drawsElse (d.mapPlaces f) := by
  obtain ⟨places, shown, added, later, links, edges, rest, joins, order⟩ := path
  refine ⟨places, shown.imp fun _ _ => Diagram.shows_mapPlaces f, added, later, links, edges, rest,
    joins.imp fun _ _ => Diagram.joins_mapPlaces f, ?_⟩
  rwa [Diagram.coil?_mapPlaces]

end Unit

/-- However the ANDs of a value are bracketed and wherever a NOT stands, without an OR the
    assignment is drawn as one series path, if nothing of the value is nested too deep. -/
theorem Layout.diagram?_seriesPath (layout : Layout) {pou : Pou} {d : Diagram Position}
    {rung : Rung} (drawn : layout.diagram? pou = some d) (draws : pou.DrawsRung layout.drawsElse rung)
    (orFree : rung.value.isOrFree = true) (low : rung.value.height ≤ rung.levels) :
    rung.IsSeriesPath pou layout.drawsElse d := by
  obtain rfl := layout.of_diagram? drawn
  exact (draws.isSeriesPath orFree low).mapPlaces layout.position

def bracketedValue : Expression :=
  .connective .and (.negation (.connective .and (.variable "a".toList) (.literal (.int 3))))
    (.connective .and (.call "f".toList [.variable "b".toList])
      (.connective .and (.literal (.bool true))
        (.connective .and (.comparison .gt (.variable "a".toList) (.literal (.int 1)))
          (.variable "a".toList))))

def bracketedUnit : Pou :=
  ⟨.program, "Bracketed".toList, none,
    [⟨"a".toList, "BOOL".toList, .input, none⟩, ⟨"x".toList, "BOOL".toList, .output, none⟩],
    [.assignment "x".toList bracketedValue]⟩

def bracketedRung : Rung := ⟨199, "x".toList, bracketedValue, (bracketedUnit.surface false).2⟩

/-- The number has no node, and the contact of `a` comes twice. -/
theorem diagram?_seriesPath_bracketedUnit :
    bracketedValue.isOrFree = true ∧ bracketedValue.height ≤ 199 ∧
      bracketedUnit.DrawsRung false bracketedRung ∧
      bracketedRung.nodes (bracketedUnit.surface false).1 = [1, 3, 4, 5, 1] ∧
      ∃ d, Layout.standard.diagram? bracketedUnit = some d ∧ d.coil? "x".toList = some 2 ∧
        bracketedRung.IsSeriesPath bracketedUnit false d := by
  have orFree : bracketedRung.value.isOrFree = true := by decide
  have low : bracketedRung.value.height ≤ bracketedRung.levels := by decide
  have draws : bracketedUnit.DrawsRung false bracketedRung := .assignment
  refine ⟨orFree, low, draws, by decide, _, rfl, by decide, ?_⟩
  exact Layout.standard.diagram?_seriesPath rfl draws orFree low

end StructuredText
