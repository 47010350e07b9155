import StructuredText.Diagram.Source
import StructuredText.Proofs.Diagram.Atoms
import StructuredText.Proofs.Diagram.Isolation
import StructuredText.Proofs.Diagram.Paths
import StructuredText.Proofs.Diagram.TimerLine
import StructuredText.Proofs.Pou.Declaration

/- The timer that is drawn for a call.  From patterns it gets the first part of the duration, as
   that is all that is recognised; from the unit it gets the sum of the parts. -/
namespace StructuredText
open Drawing

def Diagram.HasTimer {Place : Type} (d : Diagram Place) (place : Nat) (name : Text) (preset : Nat)
    (type : Text) : Prop :=
  d.nodes[place]?.map (·.symbol) = some (.timer name preset 0 (some type))

section Lines
variable {Place : Type}

theorem Draft.prefix_addAll (d : Draft Place) (content : List (Place × Symbol)) :
    d.nodes <+: (d.addAll content).nodes := by
  obtain ⟨added, nodes, -⟩ := d.nodes_addAll content
  exact ⟨added, nodes.symm⟩

variable (d : Draft Unit) (line : Text)

theorem prefix_addTimer : d.nodes <+: (addTimer line d).nodes := by
  rw [addTimer]
  split
  · exact List.prefix_append _ _
  · exact List.prefix_refl _

theorem prefix_addSeries : d.nodes <+: (addSeries line d).nodes := by
  rw [addSeries]
  split
  · exact List.prefix_refl _
  · split
    · exact List.prefix_refl _
    · rw [addRung_eq_addChain, Draft.addChain, Draft.nodes_wireSeries]
      exact d.prefix_addAll _

theorem prefix_addBlock : d.nodes <+: (addBlock line d).nodes := by
  rw [addBlock]
  split
  · exact List.prefix_refl _
  · split
    · exact List.prefix_refl _
    · split
      · exact List.prefix_refl _
      · exact List.prefix_append _ _

theorem prefix_drawLine : (addTimer line d).nodes <+: (drawLine d line).nodes :=
  (prefix_addSeries _ line).trans (prefix_addBlock _ line)

theorem prefix_drawLines (lines : List Text) : d.nodes <+: (lines.foldl drawLine d).nodes := by
  induction lines generalizing d with
  | nil => exact List.prefix_refl _
  | cons line rest ih =>
    exact ((prefix_addTimer d line).trans (prefix_drawLine d line)).trans (ih (drawLine d line))

end Lines

theorem patternDiagram_timer {source line : Text} (unknown : knownProgram? source = none)
    {before behind : List Text} (lines : lineTexts source = before ++ line :: behind)
    {call : TimerCall} (found : search? timerCall? line = some call) :
    (patternDiagram source).HasTimer (drawLines before).nodes.length call.name call.preset
      "TON".toList := by
  let earlier := drawLines before
  have timer : (addTimer line earlier).nodes = earlier.nodes ++
      [⟨nodeId (earlier.nodesNumbered + 1), (),
        .timer call.name call.preset 0 (some "TON".toList)⟩] := by
    rw [addTimer, found]
    rfl
  have run : patternDraft source = behind.foldl drawLine (drawLine earlier line) := by
    rw [patternDraft, lines, drawLines, List.foldl_append]
    rfl
  have kept := (prefix_drawLine earlier line).trans (prefix_drawLines _ behind)
  rw [timer, ← run] at kept
  have symbols := Grid.standard.map_arrange (patternDraft source).nodes fun _ symbol => symbol
  rw [Diagram.HasTimer, patternDiagram_of_unknown unknown, ← List.getElem?_map, symbols,
    List.getElem?_map]
  obtain ⟨added, same⟩ := kept
  rw [← same, List.append_assoc, List.getElem?_append_right (Nat.le_refl _), Nat.sub_self]
  rfl

section Unit
variable {layout : Layout} {pou : Pou} {name type : Text}

def Pou.nodesBehind (pou : Pou) (drawsElse : Bool) (statements : List Statement) : Nat :=
  (drawAll (pou.surface drawsElse).1 drawingLimit statements
    (pou.surface drawsElse).2).draft.nodes.length

theorem drawCall_timer {surface : Surface} (typed : surface.pou.timerType? name = some type)
    (arguments : List Expression) (d : Drawing) :
    (drawCall surface name arguments d).draft.nodes[d.draft.nodes.length]? =
      some ⟨nodeId (d.draft.nodesNumbered + 1), .logic d.rung d.column,
        .timer name (timerPreset arguments) 0 (some type)⟩ := by
  rw [drawCall, typed]
  exact List.getElem?_concat_length

/-- The call of a timer gets a node of its own, and no later statement changes it. -/
theorem Layout.hasTimer_of_call {diagram : Diagram Position}
    (drawn : layout.diagram? pou = some diagram) {before behind : List Statement} {called : Text}
    {arguments : List Expression}
    (statements : pou.statements = before ++ .call name called arguments :: behind)
    (typed : pou.timerType? name = some type) :
    diagram.HasTimer (pou.nodesBehind layout.drawsElse before) name (timerPreset arguments)
      type := by
  let surface := (pou.surface layout.drawsElse).1
  let earlier := drawAll surface drawingLimit before (pou.surface layout.drawsElse).2
  let here := drawCall surface name arguments earlier
  have run : pou.draw layout.drawsElse = drawAll surface drawingLimit behind here := by
    show drawAll surface drawingLimit pou.statements _ = _
    rw [statements, drawAll, List.foldl_append]
    rfl
  have later := drawParts_grows surface
    (behind.flatMap (Statement.parts surface drawingLimit)) here
  rw [← drawAll_eq_drawParts surface (drawStatement_eq_drawParts surface drawingLimit)] at later
  obtain ⟨n, there, kept⟩ := later.node_kept (drawCall_timer typed arguments earlier)
  obtain rfl := layout.of_diagram? drawn
  rw [← run] at there
  rw [Diagram.HasTimer, Pou.nodesBehind, Diagram.getElem?_mapPlaces layout.position there]
  rcases kept with rfl | rfl <;> rfl

end Unit

def timerPou (name : Text) (arguments : List Expression) : Pou :=
  ⟨.program, "P".toList, none, [⟨name, "TON".toList, .internal, none⟩],
    [.call name name arguments]⟩

def timerProgram (name line : Text) : Text :=
  writtenText 0 (.fixed 0 "PROGRAM P".toList ::
    sectionLines "VAR".toList [⟨name, "TON".toList, .internal, none⟩] ++
    [.fixed 0 line, .fixed 0 "END_PROGRAM".toList])

theorem Layout.diagram?_timerPou (layout : Layout) (name : Text) (arguments : List Expression) :
    ∃ diagram, layout.diagram? (timerPou name arguments) = some diagram ∧
      diagram.HasTimer 1 name (timerPreset arguments) "TON".toList := by
  have typed : (timerPou name arguments).timerType? name = some "TON".toList := by
    have found : (timerPou name arguments).variableNamed? name =
        some ⟨name, "TON".toList, .internal, none⟩ := List.find?_cons_of_pos (by simp)
    rw [Pou.timerType?, found]
    rfl
  have writable : ((timerPou name arguments).draw layout.drawsElse).isWritable = true := by
    have run : (timerPou name arguments).draw layout.drawsElse =
        drawCall ((timerPou name arguments).surface layout.drawsElse).1 name arguments
          ((timerPou name arguments).surface layout.drawsElse).2 := rfl
    have declared : ((timerPou name arguments).surface layout.drawsElse).1.pou.timerType? name =
        some "TON".toList := typed
    rw [run, drawCall, declared]
    rfl
  have drawn : layout.diagram? (timerPou name arguments) = some
      (((timerPou name arguments).draw layout.drawsElse).draft.diagram.mapPlaces
        layout.position) := by
    rw [layout.diagram?_eq, if_pos writable]
  have alone : (timerPou name arguments).statements = [] ++ .call name name arguments :: [] := rfl
  exact ⟨_, drawn, layout.hasTimer_of_call drawn alone typed⟩

section Program
variable {name line : Text} (word : Name name) (opens : isOpenWord name = true)
  (noSection : name ∉ sectionKeywords)
include word opens noSection

theorem isDeclared_timer : Variable.IsDeclared .program ⟨name, "TON".toList, .internal, none⟩ where
  name := word
  type := ⟨List.cons_ne_nil _ _, of_all rfl⟩
  noSection := noSection
  noSectionEnd := by
    rintro rfl
    contradiction
  noEnd := by
    rintro rfl
    contradiction
  trimmed := by simp

theorem ofSource?_timerProgram {arguments : List Expression} (bare : IsBareLine line)
    (other : UnitLine.of .program line = .other)
    (single : IsSingleLine line (.call name name arguments)) :
    Pou.ofSource? (timerProgram name line) = some (timerPou name arguments) := by
  let timer : Variable := ⟨name, "TON".toList, .internal, none⟩
  have listed : (VariableRole.internal, "VAR".toList) ∈ sections := by decide
  have declared : ∀ v ∈ [timer], v.IsDeclared .program :=
    List.forall_mem_singleton.mpr (isDeclared_timer word opens noSection)
  have solid : AreBare (.fixed 0 "PROGRAM P".toList :: sectionLines "VAR".toList [timer] ++
      [.fixed 0 line, .fixed 0 "END_PROGRAM".toList]) := by
    have header : IsBareLine "PROGRAM P".toList :=
      isBareLine_of_code (of_all rfl) ⟨⟨'P', rfl, by decide⟩, 'P', rfl, by decide⟩
    have declarations : AreBare (sectionLines "VAR".toList [timer]) :=
      areBare_sectionLines listed (List.forall_mem_singleton.mpr
        (Variable.isBareLine_text word ⟨List.cons_ne_nil _ _, of_all rfl⟩ (by simp [timer])))
    exact AreBare.append (.cons header declarations)
      (.cons bare (.singleton (isBareLine_terminator .program)))
  have lines : lineTexts (timerProgram name line) =
      "PROGRAM P".toList :: (textsOf (sectionLines "VAR".toList [timer]) ++
        [line, "END_PROGRAM".toList, []]) := by
    rw [timerProgram, lineTexts_writtenText solid]
    rfl
  let rest := textsOf (sectionLines "VAR".toList [timer]) ++ [line, "END_PROGRAM".toList, []]
  have header : findHeader? ("PROGRAM P".toList :: rest) =
      some (.program, 0, "PROGRAM P".toList, rest) := rfl
  have content : (readUnitLines (readBlock blockLimit) .program .body 0 rest Progress.start).1 =
      ⟨[timer], [.call name name arguments]⟩ := by
    rw [readUnitLines_section _ _ _ listed declared (by simp [timer]),
      readUnitLines_statement _ _ other, readAt_eq_of_single single.single, single.reads]
    rfl
  have names : headerNames .program "PROGRAM P".toList = ("P".toList, none) := rfl
  simp only [Pou.ofSource?, Reading.ofSource, readLines, lines]
  rw [header]
  simp only [readPou, readPouBy, names, content]
  rfl

end Program

/-- Drawn from patterns, the timer of the line has this preset, wherever the line stands. -/
def HasPatternPreset (line name : Text) (preset : Nat) : Prop :=
  ∀ source before behind, knownProgram? source = none →
    lineTexts source = before ++ line :: behind →
      (patternDiagram source).HasTimer (drawLines before).nodes.length name preset "TON".toList

/-- Drawn from a unit that declares it, the timer of the line has this preset, wherever among the
    statements the line stands. -/
def HasUnitPreset (line name : Text) (preset : Nat) : Prop :=
  ∃ s, Statement.ofLine? line = some s ∧ ∀ (layout : Layout) pou before behind type diagram,
    pou.statements = before ++ s :: behind → pou.timerType? name = some type →
      layout.diagram? pou = some diagram →
        diagram.HasTimer (pou.nodesBehind layout.drawsElse before) name preset type

section Presets
variable {name v : Text} (word : Name name) (value : Name v)
include word value

theorem hasPatternPreset_timerLine {first : Text × Text} {rest : List (Text × Text)}
    (small : ∀ part ∈ first :: rest, IsSmallPart part) {here : Nat}
    (recognised : duration? (durationText [first]) = some here) :
    HasPatternPreset (timerLine name v (first :: rest)) name here := by
  intro source before behind unknown lines
  have drawn := patternDiagram_timer unknown lines (search?_timerLine word value small)
  have text : "T#".toList ++ first.1 ++ first.2 = durationText [first] := by
    simp [durationText, partsText]
  have preset : TimerCall.preset ⟨name, first.1, first.2⟩ = here := by
    rw [TimerCall.preset, text, recognised, Option.getD_some]
  rwa [preset] at drawn

section Read
variable {parts : List (Text × Text)} (nonempty : parts ≠ [])
  (written : ∀ part ∈ parts, IsDurationPart part) (noConditional : name ≠ "IF".toList)
  {total : Nat} (whole : duration? (durationText parts) = some total)
include nonempty written noConditional whole

theorem hasUnitPreset_timerLine : HasUnitPreset (timerLine name v parts) name total := by
  have line := isSingleLine_timerLine word value written noConditional
  refine ⟨_, line.reads, fun layout pou before behind type diagram statements typed drawn => ?_⟩
  have timer := layout.hasTimer_of_call drawn statements typed
  rwa [timerPreset_arguments value written nonempty whole] at timer

theorem diagramOfSource?_timerProgram (opens : isOpenWord name = true)
    (noSection : name ∉ sectionKeywords) (layout : Layout) : ∃ diagram,
      layout.diagramOfSource? (timerProgram name (timerLine name v parts)) = some diagram ∧
        diagram.HasTimer 1 name total "TON".toList := by
  have other : UnitLine.of .program (timerLine name v parts) = .other := by
    rw [timerLine, parenthesized, List.append_assoc]
    exact unitLine_paren word opens .program _
  have read := ofSource?_timerProgram word opens noSection
    (isBareLine_timerLine word value written) other
    (isSingleLine_timerLine word value written noConditional)
  obtain ⟨diagram, drawn, timer⟩ := layout.diagram?_timerPou name
    ([v, durationText parts].map (Expression.read callLevels))
  rw [timerPreset_arguments value written nonempty whole] at timer
  refine ⟨diagram, ?_, timer⟩
  rw [Layout.diagramOfSource?, read]
  exact drawn

end Read

/-- The presets differ by what stands behind the first part of the duration. -/
theorem timerLine_presets {first : Text × Text} {rest : List (Text × Text)}
    (small : ∀ part ∈ first :: rest, IsSmallPart part) {total : Nat}
    (whole : duration? (durationText (first :: rest)) = some total) :
    ∃ here more, duration? (durationText [first]) = some here ∧ partsSum? rest = some more ∧
      total = here + more ∧ HasPatternPreset (timerLine name v (first :: rest)) name here ∧
      (name ≠ "IF".toList → HasUnitPreset (timerLine name v (first :: rest)) name total ∧
        (isOpenWord name = true → name ∉ sectionKeywords → ∀ layout : Layout, ∃ diagram,
          layout.diagramOfSource? (timerProgram name (timerLine name v (first :: rest))) =
              some diagram ∧
            diagram.HasTimer 1 name total "TON".toList)) := by
  have written : ∀ part ∈ first :: rest, IsDurationPart part :=
    fun part mem => (small part mem).isDurationPart
  have nonempty : first :: rest ≠ [] := List.cons_ne_nil first rest
  have sum := whole
  rw [duration?_durationText written nonempty, partsSum?_cons] at sum
  obtain ⟨n, digits, later⟩ := Option.bind_eq_some_iff.mp sum
  obtain ⟨more, further, same⟩ := Option.map_eq_some_iff.mp later
  have alone : duration? (durationText [first]) = some (n * unitFactor first.2) := by
    have single := List.forall_mem_singleton.mpr (written first List.mem_cons_self)
    rw [duration?_durationText single (List.cons_ne_nil _ _), partsSum?_cons, digits]
    rfl
  refine ⟨n * unitFactor first.2, more, alone, further, same.symm,
    hasPatternPreset_timerLine word value small alone, fun noConditional => ⟨?_, ?_⟩⟩
  · exact hasUnitPreset_timerLine word value nonempty written noConditional whole
  · exact diagramOfSource?_timerProgram word value nonempty written noConditional whole

end Presets

def minuteAndHalf : Text := "T1(IN := a, PT := T#1m30s);".toList

theorem lineTexts_minuteAndHalf : lineTexts minuteAndHalf = [minuteAndHalf] := by decide

theorem timerLine_presets_minuteAndHalf :
    let parts := [("1".toList, "m".toList), ("30".toList, "s".toList)]
    timerLine "T1".toList "a".toList parts = minuteAndHalf ∧
      (∀ part ∈ parts, IsSmallPart part) ∧ duration? (durationText parts) = some 90000 ∧
      (patternDiagram minuteAndHalf).HasTimer 0 "T1".toList 60000 "TON".toList ∧
      ∃ diagram, Layout.standard.diagramOfSource? (timerProgram "T1".toList minuteAndHalf) =
          some diagram ∧
        diagram.HasTimer 1 "T1".toList 90000 "TON".toList := by
  intro parts
  have line : timerLine "T1".toList "a".toList parts = minuteAndHalf := by decide
  have small : ∀ part ∈ parts, IsSmallPart part :=
    List.forall_mem_cons.mpr ⟨⟨by decide, of_all rfl, by decide⟩,
      List.forall_mem_singleton.mpr ⟨by decide, of_all rfl, by decide⟩⟩
  have whole : duration? (durationText parts) = some 90000 := by decide
  have named : Name "T1".toList := name_of_isName (by decide)
  have value : Name "a".toList := name_of_isName (by decide)
  obtain ⟨here, more, first, rest, total, patterns, unit⟩ :=
    timerLine_presets named value small whole
  obtain rfl : 60000 = here := Option.some.inj first
  rw [line] at patterns unit
  obtain ⟨-, program⟩ := unit (by decide)
  exact ⟨line, small, whole, patterns minuteAndHalf [] [] rfl lineTexts_minuteAndHalf,
    program (by decide) (by decide) Layout.standard⟩

/-- The half minute is lost where the line is recognised by its look. -/
theorem patternDiagram_minuteAndHalf :
    duration? "T#1m30s".toList = some 90000 ∧ knownProgram? minuteAndHalf = none ∧
      (patternDiagram minuteAndHalf).nodes.map (·.symbol) =
        [.timer "T1".toList 60000 0 (some "TON".toList)] ∧
      (∀ place, ¬ (patternDiagram minuteAndHalf).HasTimer place "T1".toList 90000 "TON".toList) ∧
      (Layout.standard.diagramOfSource? (timerProgram "T1".toList minuteAndHalf)).map
          (fun d => d.nodes.map (·.symbol)) =
        some [.functionBlock "P".toList [] [] none,
          .timer "T1".toList 90000 0 (some "TON".toList)] := by
  have symbols : (patternDiagram minuteAndHalf).nodes.map (·.symbol) =
      [.timer "T1".toList 60000 0 (some "TON".toList)] := by
    rfl
  refine ⟨by decide, rfl, symbols, fun place timer => ?_, rfl⟩
  rw [Diagram.HasTimer, ← List.getElem?_map, symbols] at timer
  cases place with
  | zero => exact absurd timer (by simp)
  | succ place => simp at timer

end StructuredText
