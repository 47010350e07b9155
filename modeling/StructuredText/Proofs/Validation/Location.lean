import StructuredText.Proofs.Expression.Parts
import StructuredText.Proofs.Pou.Origin
import StructuredText.Proofs.Validation.Displacement

/- Where findings point to.  A check reports offsets into the trimmed text of a line, and these are
   places of the physical line: the text stands in it behind its indentation, and a comment that is
   blanked out keeps its length. -/
namespace StructuredText

/-- A finding as it is made on a line: on the line as a whole, or at a place in its text or behind
    it.  Where it names a type, the type stands there. -/
inductive IsFoundOn (line : Line) : Finding → Prop
  | whole {problem : Problem} (nesting : problem.isNesting = true) :
    IsFoundOn line ⟨line.number, 0, problem⟩
  | place {offset : Nat} {problem : Problem} (within : offset ≤ line.text.length)
    (other : problem.isNesting = false)
    (named : ∀ name, problem = .unknownType name → Name name ∧ name <+: line.text.drop offset) :
    IsFoundOn line (line.finding offset problem)

theorem declaration?_type {t : Text} {d : Declaration} (found : declaration? t = some d) :
    d.typeOffset ≤ t.length ∧ d.type <+: t.drop d.typeOffset := by
  obtain ⟨_, typed, named, colon, word, offset⟩ := declaration?_parts found
  obtain ⟨before, whole⟩ : trimLeft typed <:+ t :=
    (List.dropWhile_suffix _).trans ((suffix_of_after? colon).trans
      ((List.dropWhile_suffix _).trans (name_of_word? named).2))
  have stands : d.typeOffset = before.length := by
    rw [offset, ← whole, List.length_append, Nat.add_sub_cancel_right]
  refine ⟨offset ▸ Nat.sub_le .., ?_⟩
  rw [stands, ← whole, List.drop_left, append_of_word? word]
  exact List.prefix_append ..

theorem findTopLevel?_bounds {symbol t : Text} {start n : Nat}
    (found : findTopLevel? symbol t start = some n) :
    start ≤ n ∧ n + symbol.length ≤ t.length := by
  obtain ⟨m, inner, rfl⟩ := Option.map_eq_some_iff.mp found
  have within := topLevelFrom_lt inner
  have fits := (prefix_of_topLevelFrom inner).length_le
  rw [List.length_drop] at within fits
  rw [List.length_drop] at fits
  omega

theorem callHead?_lt {t name : Text} {opening : Nat} (head : callHead? t = some (name, opening)) :
    opening < t.length := by
  rw [callHead?] at head
  split at head
  · contradiction
  · next name rest word =>
    dsimp only at head
    split at head
    · next opens =>
      obtain ⟨-, rfl⟩ := Prod.mk.inj (Option.some.inj head)
      have filled : 0 < (trimLeft rest).length := by
        rw [List.length_pos_iff]
        rintro none
        rw [none] at opens
        contradiction
      have inside : (trimLeft rest).length ≤ t.length :=
        ((List.dropWhile_suffix _).trans (name_of_word? word).2).length_le
      omega
    · contradiction

theorem splitTopLevelWithin_bounds {separator : Text} {cuts start : Nat} {t : Text}
    {part : Nat × Text} (mem : part ∈ splitTopLevelWithin separator cuts start t) :
    part.1 + part.2.length ≤ start + t.length := by
  have whole : (start, t).1 + (start, t).2.length ≤ start + t.length := Nat.le_refl _
  induction cuts generalizing start t with
  | zero =>
    obtain rfl := List.mem_singleton.mp mem
    exact whole
  | succ cuts ih =>
    rw [splitTopLevelWithin] at mem
    split at mem
    · obtain rfl := List.mem_singleton.mp mem
      exact whole
    · next n found =>
      rcases List.mem_cons.mp mem with rfl | mem
      · dsimp only
        exact Nat.add_le_add_left (List.length_take_le' n t) start
      · have later := ih mem (Nat.le_refl _)
        have fits := (prefix_of_topLevelFrom found).length_le
        have within := topLevelFrom_lt found
        rw [List.length_drop] at later fits
        omega

section Line
variable {line : Line} {f : Finding}

theorem isFoundOn_finding {offset : Nat} {problem : Problem} (within : offset ≤ line.text.length)
    (other : problem.isNesting = false) (unnamed : ∀ name, problem ≠ .unknownType name) :
    IsFoundOn line (line.finding offset problem) :=
  .place within other fun name is => absurd is (unnamed name)

theorem isFoundOn_of_mem_checkNesting {stack : List OpenConstruct}
    (mem : f ∈ (checkNesting line stack).1) : IsFoundOn line f := by
  obtain ⟨c, rfl⟩ := of_mem_checkNesting mem
  exact .whole (isNesting_strayProblem _ c)

theorem isFoundOn_of_mem_checkSemicolon (mem : f ∈ checkSemicolon line) : IsFoundOn line f := by
  obtain ⟨-, -, rfl⟩ := mem_checkSemicolon.mp mem
  exact isFoundOn_finding (Nat.le_refl _) rfl nofun

theorem isFoundOn_of_mem_checkDeclaration {extra : List Text}
    (mem : f ∈ checkDeclaration extra line) : IsFoundOn line f := by
  cases mem_checkDeclaration.mp mem with
  | name declared digit => exact isFoundOn_finding (Nat.zero_le _) rfl nofun
  | type declared unknown noExtra =>
    obtain ⟨within, stands⟩ := declaration?_type declared
    refine .place within rfl ?_
    rintro name ⟨⟩
    exact ⟨(declaration?_facts declared).2.1, stands⟩

theorem isFoundOn_of_mem_checkAssignment {inCase : Bool}
    (mem : f ∈ checkAssignment inCase line) : IsFoundOn line f := by
  have bounds {n : Nat} (first : findTopLevel? ":=".toList line.text
      (statementStart inCase line.text) = some n) :
      statementStart inCase line.text ≤ n ∧ n + 2 ≤ line.text.length :=
    findTopLevel?_bounds first
  cases mem_checkAssignment.mp mem with
  | again _ first _ => exact isFoundOn_finding (by have := bounds first; omega) rfl nofun
  | target _ first _ _ => exact isFoundOn_finding (by have := bounds first; omega) rfl nofun
  | parens _ first _ _ => exact isFoundOn_finding (bounds first).2 rfl nofun

theorem isFoundOn_of_mem_checkCall (mem : f ∈ checkCall line) : IsFoundOn line f := by
  cases mem_checkCall.mp mem with
  | parens head free unequal =>
    exact isFoundOn_finding (Nat.le_of_lt (callHead?_lt head)) rfl nofun
  | @positional name opening closing offset number parameter _ _ _ filled part _ =>
    have part := splitTopLevelWithin_bounds (List.fst_mem_of_mem_zipIdx part)
    have blanks := leadingBlanks_add_length parameter
    have some : (line.text.take closing).drop (opening + 1) ≠ [] := by
      intro none
      rw [none] at filled
      contradiction
    have := List.length_pos_iff.mpr some
    rw [List.length_drop, List.length_take] at this
    simp only [List.length_drop, List.length_take] at part
    exact isFoundOn_finding (by omega) rfl nofun

theorem isFoundOn_of_mem_checkLine {extra : List Text} {stack : List OpenConstruct}
    (mem : f ∈ (checkLine extra line stack).1) : IsFoundOn line f := by
  rw [checkLine] at mem
  dsimp only at mem
  rcases List.mem_append.mp mem with mem | mem
  · rcases List.mem_append.mp mem with mem | mem
    · exact isFoundOn_of_mem_checkNesting mem
    · exact isFoundOn_of_mem_checkSemicolon mem
  · split at mem
    · exact isFoundOn_of_mem_checkDeclaration mem
    · rcases List.mem_append.mp mem with mem | mem
      · exact isFoundOn_of_mem_checkAssignment mem
      · exact isFoundOn_of_mem_checkCall mem

end Line

theorem isFoundOn_of_mem_checkLines {extra : List Text} {lines : List Line}
    {stack : List OpenConstruct} {f : Finding} (mem : f ∈ (checkLines extra lines stack).1) :
    ∃ line ∈ lines, line.text ≠ [] ∧ IsFoundOn line f := by
  induction lines generalizing stack with
  | nil => contradiction
  | cons line rest ih =>
    rw [checkLines_cons] at mem
    rcases List.mem_append.mp mem with mem | mem
    · split at mem
      · contradiction
      · next filled =>
        exact ⟨line, List.mem_cons_self, by simpa using filled, isFoundOn_of_mem_checkLine mem⟩
    · obtain ⟨l, inside, found⟩ := ih mem
      exact ⟨l, List.mem_cons_of_mem line inside, found⟩

theorem isFoundOn_of_mem_validate {extraTypes : List Text} {source : Text} {f : Finding}
    (mem : f ∈ validate extraTypes source) :
    ∃ line ∈ sourceLines source, line.text ≠ [] ∧ IsFoundOn line f := by
  rcases List.mem_append.mp mem with mem | mem
  · exact isFoundOn_of_mem_checkLines mem
  · obtain ⟨o, isOpen, rfl⟩ := List.mem_map.mp mem
    rw [List.mem_reverse, (checkLines_nesting _ _ _).1] at isOpen
    rcases mem_openBehind isOpen with before | ⟨line, inside, opens, number⟩
    · contradiction
    · refine ⟨line, inside, ?_, number ▸ .whole rfl⟩
      intro empty
      rw [empty] at opens
      contradiction

theorem exists_physical {number : Nat} {start : Region} {raw : List Text} {line : Line}
    (mem : line ∈ linesFrom number start raw) : number ≤ line.number ∧
      ∃ physical region, raw[line.number - number]? = some physical ∧
        line = Line.ofCleaned line.number (cleanLine region physical) := by
  induction raw generalizing number start with
  | nil => contradiction
  | cons first rest ih =>
    rw [linesFrom] at mem
    rcases List.mem_cons.mp mem with rfl | mem
    · refine ⟨Nat.le_refl number, first, start, ?_, rfl⟩
      exact congrArg ((first :: rest)[·]?) (Nat.sub_self number)
    · obtain ⟨later, physical, region, here, made⟩ := ih mem
      refine ⟨by omega, physical, region, ?_, made⟩
      have next : line.number - number = line.number - (number + 1) + 1 := by omega
      rw [next, List.getElem?_cons_succ, here]

/-- The text of a line stands in the physical line behind the indentation, but for what is blanked
    out there. -/
theorem isBlanked_text {number : Nat} {region : Region} {physical : Text} {line : Line}
    (made : line = Line.ofCleaned number (cleanLine region physical)) (filled : line.text ≠ []) :
    ∃ before behind, before.length = line.indent ∧
      IsBlanked (before ++ line.text ++ behind) physical := by
  have blanked := isBlanked_cleanFrom region 0 physical
  obtain ⟨a, b, whole, left, right⟩ := exists_trim (cleanLine region physical)
  have text : line.text = trim (cleanLine region physical) := by rw [made]; rfl
  have split := Line.ofCleaned_of_trimmed left right number (isTrimmed_trim (text ▸ filled))
  rw [← whole, ← made] at split
  refine ⟨a, b, by rw [split], ?_⟩
  rw [text, ← whole]
  exact blanked

/-- Every finding points into the source: to a physical line that is not blank, and there to the line
    as a whole or to a column in it or right behind it, where an unknown type stands. -/
theorem location_of_mem_validate {extraTypes : List Text} {source : Text} {f : Finding}
    (mem : f ∈ validate extraTypes source) :
    ∃ physical text, 1 ≤ f.line ∧ (physicalLines source)[f.line - 1]? = some physical ∧
      (lineTexts source)[f.line - 1]? = some text ∧ text ≠ [] ∧
      (f.column = 0 ↔ f.problem.isNesting = true) ∧
      (f.problem.isNesting = false → 1 ≤ f.column ∧ f.column ≤ physical.length + 1) ∧
      ∀ name, f.problem = .unknownType name →
        name ≠ [] ∧ name <+: physical.drop (f.column - 1) := by
  obtain ⟨line, inside, filled, found⟩ := isFoundOn_of_mem_validate mem
  obtain ⟨first, text⟩ := text_at_number inside
  obtain ⟨-, physical, region, here, made⟩ := exists_physical inside
  obtain ⟨before, behind, indent, blanked⟩ := isBlanked_text made filled
  cases found with
  | @whole problem nesting =>
    refine ⟨physical, line.text, first, here, text, filled, iff_of_true rfl nesting, ?_, ?_⟩
    · intro other
      rw [nesting] at other
      contradiction
    · rintro name rfl
      contradiction
  | @place offset problem within other named =>
    have column : (line.finding offset problem).column = before.length + offset + 1 := by
      rw [indent]
      rfl
    have length := blanked.length_eq
    rw [List.length_append, List.length_append] at length
    refine ⟨physical, line.text, first, here, text, filled, ?_, ?_, ?_⟩
    · rw [column]
      exact iff_of_false (Nat.succ_ne_zero _) (ne_true_of_eq_false other)
    · intro _
      omega
    · intro name is
      obtain ⟨word, stands⟩ := named name is
      refine ⟨word.nonempty, ?_⟩
      have solid : id ' ' ∉ name := fun mem => absurd (word.letters _ mem) (by decide)
      have rest := List.forall₂_drop (before.length + offset) blanked
      rw [List.append_assoc, ← List.drop_drop, List.drop_left,
        List.drop_append_of_le_length within] at rest
      have start : name <+: (line.text.drop offset ++ behind).map id := by
        rw [List.map_id]
        exact stands.trans (List.prefix_append ..)
      have there := isPrefix_of_isBlanked solid rest start
      rw [List.map_id] at there
      rw [column, Nat.add_sub_cancel]
      exact there

theorem location_of_mem_validate_commented :
    let source := "PROGRAM P\nVAR\n  (* n *) t : Ramp;\r\nEND_VAR\nEND_PROGRAM".toList
    ⟨3, 15, .unknownType "Ramp".toList⟩ ∈ validate [] source ∧
      (physicalLines source)[2]? = some "  (* n *) t : Ramp;".toList ∧
      "Ramp".toList <+: "  (* n *) t : Ramp;".toList.drop 14 := by
  intro source
  have found : ⟨3, 15, .unknownType "Ramp".toList⟩ ∈ validate [] source := by decide
  obtain ⟨physical, -, -, here, -, -, -, -, named⟩ := location_of_mem_validate found
  have there : (physicalLines source)[2]? = some "  (* n *) t : Ramp;".toList := by decide
  obtain rfl := Option.some.inj (here.symm.trans there)
  exact ⟨found, there, (named _ rfl).2⟩

end StructuredText
