import StructuredText.Proofs.Pou.Kept

/- What reading makes of lines: every statement is one that comes from the text of some line, or a
   block of such statements. -/
namespace StructuredText

theorem isPrefix_trimLeft {s t : Text} (start : s <+: t) : trimLeft s <+: trimLeft t := by
  obtain ⟨u, rfl⟩ := start
  rw [trimLeft, trimLeft, List.dropWhile_append]
  split
  · next blank => simp [List.isEmpty_iff.mp blank]
  · exact List.prefix_append ..

theorem isPrefix_trimRight (t : Text) : trimRight t <+: t := by
  rw [← List.reverse_suffix, trimRight, List.reverse_reverse]
  exact List.dropWhile_suffix _

theorem isPrefix_withoutFinal (c : Char) (t : Text) : withoutFinal c t <+: t := by
  rw [withoutFinal]
  split
  · exact List.dropLast_prefix t
  · exact List.prefix_refl t

theorem trim_subset (t : Text) : trim t ⊆ t :=
  List.Subset.trans (isPrefix_trimRight _).subset (List.dropWhile_suffix _).subset

theorem withoutThen_subset (t : Text) : withoutThen t ⊆ t := by
  rw [withoutThen]
  split
  · next start found =>
    have whole := before?_eq_some_iff.mp found
    split
    · rw [whole]
      exact List.Subset.trans (isPrefix_trimRight start).subset (List.subset_append_left ..)
    · exact List.Subset.refl t
  · exact List.Subset.refl t

section Clause
variable {line : Text} (oneLine : '\n' ∉ line)
include oneLine

theorem isRead_of_clause {clause : Clause} (found : Clause.ofLine? line = some clause) :
    clause.statement.IsRead := by
  have inside : trim (withoutFinal ';' line) ⊆ line :=
    List.Subset.trans (trim_subset _) (isPrefix_withoutFinal ..).subset
  rw [Clause.ofLine?] at found
  generalize trim (withoutFinal ';' line) = t at inside found
  have free {u : Text} (part : u ⊆ t) : '\n' ∉ u := fun mem => oneLine (inside (part mem))
  dsimp only at found
  split at found
  · next target value parts =>
    obtain rfl := Option.some.inj found
    rw [assignmentParts?] at parts
    split at parts
    · next c behind sign =>
      split at parts
      · contradiction
      · next filled =>
        simp only [Option.some.injEq, Prod.mk.injEq] at parts
        obtain ⟨rfl, rfl⟩ := parts
        refine .assignment (by simpa using filled) (fun c mem => List.mem_takeWhile_imp mem)
          (free ?_)
        have behind : c :: behind ⊆ t := by
          have whole := after?_eq_some_iff.mp sign
          have tail : c :: behind ⊆ trimLeft (t.dropWhile isTargetChar) := by
            rw [whole]
            exact List.subset_append_right ..
          exact List.Subset.trans tail
            (List.Subset.trans (List.dropWhile_suffix _).subset (List.dropWhile_suffix _).subset)
        exact List.Subset.trans (List.dropWhile_suffix _).subset behind
    · contradiction
  · split at found
    · obtain rfl := Option.some.inj found
      have condition (u : Text) (mem : u ∈ lineCondition? t) : u ⊆ t := by
        rw [lineCondition?] at mem
        split at mem
        · contradiction
        · obtain rfl := Option.some.inj mem
          exact List.Subset.trans (withoutThen_subset _)
            (List.Subset.trans (trim_subset _) (List.drop_subset 2 t))
      exact .conditional (fun u mem => free (condition u mem)) (List.forall_mem_nil _)
        (List.forall_mem_nil _)
    · next other =>
      obtain ⟨⟨name, arguments⟩, parts, rfl⟩ := Option.map_eq_some_iff.mp found
      obtain ⟨blanks, inner, call, rfl⟩ := exists_call parts
      refine .call call ?_ (free (List.Subset.refl t))
      rintro rfl
      apply other
      rw [opensConditional, startsWithWord, call.whole, List.append_assoc, List.drop_left,
        call.atWordEnd_rest, Bool.and_true]
      exact List.isPrefixOf_iff_prefix.mpr (List.prefix_append ..)

end Clause

def Statement.IsOpen : Statement → Prop
  | .assignment target _ => isOpenWord target = true
  | .call _ name _ => isOpenWord name = true
  | .conditional _ _ _ => True
  | _ => False

section Open
variable {kind : PouKind} {line : Text} (other : UnitLine.of kind line = .other)
include other

theorem isOpenWord_firstWord : isOpenWord (firstWord line) = true := by
  rw [UnitLine.of] at other
  split at other
  · contradiction
  split at other
  · contradiction
  split at other
  · contradiction
  split at other
  · contradiction
  split at other
  · contradiction
  · next noEnd => rw [isOpenWord, (Bool.not_eq_true _).mp noEnd, Bool.not_false]

theorem isOpenWord_of_isPrefix {w : Text} (start : w <+: trim (withoutFinal ';' line)) :
    isOpenWord w = true := by
  have opens := isOpenWord_firstWord other
  cases ends : "END_".toList.isPrefixOf w with
  | false => rw [isOpenWord, ends, Bool.not_false]
  | true =>
    have inside : "END_".toList <+: trimLeft line :=
      (List.isPrefixOf_iff_prefix.mp ends).trans (start.trans
        ((isPrefix_trimRight _).trans (isPrefix_trimLeft (isPrefix_withoutFinal ';' line))))
    obtain ⟨rest, whole⟩ := inside
    have first : firstWord line = "END_".toList ++ withoutTrailing ';'
        (rest.takeWhile (! isBlank ·)) := by
      rw [firstWord, ← whole, List.takeWhile_append_of_pos (of_all rfl),
        withoutTrailing_append (by decide)]
    rw [isOpenWord, first, List.isPrefixOf_iff_prefix.mpr (List.prefix_append ..)] at opens
    contradiction

theorem isOpen_of_ofLine? {s : Statement} (found : Statement.ofLine? line = some s) :
    s.IsOpen := by
  obtain ⟨clause, parts, rfl⟩ := Option.map_eq_some_iff.mp found
  rw [Clause.ofLine?] at parts
  have start {w : Text} := @isOpenWord_of_isPrefix _ _ other w
  generalize trim (withoutFinal ';' line) = t at start parts
  dsimp only at parts
  split at parts
  · next target value sides =>
    obtain rfl := Option.some.inj parts
    apply start
    rw [assignmentParts?] at sides
    split at sides
    · split at sides
      · contradiction
      · simp only [Option.some.injEq, Prod.mk.injEq] at sides
        rw [← sides.1]
        exact List.takeWhile_prefix _
    · contradiction
  · split at parts
    · obtain rfl := Option.some.inj parts
      trivial
    · obtain ⟨⟨name, arguments⟩, sides, rfl⟩ := Option.map_eq_some_iff.mp parts
      obtain ⟨blanks, inner, call, -⟩ := exists_call sides
      apply start
      rw [call.whole, List.append_assoc]
      exact List.prefix_append ..

end Open

section Variable
variable {role : VariableRole} {line : Text} {v : Variable}

theorem name_of_word? {t word rest : Text} (found : word? t = some (word, rest)) :
    Name word ∧ rest <:+ t := by
  rw [word?] at found
  split at found
  · contradiction
  · next filled =>
    simp only [Option.some.injEq, Prod.mk.injEq] at found
    obtain ⟨rfl, rfl⟩ := found
    exact ⟨⟨by simpa using filled, fun c mem => List.mem_takeWhile_imp mem⟩,
      List.dropWhile_suffix _⟩

theorem suffix_of_after? {word t rest : Text} (found : after? word t = some rest) : rest <:+ t :=
  ⟨word, (after?_eq_some_iff.mp found).symm⟩

theorem declaration?_parts {d : Declaration} (found : declaration? line = some d) :
    ∃ behindName behindColon, word? line = some (d.name, behindName) ∧
      after? [':'] (trimLeft behindName) = some behindColon ∧
      word? (trimLeft behindColon) = some (d.type, d.rest) ∧
      d.typeOffset = line.length - (trimLeft behindColon).length := by
  rw [declaration?] at found
  split at found
  · contradiction
  · next name behindName named =>
    split at found
    · contradiction
    · next behindColon colon =>
      obtain ⟨⟨type, rest⟩, typed, rfl⟩ := Option.map_eq_some_iff.mp found
      exact ⟨behindName, behindColon, named, colon, typed, rfl⟩

theorem declaration?_facts {d : Declaration} (found : declaration? line = some d) :
    Name d.name ∧ Name d.type ∧ d.rest <:+ line := by
  obtain ⟨_, _, named, colon, typed, -⟩ := declaration?_parts found
  obtain ⟨name, first⟩ := name_of_word? named
  obtain ⟨type, last⟩ := name_of_word? typed
  exact ⟨name, type, last.trans ((List.dropWhile_suffix _).trans
    ((suffix_of_after? colon).trans ((List.dropWhile_suffix _).trans first)))⟩

theorem IsTrimmed.of_suffix {t u : Text} (trimmed : IsTrimmed t) (ends : trimLeft u <:+ t)
    (filled : trimLeft u ≠ []) : IsTrimmed (trimLeft u) := by
  refine ⟨first_trimLeft filled, ?_⟩
  obtain ⟨a, rfl⟩ := ends
  obtain ⟨c, last, solid⟩ := trimmed.last
  refine ⟨c, ?_, solid⟩
  rwa [List.getLast?_append_of_ne_nil _ filled] at last

theorem isTrimmed_declaredValue {t : Text} (trimmed : IsTrimmed t) :
    IsTrimmed (declaredValue t) ∧ declaredValue t ⊆ t := by
  rw [declaredValue]
  split
  · next ends =>
    simp only [Bool.and_eq_true, decide_eq_true_eq] at ends
    obtain ⟨c, first, solid⟩ := trimmed.first
    obtain ⟨rest, rfl⟩ := List.head?_eq_some_iff.mp first
    have more : rest ≠ [] := by
      rintro rfl
      exact absurd ends.1 (by simp)
    rw [List.dropLast_cons_of_ne_nil more]
    have whole : trimRight (c :: rest.dropLast) = trim (c :: rest.dropLast) := by
      rw [trim, trimLeft_cons solid]
    constructor
    · rw [whole]
      exact isTrimmed_trim (trim_ne_nil ⟨c, rfl, solid⟩)
    · exact List.Subset.trans (isPrefix_trimRight _).subset
        (List.cons_subset_cons c (List.dropLast_prefix rest).subset)
  · exact ⟨trimmed, List.Subset.refl t⟩

theorem ofLine?_facts (found : Variable.ofLine? role line = some v) (trimmed : IsTrimmed line) :
    Name v.name ∧ Name v.type ∧ ∀ t ∈ v.initialValue, IsTrimmed t ∧ t ⊆ line := by
  rw [Variable.ofLine?] at found
  split at found
  · contradiction
  · next d declared =>
    obtain ⟨name, type, ends⟩ := declaration?_facts declared
    dsimp only at found
    split at found
    · next value sign =>
      split at found
      · contradiction
      · next filled =>
        obtain rfl := Option.some.inj found
        refine ⟨name, type, ?_⟩
        rintro t ⟨⟩
        have part : trimLeft value <:+ line :=
          (List.dropWhile_suffix _).trans ((suffix_of_after? sign).trans
            ((List.dropWhile_suffix _).trans ends))
        have whole := trimmed.of_suffix part (by simpa using filled)
        obtain ⟨valueTrimmed, inside⟩ := isTrimmed_declaredValue whole
        exact ⟨valueTrimmed, List.Subset.trans inside part.subset⟩
    · split at found
      · obtain rfl := Option.some.inj found
        exact ⟨name, type, nofun⟩
      · contradiction

end Variable

end StructuredText
