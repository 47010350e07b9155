import StructuredText.Proofs.Source.BareLine
import StructuredText.Proofs.Validation.Displacement
import StructuredText.Proofs.Validation.WrittenLine

/- A program with a single line in it.  A line that begins with no keyword closes nothing and opens
   at most a variable section; where it opens none, what is found in the program is what the checks
   of statements find in the line. -/
namespace StructuredText

def programAround (line : Text) : Text :=
  "PROGRAM P".toList ++ '\n' :: (line ++ '\n' :: "END_PROGRAM".toList)

theorem IsCommentFree.clean {t : Text} (free : IsCommentFree t) :
    cleanLine .code t = t ∧ (regionAfter .code 0 t).nextLine = .code := by
  have clean : cleanFrom .code 0 t = t :=
    cleanFrom_code free.unquoted free.noLineComment free.noBlockComment
  have outside : regionAfter .code 0 t ≠ .blockComment :=
    regionAfter_of_clean ⟨by decide, by decide⟩ clean
  refine ⟨clean, ?_⟩
  generalize regionAfter .code 0 t = region at outside ⊢
  cases region with
  | blockComment => contradiction
  | _ => rfl

theorem sourceLines_programAround {line : Text} (free : IsCommentFree line) :
    sourceLines (programAround line) =
      [⟨1, "PROGRAM P".toList, 0⟩, Line.ofCleaned 2 line, ⟨3, "END_PROGRAM".toList, 0⟩] := by
  have header : Line.ofCleaned 1 (cleanLine .code "PROGRAM P".toList) =
      ⟨1, "PROGRAM P".toList, 0⟩ := by decide
  have inCode : (regionAfter .code 0 "PROGRAM P".toList).nextLine = .code := by decide
  have footer : linesFrom 3 .code ["END_PROGRAM".toList] = [⟨3, "END_PROGRAM".toList, 0⟩] := by
    decide
  have oneLine : '\n' ∉ "PROGRAM P".toList ∧ '\n' ∉ "END_PROGRAM".toList := by decide
  obtain ⟨clean, behind⟩ := free.clean
  unfold programAround
  rw [sourceLines_eq_linesFrom, List.splitOn_append_cons_self_of_not_mem oneLine.1,
    List.splitOn_append_cons_self_of_not_mem free.oneLine, List.splitOn_eq_singleton oneLine.2,
    linesFrom, header, inCode, linesFrom, clean, behind, footer]

section Bracket
variable {t : Text} (free : beginsWithKeyword t = false)
include free

theorem startsWithWord_of_free {v : Text} (listed : v ∈ keywords) : startsWithWord v t = false := by
  have capital : ∀ v ∈ keywords, ∀ c ∈ v, fold c = c := of_all_words (by decide)
  cases starts : startsWithWord v t with
  | false => rfl
  | true =>
    obtain ⟨rest, rfl, ends⟩ := eq_append_of_startsWithWord starts
    have folded : startsFoldedWord v (v ++ rest) = true := by
      rw [startsFoldedWord, startsFolded_self v rest (capital v listed), List.drop_left, ends]
      rfl
    rw [startsFoldedWord_of_free free listed] at folded
    exact absurd folded Bool.false_ne_true

theorem bracket?_of_free : bracket? t = none ∨ bracket? t = some (.opens .declarations) := by
  have closes : closed? t = none := by
    rw [closed?, List.find?_eq_none]
    intro c _
    rw [startsWithWord_of_free free c.mem_keywords.2]
    exact Bool.false_ne_true
  have opens : opener? t = none ∨ opener? t = some .declarations := by
    have noUnit : PouKind.all.find? (opensUnit · t) = none := by
      rw [List.find?_eq_none]
      intro kind _ opens
      have starts := startsWithWord_of_opensUnit opens
      have listed : kind.keyword ∈ keywords := (Construct.unit kind).mem_keywords.1
      rw [startsWithWord_of_free free listed] at starts
      contradiction
    have noControl : Construct.controls.find? (fun c => startsWithWord c.keyword t) = none := by
      rw [List.find?_eq_none]
      intro c _
      rw [startsWithWord_of_free free c.mem_keywords.1]
      exact Bool.false_ne_true
    simp only [opener?, noUnit, noControl]
    split
    · exact Or.inr rfl
    · exact Or.inl rfl
  rw [bracket?_eq_none, bracket?_eq_opens]
  rcases opens with none | declares
  · exact Or.inl ⟨by rw [opened?, none]; rfl, closes⟩
  · cases missing : containsWord Construct.declarations.terminator t with
    | false => exact Or.inr (by rw [opened?, declares]; simp [missing])
    | true => exact Or.inl ⟨by rw [opened?, declares]; simp [missing], closes⟩

end Bracket

theorem checks_of_empty {line : Line} (empty : line.text = []) :
    checkSemicolon line = [] ∧ checkAssignment false line = [] ∧ checkCall line = [] := by
  obtain ⟨number, text, indent⟩ := line
  obtain rfl : text = [] := empty
  exact ⟨rfl, rfl, rfl⟩

section Program
variable (extraTypes : List Text) {line : Text} (free : IsCommentFree line)
include free

theorem findings_programAround :
    validate extraTypes (programAround line) =
      (checkLines (extraTypes.map upper)
          [Line.ofCleaned 2 line, ⟨3, "END_PROGRAM".toList, 0⟩] [⟨.unit .program, 1⟩]).1 ++
        unclosedFindings (openBehind [⟨.unit .program, 1⟩]
          [Line.ofCleaned 2 line, ⟨3, "END_PROGRAM".toList, 0⟩]) := by
  have opened : openAfter [] ⟨1, "PROGRAM P".toList, 0⟩ = [⟨.unit .program, 1⟩] := by decide
  have quiet : (checkLine (extraTypes.map upper) ⟨1, "PROGRAM P".toList, 0⟩ []).1 = [] := rfl
  have filled : "PROGRAM P".toList.isEmpty = false := rfl
  rw [validate_eq_findingsOn, findingsOn, sourceLines_programAround free,
    (checkLines_nesting _ _ []).1, openBehind_cons, checkLines_cons, opened, quiet, filled]
  rfl

/-- A line that neither opens nor closes anything is checked as a statement. -/
theorem validate_programAround (token : bracket? (trim line) = none) :
    validate extraTypes (programAround line) =
      checkSemicolon (Line.ofCleaned 2 line) ++ (checkAssignment false (Line.ofCleaned 2 line) ++
        checkCall (Line.ofCleaned 2 line)) := by
  have text : (Line.ofCleaned 2 line).text = trim line := rfl
  rw [← text] at token
  obtain ⟨found, stays⟩ := nestingStep_plain [⟨.unit .program, 1⟩] token
  have closed : openAfter [⟨.unit .program, 1⟩] ⟨3, "END_PROGRAM".toList, 0⟩ = [] := by decide
  have quiet : (checkLines (extraTypes.map upper) [⟨3, "END_PROGRAM".toList, 0⟩]
      [⟨.unit .program, 1⟩]).1 = [] := rfl
  rw [findings_programAround extraTypes free, checkLines_cons, openBehind_cons, stays,
    openBehind_cons, closed, quiet, List.append_nil]
  cases filled : (Line.ofCleaned 2 line).text.isEmpty with
  | true =>
    obtain ⟨semicolon, assignment, call⟩ := checks_of_empty (List.isEmpty_iff.mp filled)
    rw [semicolon, assignment, call]
    rfl
  | false =>
    have outside : checksDeclaration [⟨.unit .program, 1⟩] (Line.ofCleaned 2 line) = false := by
      rw [checksDeclaration, stays]
      rfl
    rw [if_neg Bool.false_ne_true, checkLine_eq _ filled, found, outside, stays]
    exact List.append_nil _

theorem unclosed_programAround (token : bracket? (trim line) = some (.opens .declarations)) :
    (⟨2, 0, .unclosed .declarations⟩ : Finding) ∈ validate extraTypes (programAround line) := by
  have pushed : openAfter [⟨.unit .program, 1⟩] (Line.ofCleaned 2 line) =
      [⟨.declarations, 2⟩, ⟨.unit .program, 1⟩] := (nestingStep_opens _ token).2
  have stays : openAfter [⟨.declarations, 2⟩, ⟨.unit .program, 1⟩]
      ⟨3, "END_PROGRAM".toList, 0⟩ = [⟨.declarations, 2⟩, ⟨.unit .program, 1⟩] := by decide
  rw [findings_programAround extraTypes free, openBehind_cons, pushed, openBehind_cons, stays]
  exact List.mem_append_right _ (List.mem_cons_of_mem _ List.mem_cons_self)

end Program

end StructuredText
