import StructuredText.Proofs.Validation.Contents

/- Which contents of a literal a validation can tell apart. -/
namespace StructuredText

/-- To the checks of a line, which is read as a declaration or not, two contents of a literal in it
    look alike.  In `front` stands what comes before the contents. -/
structure LooksAlike (declared : Bool) (line front contents contents' : Text) : Prop where
  length : contents.length = contents'.length
  /-- The end of what the line opens is in both or in neither. -/
  ends : ∀ c, opener? line = some c →
    containsWord c.terminator contents = containsWord c.terminator contents'
  /-- A declaration has a `:=` with either or with neither. -/
  declares : declared = true → containsText ":=".toList front = false →
    containsText ":=".toList contents = containsText ":=".toList contents'
  assigns : declared = false → SameSigns [":=".toList] contents contents'
  parens : declared = false → containsText ":=".toList line = true ∨ beginsCall line = true →
    SameSigns parenSigns contents contents'
  /-- Neither parts the parameters of a call. -/
  commas : declared = false → beginsCall line = true → ',' ∉ contents ∧ ',' ∉ contents'
  /-- Neither ends a condition that has not ended before. -/
  conditions : declared = false → containsText ":=".toList line = true →
    ∀ p ∈ inlineOpenings, startsFoldedWord p.1 line = true →
      behindOpening? p.1 p.2 front = none →
        behindWord? p.2 none contents = none ∧ behindWord? p.2 none contents' = none

section Line
variable {mark : Char} (quote : IsQuote mark) {left contents contents' right : Text}
  {number indent : Nat} {stack : List OpenConstruct}
  (alike : LooksAlike
    (checksDeclaration stack ⟨number, withLiteral left mark contents right, indent⟩)
    (withLiteral left mark contents right) (left ++ [mark]) contents contents')
include quote alike

theorem nesting_withLiteral :
    openAfter stack ⟨number, withLiteral left mark contents right, indent⟩ =
        openAfter stack ⟨number, withLiteral left mark contents' right, indent⟩ ∧
      nestingFound stack ⟨number, withLiteral left mark contents right, indent⟩ =
        nestingFound stack ⟨number, withLiteral left mark contents' right, indent⟩ := by
  have opener : opener? (withLiteral left mark contents right) = opener? (left ++ [mark]) :=
    opener?_marked quote left _
  have ends : ∀ c, opener? (left ++ [mark]) = some c →
      containsWord c.terminator contents = containsWord c.terminator contents' :=
    fun c found => alike.ends c (opener.trans found)
  simp only [openAfter, nestingFound, isEmpty_withLiteral, checkNesting_withLiteral quote ends,
    and_self]

theorem containsText_withLiteral :
    containsText ":=".toList (withLiteral left mark contents right) =
      containsText ":=".toList (withLiteral left mark contents' right) := by
  have free : mark ∉ ":=".toList :=
    quote.not_mem_listed (of_all_words (by decide)) (List.mem_singleton_self ":=".toList)
  have parts (s : Text) : containsText ":=".toList (withLiteral left mark s right) =
      (containsText ":=".toList left ||
        (containsText ":=".toList s || containsText ":=".toList right)) := by
    rw [withLiteral, containsText_marked (by decide) free, containsText_marked (by decide) free]
  have front : containsText ":=".toList (left ++ [mark]) = containsText ":=".toList left := by
    rw [containsText_marked (by decide) free]
    exact Bool.or_false _
  cases declared : checksDeclaration stack ⟨number, withLiteral left mark contents right, indent⟩ with
  | true =>
    cases before : containsText ":=".toList left with
    | true => rw [parts, parts, before, Bool.true_or, Bool.true_or]
    | false => rw [parts, parts, alike.declares declared (front.trans before)]
  | false => rw [parts, parts, (alike.assigns declared).containsText_eq List.mem_cons_self]

theorem checkStatement_withLiteral (inCase : Bool)
    (outside : checksDeclaration stack ⟨number, withLiteral left mark contents right, indent⟩ =
      false) :
    checkAssignment inCase ⟨number, withLiteral left mark contents right, indent⟩ =
        checkAssignment inCase ⟨number, withLiteral left mark contents' right, indent⟩ ∧
      checkCall ⟨number, withLiteral left mark contents right, indent⟩ =
        checkCall ⟨number, withLiteral left mark contents' right, indent⟩ := by
  constructor
  · cases assigns : containsText ":=".toList (withLiteral left mark contents right) with
    | true =>
      have signs : SameSigns (":=".toList :: parenSigns) contents contents' :=
        (alike.assigns outside).union (alike.parens outside (Or.inl assigns))
      refine checkAssignment_withLiteral quote inCase signs fun p listed starts before => ?_
      obtain ⟨free, -, -⟩ := not_mem_inlineOpenings quote listed
      refine alike.conditions outside assigns p listed ?_ ?_
      · exact (startsFoldedWord_marked left _ quote free).trans starts
      · rw [behindOpening?_marked quote listed, before]
        exact ite_self none
    | false =>
      have missing := containsText_withLiteral quote alike
      rw [assigns] at missing
      have none {t : Text} (missing : containsText ":=".toList t = false) : ¬ ":=".toList <:+: t := by
        rw [← containsText_iff, missing]
        exact Bool.false_ne_true
      rw [checkAssignment_eq_nil (none assigns), checkAssignment_eq_nil (none missing.symm)]
  · have begins (s : Text) : beginsCall (withLiteral left mark s right) = beginsCall left := by
      rw [beginsCall, beginsCall, withLiteral, callHead?_marked quote]
    cases call : beginsCall left with
    | true =>
      have begins := (begins contents).trans call
      obtain ⟨free, free'⟩ := alike.commas outside begins
      exact checkCall_withLiteral quote alike.length free free' (alike.parens outside (Or.inr begins))
    | false =>
      rw [checkCall_eq_nil ((begins contents).trans call),
        checkCall_eq_nil ((begins contents').trans call)]

theorem checkLine_withLiteral (extra : List Text) :
    (checkLine extra ⟨number, withLiteral left mark contents right, indent⟩ stack).1 =
      (checkLine extra ⟨number, withLiteral left mark contents' right, indent⟩ stack).1 := by
  obtain ⟨after, nesting⟩ := nesting_withLiteral quote alike
  have semicolon : checkSemicolon ⟨number, withLiteral left mark contents right, indent⟩ =
      checkSemicolon ⟨number, withLiteral left mark contents' right, indent⟩ :=
    checkSemicolon_withLiteral quote alike.length (containsText_withLiteral quote alike)
  rw [checkLine_eq extra (isEmpty_withLiteral ..), checkLine_eq extra (isEmpty_withLiteral ..),
    nesting, semicolon]
  have same : checksDeclaration stack ⟨number, withLiteral left mark contents right, indent⟩ =
      checksDeclaration stack ⟨number, withLiteral left mark contents' right, indent⟩ := by
    rw [checksDeclaration, checksDeclaration, after]
  cases declared : checksDeclaration stack ⟨number, withLiteral left mark contents right, indent⟩ with
  | true =>
    rw [← same, declared, if_pos rfl, if_pos rfl, checkDeclaration_withLiteral quote]
  | false =>
    obtain ⟨assignment, call⟩ := checkStatement_withLiteral quote alike _ declared
    rw [← same, declared, if_neg Bool.false_ne_true, if_neg Bool.false_ne_true, assignment, call,
      after]

end Line

/-- Of a literal that begins in code and ends on its line the contents may be replaced by any others
    that look alike to the checks of this line: the same is found in the source. -/
theorem validate_withLiteral (extraTypes : List Text) {mark : Char} (quote : IsQuote mark)
    {before : Text} (code : regionBehindText .code 0 before = .code) {contents contents' : Text}
    (inside : IsContents mark contents) (inside' : IsContents mark contents') (behind : Text)
    {line : Line} {front : Text}
    (here : (sourceLines (withLiteral before mark contents behind))[(sourceLines before).length - 1]? =
      some line)
    (start : (lineTexts (before ++ [mark])).getLast? = some front)
    (alike : LooksAlike (checksDeclaration (openBehind [] (sourceLines before).dropLast) line)
      line.text front contents contents') :
    validate extraTypes (withLiteral before mark contents behind) =
      validate extraTypes (withLiteral before mark contents' behind) := by
  obtain ⟨number, left, right, indent, later, last, lines⟩ :=
    exists_line_withLiteral quote code behind
  obtain rfl : front = left ++ [mark] := Option.some.inj (start.symm.trans last)
  rw [lines contents inside, ← List.length_dropLast, List.getElem?_append_right (Nat.le_refl _),
    Nat.sub_self] at here
  obtain rfl := Option.some.inj here
  obtain ⟨after, -⟩ := nesting_withLiteral quote alike
  have findings := checkLine_withLiteral quote alike (extraTypes.map upper)
  rw [validate_eq_findingsOn, validate_eq_findingsOn, lines contents inside, lines contents' inside',
    findingsOn, findingsOn, (checkLines_nesting _ _ _).1, (checkLines_nesting _ _ _).1,
    openBehind_append, openBehind_append, openBehind_cons, openBehind_cons, checkLines_append,
    checkLines_append, checkLines_cons, checkLines_cons, after, findings, isEmpty_withLiteral,
    isEmpty_withLiteral]

/-- Contents with parentheses, in a line that opens an IF and holds its end only in the literal. -/
theorem validate_withLiteral_condition :
    let before := "PROGRAM P\n  IF hot THEN note := CONCAT(".toList
    let contents := "(is) THEN; END_IF".toList
    let contents' := "(we) 'so', END_IF".toList
    let behind := ", mode;\nEND_PROGRAM".toList
    let line : Line :=
      ⟨2, "IF hot THEN note := CONCAT(\"(is) THEN; END_IF\", mode;".toList, 2⟩
    let front := "IF hot THEN note := CONCAT(\"".toList
    regionBehindText .code 0 before = .code ∧
      IsContents '"' contents ∧ IsContents '"' contents' ∧
      (sourceLines (withLiteral before '"' contents behind))[(sourceLines before).length - 1]? =
        some line ∧
      (lineTexts (before ++ ['"'])).getLast? = some front ∧
      LooksAlike (checksDeclaration (openBehind [] (sourceLines before).dropLast) line)
        line.text front contents contents' ∧
      validate [] (withLiteral before '"' contents' behind) = [⟨2, 22, .unbalanced⟩] := by
  intro before contents contents' behind line front
  have code : regionBehindText .code 0 before = .code := by decide
  have inside : IsContents '"' contents := ⟨by decide, by decide⟩
  have inside' : IsContents '"' contents' := ⟨by decide, by decide⟩
  have here : (sourceLines (withLiteral before '"' contents behind))[(sourceLines before).length - 1]? =
      some line := by decide
  have start : (lineTexts (before ++ ['"'])).getLast? = some front := by decide
  have opener : opener? line.text = some .ifBlock := by decide
  have noCall : beginsCall line.text = false := by decide
  have alike : LooksAlike (checksDeclaration (openBehind [] (sourceLines before).dropLast) line)
      line.text front contents contents' := by
    refine ⟨by decide, ?_, ?_, ?_, ?_, ?_, ?_⟩
    · intro c found
      obtain rfl := Option.some.inj (opener.symm.trans found)
      decide
    · intro declared
      exact absurd declared (by decide)
    · exact fun _ => by decide
    · exact fun _ _ => by decide
    · exact fun _ call => absurd (noCall.symm.trans call) Bool.false_ne_true
    · decide
  have found : validate [] (withLiteral before '"' contents behind) = [⟨2, 22, .unbalanced⟩] := by
    decide
  exact ⟨code, inside, inside', here, start, alike,
    (validate_withLiteral [] (Or.inr rfl) code inside inside' behind here start alike).symm.trans found⟩

/-- A parenthesis in a literal is taken for one of the line. -/
theorem validate_withLiteral_paren :
    let before := "PROGRAM P\ns := ".toList
    let behind := ";\nEND_PROGRAM".toList
    regionBehindText .code 0 before = .code ∧ "ab".length = "a(".length ∧
      (∀ c ∈ "ab(".toList, c ≠ '\'' ∧ c ≠ '"' ∧ c ≠ '\n') ∧
      withLiteral before '\'' "a(".toList behind = "PROGRAM P\ns := 'a(';\nEND_PROGRAM".toList ∧
      validate [] (withLiteral before '\'' "ab".toList behind) = [] ∧
      validate [] (withLiteral before '\'' "a(".toList behind) = [⟨2, 5, .unbalanced⟩] := by
  intro before behind
  have code : regionBehindText .code 0 before = .code := by decide
  have passed : validate [] (withLiteral before '\'' "ab".toList behind) = [] := by decide
  have found : validate [] (withLiteral before '\'' "a(".toList behind) = [⟨2, 5, .unbalanced⟩] := by
    decide
  exact ⟨code, by decide, of_all (by decide), by decide, passed, found⟩

end StructuredText
