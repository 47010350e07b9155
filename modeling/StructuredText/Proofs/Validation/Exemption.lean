import StructuredText.Proofs.Text.Marked
import StructuredText.Proofs.Validation.Imbalance

/- Which names hide a missing semicolon.  A line needs none if it begins like the frame of a
   construct.  Of the words for it most have to end where the name does, but two are only compared
   with its beginning, so that a name may go on behind them. -/
namespace StructuredText

def openStarts : List Text := ["VAR", "END_"].map String.toList

/-- The capitals of the name begin in a way that is taken for the frame of a construct. -/
def beginsLikeFrame (name : Text) : Bool := openStarts.any (·.isPrefixOf (upper name))

def openAssignment (target value : Text) : Text := target ++ " := ".toList ++ value

section Assignment
variable {x : Text} (word : NonKeyword x)
include word

theorem isExempt_openAssignment (y : Text) :
    isExempt (openAssignment x y) = beginsLikeFrame x := by
  have shape : openAssignment x y = x ++ ' ' :: (":= ".toList ++ y) := by
    rw [openAssignment, List.append_assoc]
    rfl
  have start {v : Text} (solid : fold ' ' ∉ v) :
      startsFolded v (openAssignment x y) = v.isPrefixOf (upper x) := by
    rw [startsFolded_eq_isPrefixOf, shape, List.map_append, List.map_cons,
      isPrefixOf_append solid, word.map_fold]
  have noWord : exemptWords.any (startsFoldedWord · (openAssignment x y)) = false := by
    have listed : ∀ v ∈ exemptWords, v ∈ keywords := by decide
    rw [List.any_eq_false]
    intro v mem
    rw [shape, startsFoldedWord_of_nonKeyword word (listed v mem) (by decide)]
    exact Bool.false_ne_true
  rw [isExempt, noWord, start (by decide), start (by decide), beginsLikeFrame, openStarts]
  simp

variable {y : Text} (name : Name y) {line : Line} (text : line.text = openAssignment x y)
include text

theorem checkCall_openAssignment : checkCall line = [] := by
  have head : callHead? line.text = none := by
    have ends : atWordEnd (" := ".toList ++ y) = true := rfl
    have behind : trimLeft (" := ".toList ++ y) = ":= ".toList ++ y := rfl
    rw [text, openAssignment, List.append_assoc, callHead?, word?_append word.ne_nil word.isWord ends]
    simp only [behind]
    rfl
  rw [checkCall, head]

include name

theorem checkAssignment_openAssignment : checkAssignment false line = [] := by
  have free : beginsWithKeyword line.text = false := by
    have begins := beginsWithKeyword_of_nonKeyword word (d := ' ') (by decide) (":= ".toList ++ y)
    rw [text, openAssignment, List.append_assoc]
    exact begins
  have target : isTarget x = true := by
    rw [isTarget, Bool.and_eq_true, List.all_eq_true]
    exact ⟨by simpa using word.ne_nil, fun c mem => by simp [word.isWord c mem]⟩
  have noColon : ':' ∉ y := fun mem => absurd (name.letters _ mem) (by decide)
  have balanced := balanced_of_free fun c mem => paren_of_isWord (name.letters c mem)
  exact checkAssignment_spaced free text target noColon (hasEqualParens_of_balanced balanced)

theorem checkSemicolon_openAssignment : checkSemicolon line =
    if beginsLikeFrame x then [] else [line.finding line.text.length .missingSemicolon] := by
  have assigns : containsText ":=".toList line.text = true := by
    rw [containsText_iff, text]
    exact ⟨x ++ [' '], ' ' :: y, by simp [openAssignment]⟩
  have last : line.text.getLast? ≠ some ';' := by
    obtain ⟨d, last⟩ := Option.ne_none_iff_exists'.mp (mt List.getLast?_eq_none_iff.mp name.nonempty)
    have letter := name.letters d (List.mem_of_getLast? last)
    rw [text, openAssignment, List.getLast?_append, last, Option.some_or]
    intro same
    rw [Option.some.inj same] at letter
    exact absurd letter (by decide)
  rw [checkSemicolon, needsSemicolon, assigns, Bool.true_or, Bool.true_or, Bool.and_true, text,
    isExempt_openAssignment word]
  rw [text] at last
  cases beginsLikeFrame x <;> simp [last]

end Assignment

/-- The assignment of a name to one that is no keyword, without its semicolon: that the semicolon is
    missing is found just behind the line, unless the capitals of the target begin with VAR or END_;
    nothing else is found. -/
theorem validate_openAssignment (extraTypes : List Text) {x y : Text}
    (identifier : isIdentifier x = true) (noKeyword : upper x ∉ keywords)
    (noSection : upper x ∉ sectionKeywords) (named : isName y = true) :
    validate extraTypes (programAround (openAssignment x y)) =
      if beginsLikeFrame x then []
      else [⟨2, (openAssignment x y).length + 1, .missingSemicolon⟩] := by
  have word : NonKeyword x := ⟨identifier_of_isIdentifier identifier, noKeyword, noSection⟩
  have name := name_of_isName named
  have trimmed : IsTrimmed (openAssignment x y) :=
    word.isTrimmed.between (isTrimmed_of_solid name.nonempty
      fun c mem => isBlank_of_isWord (name.letters c mem)) _
  have line : Line.ofCleaned 2 (openAssignment x y) = ⟨2, openAssignment x y, 0⟩ := by
    simpa using Line.ofCleaned_of_trimmed (a := []) (b := []) (by simp) (by simp) 2 trimmed
  have code : ∀ c ∈ openAssignment x y, isCodeChar c = true := by
    rw [openAssignment, List.forall_mem_append, List.forall_mem_append]
    exact ⟨⟨fun c mem => isCodeChar_of_isWord (word.isWord c mem), of_all (by decide)⟩,
      fun c mem => isCodeChar_of_isWord (name.letters c mem)⟩
  have bare := isBareLine_of_code code trimmed
  have plain : IsCommentFree (openAssignment x y) :=
    ⟨bare.oneLine, bare.unquoted, bare.noLineComment, bare.noBlockComment⟩
  have token : bracket? (trim (openAssignment x y)) = none := by
    rw [trim_eq_self trimmed, openAssignment, List.append_assoc]
    exact bracket?_of_silent word.isSilent rfl
  rw [validate_programAround extraTypes plain token, line,
    checkAssignment_openAssignment word name rfl, checkCall_openAssignment word rfl,
    checkSemicolon_openAssignment word name rfl, List.append_nil, List.append_nil]
  cases beginsLikeFrame x with
  | true => rfl
  | false =>
    rw [if_neg Bool.false_ne_true, if_neg Bool.false_ne_true, Line.finding, Line.column,
      Nat.zero_add]

/-- Names that begin like words of the language, in small letters and in mixed ones. -/
theorem validate_openAssignment_endless :
    let x := "endless".toList
    let x' := "End_stop".toList
    let y := "Variable1".toList
    isIdentifier x = true ∧ isIdentifier x' = true ∧ isName y = true ∧
      (upper x ∉ keywords ∧ upper x ∉ sectionKeywords) ∧
      (upper x' ∉ keywords ∧ upper x' ∉ sectionKeywords) ∧
      validate [] (programAround (openAssignment x y)) = [⟨2, 21, .missingSemicolon⟩] ∧
      validate [] (programAround (openAssignment x' y)) = [] := by
  intro x x' y
  have identifier : isIdentifier x = true ∧ isIdentifier x' = true := by decide
  have named : isName y = true := by decide
  have free : upper x ∉ keywords ∧ upper x ∉ sectionKeywords := by decide
  have free' : upper x' ∉ keywords ∧ upper x' ∉ sectionKeywords := by decide
  have starts : beginsLikeFrame x = false ∧ beginsLikeFrame x' = true := by decide
  refine ⟨identifier.1, identifier.2, named, free, free', ?_, ?_⟩
  · rw [validate_openAssignment [] identifier.1 free.1 free.2 named, starts.1]
    rfl
  · rw [validate_openAssignment [] identifier.2 free'.1 free'.2 named, starts.2]
    rfl

/-- A name that is no keyword but begins like one, with the semicolon missing behind it. -/
theorem validate_various :
    let x := "various".toList
    isIdentifier x = true ∧ (upper x ∉ keywords ∧ upper x ∉ sectionKeywords) ∧
      programAround (openAssignment x "y".toList) =
        "PROGRAM P\nvarious := y\nEND_PROGRAM".toList ∧
      validate [] "PROGRAM P\nvarious := y\nEND_PROGRAM".toList = [] := by
  decide

end StructuredText
