import StructuredText.Proofs.Validation.Displacement

/- The spacing of a source: the blanks in front of its lines and at their ends, and whether a
   carriage return stands before a newline.  It is of no account, but that columns are counted from
   where the physical line begins. -/
namespace StructuredText

def isSpacing (c : Char) : Bool := c = ' ' || c = '\t'

/-- A line with spaces and tabs put in front of it, `added` of them, and with others at its end.
    A carriage return counts as one at the end, whether it was there before or not. -/
inductive IsRespaced : (added : Nat) → Text → Text → Prop
  | intro (front line ending ending' : Text) (inFront : ∀ c ∈ front, isSpacing c = true)
    (atEnd : ∀ c ∈ ending, isSpacing c = true ∨ c = '\r')
    (atEnd' : ∀ c ∈ ending', isSpacing c = true ∨ c = '\r') :
    IsRespaced front.length (line ++ ending) (front ++ (line ++ ending'))

inductive AreRespaced (added : Nat → Nat) : (number : Nat) → List Text → List Text → Prop
  | nil {number : Nat} : AreRespaced added number [] []
  | cons {number : Nat} {line line' : Text} {rest rest' : List Text}
    (first : IsRespaced (added number) line line')
    (later : AreRespaced added (number + 1) rest rest') :
    AreRespaced added number (line :: rest) (line' :: rest')

theorem isBlank_of_isSpacing {c : Char} (spacing : isSpacing c = true) : isBlank c = true := by
  have cases_ : c = ' ' ∨ c = '\t' := by simpa [isSpacing] using spacing
  rcases cases_ with rfl | rfl <;> decide

theorem isBlank_of_atEnd {c : Char} (ends : isSpacing c = true ∨ c = '\r') : isBlank c = true := by
  rcases ends with spacing | rfl
  · exact isBlank_of_isSpacing spacing
  · decide

theorem IsRespaced.line {added : Nat} {line line' : Text} (respaced : IsRespaced added line line')
    {start : Region} (between : start = .code ∨ start = .blockComment) (number : Nat) :
    Line.ofCleaned number (cleanLine start line') =
        (Line.ofCleaned number (cleanLine start line)).movedRight added ∧
      (regionAfter start 0 line').nextLine = (regionAfter start 0 line).nextLine := by
  cases respaced with
  | intro front line ending ending' inFront atEnd atEnd' =>
    obtain ⟨same, behind⟩ := cleanLine_trailing (fun c mem => isBlank_of_atEnd (atEnd c mem))
      start number line
    obtain ⟨same', behind'⟩ := cleanLine_trailing (fun c mem => isBlank_of_atEnd (atEnd' c mem))
      start number line
    obtain ⟨moved, kept⟩ := cleanLine_leading (fun c mem => isBlank_of_isSpacing (inFront c mem))
      between number (line ++ ending')
    exact ⟨by rw [moved, same', same], by rw [kept, behind', behind]⟩

theorem AreRespaced.linesFrom {added : Nat → Nat} {number : Nat} {raw raw' : List Text}
    (respaced : AreRespaced added number raw raw') {start : Region}
    (between : start = .code ∨ start = .blockComment) :
    linesFrom number start raw' =
      (linesFrom number start raw).map (Displacement.line ⟨fun _ => 0, added⟩) := by
  induction respaced generalizing start with
  | nil => rfl
  | @cons number line line' rest rest' first later ih =>
    obtain ⟨here, behind⟩ := first.line between number
    rw [StructuredText.linesFrom, StructuredText.linesFrom, List.map_cons, here, behind,
      ih (Region.nextLine_cases _)]
    rfl

/-- A source is read and validated alike in every spacing; only a column, where a finding has one,
    goes with the text that is moved. -/
theorem validate_respaced {added : Nat → Nat} {source source' : Text}
    (respaced : AreRespaced added 1 (source.splitOn '\n') (source'.splitOn '\n')) :
    Pou.ofSource? source' = Pou.ofSource? source ∧
      ∀ extraTypes, validate extraTypes source' = (validate extraTypes source).map fun f =>
        { f with column := if f.column = 0 then 0 else f.column + added f.line } := by
  have lines : sourceLines source' =
      (sourceLines source).map (Displacement.line ⟨fun _ => 0, added⟩) := by
    rw [sourceLines_eq_linesFrom, sourceLines_eq_linesFrom, respaced.linesFrom (Or.inl rfl)]
  constructor
  · have texts : lineTexts source' = lineTexts source := by
      rw [lineTexts, lines, List.map_map]
      rfl
    exact congrArg (fun texts => (readLines texts).pou) texts
  · intro extraTypes
    rw [validate_eq_findingsOn, validate_eq_findingsOn, lines, findingsOn_map]
    rfl

/-- Blanks in a block comment and on a line without text, and carriage returns. -/
theorem validate_respaced_comment :
    let source := "IF a THEN (* from\n here\r\n *) x := 1\n".toList
    let source' := "\t IF a THEN (* from\r\n\t here \r\t\n  *) x := 1\n ".toList
    let added := fun number => if number = 1 then 2 else 1
    AreRespaced added 1 (source.splitOn '\n') (source'.splitOn '\n') ∧
      Pou.ofSource? source' = Pou.ofSource? source ∧
      validate [] source' = [⟨3, 12, .missingSemicolon⟩, ⟨1, 0, .unclosed .ifBlock⟩] := by
  intro source source' added
  have spaces {t : Text} (all : t.all isSpacing = true) : ∀ c ∈ t, isSpacing c = true :=
    List.all_eq_true.mp all
  have ends {t : Text} (all : t.all (fun c => isSpacing c || c = '\r') = true) :
      ∀ c ∈ t, isSpacing c = true ∨ c = '\r' := by
    simpa using all
  have respaced : AreRespaced added 1 (source.splitOn '\n') (source'.splitOn '\n') :=
    .cons (.intro "\t ".toList "IF a THEN (* from".toList [] "\r".toList
        (spaces rfl) (ends rfl) (ends rfl))
      (.cons (.intro "\t".toList " here".toList "\r".toList " \r\t".toList
          (spaces rfl) (ends rfl) (ends rfl))
        (.cons (.intro " ".toList " *) x := 1".toList [] [] (spaces rfl) (ends rfl) (ends rfl))
          (.cons (.intro " ".toList [] [] [] (spaces rfl) (ends rfl) (ends rfl)) .nil)))
  obtain ⟨read, checked⟩ := validate_respaced respaced
  have found : validate [] source = [⟨3, 11, .missingSemicolon⟩, ⟨1, 0, .unclosed .ifBlock⟩] := by
    decide
  refine ⟨respaced, read, ?_⟩
  rw [checked, found]
  rfl

end StructuredText
