import StructuredText.Diagram.Drawing
import StructuredText.Diagram.Recognition
import StructuredText.Proofs.Duration
import StructuredText.Proofs.Expression.NameOrder
import StructuredText.Proofs.Expression.Reading
import StructuredText.Proofs.Pou.StatementLine

/- A line that calls a timer, and how it is read twice: recognised by its look, where the duration
   counts up to its first unit, and as a statement, where it counts as a whole. -/
namespace StructuredText

def smallUnits : List Text := ["ms", "s", "m", "h"].map String.toList

structure IsSmallPart (part : Text × Text) : Prop where
  filled : part.1 ≠ []
  digits : ∀ c ∈ part.1, isDecimal c = true
  unit : part.2 ∈ smallUnits

theorem IsSmallPart.isDurationPart {part : Text × Text} (small : IsSmallPart part) :
    IsDurationPart part := by
  have known : ∀ unit ∈ smallUnits, unit.map fold ∈ units := by decide
  exact ⟨small.filled, small.digits, known part.2 small.unit⟩

def timerArguments (v : Text) (parts : List (Text × Text)) : Text :=
  ", ".toList.intercalate ["IN := ".toList ++ v, "PT := ".toList ++ durationText parts]

def timerLine (name v : Text) (parts : List (Text × Text)) : Text :=
  name ++ parenthesized (timerArguments v parts) ++ [';']

def isTimerChar (c : Char) : Bool := isWord c || " :=,#".toList.contains c

theorem isTimerChar_of_isWord {c : Char} (word : isWord c = true) : isTimerChar c = true := by
  rw [isTimerChar, word, Bool.true_or]

theorem find_unit {unit rest : Text} (small : unit ∈ smallUnits)
    (ends : ∀ c ∈ rest.head?, fold c ≠ 'S') : ∃ u : String, u.toList = unit ∧
      ["ms", "s", "m", "h"].find? (fun u => u.toList.isPrefixOf (unit ++ rest)) = some u := by
  have apart : "ms".toList.isPrefixOf ('m' :: rest) = false := by
    cases rest with
    | nil => rfl
    | cons c rest =>
      have other : ('s' == c) = false := by
        rw [beq_eq_false_iff_ne]
        rintro rfl
        exact ends 's' rfl (by decide)
      have same : "ms".toList.isPrefixOf ('m' :: c :: rest) = ('s' == c && true) := rfl
      rw [same, other]
      rfl
  simp only [smallUnits, List.map_cons, List.map_nil, List.mem_cons, List.not_mem_nil, or_false]
    at small
  rcases small with rfl | rfl | rfl | rfl
  · exact ⟨"ms", rfl, rfl⟩
  · exact ⟨"s", rfl, rfl⟩
  · refine ⟨"m", rfl, ?_⟩
    rw [List.find?_cons_of_neg (by rw [Bool.not_eq_true]; exact apart)]
    rfl
  · exact ⟨"h", rfl, rfl⟩

section Recognised
variable {name v : Text} (word : Name name) (value : Name v) {first : Text × Text}
  {rest : List (Text × Text)} (small : ∀ part ∈ first :: rest, IsSmallPart part)
include word value small

theorem timerCall?_timerLine :
    timerCall? (timerLine name v (first :: rest)) = some ⟨name, first.1, first.2⟩ := by
  obtain ⟨here, later⟩ := List.forall_mem_cons.mp small
  let behind := partsText rest ++ ");".toList
  have ends : ∀ c ∈ behind.head?, fold c ≠ 'S' := by
    apply noS_partsText fun part mem => (later part mem).isDurationPart
    intro c first
    obtain rfl := Option.some.inj first
    decide
  let literal := first.1 ++ first.2 ++ behind
  let preset := ", PT := T#".toList ++ literal
  have shape : timerLine name v (first :: rest) =
      name ++ '(' :: ("IN := ".toList ++ (v ++ preset)) := by
    simp [timerLine, timerArguments, parenthesized, durationText, partsText, preset,
      literal, behind]
  have named : word? (name ++ '(' :: ("IN := ".toList ++ (v ++ preset))) =
      some (name, '(' :: ("IN := ".toList ++ (v ++ preset))) :=
    word?_append word.nonempty word.letters rfl
  have opened : afterToken? "(" ('(' :: ("IN := ".toList ++ (v ++ preset))) =
      some ("IN := ".toList ++ (v ++ preset)) := after?_eq_some_iff.mpr rfl
  have input : afterToken? "IN" ("IN := ".toList ++ (v ++ preset)) =
      some (" := ".toList ++ (v ++ preset)) := after?_eq_some_iff.mpr rfl
  have assigned : afterToken? ":=" (" := ".toList ++ (v ++ preset)) =
      some (' ' :: (v ++ preset)) := after?_eq_some_iff.mpr rfl
  have valued : word? (trimLeft (' ' :: (v ++ preset))) = some (v, preset) := by
    have solid : trimLeft (' ' :: (v ++ preset)) = v ++ preset :=
      trimLeft_append value.isTrimmed.first _
    rw [solid, word?_append value.nonempty value.letters rfl]
  have comma : after? [','] preset = some (" PT := T#".toList ++ literal) :=
    after?_eq_some_iff.mpr rfl
  have time : afterToken? "PT" (" PT := T#".toList ++ literal) =
      some (" := T#".toList ++ literal) := after?_eq_some_iff.mpr rfl
  have assigned' : afterToken? ":=" (" := T#".toList ++ literal) =
      some (" T#".toList ++ literal) := after?_eq_some_iff.mpr rfl
  have mark : afterToken? "T#" (" T#".toList ++ literal) = some literal :=
    after?_eq_some_iff.mpr rfl
  obtain ⟨digits, unit⟩ := here.isDurationPart.takeWhile_digits behind
  obtain ⟨u, same, found⟩ := find_unit here.unit ends
  have filled : first.1.isEmpty = false := List.isEmpty_eq_false_iff.mpr here.filled
  rw [shape, timerCall?, named]
  simp only [Option.bind_eq_bind, Option.bind_some, opened, input, assigned, valued, comma, time,
    assigned', mark, literal, digits, unit, filled, found, same]
  rfl

/-- The recogniser goes no further than the first part of the duration. -/
theorem search?_timerLine :
    search? timerCall? (timerLine name v (first :: rest)) = some ⟨name, first.1, first.2⟩ := by
  have found := timerCall?_timerLine word value small
  obtain ⟨c, t, filled⟩ := List.exists_cons_of_ne_nil word.nonempty
  rw [timerLine, filled] at found ⊢
  simp only [List.cons_append] at found ⊢
  rw [search?, found]

end Recognised

section Literal
variable {parts : List (Text × Text)} (written : ∀ part ∈ parts, IsDurationPart part)
include written

/-- A duration is not broken down: the reader of expressions takes it for a name. -/
theorem isSoleText_durationText (nonempty : parts ≠ []) : IsSoleText (durationText parts) := by
  have letters := isWord_of_mem_partsText written
  have mark : '#' ∈ durationText parts := by simp [durationText]
  have noCall : '(' ∉ durationText parts := by
    have absent : '(' ∉ partsText parts := fun mem => absurd (letters _ mem) (by decide)
    simp [durationText, absent]
  have noOperator (op : Connective) : partsText parts ≠ op.symbol := by
    intro same
    have first := head_partsText written
    rw [same] at first
    cases op with
    | and => exact absurd (first 'A' rfl) (by decide)
    | or => exact absurd (first 'O' rfl) (by decide)
  have tighter (k : Nat) : Tighter k (durationText parts) := by
    have behind : Tighter k (partsText parts) :=
      tighter_word (partsText_ne_nil written nonempty) letters fun op _ => noOperator op
    refine .word (w := ['T']) (by simp) (of_all rfl) (fun op _ => ?_) rfl
      (.mark (by decide) (by decide) (by decide) (fun _ => rfl) behind)
    cases op <;> decide
  refine ⟨isTrimmed_durationText written, isEnclosed_of_head (by simp [durationText]), ?_⟩
  apply Shape.ofStripped_of_tighter _ (numeral?_eq_none mark (by decide)) rfl tighter noCall
  intro value same
  rw [same] at mark
  revert mark
  cases value <;> decide

end Literal

section Line
variable {name v : Text} (word : Name name) (value : Name v) {parts : List (Text × Text)}
  (written : ∀ part ∈ parts, IsDurationPart part)
include value written

theorem timerPreset_arguments (nonempty : parts ≠ []) {total : Nat}
    (whole : duration? (durationText parts) = some total) :
    timerPreset ([v, durationText parts].map (Expression.read callLevels)) = total := by
  have literal : Expression.read callLevels (durationText parts) =
      .variable (durationText parts) := by
    have back := Expression.read_of_isSoleText (isSoleText_durationText written nonempty)
      (a := []) (b := []) (of_all rfl) (of_all rfl) (callLevels - 1)
    rwa [List.nil_append, List.append_nil] at back
  have silent (u : Text) (named : Expression.read callLevels v = .variable u) :
      duration? u = none := by
    apply duration?_eq_none
    intro hash
    have stands := Expression.standIn_names callLevels v
    rw [named] at stands
    cases stands with
    | @cons a _ t _ later =>
      have inside : '#' ∈ a ++ u ++ t := List.mem_append_left t (List.mem_append_right a hash)
      exact absurd (value.letters _ inside) (by decide)
  rw [timerPreset, List.map_cons, List.map_singleton, literal]
  cases read : Expression.read callLevels v with
  | «variable» u => simp only [List.findSome?_cons, silent u read, whole, Option.getD_some]
  | _ => simp only [List.findSome?_cons, whole, Option.getD_some]

theorem chars_timerArguments : ∀ c ∈ timerArguments v parts, isTimerChar c = true := by
  rw [timerArguments, intercalate_cons, List.flatMap_singleton, durationText]
  simp only [List.forall_mem_append, List.forall_mem_cons]
  exact ⟨⟨of_all rfl, fun c mem => isTimerChar_of_isWord (value.letters c mem)⟩, of_all rfl,
    of_all rfl, rfl, rfl,
    fun c mem => isTimerChar_of_isWord (isWord_of_mem_partsText written c mem)⟩

theorem argumentTexts_timerArguments :
    argumentTexts (timerArguments v parts) = [v, durationText parts] := by
  have duration := isTrimmed_durationText written
  have input : argumentValue ("IN := ".toList ++ v) = v :=
    argumentValue_named (w := "IN".toList) (by decide) (of_all rfl) value.isTrimmed
  have preset : argumentValue ("PT := ".toList ++ durationText parts) = durationText parts :=
    argumentValue_named (w := "PT".toList) (by decide) (of_all rfl) duration
  have solid : IsTrimmed "IN :=".toList ∧ IsTrimmed "PT :=".toList :=
    ⟨⟨⟨'I', rfl, by decide⟩, '=', rfl, by decide⟩, ⟨'P', rfl, by decide⟩, '=', rfl, by decide⟩
  have commaFree : ',' ∉ v ∧ ',' ∉ partsText parts :=
    ⟨fun mem => absurd (value.letters _ mem) (by decide),
      fun mem => absurd (isWord_of_mem_partsText written _ mem) (by decide)⟩
  rw [timerArguments, argumentTexts_intercalate]
  · rw [List.map_cons, List.map_singleton, input, preset]
  · rw [List.forall_mem_cons, List.forall_mem_singleton]
    exact ⟨solid.1.between value.isTrimmed [' '], solid.2.between duration [' ']⟩
  · rw [List.forall_mem_cons, List.forall_mem_singleton]
    simp [commaFree, durationText]

include word

theorem isBareLine_timerLine : IsBareLine (timerLine name v parts) := by
  have signs : ∀ c ∈ "\n'\"/*".toList, isTimerChar c = false := of_all rfl
  have plain {c : Char} (char : isTimerChar c = true) : c ∉ "\n'\"/*".toList :=
    fun sign => Bool.noConfusion (char.symm.trans (signs c sign))
  have semicolon : IsTrimmed [';'] := isTrimmed_of_solid (by simp) (of_all rfl)
  apply IsCommentFree.isBareLine
  · apply isCommentFree_of_chars
    rw [timerLine, parenthesized]
    simp only [List.forall_mem_append, List.forall_mem_cons]
    exact ⟨⟨fun c mem => plain (isTimerChar_of_isWord (word.letters c mem)), by decide,
      fun c mem => plain (chars_timerArguments value written c mem), by decide, by simp⟩,
      by decide, by simp⟩
  · exact (word.isTrimmed.append (isTrimmed_parenthesized _)).append semicolon

theorem clause_timerLine (noConditional : name ≠ "IF".toList) :
    Clause.ofLine? (timerLine name v parts) = some (.call name [v, durationText parts]) := by
  have chars := chars_timerArguments value written
  have balanced : Balanced (timerArguments v parts) := by
    apply balanced_of_free
    intro c mem
    constructor <;> rintro rfl <;> exact absurd (chars _ mem) (by decide)
  have found := Expression.callParts?_parenthesized word.nonempty word.letters balanced
  have trimmed := word.isTrimmed.append (isTrimmed_parenthesized (timerArguments v parts))
  rw [argumentTexts_timerArguments value written] at found
  rw [timerLine]
  rw [parenthesized] at found trimmed ⊢
  exact clause_of_callParts word noConditional trimmed found

theorem isSingleLine_timerLine (noConditional : name ≠ "IF".toList) :
    IsSingleLine (timerLine name v parts)
      (.call name name ([v, durationText parts].map (Expression.read callLevels))) := by
  apply isSingleLine_of_clause _ (clause_timerLine word value written noConditional)
  intro same
  have paren : '(' ∈ "END_IF".toList := by
    rw [← same, parenthesized]
    simp
  contradiction

end Line
end StructuredText
