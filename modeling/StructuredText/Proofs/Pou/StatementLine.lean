import StructuredText.Proofs.Conditional.Bracketing
import StructuredText.Proofs.Expression.RoundTrip
import StructuredText.Proofs.Pou.Plain
import StructuredText.Proofs.Source.BareLine

/- The lines of plain statements: what each of them is read as. -/
namespace StructuredText

section FirstWord
variable {w : Text} (solid : ∀ c ∈ w, isBlank c = false ∧ c ≠ ';')
include solid

theorem firstWord_append (nonempty : w ≠ []) (t : Text) :
    firstWord (w ++ t) = w ++ withoutTrailing ';' (t.takeWhile (! isBlank ·)) := by
  have trimmed := isTrimmed_of_solid nonempty fun c mem => (solid c mem).1
  have free : ';' ∉ w := fun mem => (solid ';' mem).2 rfl
  have inner : ∀ c ∈ w, (! isBlank c) = true := fun c mem => by simp [(solid c mem).1]
  rw [firstWord, trimLeft_append trimmed.first, List.takeWhile_append_of_pos inner,
    withoutTrailing_append free]

theorem firstWord_blank (nonempty : w ≠ []) (t : Text) : firstWord (w ++ ' ' :: t) = w := by
  rw [firstWord_append solid nonempty, List.takeWhile_cons_of_neg (by decide)]
  exact List.append_nil w

theorem firstWord_paren (nonempty : w ≠ []) (t : Text) :
    ∃ u, firstWord (w ++ '(' :: t) = w ++ '(' :: u := by
  refine ⟨withoutTrailing ';' (t.takeWhile (! isBlank ·)), ?_⟩
  rw [firstWord_append solid nonempty, List.takeWhile_cons_of_pos (by decide),
    withoutTrailing_cons (by decide)]

end FirstWord

theorem unitLine_other {kind : PouKind} {line : Text} (nonempty : line ≠ [])
    (opens : isOpenWord (firstWord line) = true) (section_ : firstWord line ∉ sectionKeywords) :
    UnitLine.of kind line = .other := by
  have notTerminator : isTerminator line = false := by simpa [isOpenWord, isTerminator] using opens
  have stays : endsUnit kind line = false := by
    cases ends : endsUnit kind line with
    | false => rfl
    | true =>
      have word : firstWord line = kind.terminator := of_decide_eq_true ends
      rw [isTerminator, word] at notTerminator
      cases kind <;> contradiction
  have outside : closesSection line = false := by
    cases closes : closesSection line with
    | false => rfl
    | true =>
      rw [isTerminator_of_closesSection closes] at notTerminator
      contradiction
  have inside : opensSection line = false := by simpa [opensSection] using section_
  rw [unitLine_outside stays inside outside, notTerminator, List.isEmpty_eq_false_iff.mpr nonempty]
  rfl

theorem isCodeChar_of_isTargetChar {c : Char} (char : isTargetChar c = true) :
    isCodeChar c = true := by
  simp only [isTargetChar, Bool.or_eq_true, decide_eq_true_eq] at char
  rcases char with ((word | rfl) | rfl) | rfl
  · exact isCodeChar_of_isWord word
  · decide
  · decide
  · decide

theorem solid_of_isTargetChar {c : Char} (char : isTargetChar c = true) :
    isBlank c = false ∧ c ≠ ';' := by
  simp only [isTargetChar, Bool.or_eq_true, decide_eq_true_eq] at char
  rcases char with ((word | rfl) | rfl) | rfl
  · refine ⟨isBlank_of_isWord word, ?_⟩
    rintro rfl
    contradiction
  · decide
  · decide
  · decide

namespace Expression
variable {e : Expression}

theorem code_text (plain : e.isPlain = true) : ∀ c ∈ e.text, isCodeChar c = true := by
  intro c mem
  rcases chars_text plain c mem with char | ⟨rfl, -⟩
  · rw [isTextChar, Bool.or_eq_true] at char
    rcases char with word | sign
    · exact isCodeChar_of_isWord (isWord_of_isAsciiWord word)
    · have signs : ∀ d ∈ ".-()<>= ".toList, isCodeChar d = true := of_all rfl
      exact signs c (by simpa using sign)
  · decide

variable (readable : e.isReadable = true)
include readable

theorem plain_of_isReadable : e.isPlain = true ∧ e.depth ≤ expressionLimit := by
  simpa [isReadable] using readable

theorem text?_of_isReadable : e.text? = some e.text := by
  rw [text?, if_pos (isWritable_of_isPlain (plain_of_isReadable readable).1)]

theorem stable_of_isReadable : e.Stable (expressionLimit + 1) := by
  obtain ⟨plain, shallow⟩ := plain_of_isReadable readable
  exact stable_of_isPlain plain (Nat.lt_succ_of_le shallow)

theorem ofText_text_of_isReadable : ofText e.text = e :=
  (readsBack (stable_of_isReadable readable)).bare (Or.inl rfl)

end Expression

structure IsSingleLine (line : Text) (s : Statement) : Prop where
  content : IsContent line
  single : opensBlock line = false
  reads : Statement.ofLine? line = some s

/-- A line that stands for one statement wherever it is, and in which nothing is cut. -/
structure IsStatementLine (line : Text) (s : Statement) : Prop extends IsSingleLine line s where
  bare : IsBareLine line
  other : ∀ kind, UnitLine.of kind line = .other

theorem isSingleLine_of_clause {t : Text} {clause : Clause} (goesOn : t ≠ "END_IF".toList)
    (reads : Clause.ofLine? (t ++ [';']) = some clause) :
    IsSingleLine (t ++ [';']) clause.statement := by
  have ends {word : Text} (other : word.getLast? ≠ some ';') : t ++ [';'] ≠ word := by
    rintro rfl
    exact other List.getLast?_concat
  constructor
  · refine ⟨by simp, ends (by decide), ?_⟩
    cases closes : closesBlock (t ++ [';']) with
    | false => rfl
    | true =>
      rcases eq_of_closesBlock closes with same | same
      · exact absurd same (ends (by decide))
      · have parts : t ++ [';'] = "END_IF".toList ++ [';'] := same
        exact absurd (List.append_cancel_right parts) goesOn
  · cases suffix : "THEN".toList.isSuffixOf (t ++ [';']) with
    | false => rw [opensBlock, suffix, Bool.and_false]
    | true =>
      obtain ⟨u, same⟩ := List.isSuffixOf_iff_suffix.mp suffix
      have last : (u ++ "THEN".toList).getLast? = some 'N' := List.getLast?_append
      refine absurd same.symm (ends ?_)
      rw [last]
      decide
  · rw [Statement.ofLine?, reads, Option.map_some]

theorem isBareLine_clause {t : Text} (code : ∀ c ∈ t, isCodeChar c = true)
    (trimmed : IsTrimmed t) : IsBareLine (t ++ [';']) := by
  apply isBareLine_of_code
  · rw [List.forall_mem_append]
    exact ⟨code, of_all rfl⟩
  · exact trimmed.append (isTrimmed_of_solid (by simp) (of_all rfl))

theorem assignmentParts?_append {target value : Text} (nonempty : target ≠ [])
    (chars : ∀ c ∈ target, isTargetChar c = true) (trimmed : IsTrimmed value) :
    assignmentParts? (target ++ " := ".toList ++ value) = some (target, value) := by
  have filled : target.isEmpty = false := List.isEmpty_eq_false_iff.mpr nonempty
  have stops : (" := ".toList ++ value).takeWhile isTargetChar = [] := rfl
  have rest : (" := ".toList ++ value).dropWhile isTargetChar = " := ".toList ++ value := rfl
  have sign : after? ":=".toList (trimLeft (" := ".toList ++ value)) = some (' ' :: value) :=
    after?_eq_some_iff.mpr rfl
  have behind : trimLeft (' ' :: value) = value := dropWhile_eq_self trimmed.first
  rw [assignmentParts?, List.append_assoc, List.takeWhile_append_of_pos chars,
    List.dropWhile_append_of_pos chars, stops, rest, sign, List.append_nil]
  simp only [filled, behind]
  rfl

section Assignment
variable {target : Text} (nonempty : target ≠ []) (chars : ∀ c ∈ target, isTargetChar c = true)
include nonempty chars

theorem isTrimmed_target : IsTrimmed target :=
  isTrimmed_of_solid nonempty fun c mem => (solid_of_isTargetChar (chars c mem)).1

theorem isSingleLine_assignment {t : Text} (trimmed : IsTrimmed t) :
    IsSingleLine (target ++ " := ".toList ++ t ++ [';'])
      (.assignment target (Expression.ofText t)) := by
  have whole := (isTrimmed_target nonempty chars).between trimmed " := ".toList
  have reads : Clause.ofLine? (target ++ " := ".toList ++ t ++ [';']) =
      some (.assignment target t) := by
    rw [Clause.ofLine?, withoutFinal_append, trim_eq_self whole,
      assignmentParts?_append nonempty chars trimmed]
  apply isSingleLine_of_clause _ reads
  intro same
  have blank : ' ' ∈ "END_IF".toList := by
    rw [← same]
    simp
  contradiction

theorem unitLine_assignment (opens : isOpenWord target = true) (other : target ∉ sectionKeywords)
    (kind : PouKind) (t : Text) :
    UnitLine.of kind (target ++ " := ".toList ++ t ++ [';']) = .other := by
  have shape : target ++ " := ".toList ++ t ++ [';'] =
      target ++ ' ' :: (":= ".toList ++ t ++ [';']) := by simp
  have word : firstWord (target ++ " := ".toList ++ t ++ [';']) = target := by
    rw [shape, firstWord_blank (fun c mem => solid_of_isTargetChar (chars c mem)) nonempty]
  apply unitLine_other (by simp)
  · rwa [word]
  · rwa [word]

end Assignment

theorem isStatementLine_assignment {target : Text} (plain : PlainTarget target)
    {value : Expression} (readable : value.isReadable = true) :
    IsStatementLine (target ++ " := ".toList ++ value.text ++ [';'])
      (.assignment target value) := by
  have plainValue := (Expression.plain_of_isReadable readable).1
  have trimmed := Expression.isTrimmed_text (Expression.stable_of_isReadable readable)
  have line := isSingleLine_assignment plain.nonempty plain.chars trimmed
  rw [Expression.ofText_text_of_isReadable readable] at line
  refine ⟨line, ?_, fun kind =>
    unitLine_assignment plain.nonempty plain.chars plain.opens plain.other kind _⟩
  apply isBareLine_clause
  · rw [List.forall_mem_append, List.forall_mem_append]
    refine ⟨⟨?_, of_all rfl⟩, Expression.code_text plainValue⟩
    exact fun c mem => isCodeChar_of_isTargetChar (plain.chars c mem)
  · exact (isTrimmed_target plain.nonempty plain.chars).between trimmed " := ".toList

section Call
variable {name : Text} (word : Name name) {arguments : List Expression}
include word

theorem unitLine_paren (opens : isOpenWord name = true) (kind : PouKind) (t : Text) :
    UnitLine.of kind (name ++ '(' :: t) = .other := by
  obtain ⟨u, first⟩ := firstWord_paren word.solid word.nonempty t
  apply unitLine_other (by simp)
  · rw [first]
    rwa [isOpenWord, isPrefixOf_append (by decide)]
  · intro mem
    rw [first] at mem
    have free : ∀ keyword ∈ sectionKeywords, '(' ∉ keyword := by decide
    exact free _ mem (by simp)

theorem clause_of_callParts (noConditional : name ≠ "IF".toList) {t : Text}
    {parts : Text × List Text} (trimmed : IsTrimmed (name ++ '(' :: t))
    (found : callParts? (name ++ '(' :: t) = some parts) :
    Clause.ofLine? (name ++ '(' :: t ++ [';']) = some (.call parts.1 parts.2) := by
  have targets : ∀ c ∈ name, isTargetChar c = true := by
    intro c mem
    rw [isTargetChar, word.letters c mem]
    rfl
  have noAssignment : assignmentParts? (name ++ '(' :: t) = none := by
    have stops : ('(' :: t).dropWhile isTargetChar = '(' :: t := rfl
    rw [assignmentParts?, List.dropWhile_append_of_pos targets, stops]
    rfl
  have single : opensConditional (name ++ '(' :: t) = false :=
    startsWithWord_eq_false (of_all rfl) word.letters noConditional rfl
  rw [Clause.ofLine?, withoutFinal_append, trim_eq_self trimmed]
  simp only [noAssignment, single, found]
  rfl

theorem isTrimmed_call : IsTrimmed (Expression.call name arguments).text := by
  rw [Expression.text_call]
  exact word.isTrimmed.append (isTrimmed_parenthesized _)

theorem unitLine_call (opens : isOpenWord name = true) (kind : PouKind) :
    UnitLine.of kind ((Expression.call name arguments).text ++ [';']) = .other := by
  rw [Expression.text_call, parenthesized, List.append_assoc, List.cons_append]
  exact unitLine_paren word opens kind _

variable (noConditional : name ≠ "IF".toList)
  (apart : AreArguments (arguments.map Expression.text))
  (reread : ∀ e ∈ arguments, e.IsReread callLevels)
include noConditional apart reread

theorem clause_call : Clause.ofLine? ((Expression.call name arguments).text ++ [';']) =
    some (.call name (arguments.map Expression.text)) := by
  have parts := Expression.callParts?_call word.nonempty word.letters apart reread
  have trimmed : IsTrimmed (Expression.call name arguments).text := isTrimmed_call word
  rw [Expression.text_call, parenthesized] at trimmed ⊢
  rw [parenthesized] at parts
  exact clause_of_callParts word noConditional trimmed parts

theorem isSingleLine_call : IsSingleLine ((Expression.call name arguments).text ++ [';'])
    (.call name name arguments) := by
  have statement : Clause.statement (.call name (arguments.map Expression.text)) =
      .call name name arguments := congrArg _ (Expression.read_arguments reread)
  rw [← statement]
  apply isSingleLine_of_clause _ (clause_call word noConditional apart reread)
  rw [Expression.text_call]
  intro same
  have paren : '(' ∈ "END_IF".toList := by
    rw [← same, parenthesized]
    simp
  contradiction

end Call

namespace Statement.PlainCall
variable {name : Text} {arguments : List Expression} (plain : PlainCall name arguments)
include plain

theorem plain_arguments : ∀ e ∈ arguments, e.isPlain = true :=
  fun e mem => ((Expression.arePlain_iff arguments).mp plain.plain e mem).1

theorem text? :
    (Expression.call name arguments).text? = some (Expression.call name arguments).text := by
  have writable : (Expression.call name arguments).isWritable = true := by
    rw [Expression.isWritable, Expression.areWritable_eq_all, List.all_eq_true]
    exact fun e mem => Expression.isWritable_of_isPlain (plain.plain_arguments e mem)
  rw [Expression.text?, if_pos writable]

theorem code_text : ∀ c ∈ (Expression.call name arguments).text, isCodeChar c = true := by
  rw [Expression.text_call, parenthesized, List.forall_mem_append, List.forall_mem_cons,
    List.forall_mem_append]
  refine ⟨?_, by decide, ?_, of_all rfl⟩
  · exact fun c mem => isCodeChar_of_isWord (plain.word.letters c mem)
  · intro c mem
    rcases Expression.mem_intercalate mem with ⟨t, shown, mem⟩ | ⟨separates, -⟩
    · obtain ⟨e, inside, rfl⟩ := List.mem_map.mp shown
      exact Expression.code_text (plain.plain_arguments e inside) c mem
    · have signs : ∀ d ∈ ", ".toList, isCodeChar d = true := of_all rfl
      exact signs c separates

theorem isStatementLine : IsStatementLine ((Expression.call name arguments).text ++ [';'])
    (.call name name arguments) := by
  have stable : ∀ e ∈ arguments, e.Stable callLevels := fun e mem =>
    Expression.stable_of_isPlain (plain.plain_arguments e mem)
      (Nat.lt_of_lt_of_le (Expression.depth_lt_argumentDepth mem) plain.shallow)
  have apart := Expression.areArguments_of_arePlain plain.plain stable
  refine ⟨isSingleLine_call plain.word plain.other apart (fun e mem => Or.inr (stable e mem)),
    isBareLine_clause plain.code_text (isTrimmed_call plain.word), ?_⟩
  exact unitLine_call plain.word plain.opens

end Statement.PlainCall

structure IsOpeningLine (line : Text) (condition : Expression) : Prop where
  bare : IsBareLine line
  opens : opensBlock line = true
  other : ∀ kind, UnitLine.of kind line = .other
  reads : (blockCondition? line).map Expression.ofText = some condition

theorem opensBlock_conditional (t : Text) :
    opensBlock ("IF ".toList ++ t ++ " THEN".toList) = true := by
  have suffix : "THEN".toList.isSuffixOf ("IF ".toList ++ t ++ " THEN".toList) = true :=
    List.isSuffixOf_iff_suffix.mpr ⟨"IF ".toList ++ t ++ [' '], by simp⟩
  rw [opensBlock, suffix, Bool.and_true]
  rfl

theorem unitLine_conditional (kind : PouKind) (t : Text) :
    UnitLine.of kind ("IF ".toList ++ t ++ " THEN".toList) = .other := by
  have word : firstWord ("IF ".toList ++ t ++ " THEN".toList) = "IF".toList :=
    @firstWord_blank "IF".toList (of_all rfl) (by decide) (t ++ " THEN".toList)
  apply unitLine_other (by simp)
  · rw [word]
    rfl
  · rw [word]
    decide

theorem blockCondition?_conditional {t : Text} (nonempty : t ≠ []) :
    blockCondition? ("IF ".toList ++ t ++ " THEN".toList) = some ([' '] ++ t ++ [' ']) := by
  have between : before? "THEN".toList (("IF ".toList ++ t ++ " THEN".toList).drop 2) =
      some ([' '] ++ t ++ [' ']) := by
    apply before?_eq_some_iff.mpr
    simp
  have size : 3 ≤ ([' '] ++ t ++ [' ']).length := by
    have := List.length_pos_iff.mpr nonempty
    simp only [List.length_append, List.length_cons, List.length_nil]
    omega
  have last : ([' '] ++ t ++ [' ']).getLast? = some ' ' := List.getLast?_concat
  rw [blockCondition?, between]
  simp only [last, size]
  rfl

theorem condition_conditional {condition : Expression}
    (reread : condition.IsReread (expressionLimit + 1)) :
    (blockCondition? ("IF ".toList ++ condition.text ++ " THEN".toList)).map Expression.ofText =
      some condition := by
  rw [blockCondition?_conditional (Expression.isTrimmed_of_isReread reread).ne_nil]
  exact congrArg some (reread.read (of_all rfl) (of_all rfl))

theorem isOpeningLine {condition : Expression} (readable : condition.isReadable = true) :
    IsOpeningLine ("IF ".toList ++ condition.text ++ " THEN".toList) condition := by
  have plain := (Expression.plain_of_isReadable readable).1
  refine ⟨?_, opensBlock_conditional _, fun kind => unitLine_conditional kind _,
    condition_conditional (Or.inr (Expression.stable_of_isReadable readable))⟩
  apply isBareLine_of_code
  · rw [List.forall_mem_append, List.forall_mem_append]
    exact ⟨⟨of_all rfl, Expression.code_text plain⟩, of_all rfl⟩
  · have first : IsTrimmed "IF".toList := isTrimmed_of_solid (by decide) (of_all rfl)
    have last : IsTrimmed "THEN".toList := isTrimmed_of_solid (by decide) (of_all rfl)
    have joined := first.between last ([' '] ++ condition.text ++ [' '])
    simpa using joined

end StructuredText
