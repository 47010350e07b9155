import StructuredText.Proofs.Expression.TopWords
import StructuredText.Proofs.Pou.StatementLine
import StructuredText.Proofs.Source.Literal
import StructuredText.Proofs.Validation.Imbalance

/- Text in quotes as an operand.  The reader of expressions knows no quotes: what stands between them
   is searched for operators like any other text, outside parentheses as these are counted there.
   Where none is found it is one name, whatever else it says. -/
namespace StructuredText

def quoted (s : Text) : Text := '\'' :: (s ++ ['\''])

/-- The word or the sign of an operator stands where as many parentheses have opened as closed. -/
def HasTopOperator (t : Text) : Prop :=
  (∃ op : Connective, WordStandsOutside op.symbol t) ∨ ∃ op : Comparison, StandsOutside op.symbol t

def Expression.isOperand : Expression → Bool
  | .literal _ => true
  | .variable _ => true
  | _ => false

theorem standsOutside_comparison_iff (op : Comparison) (t : Text) :
    StandsOutside op.symbol t ↔ (topLevelFrom op.symbol 0 t).isSome = true := by
  obtain ⟨d, symbol, same, solid⟩ : ∃ d symbol, op.symbol = d :: symbol ∧ d ≠ '(' ∧ d ≠ ')' := by
    cases op <;> exact ⟨_, _, rfl, by decide⟩
  rw [same]
  exact standsOutside_iff solid

section Quoted
variable (s : Text)

theorem getLast?_quoted : (quoted s).getLast? = some '\'' := by
  rw [quoted, ← List.cons_append, List.getLast?_concat]

theorem isTrimmed_quoted : IsTrimmed (quoted s) :=
  ⟨⟨'\'', rfl, by decide⟩, ⟨'\'', getLast?_quoted s, by decide⟩⟩

theorem stripParens_quoted : stripParens (quoted s) = quoted s := by
  have bare : isEnclosed (quoted s) = false := isEnclosed_of_head (by simp [quoted])
  simpa using stripParens_bare (a := []) (b := []) (isTrimmed_quoted s) bare (of_all rfl)
    (of_all rfl)

theorem isSome_chain?_quoted (op : Connective) :
    (chain? op (quoted s)).isSome = true ↔ WordStandsOutside op.symbol (quoted s) :=
  isSome_chain?_iff (not_endsWithTopWord (getLast?_quoted s) (by decide))

theorem isSome_comparison?_quoted (op : Comparison) :
    (comparison? op (quoted s)).isSome = true ↔ StandsOutside op.symbol (quoted s) := by
  rw [standsOutside_comparison_iff, comparison?, findTopLevel?, List.drop_zero]
  cases found : topLevelFrom op.symbol 0 (quoted s) with
  | none => exact iff_of_false Bool.false_ne_true Bool.false_ne_true
  | some n =>
    cases n with
    | zero =>
      have first := prefix_of_topLevelFrom found
      cases op <;> exact absurd (List.cons_prefix_cons.mp first).1 (by decide)
    | succ n =>
      rw [Option.map_some, Nat.zero_add]
      exact iff_of_true rfl rfl

end Quoted

namespace Expression

theorem isOperand_chain (op : Connective) {first : Expression} (branched : first.isOperand = false)
    (rest : List Expression) : (rest.foldl (.connective op) first).isOperand = false := by
  induction rest generalizing first with
  | nil => exact branched
  | cons e rest ih => exact ih rfl

/-- Of all that is searched for in a text only operators can be found between quotes. -/
theorem read_quoted (levels : Nat) (s : Text) :
    HasTopOperator (quoted s) ∧ (read (levels + 1) (quoted s)).isOperand = false ∨
      ¬ HasTopOperator (quoted s) ∧ read (levels + 1) (quoted s) = .variable (quoted s) := by
  have shape := Shape.of_ofStripped (quoted s)
  rw [read, Shape.ofText, stripParens_quoted]
  generalize Shape.ofStripped (quoted s) = found at shape ⊢
  cases shape with
  | truth value same => cases value <;> exact absurd (List.cons.inj same).1 (by decide)
  | numeral found =>
    have quote : '\'' ∈ quoted s := List.mem_cons_self
    rw [numeral?_eq_none quote (by decide)] at found
    contradiction
  | negation found => contradiction
  | @chain op first second rest found =>
    have stands : (chain? op (quoted s)).isSome = true := by rw [chain?, found]; rfl
    refine Or.inl ⟨Or.inl ⟨op, (isSome_chain?_quoted s op).mp stands⟩, ?_⟩
    dsimp only
    rw [← List.foldl_map (f := read levels), List.map_cons, List.foldl_cons]
    exact isOperand_chain op rfl _
  | @comparison op n found =>
    have stands : (comparison? op (quoted s)).isSome = true := by rw [comparison?, found]; rfl
    exact Or.inl ⟨Or.inr ⟨op, (isSome_comparison?_quoted s op).mp stands⟩, rfl⟩
  | call positive unchained found => contradiction
  | word positive unchained incomparable noCall =>
    refine Or.inr ⟨?_, rfl⟩
    rintro (⟨op, stands⟩ | ⟨op, stands⟩)
    · rw [← isSome_chain?_quoted, unchained op] at stands
      contradiction
    · rw [← isSome_comparison?_quoted, incomparable op] at stands
      contradiction

end Expression

theorem lineTexts_programAround {line : Text} (oneLine : '\n' ∉ line)
    (last : line.getLast? ≠ some '\r') (clean : cleanLine .code line = line) :
    lineTexts (programAround line) =
      ["PROGRAM P".toList, trim line, "END_PROGRAM".toList] := by
  have header : physicalLines "PROGRAM P".toList = ["PROGRAM P".toList] := by decide
  have footer : physicalLines "END_PROGRAM".toList = ["END_PROGRAM".toList] := by decide
  have alone : physicalLines line = [line] := by
    rw [physicalLines, List.splitOn_eq_singleton oneLine, List.map_singleton, withoutFinal,
      if_neg last]
  have physical : physicalLines (programAround line) =
      ["PROGRAM P".toList, line, "END_PROGRAM".toList] := by
    unfold programAround
    rw [physicalLines_append "PROGRAM P".toList, header, physicalLines_append line, alone, footer]
    rfl
  have each : ∀ raw ∈ ["PROGRAM P".toList, line, "END_PROGRAM".toList],
      cleanLine .code raw = raw := by
    have ends : ∀ raw ∈ ["PROGRAM P".toList, "END_PROGRAM".toList], cleanLine .code raw = raw := by
      decide
    simpa [clean] using ends
  have bare : opensNoComment (programAround line) = true := by
    rw [opensNoComment, physical, List.all_eq_true]
    exact fun raw mem => decide_eq_true (each raw mem)
  have solid : trim "PROGRAM P".toList = "PROGRAM P".toList ∧
      trim "END_PROGRAM".toList = "END_PROGRAM".toList := by decide
  rw [lineTexts_of_clean bare, physical, List.map_cons, List.map_cons, List.map_singleton, solid.1,
    solid.2]

section Program
variable {target s : Text} (chars : ∀ c ∈ target, isTargetChar c = true)
  (inside : IsContents '\'' s)
include chars inside

theorem cleanLine_quoted : cleanLine .code (target ++ " := ".toList ++ quoted s ++ [';']) =
    target ++ " := ".toList ++ quoted s ++ [';'] := by
  have plain : ∀ c ∈ target ++ " := ".toList, isSign c = false :=
    List.forall_mem_append.mpr
      ⟨fun c mem => isSign_eq_false (of_all rfl) (chars c mem), of_all rfl⟩
  have free : IsCommentFree (target ++ " := ".toList) := by
    have signs : ∀ d ∈ "\n'\"/*".toList, isTargetChar d = false := of_all rfl
    refine isCommentFree_of_chars
      (List.forall_mem_append.mpr ⟨fun c mem sign => ?_, of_all (by decide)⟩)
    exact Bool.noConfusion ((chars c mem).symm.trans (signs c sign))
  have literal : quoted s ++ [';'] = withLiteral [] '\'' s [';'] := by simp [quoted, withLiteral]
  have oneLine : '\n' ∉ quoted s ++ [';'] := by simp [quoted, inside.oneLine]
  have front := (cleanFrom_plain_append plain (Or.inl rfl) (quoted s ++ [';'])).1
  rw [cleanLine, List.append_assoc, front, ← cleanLine, free.clean.1, ← cleanText_line oneLine,
    literal, cleanText_withLiteral (Or.inl rfl) rfl inside]
  rfl

theorem lineTexts_programAround_quoted (nonempty : target ≠ []) :
    lineTexts (programAround (target ++ " := ".toList ++ quoted s ++ [';'])) =
      ["PROGRAM P".toList, target ++ " := ".toList ++ quoted s ++ [';'],
        "END_PROGRAM".toList] := by
  have trimmed : IsTrimmed (target ++ " := ".toList ++ quoted s ++ [';']) :=
    ((isTrimmed_target nonempty chars).between (isTrimmed_quoted s) " := ".toList).append
      (isTrimmed_of_solid (by simp) (of_all rfl))
  have oneLine : '\n' ∉ target ++ " := ".toList ++ quoted s ++ [';'] := by
    have noBreak : '\n' ∉ target := fun mem => absurd (chars _ mem) (by decide)
    simp [quoted, inside.oneLine, noBreak]
  have last : (target ++ " := ".toList ++ quoted s ++ [';']).getLast? ≠ some '\r' := by
    rw [List.getLast?_concat]
    decide
  rw [lineTexts_programAround oneLine last (cleanLine_quoted chars inside), trim_eq_self trimmed]

end Program

theorem statements_quoted {target s : Text} (plain : PlainTarget target)
    (inside : IsContents '\'' s) : ∃ pou,
      Pou.ofSource? (programAround (target ++ " := ".toList ++ quoted s ++ [';'])) = some pou ∧
        pou.statements = [.assignment target (Expression.ofText (quoted s))] := by
  have lines := lineTexts_programAround_quoted plain.chars inside plain.nonempty
  have line := isSingleLine_assignment plain.nonempty plain.chars (isTrimmed_quoted s)
  have other :=
    unitLine_assignment plain.nonempty plain.chars plain.opens plain.other .program (quoted s)
  generalize target ++ " := ".toList ++ quoted s ++ [';'] = t at lines line other ⊢
  have header : findHeader? ["PROGRAM P".toList, t, "END_PROGRAM".toList] =
      some (.program, 0, "PROGRAM P".toList, [t, "END_PROGRAM".toList]) := rfl
  refine ⟨(readPou .program "PROGRAM P".toList [t, "END_PROGRAM".toList]).1, ?_, ?_⟩
  · simp only [Pou.ofSource?, Reading.ofSource, readLines, lines, header]
  · show (readUnitLines (readBlock blockLimit) .program .body 0 [t, "END_PROGRAM".toList]
      Progress.start).1.statements = _
    rw [readUnitLines_statement _ _ other, readAt_eq_of_single line.single,
      line.reads]
    rfl

/-- Text in quotes is one operand, and then a name, just if no operator stands in it outside
    parentheses; nothing else in it counts.  As the value of an assignment it is read the same. -/
theorem Expression.ofText_quoted (s : Text) :
    (ofText (quoted s) = .variable (quoted s) ↔ ¬ HasTopOperator (quoted s)) ∧
      ((ofText (quoted s)).isOperand = true ↔ ¬ HasTopOperator (quoted s)) ∧
      ∀ target, PlainTarget target → IsContents '\'' s → ∃ pou,
        Pou.ofSource? (programAround (target ++ " := ".toList ++ quoted s ++ [';'])) = some pou ∧
          pou.statements = [.assignment target (ofText (quoted s))] := by
  refine ⟨?_, ?_, fun target plain inside => statements_quoted plain inside⟩
  · rcases read_quoted expressionLimit s with ⟨has, branched⟩ | ⟨none, alone⟩
    · refine iff_of_false (fun same => ?_) (not_not_intro has)
      rw [← ofText, same] at branched
      contradiction
    · exact iff_of_true alone none
  · rcases read_quoted expressionLimit s with ⟨has, branched⟩ | ⟨none, alone⟩
    · exact iff_of_false (Bool.eq_false_iff.mp branched) (not_not_intro has)
    · refine iff_of_true ?_ none
      rw [ofText, alone]
      rfl

/-- Comment marks, calls, and operators in parentheses. -/
theorem Expression.ofText_quoted_signs :
    let s := "NOT 5) // (f(x, a AND b < c) (*".toList
    PlainTarget "msg".toList ∧ IsContents '\'' s ∧ ofText (quoted s) = .variable (quoted s) ∧
      ¬ HasTopOperator (quoted s) ∧ ∃ pou,
        Pou.ofSource? (programAround ("msg".toList ++ " := ".toList ++ quoted s ++ [';'])) =
            some pou ∧ pou.statements = [.assignment "msg".toList (ofText (quoted s))] := by
  intro s
  have plain : PlainTarget "msg".toList := plainTarget_of_isPlainTarget (by decide)
  have inside : IsContents '\'' s := ⟨by decide, by decide⟩
  obtain ⟨whole, -, assigned⟩ := ofText_quoted s
  have alone : ofText (quoted s) = .variable (quoted s) := rfl
  exact ⟨plain, inside, alone, whole.mp alone, assigned _ plain inside⟩

/-- An operator between the quotes is taken for one. -/
theorem Expression.ofText_quoted_and :
    IsContents '\'' "a AND b".toList ∧ quoted "a AND b".toList = "'a AND b'".toList ∧
      ofText (quoted "a AND b".toList) =
        .connective .and (.variable "'a".toList) (.variable "b'".toList) ∧
      (ofText (quoted "a AND b".toList)).isOperand = false :=
  ⟨⟨by decide, by decide⟩, rfl, rfl, rfl⟩

end StructuredText
