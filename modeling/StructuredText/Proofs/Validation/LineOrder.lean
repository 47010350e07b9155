import StructuredText.Proofs.Validation.Location

/- The order of findings.  What is found on the lines comes in the order of the lines, and behind it,
   in the order of the lines again, what is still open at the end.  Taken together the findings are
   in order only if nothing is found behind a line whose construct stays open. -/
namespace StructuredText

theorem IsFoundOn.line_eq {line : Line} {f : Finding} (found : IsFoundOn line f) :
    f.line = line.number := by
  cases found with
  | whole => rfl
  | place => rfl

theorem checkLines_sorted (extra : List Text) {lines : List Line} (order : InOrder lines)
    (stack : List OpenConstruct) :
    (checkLines extra lines stack).1.Pairwise (·.line ≤ ·.line) := by
  induction lines generalizing stack with
  | nil => exact List.Pairwise.nil
  | cons line rest ih =>
    obtain ⟨later, order⟩ := List.pairwise_cons.mp order
    have here : ∀ f ∈ if line.text.isEmpty then [] else (checkLine extra line stack).1,
        f.line = line.number := by
      intro f mem
      split at mem
      · contradiction
      · exact (isFoundOn_of_mem_checkLine mem).line_eq
    rw [checkLines_cons, List.pairwise_append]
    refine ⟨?_, ih order _, ?_⟩
    · apply List.pairwise_of_forall_mem_list
      intro f mem g mem'
      rw [here f mem, here g mem']
    · intro f mem g mem'
      obtain ⟨l, inside, -, found⟩ := isFoundOn_of_mem_checkLines mem'
      rw [here f mem, found.line_eq]
      exact Nat.le_of_lt (later l inside)

theorem unclosedFindings_sorted {stack : List OpenConstruct}
    (sorted : stack.Pairwise (·.line > ·.line)) :
    (unclosedFindings stack).Pairwise (·.line < ·.line) :=
  List.pairwise_map.mpr (List.pairwise_reverse.mpr sorted)

theorem isUnclosed_of_mem_checkLines {extra : List Text} {lines : List Line}
    {stack : List OpenConstruct} {f : Finding} (mem : f ∈ (checkLines extra lines stack).1) :
    f.problem.isUnclosed = false := by
  cases nesting : f.problem.isNesting with
  | true =>
    have among : f ∈ (checkLines extra lines stack).1.filter (·.problem.isNesting) :=
      List.mem_filter.mpr ⟨mem, nesting⟩
    rw [filter_checkLines] at among
    exact isUnclosed_of_mem_nestingFindings among
  | false =>
    cases problem : f.problem with
    | unclosed c =>
      rw [problem] at nesting
      contradiction
    | _ => rfl

/-- The findings are those on the lines and behind them those at the end, both in the order of the
    lines.  The whole is in order exactly if no finding on a line is behind one at the end. -/
theorem validate_order (extraTypes : List Text) (source : Text) :
    ∃ onLines atEnd, validate extraTypes source = onLines ++ atEnd ∧
      (∀ f ∈ onLines, f.problem.isUnclosed = false) ∧
      (∀ f ∈ atEnd, f.problem.isUnclosed = true) ∧
      onLines.Pairwise (·.line ≤ ·.line) ∧ atEnd.Pairwise (·.line < ·.line) ∧
      ((validate extraTypes source).Pairwise (·.line ≤ ·.line) ↔
        ∀ f ∈ onLines, ∀ g ∈ atEnd, f.line ≤ g.line) := by
  have order : InOrder (sourceLines source ++ []) := by
    rw [List.append_nil]
    exact inOrder_linesFrom 1 .code _
  have above := (isStackOf_nil _).run order
  rw [List.append_nil] at order
  have onLines := checkLines_sorted (extraTypes.map upper) order []
  have atEnd := unclosedFindings_sorted above.sorted
  rw [← (checkLines_nesting (extraTypes.map upper) _ _).1] at atEnd
  refine ⟨_, _, rfl, fun f mem => isUnclosed_of_mem_checkLines mem, ?_, onLines, atEnd, ?_⟩
  · intro f mem
    obtain ⟨o, -, rfl⟩ := List.mem_map.mp mem
    rfl
  · have weakly : (unclosedFindings _).Pairwise (·.line ≤ ·.line) := atEnd.imp Nat.le_of_lt
    rw [validate, List.pairwise_append]
    exact ⟨fun whole => whole.2.2, fun apart => ⟨onLines, weakly, apart⟩⟩

/-- A unit without its end is found at its header, behind what is found on its lines. -/
theorem validate_not_sorted :
    validate [] "PROGRAM P\nx := 1".toList =
        [⟨2, 7, .missingSemicolon⟩, ⟨1, 0, .unclosed (.unit .program)⟩] ∧
      ¬ (validate [] "PROGRAM P\nx := 1".toList).Pairwise (·.line ≤ ·.line) := by
  decide

end StructuredText
