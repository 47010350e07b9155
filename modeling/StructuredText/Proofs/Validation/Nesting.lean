import StructuredText.Proofs.Validation.Checks
import StructuredText.Statement.Clause

/- What the validator holds open along the lines of a source.  Where it reports no error, each line
   opens an IF, closes the innermost one, or leaves the open ones as they are. -/
namespace StructuredText

def openAfter (stack : List OpenConstruct) (line : Line) : List OpenConstruct :=
  if line.text.isEmpty then stack else (checkNesting line stack).2

def openBehind (stack : List OpenConstruct) (lines : List Line) : List OpenConstruct :=
  lines.foldl openAfter stack

def nestingFindings : List OpenConstruct → List Line → List Finding
  | _, [] => []
  | stack, line :: rest =>
    (if line.text.isEmpty then [] else (checkNesting line stack).1) ++
      nestingFindings (openAfter stack line) rest

def openIfs (stack : List OpenConstruct) : List OpenConstruct :=
  stack.filter (·.construct = .ifBlock)

def ifNesting : List OpenConstruct → List Line → Nat
  | stack, [] => (openIfs stack).length
  | stack, line :: rest => max (openIfs stack).length (ifNesting (openAfter stack line) rest)

def reportsError (extraTypes : List Text) (source : Text) : Bool :=
  (validate extraTypes source).any (·.problem.severity = .error)

theorem openBehind_append (stack : List OpenConstruct) (first second : List Line) :
    openBehind stack (first ++ second) = openBehind (openBehind stack first) second :=
  List.foldl_append

theorem nestingFindings_append (stack : List OpenConstruct) (first second : List Line) :
    nestingFindings stack (first ++ second) =
      nestingFindings stack first ++ nestingFindings (openBehind stack first) second := by
  induction first generalizing stack with
  | nil => rfl
  | cons line rest ih =>
    rw [List.cons_append, nestingFindings, ih, nestingFindings, List.append_assoc]
    rfl

theorem openIfs_le_ifNesting {used lines : List Line} (start : used <+: lines)
    (stack : List OpenConstruct) :
    (openIfs (openBehind stack used)).length ≤ ifNesting stack lines := by
  induction lines generalizing used stack with
  | nil =>
    rw [List.prefix_nil.mp start]
    exact Nat.le_refl _
  | cons line rest ih =>
    rw [ifNesting]
    cases used with
    | nil => exact Nat.le_max_left ..
    | cons first used =>
      obtain ⟨rfl, inner⟩ := List.cons_prefix_cons.mp start
      exact Nat.le_trans (ih inner (openAfter stack first)) (Nat.le_max_right ..)

section Check
variable (extra : List Text)

theorem checkLine_nesting (line : Line) (stack : List OpenConstruct) :
    (checkLine extra line stack).2 = (checkNesting line stack).2 ∧
      ∀ f ∈ (checkNesting line stack).1, f ∈ (checkLine extra line stack).1 := by
  refine ⟨rfl, ?_⟩
  intro f mem
  rw [checkLine]
  exact List.mem_append_left _ (List.mem_append_left _ mem)

theorem checkLines_nesting (lines : List Line) (stack : List OpenConstruct) :
    (checkLines extra lines stack).2 = openBehind stack lines ∧
      ∀ f ∈ nestingFindings stack lines, f ∈ (checkLines extra lines stack).1 := by
  induction lines generalizing stack with
  | nil => exact ⟨rfl, fun f mem => absurd mem List.not_mem_nil⟩
  | cons line rest ih =>
    rw [checkLines, nestingFindings, openBehind, List.foldl_cons, openAfter]
    cases blank : line.text.isEmpty with
    | true => exact ih stack
    | false =>
      obtain ⟨after, here⟩ := checkLine_nesting extra line stack
      obtain ⟨behind, later⟩ := ih (checkNesting line stack).2
      simp only [Bool.false_eq_true, if_false, after]
      refine ⟨behind, ?_⟩
      intro f mem
      rcases List.mem_append.mp mem with mem | mem
      · exact List.mem_append_left _ (here f mem)
      · exact List.mem_append_right _ (later f mem)

end Check

theorem severity_of_mem_checkNesting {line : Line} {stack : List OpenConstruct} {f : Finding}
    (mem : f ∈ (checkNesting line stack).1) : f.problem.severity = .error := by
  obtain ⟨c, rfl⟩ := of_mem_checkNesting mem
  exact severity_strayProblem _ c

theorem severity_of_mem_nestingFindings {stack : List OpenConstruct} {lines : List Line}
    {f : Finding} (mem : f ∈ nestingFindings stack lines) : f.problem.severity = .error := by
  induction lines generalizing stack with
  | nil => contradiction
  | cons line rest ih =>
    rw [nestingFindings] at mem
    rcases List.mem_append.mp mem with mem | mem
    · split at mem
      · contradiction
      · exact severity_of_mem_checkNesting mem
    · exact ih mem

theorem nesting_of_noError {extraTypes : List Text} {source : Text}
    (none : reportsError extraTypes source = false) :
    nestingFindings [] (sourceLines source) = [] ∧ openBehind [] (sourceLines source) = [] := by
  have harmless : ∀ f ∈ validate extraTypes source, f.problem.severity ≠ .error := by
    simpa [reportsError] using none
  obtain ⟨after, nesting⟩ := checkLines_nesting (extraTypes.map upper) (sourceLines source) []
  constructor
  · apply List.eq_nil_iff_forall_not_mem.mpr
    intro f mem
    exact harmless f (List.mem_append_left _ (nesting f mem)) (severity_of_mem_nestingFindings mem)
  · apply List.eq_nil_iff_forall_not_mem.mpr
    intro o mem
    rw [← after] at mem
    have reported : (⟨o.line, 0, .unclosed o.construct⟩ : Finding) ∈ validate extraTypes source :=
      List.mem_append_right _ (List.mem_map_of_mem (List.mem_reverse.mpr mem))
    exact harmless _ reported rfl

def endsIf (t : Text) : Bool := startsWithWord "END_IF".toList t

theorem closed?_eq_ifBlock {t : Text} : closed? t = some .ifBlock ↔ endsIf t = true := by
  constructor
  · intro closes
    have test := List.find?_some (p := fun c : Construct => startsWithWord c.terminator t) closes
    exact test
  · intro ends
    obtain ⟨rest, rfl, -⟩ := eq_append_of_startsWithWord ends
    rw [closed?, List.find?_eq_some_iff_append]
    refine ⟨ends, PouKind.all.map .unit ++ [.declarations], Construct.controls.tail, rfl, ?_⟩
    intro c mem
    simp only [PouKind.all, List.map_cons, List.map_nil, List.mem_append, List.mem_cons,
      List.not_mem_nil, or_false] at mem
    rcases mem with (rfl | rfl | rfl) | rfl <;> rfl

theorem opener?_eq_ifBlock {t : Text} : opener? t = some .ifBlock ↔ opensConditional t = true := by
  constructor
  · intro opens
    rw [opener?] at opens
    split at opens
    · simp at opens
    · split at opens
      · next c found =>
        obtain rfl := Option.some.inj opens
        exact List.find?_some (p := fun c : Construct => startsWithWord c.keyword t) found
      · dsimp only at opens
        split at opens <;> simp at opens
  · intro starts
    obtain ⟨rest, rfl, -⟩ := eq_append_of_startsWithWord starts
    have noUnit : PouKind.all.find? (opensUnit · ("IF".toList ++ rest)) = none := rfl
    have control : Construct.controls.find?
        (fun c => startsWithWord c.keyword ("IF".toList ++ rest)) = some .ifBlock := by
      rw [Construct.controls, List.find?_cons_of_pos]
      exact starts
    rw [opener?, noUnit, control]

theorem opened?_eq_ifBlock {t : Text} :
    opened? t = some .ifBlock ↔ opensConditional t = true ∧ containsWord "END_IF".toList t = false := by
  rw [opened?, Option.filter_eq_some_iff, opener?_eq_ifBlock, Bool.not_eq_true']
  rfl

section Step
variable {line : Line} {stack : List OpenConstruct} (clean : (checkNesting line stack).1 = [])
include clean

theorem openIfs_of_endsIf (ends : endsIf line.text = true) :
    ∃ top, openIfs stack = top :: openIfs (checkNesting line stack).2 := by
  have closes := closed?_eq_ifBlock.mpr ends
  have check := nestingCheck line stack
  generalize checkNesting line stack = result at check clean ⊢
  cases check with
  | plain noOpener noEnd => simp [closes] at noEnd
  | opens opener noEnd => simp [closes] at noEnd
  | @closes top _ fits =>
    have isIf : .ifBlock = top.construct := Option.some.inj (closes.symm.trans fits)
    exact ⟨top, List.filter_cons_of_pos (by simp [← isIf])⟩
  | astray => contradiction

theorem openIfs_of_opens (opens : opened? line.text = some .ifBlock) :
    openIfs (checkNesting line stack).2 = ⟨.ifBlock, line.number⟩ :: openIfs stack := by
  have check := nestingCheck line stack
  generalize checkNesting line stack = result at check clean ⊢
  cases check with
  | plain noOpener noEnd => simp [opens] at noOpener
  | opens opener noEnd =>
    obtain rfl := Option.some.inj (opener.symm.trans opens)
    exact List.filter_cons_of_pos rfl
  | closes fits => simp [opened?_of_closed? fits] at opens
  | astray => contradiction

theorem openIfs_of_other (stays : endsIf line.text = false)
    (other : opened? line.text ≠ some .ifBlock) :
    openIfs (checkNesting line stack).2 = openIfs stack := by
  have check := nestingCheck line stack
  generalize checkNesting line stack = result at check clean ⊢
  cases check with
  | plain => rfl
  | opens opener noEnd =>
    rw [opener] at other
    exact List.filter_cons_of_neg (by simpa using other)
  | @closes top _ fits =>
    have otherEnd : top.construct ≠ .ifBlock := by
      intro isIf
      rw [isIf, closed?_eq_ifBlock, stays] at fits
      contradiction
    exact (List.filter_cons_of_neg (by simpa using otherEnd)).symm
  | astray => rfl

end Step

end StructuredText
