import StructuredText.Proofs.Source.Lines
import StructuredText.Proofs.Text.Boundary
import StructuredText.Proofs.Validation.Nesting

/- The nesting that the validator accepts.  Each line is a bracket of one of nine kinds or says
   nothing.  Nothing is found exactly if the brackets form a well-nested word, and what is found at
   the end is one finding for each line whose construct no later line closes. -/
namespace StructuredText

inductive Bracket
  | opens (c : Construct)
  | closes (c : Construct)
  deriving DecidableEq

/-- What a line says: it opens a construct that it does not close itself, or begins with an end. -/
def bracket? (t : Text) : Option Bracket :=
  match opened? t with
  | some c => some (.opens c)
  | none => (closed? t).map .closes

def brackets (lines : List Line) : List Bracket := lines.filterMap (bracket? ·.text)

inductive WellNested : List Bracket → Prop
  | nil : WellNested []
  | wrap {c : Construct} {inner rest : List Bracket} (inside : WellNested inner)
    (behind : WellNested rest) : WellNested (.opens c :: (inner ++ .closes c :: rest))

theorem WellNested.append {first second : List Bracket} (left : WellNested first)
    (right : WellNested second) : WellNested (first ++ second) := by
  induction left with
  | nil => exact right
  | wrap inside behind _ ih =>
    rw [List.cons_append, List.append_assoc, List.cons_append]
    exact .wrap inside ih

theorem bracket?_eq_opens {t : Text} {c : Construct} :
    bracket? t = some (.opens c) ↔ opened? t = some c := by
  rw [bracket?]
  cases opened? t with
  | none => simp
  | some d => simp

theorem bracket?_eq_closes {t : Text} {c : Construct} :
    bracket? t = some (.closes c) ↔ closed? t = some c := by
  rw [bracket?]
  cases opens : opened? t with
  | none => simp
  | some d =>
    have none : closed? t ≠ some c := by
      intro closes
      rw [opened?_of_closed? closes] at opens
      contradiction
    simp [none]

theorem bracket?_eq_none {t : Text} :
    bracket? t = none ↔ opened? t = none ∧ closed? t = none := by
  rw [bracket?]
  cases opened? t with
  | none => simp
  | some d => simp

theorem bracket?_nil : bracket? [] = none := by decide

inductive NestingStep (line : Line) :
    List OpenConstruct → List Finding → List OpenConstruct → Prop
  | plain {stack : List OpenConstruct} (token : bracket? line.text = none) :
    NestingStep line stack [] stack
  | opens {stack : List OpenConstruct} {c : Construct}
    (token : bracket? line.text = some (.opens c)) :
    NestingStep line stack [] (⟨c, line.number⟩ :: stack)
  | closes {top : OpenConstruct} {rest : List OpenConstruct}
    (token : bracket? line.text = some (.closes top.construct)) :
    NestingStep line (top :: rest) [] rest
  | astray {stack : List OpenConstruct} {c : Construct} {f : Finding}
    (token : bracket? line.text = some (.closes c))
    (other : ∀ top ∈ stack.head?, top.construct ≠ c) : NestingStep line stack [f] stack

def nestingFound (stack : List OpenConstruct) (line : Line) : List Finding :=
  if line.text.isEmpty then [] else (checkNesting line stack).1

theorem nestingStep (stack : List OpenConstruct) (line : Line) :
    NestingStep line stack (nestingFound stack line) (openAfter stack line) := by
  rw [nestingFound, openAfter]
  cases blank : line.text.isEmpty with
  | true => exact .plain (by rw [List.isEmpty_iff.mp blank, bracket?_nil])
  | false =>
    simp only [Bool.false_eq_true, if_false]
    have check := nestingCheck line stack
    generalize checkNesting line stack = result at check ⊢
    cases check with
    | plain noOpener noEnd => exact .plain (bracket?_eq_none.mpr ⟨noOpener, noEnd⟩)
    | opens opener noEnd => exact .opens (bracket?_eq_opens.mpr opener)
    | closes fits => exact .closes (bracket?_eq_closes.mpr fits)
    | astray closes other =>
      refine .astray (bracket?_eq_closes.mpr closes) fun top head same => other ?_
      rw [topOf, Option.mem_def.mp head, Option.map_some, same]

theorem nestingFindings_cons (stack : List OpenConstruct) (line : Line) (rest : List Line) :
    nestingFindings stack (line :: rest) =
      nestingFound stack line ++ nestingFindings (openAfter stack line) rest := rfl

theorem openBehind_cons (stack : List OpenConstruct) (line : Line) (rest : List Line) :
    openBehind stack (line :: rest) = openBehind (openAfter stack line) rest := rfl

theorem brackets_cons_of_none {line : Line} (token : bracket? line.text = none)
    (rest : List Line) : brackets (line :: rest) = brackets rest :=
  List.filterMap_cons_none token

theorem brackets_cons_of_some {line : Line} {b : Bracket} (token : bracket? line.text = some b)
    (rest : List Line) : brackets (line :: rest) = b :: brackets rest :=
  List.filterMap_cons_some token

section Step
variable {line : Line} (stack : List OpenConstruct)

theorem nestingStep_plain (token : bracket? line.text = none) :
    nestingFound stack line = [] ∧ openAfter stack line = stack := by
  have step := nestingStep stack line
  generalize nestingFound stack line = found, openAfter stack line = behind at step ⊢
  cases step with
  | plain => exact ⟨rfl, rfl⟩
  | opens said => simp [token] at said
  | closes said => simp [token] at said
  | astray said => simp [token] at said

theorem nestingStep_opens {c : Construct} (token : bracket? line.text = some (.opens c)) :
    nestingFound stack line = [] ∧ openAfter stack line = ⟨c, line.number⟩ :: stack := by
  have step := nestingStep stack line
  generalize nestingFound stack line = found, openAfter stack line = behind at step ⊢
  cases step with
  | plain said => simp [token] at said
  | opens said =>
    obtain rfl : c = _ := by simpa [token] using said
    exact ⟨rfl, rfl⟩
  | closes said => simp [token] at said
  | astray said => simp [token] at said

theorem nestingStep_closes (top : OpenConstruct)
    (token : bracket? line.text = some (.closes top.construct)) :
    nestingFound (top :: stack) line = [] ∧ openAfter (top :: stack) line = stack := by
  have step := nestingStep (top :: stack) line
  generalize nestingFound (top :: stack) line = found,
    openAfter (top :: stack) line = behind at step ⊢
  cases step with
  | plain said => simp [token] at said
  | opens said => simp [token] at said
  | closes => exact ⟨rfl, rfl⟩
  | @astray _ c _ said other =>
    have same : top.construct = c := by simpa [token] using said
    exact absurd same (other top rfl)

end Step

theorem clean_of_silent {lines : List Line} (silent : ∀ line ∈ lines, bracket? line.text = none)
    (stack : List OpenConstruct) :
    nestingFindings stack lines = [] ∧ openBehind stack lines = stack := by
  induction lines with
  | nil => exact ⟨rfl, rfl⟩
  | cons line rest ih =>
    obtain ⟨found, behind⟩ := nestingStep_plain stack (silent line List.mem_cons_self)
    rw [nestingFindings_cons, openBehind_cons, found, behind, List.nil_append]
    exact ih fun l mem => silent l (List.mem_cons_of_mem line mem)

theorem clean_of_wellNested {lines : List Line} (nested : WellNested (brackets lines))
    (stack : List OpenConstruct) :
    nestingFindings stack lines = [] ∧ openBehind stack lines = stack := by
  generalize word : brackets lines = w at nested
  induction nested generalizing lines stack with
  | nil => exact clean_of_silent (List.filterMap_eq_nil_iff.mp word) stack
  | @wrap c inner rest _ _ ihInner ihRest =>
    obtain ⟨lead, first, more, rfl, silent, opens, word⟩ := List.filterMap_eq_cons_iff.mp word
    obtain ⟨middle, more, rfl, inside, word⟩ := List.filterMap_eq_append_iff.mp word
    obtain ⟨gap, last, behind, rfl, silent', closes, word⟩ := List.filterMap_eq_cons_iff.mp word
    obtain ⟨found₁, open₁⟩ := clean_of_silent silent stack
    obtain ⟨found₂, open₂⟩ := nestingStep_opens stack opens
    obtain ⟨found₃, open₃⟩ := ihInner (⟨c, first.number⟩ :: stack) inside
    obtain ⟨found₄, open₄⟩ := clean_of_silent silent' (⟨c, first.number⟩ :: stack)
    obtain ⟨found₅, open₅⟩ := nestingStep_closes stack ⟨c, first.number⟩ closes
    obtain ⟨found₆, open₆⟩ := ihRest stack word
    constructor
    · simp only [nestingFindings_append, nestingFindings_cons, found₁, open₁, found₂, open₂, found₃,
        open₃, found₄, open₄, found₅, open₅, found₆, List.append_nil]
    · simp only [openBehind_append, openBehind_cons, open₁, open₂, open₃, open₄, open₅, open₆]

inductive ClosesAll : List Construct → List Bracket → Prop
  | done {w : List Bracket} (nested : WellNested w) : ClosesAll [] w
  | next {c : Construct} {more : List Construct} {w rest : List Bracket} (nested : WellNested w)
    (later : ClosesAll more rest) : ClosesAll (c :: more) (w ++ .closes c :: rest)

theorem ClosesAll.behind {w rest : List Bracket} {more : List Construct} (nested : WellNested w)
    (closes : ClosesAll more rest) : ClosesAll more (w ++ rest) := by
  cases closes with
  | done inner => exact .done (nested.append inner)
  | next inner later =>
    rw [← List.append_assoc]
    exact .next (nested.append inner) later

theorem closesAll_of_clean {lines : List Line} {stack : List OpenConstruct}
    (clean : nestingFindings stack lines = []) (closed : openBehind stack lines = []) :
    ClosesAll (stack.map (·.construct)) (brackets lines) := by
  induction lines generalizing stack with
  | nil =>
    obtain rfl : stack = [] := closed
    exact .done .nil
  | cons line rest ih =>
    rw [nestingFindings_cons] at clean
    rw [openBehind_cons] at closed
    obtain ⟨here, later⟩ := List.append_eq_nil_iff.mp clean
    have inner := ih later closed
    have step := nestingStep stack line
    generalize nestingFound stack line = found, openAfter stack line = behind at step inner here
    cases step with
    | plain token =>
      rw [brackets_cons_of_none token]
      exact inner
    | @opens _ c token =>
      rw [brackets_cons_of_some token]
      generalize brackets rest = word at inner ⊢
      cases inner with
      | next nested later =>
        have pair := @WellNested.wrap c _ _ nested .nil
        simpa using later.behind pair
    | closes token =>
      rw [brackets_cons_of_some token]
      exact ClosesAll.next .nil inner
    | astray token other => contradiction

theorem wellNested_iff (lines : List Line) :
    WellNested (brackets lines) ↔ nestingFindings [] lines = [] ∧ openBehind [] lines = [] := by
  constructor
  · exact fun nested => clean_of_wellNested nested []
  · intro ⟨clean, closed⟩
    have closes := closesAll_of_clean clean closed
    generalize brackets lines = word at closes ⊢
    cases closes with
    | done nested => exact nested

def Problem.isNesting : Problem → Bool
  | .unexpectedEnd _ | .wrongEnd _ _ | .unclosed _ => true
  | _ => false

section Findings
variable (extra : List Text) (line : Line) {f : Finding}

theorem isNesting_strayProblem (top : Option Construct) (c : Construct) :
    (strayProblem top c).isNesting = true := by
  cases top <;> rfl

theorem isNesting_of_mem_checkNesting {stack : List OpenConstruct}
    (mem : f ∈ (checkNesting line stack).1) : f.problem.isNesting = true := by
  obtain ⟨c, rfl⟩ := of_mem_checkNesting mem
  exact isNesting_strayProblem _ c

theorem isNesting_of_mem_checkSemicolon (mem : f ∈ checkSemicolon line) :
    f.problem.isNesting = false := by
  obtain ⟨-, -, rfl⟩ := mem_checkSemicolon.mp mem
  rfl

theorem isNesting_of_mem_checkDeclaration (mem : f ∈ checkDeclaration extra line) :
    f.problem.isNesting = false := by
  cases mem_checkDeclaration.mp mem <;> rfl

theorem isNesting_of_mem_checkAssignment {inCase : Bool} (mem : f ∈ checkAssignment inCase line) :
    f.problem.isNesting = false := by
  cases mem_checkAssignment.mp mem <;> rfl

theorem isNesting_of_mem_checkCall (mem : f ∈ checkCall line) : f.problem.isNesting = false := by
  cases mem_checkCall.mp mem <;> rfl

theorem filter_checkLine (stack : List OpenConstruct) :
    (checkLine extra line stack).1.filter (·.problem.isNesting) = (checkNesting line stack).1 := by
  have nesting : (checkNesting line stack).1.filter (·.problem.isNesting) =
      (checkNesting line stack).1 :=
    List.filter_eq_self.mpr fun f mem => isNesting_of_mem_checkNesting line mem
  have semicolon : (checkSemicolon line).filter (·.problem.isNesting) = [] := by
    apply List.filter_eq_nil_iff.mpr
    intro f mem
    simp [isNesting_of_mem_checkSemicolon line mem]
  have declaration : (checkDeclaration extra line).filter (·.problem.isNesting) = [] := by
    apply List.filter_eq_nil_iff.mpr
    intro f mem
    simp [isNesting_of_mem_checkDeclaration extra line mem]
  have assignment (inCase : Bool) :
      (checkAssignment inCase line).filter (·.problem.isNesting) = [] := by
    apply List.filter_eq_nil_iff.mpr
    intro f mem
    simp [isNesting_of_mem_checkAssignment line mem]
  have call : (checkCall line).filter (·.problem.isNesting) = [] := by
    apply List.filter_eq_nil_iff.mpr
    intro f mem
    simp [isNesting_of_mem_checkCall line mem]
  rw [checkLine]
  dsimp only
  rw [List.filter_append, List.filter_append, nesting, semicolon, List.append_nil]
  split
  · rw [declaration, List.append_nil]
  · rw [List.filter_append, assignment, call, List.append_nil, List.append_nil]

theorem filter_checkLines (lines : List Line) (stack : List OpenConstruct) :
    (checkLines extra lines stack).1.filter (·.problem.isNesting) = nestingFindings stack lines := by
  induction lines generalizing stack with
  | nil => rfl
  | cons line rest ih =>
    rw [nestingFindings_cons, nestingFound, openAfter, checkLines]
    cases blank : line.text.isEmpty with
    | true => exact ih stack
    | false =>
      simp only [Bool.false_eq_true, if_false]
      rw [List.filter_append, filter_checkLine, (checkLine_nesting extra line stack).1, ih]

end Findings

theorem filter_validate (extraTypes : List Text) (source : Text) :
    (validate extraTypes source).filter (·.problem.isNesting) =
      nestingFindings [] (sourceLines source) ++
        unclosedFindings (openBehind [] (sourceLines source)) := by
  have unclosed (stack : List OpenConstruct) :
      (unclosedFindings stack).filter (·.problem.isNesting) = unclosedFindings stack := by
    apply List.filter_eq_self.mpr
    intro f mem
    obtain ⟨o, -, rfl⟩ := List.mem_map.mp mem
    rfl
  rw [validate]
  dsimp only
  rw [List.filter_append, filter_checkLines, unclosed, (checkLines_nesting _ _ _).1]

def Problem.isUnclosed : Problem → Bool
  | .unclosed _ => true
  | _ => false

def Line.closes (line : Line) (stack : List OpenConstruct) (o : OpenConstruct) : Prop :=
  stack.head? = some o ∧ closed? line.text = some o.construct

/-- None of the lines behind `stack` closes the construct `o`. -/
def StaysOpen (o : OpenConstruct) : List OpenConstruct → List Line → Prop
  | _, [] => True
  | stack, line :: rest => ¬ line.closes stack o ∧ StaysOpen o (openAfter stack line) rest

instance (line : Line) (stack : List OpenConstruct) (o : OpenConstruct) :
    Decidable (line.closes stack o) := inferInstanceAs (Decidable (_ ∧ _))

instance decidableStaysOpen (o : OpenConstruct) :
    ∀ stack lines, Decidable (StaysOpen o stack lines)
  | _, [] => isTrue trivial
  | stack, line :: rest =>
    have := decidableStaysOpen o (openAfter stack line) rest
    inferInstanceAs (Decidable (_ ∧ _))

def InOrder (lines : List Line) : Prop := lines.Pairwise (·.number < ·.number)

theorem inOrder_linesFrom (number : Nat) (start : Region) (raw : List Text) :
    InOrder (linesFrom number start raw) := by
  induction raw generalizing number start with
  | nil => exact List.Pairwise.nil
  | cons line rest ih =>
    refine List.pairwise_cons.mpr ⟨?_, ih (number + 1) _⟩
    intro l mem
    exact (text_at_number mem).1

structure IsStackOf (stack : List OpenConstruct) (behind : List Line) : Prop where
  sorted : stack.Pairwise (·.line > ·.line)
  earlier : ∀ o ∈ stack, ∀ line ∈ behind, o.line < line.number

section Order
variable {stack : List OpenConstruct} {line : Line} {rest : List Line}

theorem IsStackOf.step (above : IsStackOf stack (line :: rest)) (order : InOrder (line :: rest)) :
    IsStackOf (openAfter stack line) rest := by
  obtain ⟨next, -⟩ := List.pairwise_cons.mp order
  have later : ∀ o ∈ stack, ∀ l ∈ rest, o.line < l.number :=
    fun o mem l inside => above.earlier o mem l (List.mem_cons_of_mem line inside)
  have step := nestingStep stack line
  generalize nestingFound stack line = found, openAfter stack line = behind at step ⊢
  cases step with
  | plain => exact ⟨above.sorted, later⟩
  | opens =>
    constructor
    · exact List.pairwise_cons.mpr
        ⟨fun o mem => above.earlier o mem line List.mem_cons_self, above.sorted⟩
    · exact List.forall_mem_cons.mpr ⟨next, later⟩
  | closes => exact ⟨(List.pairwise_cons.mp above.sorted).2, (List.forall_mem_cons.mp later).2⟩
  | astray => exact ⟨above.sorted, later⟩

theorem IsStackOf.run {lines behind : List Line} (above : IsStackOf stack (lines ++ behind))
    (order : InOrder (lines ++ behind)) : IsStackOf (openBehind stack lines) behind := by
  induction lines generalizing stack with
  | nil => exact above
  | cons line rest ih => exact ih (above.step order) (List.pairwise_cons.mp order).2

theorem isStackOf_nil (lines : List Line) : IsStackOf [] lines := ⟨List.Pairwise.nil, by simp⟩

theorem mem_openBehind {lines : List Line} {o : OpenConstruct} (mem : o ∈ openBehind stack lines) :
    o ∈ stack ∨ ∃ line ∈ lines, opened? line.text = some o.construct ∧ o.line = line.number := by
  induction lines generalizing stack with
  | nil => exact Or.inl mem
  | cons line rest ih =>
    rcases ih mem with here | ⟨l, inside, opens⟩
    · have step := nestingStep stack line
      generalize nestingFound stack line = found, openAfter stack line = behind at step here
      cases step with
      | plain => exact Or.inl here
      | opens token =>
        rcases List.mem_cons.mp here with rfl | here
        · exact Or.inr ⟨line, List.mem_cons_self, bracket?_eq_opens.mp token, rfl⟩
        · exact Or.inl here
      | closes => exact Or.inl (List.mem_cons_of_mem _ here)
      | astray => exact Or.inl here
    · exact Or.inr ⟨l, List.mem_cons_of_mem line inside, opens⟩

/-- A construct is open at the end exactly if no line has closed it. -/
theorem mem_openBehind_iff {lines : List Line} (above : IsStackOf stack lines)
    (order : InOrder lines) {o : OpenConstruct} (mem : o ∈ stack) :
    o ∈ openBehind stack lines ↔ StaysOpen o stack lines := by
  induction lines generalizing stack with
  | nil => exact iff_of_true mem trivial
  | cons line rest ih =>
    have inner := ih (above.step order) (List.pairwise_cons.mp order).2
    rw [openBehind_cons, StaysOpen]
    have step := nestingStep stack line
    generalize nestingFound stack line = found, openAfter stack line = behind at step inner ⊢
    cases step with
    | plain token =>
      have none := (bracket?_eq_none.mp token).2
      simp [Line.closes, none, inner mem]
    | opens token =>
      have none : closed? line.text = none := by
        cases closes : closed? line.text with
        | none => rfl
        | some c => simp [bracket?_eq_closes.mpr closes] at token
      simp [Line.closes, none, inner (List.mem_cons_of_mem _ mem)]
    | @closes top _ token =>
      by_cases same : o = top
      · subst same
        have closes : line.closes (o :: behind) o := ⟨rfl, bracket?_eq_closes.mp token⟩
        refine iff_of_false ?_ (fun stays => stays.1 closes)
        intro still
        have sorted := (List.pairwise_cons.mp above.sorted).1
        rcases mem_openBehind still with again | ⟨l, inside, -, number⟩
        · have := sorted o again
          omega
        · have := above.earlier o mem l (List.mem_cons_of_mem line inside)
          omega
      · have other : ¬ line.closes (top :: behind) o :=
          fun closes => same (Option.some.inj closes.1).symm
        have inside : o ∈ behind := (List.mem_cons.mp mem).resolve_left same
        simp [other, inner inside]
    | @astray _ c _ token apart =>
      have other : ¬ line.closes stack o := by
        rintro ⟨head, closes⟩
        have same : o.construct = c := by
          simpa [closes] using bracket?_eq_closes.mp token
        exact apart o head same
      simp [other, inner mem]

theorem filter_line_of_mem {o : OpenConstruct} (sorted : stack.Pairwise (·.line > ·.line))
    (mem : o ∈ stack) : stack.filter (·.line = o.line) = [o] := by
  induction stack with
  | nil => contradiction
  | cons top below ih =>
    obtain ⟨lower, sorted⟩ := List.pairwise_cons.mp sorted
    rcases List.mem_cons.mp mem with rfl | inside
    · have others : below.filter (·.line = o.line) = [] := by
        apply List.filter_eq_nil_iff.mpr
        intro u mem
        have := lower u mem
        simp
        omega
      rw [List.filter_cons_of_pos (by simp), others]
    · have other : top.line ≠ o.line := by
        have := lower o inside
        omega
      rw [List.filter_cons_of_neg (by simpa using other), ih sorted inside]

end Order

theorem isUnclosed_strayProblem (top : Option Construct) (c : Construct) :
    (strayProblem top c).isUnclosed = false := by
  cases top <;> rfl

theorem isUnclosed_of_mem_nestingFindings {stack : List OpenConstruct} {lines : List Line}
    {f : Finding} (mem : f ∈ nestingFindings stack lines) : f.problem.isUnclosed = false := by
  induction lines generalizing stack with
  | nil => contradiction
  | cons line rest ih =>
    rw [nestingFindings_cons] at mem
    rcases List.mem_append.mp mem with mem | mem
    · rw [nestingFound] at mem
      split at mem
      · contradiction
      · obtain ⟨c, rfl⟩ := of_mem_checkNesting mem
        exact isUnclosed_strayProblem _ c
    · exact ih mem

theorem filter_unclosed (extraTypes : List Text) (source : Text) (number : Nat) :
    (validate extraTypes source).filter (fun f => f.line = number && f.problem.isUnclosed) =
      unclosedFindings ((openBehind [] (sourceLines source)).filter (·.line = number)) := by
  have nesting : (validate extraTypes source).filter
        (fun f => f.line = number && f.problem.isUnclosed) =
      ((validate extraTypes source).filter (·.problem.isNesting)).filter
        (fun f => f.line = number && f.problem.isUnclosed) := by
    rw [List.filter_filter]
    apply List.filter_congr
    intro f _
    cases f.problem <;> simp [Problem.isUnclosed, Problem.isNesting]
  have none : (nestingFindings [] (sourceLines source)).filter
      (fun f => f.line = number && f.problem.isUnclosed) = [] := by
    apply List.filter_eq_nil_iff.mpr
    intro f mem
    simp [isUnclosed_of_mem_nestingFindings mem]
  rw [nesting, filter_validate, List.filter_append, none, List.nil_append, unclosedFindings,
    unclosedFindings, List.filter_map, List.filter_reverse]
  congr 2
  apply List.filter_congr
  intro o _
  exact Bool.and_true _

section Opener
variable {behind : List Line} {opener : Line} {c : Construct} (before : List Line)

theorem openBehind_opener (opens : opened? opener.text = some c) :
    openBehind [] (before ++ [opener]) = ⟨c, opener.number⟩ :: openBehind [] before := by
  rw [openBehind_append, openBehind_cons, (nestingStep_opens _ (bracket?_eq_opens.mpr opens)).2]
  rfl

theorem filter_openBehind (order : InOrder (before ++ opener :: behind))
    (opens : opened? opener.text = some c) :
    (openBehind [] (before ++ opener :: behind)).filter (·.line = opener.number) =
      if StaysOpen ⟨c, opener.number⟩ (openBehind [] (before ++ [opener])) behind then
        [⟨c, opener.number⟩] else [] := by
  have whole : before ++ opener :: behind = (before ++ [opener]) ++ behind := by simp
  rw [whole] at order ⊢
  have above := (isStackOf_nil _).run order
  obtain ⟨-, orderBehind, apart⟩ := List.pairwise_append.mp order
  have later : ∀ line ∈ behind, opener.number < line.number := apart opener (by simp)
  have pushed := openBehind_opener before opens
  have survives := mem_openBehind_iff above orderBehind (o := ⟨c, opener.number⟩)
    (pushed ▸ List.mem_cons_self)
  rw [openBehind_append]
  split
  · next stays =>
    rw [← List.append_nil behind] at above orderBehind
    exact filter_line_of_mem (above.run orderBehind).sorted (survives.mpr stays)
  · next closes =>
    apply List.filter_eq_nil_iff.mpr
    intro o mem
    suffices o.line ≠ opener.number by simpa using this
    intro number
    rcases mem_openBehind mem with below | ⟨line, inside, -, here⟩
    · rw [pushed] at below
      rcases List.mem_cons.mp below with rfl | below
      · exact closes (survives.mp mem)
      · have sorted := above.sorted
        rw [pushed] at sorted
        exact absurd number (Nat.ne_of_lt ((List.pairwise_cons.mp sorted).1 o below))
    · have := later line inside
      omega

end Opener

/-- The validator finds nothing wrong with the nesting exactly if the brackets are a well-nested
    word, and finds each construct that no end closes once, at its own line. -/
theorem validate_nesting (extraTypes : List Text) (source : Text) :
    ((∀ f ∈ validate extraTypes source, f.problem.isNesting = false) ↔
      WellNested (brackets (sourceLines source))) ∧
    ∀ (before behind : List Line) (opener : Line) (c : Construct),
      sourceLines source = before ++ opener :: behind → opened? opener.text = some c →
      (validate extraTypes source).filter
          (fun f => f.line = opener.number && f.problem.isUnclosed) =
        if StaysOpen ⟨c, opener.number⟩ (openBehind [] (before ++ [opener])) behind then
          [⟨opener.number, 0, .unclosed c⟩] else [] := by
  constructor
  · have found := filter_validate extraTypes source
    calc (∀ f ∈ validate extraTypes source, f.problem.isNesting = false)
        ↔ (validate extraTypes source).filter (·.problem.isNesting) = [] := by
          simp [List.filter_eq_nil_iff]
      _ ↔ nestingFindings [] (sourceLines source) = [] ∧
            openBehind [] (sourceLines source) = [] := by
          rw [found, List.append_eq_nil_iff, unclosedFindings, List.map_eq_nil_iff,
            List.reverse_eq_nil_iff]
      _ ↔ WellNested (brackets (sourceLines source)) := (wellNested_iff _).symm
  · intro before behind opener c lines opens
    have order : InOrder (before ++ opener :: behind) := by
      rw [← lines]
      exact inOrder_linesFrom 1 .code _
    rw [filter_unclosed, lines, filter_openBehind before order opens]
    split
    · rfl
    · rfl

def wrongEnd : Text := "PROGRAM P\nIF a THEN\nEND_WHILE\nEND_PROGRAM".toList

theorem validate_nesting_wrongEnd :
    ¬ WellNested (brackets (sourceLines wrongEnd)) ∧
      sourceLines wrongEnd = [⟨1, "PROGRAM P".toList, 0⟩] ++ ⟨2, "IF a THEN".toList, 0⟩ ::
        [⟨3, "END_WHILE".toList, 0⟩, ⟨4, "END_PROGRAM".toList, 0⟩] ∧
      opened? "IF a THEN".toList = some .ifBlock ∧
      (validate [] wrongEnd).filter (fun f => f.line = 2 && f.problem.isUnclosed) =
        [⟨2, 0, .unclosed .ifBlock⟩] := by
  obtain ⟨sound, unclosed⟩ := validate_nesting [] wrongEnd
  have lines : sourceLines wrongEnd = [⟨1, "PROGRAM P".toList, 0⟩] ++ ⟨2, "IF a THEN".toList, 0⟩ ::
      [⟨3, "END_WHILE".toList, 0⟩, ⟨4, "END_PROGRAM".toList, 0⟩] := by decide
  have opens : opened? "IF a THEN".toList = some .ifBlock := by decide
  refine ⟨?_, lines, opens, unclosed _ _ _ _ lines opens⟩
  intro nested
  exact absurd (sound.mpr nested) (by decide)

end StructuredText
