import StructuredText.Limit
import StructuredText.Pou
import StructuredText.Proofs.Expression.Plain
import StructuredText.Proofs.Text.Boundary
import StructuredText.Statement.Clause
import StructuredText.Vocabulary

/- The units that their text stands for without loss: no line of theirs begins like a line of
   another kind, and no text in them is cut, turned over to the next line or taken for a comment. -/
namespace StructuredText

def isName (t : Text) : Bool := !t.isEmpty && t.all isWord

structure Name (t : Text) : Prop where
  nonempty : t ≠ []
  letters : ∀ c ∈ t, isWord c = true

theorem name_of_isName {t : Text} (name : isName t = true) : Name t := by
  simp only [isName, Bool.and_eq_true, Bool.not_eq_true', List.isEmpty_eq_false_iff,
    List.all_eq_true] at name
  exact ⟨name.1, name.2⟩

theorem Name.solid {t : Text} (name : Name t) : ∀ c ∈ t, isBlank c = false ∧ c ≠ ';' := by
  intro c mem
  refine ⟨isBlank_of_isWord (name.letters c mem), ?_⟩
  rintro rfl
  have := name.letters _ mem
  contradiction

theorem Name.isTrimmed {t : Text} (name : Name t) : IsTrimmed t :=
  isTrimmed_of_solid name.nonempty fun c mem => (name.solid c mem).1

def isOpenWord (t : Text) : Bool := !"END_".toList.isPrefixOf t

def isPlainTarget (t : Text) : Bool :=
  !t.isEmpty && t.all isTargetChar && isOpenWord t && !sectionKeywords.contains t

structure PlainTarget (t : Text) : Prop where
  nonempty : t ≠ []
  chars : ∀ c ∈ t, isTargetChar c = true
  opens : isOpenWord t = true
  other : t ∉ sectionKeywords

theorem plainTarget_of_isPlainTarget {t : Text} (plain : isPlainTarget t = true) :
    PlainTarget t := by
  simp only [isPlainTarget, Bool.and_eq_true, Bool.not_eq_true', List.isEmpty_eq_false_iff,
    List.all_eq_true, List.contains_eq_mem, decide_eq_false_iff_not] at plain
  obtain ⟨⟨⟨nonempty, chars⟩, opens⟩, other⟩ := plain
  exact ⟨nonempty, chars, opens, other⟩

def Expression.isReadable (e : Expression) : Bool := e.isPlain && e.depth ≤ expressionLimit

mutual
/-- An assignment, a call on a line of its own, or a conditional with both of its branches. -/
def Statement.isPlain : Statement → Bool
  | .assignment target value => isPlainTarget target && value.isReadable
  | .call target name arguments =>
    target = name && isName name && isOpenWord name && name ≠ "IF".toList &&
      Expression.arePlain arguments && Expression.argumentDepth arguments ≤ expressionLimit
  | .conditional (some condition) (some thenBranch) (some elseBranch) =>
    condition.isReadable && Statement.arePlain thenBranch && Statement.arePlain elseBranch
  | _ => false

def Statement.arePlain : List Statement → Bool
  | [] => true
  | s :: rest => s.isPlain && Statement.arePlain rest
end

mutual
def Statement.nesting : Statement → Nat
  | .conditional _ thenBranch elseBranch =>
    max (Statement.branchNesting thenBranch) (Statement.branchNesting elseBranch) + 1
  | .forLoop body => Statement.nestingOf body
  | .whileLoop _ body => Statement.nestingOf body
  | _ => 0

def Statement.nestingOf : List Statement → Nat
  | [] => 0
  | s :: rest => max s.nesting (Statement.nestingOf rest)

def Statement.branchNesting : Option (List Statement) → Nat
  | none => 0
  | some branch => Statement.nestingOf branch
end

def isPlainInitialValue (t : Text) : Bool :=
  t.head?.any (! isBlank ·) && t.getLast?.any (! isBlank ·) &&
    t.all (! "\n'\"".toList.contains ·) && !containsText "//".toList t &&
    !containsText "(*".toList t

def Variable.isPlain (kind : PouKind) (v : Variable) : Bool :=
  isName v.name && !sectionKeywords.contains v.name && v.name ≠ "END_VAR".toList &&
    v.name ≠ kind.terminator && isName v.type && v.initialValue.all isPlainInitialValue

structure Variable.Plain (kind : PouKind) (v : Variable) : Prop where
  name : Name v.name
  type : Name v.type
  noSection : v.name ∉ sectionKeywords
  noSectionEnd : v.name ≠ "END_VAR".toList
  noEnd : v.name ≠ kind.terminator
  initial : ∀ t ∈ v.initialValue, isPlainInitialValue t = true

theorem Variable.plain_of_isPlain {kind : PouKind} {v : Variable} (plain : v.isPlain kind = true) :
    v.Plain kind := by
  simp only [isPlain, Bool.and_eq_true, Bool.not_eq_true', List.contains_eq_mem,
    decide_eq_false_iff_not, decide_eq_true_eq] at plain
  obtain ⟨⟨⟨⟨⟨name, noSection⟩, noSectionEnd⟩, noEnd⟩, type⟩, initial⟩ := plain
  refine ⟨name_of_isName name, name_of_isName type, noSection, noSectionEnd, noEnd, ?_⟩
  intro t mem
  rw [Option.mem_def.mp mem] at initial
  exact initial

def Pou.isPlain (pou : Pou) : Bool :=
  isName pou.name && pou.returnType.all isName && pou.declared.all (·.isPlain pou.kind) &&
    Statement.arePlain pou.statements && Statement.nestingOf pou.statements ≤ blockLimit

namespace Statement

@[elab_as_elim, induction_eliminator]
theorem induct {motive : Statement → Prop}
    (assignment : ∀ target value, motive (.assignment target value))
    (conditional : ∀ condition thenBranch elseBranch, (∀ s ∈ thenBranch.getD [], motive s) →
      (∀ s ∈ elseBranch.getD [], motive s) → motive (.conditional condition thenBranch elseBranch))
    (call : ∀ target name arguments, motive (.call target name arguments))
    (forLoop : ∀ body, (∀ s ∈ body, motive s) → motive (.forLoop body))
    (whileLoop : ∀ condition body, (∀ s ∈ body, motive s) → motive (.whileLoop condition body))
    (ret : ∀ value, motive (.ret value)) (s : Statement) : motive s :=
  @Statement.rec motive (fun branch => ∀ s ∈ branch.getD [], motive s)
    (fun body => ∀ s ∈ body, motive s) assignment conditional call forLoop whileLoop ret
    (by simp) (fun _ inner => inner) (by simp)
    (fun _ _ here there => List.forall_mem_cons.mpr ⟨here, there⟩) s

theorem arePlain_iff (body : List Statement) :
    arePlain body = true ↔ ∀ s ∈ body, s.isPlain = true := by
  induction body with
  | nil => simp [arePlain]
  | cons s rest ih => simp [arePlain, ih]

structure PlainCall (name : Text) (arguments : List Expression) : Prop where
  word : Name name
  opens : isOpenWord name = true
  other : name ≠ "IF".toList
  plain : Expression.arePlain arguments = true
  shallow : Expression.argumentDepth arguments ≤ expressionLimit

theorem plain_induct {motive : Statement → Prop}
    (assignment : ∀ target value, PlainTarget target → value.isReadable = true →
      motive (.assignment target value))
    (call : ∀ name arguments, PlainCall name arguments → motive (.call name name arguments))
    (conditional : ∀ condition thenBranch elseBranch, condition.isReadable = true →
      (∀ s ∈ thenBranch, motive s) → (∀ s ∈ elseBranch, motive s) →
      motive (.conditional (some condition) (some thenBranch) (some elseBranch)))
    {s : Statement} (plain : s.isPlain = true) : motive s := by
  induction s with
  | assignment target value =>
    simp only [isPlain, Bool.and_eq_true] at plain
    exact assignment target value (plainTarget_of_isPlainTarget plain.1) plain.2
  | call target name arguments =>
    simp only [isPlain, Bool.and_eq_true, decide_eq_true_eq] at plain
    obtain ⟨⟨⟨⟨⟨rfl, word⟩, opens⟩, other⟩, plains⟩, shallow⟩ := plain
    exact call target arguments ⟨name_of_isName word, opens, other, plains, shallow⟩
  | conditional condition thenBranch elseBranch ihThen ihElse =>
    cases condition with
    | none => contradiction
    | some condition =>
      cases thenBranch with
      | none => contradiction
      | some thenBranch =>
        cases elseBranch with
        | none => contradiction
        | some elseBranch =>
          simp only [isPlain, Bool.and_eq_true, arePlain_iff] at plain
          obtain ⟨⟨readable, first⟩, second⟩ := plain
          exact conditional condition thenBranch elseBranch readable
            (fun s mem => ihThen s mem (first s mem)) (fun s mem => ihElse s mem (second s mem))
  | forLoop body => contradiction
  | whileLoop condition body => contradiction
  | ret value => contradiction

end Statement
end StructuredText
