import Mathlib.Data.List.Forall2
import StructuredText.Proofs.Conditional.Listing
import StructuredText.Proofs.Expression.Chain
import StructuredText.Proofs.Source.Blanks

/- What becomes of the text between `IF` and `THEN`.  A line that is read for itself keeps it as its
   condition, whatever it is; a line that opens a block keeps it only if blanks part it from both
   words, and is a conditional without a condition otherwise. -/
namespace StructuredText

structure IsIfThen (line between : Text) : Prop where
  whole : line = "IF".toList ++ between ++ "THEN".toList
  first : atWordEnd (between ++ "THEN".toList) = true
  last : atWordStart between.getLast? = true

instance (line between : Text) : Decidable (IsIfThen line between) :=
  decidable_of_iff (line = "IF".toList ++ between ++ "THEN".toList ∧
      atWordEnd (between ++ "THEN".toList) = true ∧ atWordStart between.getLast? = true)
    ⟨fun ⟨whole, first, last⟩ => ⟨whole, first, last⟩,
      fun shape => ⟨shape.whole, shape.first, shape.last⟩⟩

def isParted (between : Text) : Bool :=
  between.head?.any isBlank && between.getLast?.any isBlank

def IsConditionOf (between : Text) (condition : Option Expression) : Prop :=
  condition = some (Expression.ofText (trim between)) ∨ condition = none ∧ trim between = []

theorem trimLeft_append_trimmed (s : Text) {t : Text} (trimmed : IsTrimmed t) :
    trimLeft (s ++ t) = trimLeft s ++ t := by
  rw [trimLeft, List.dropWhile_append]
  split
  · next empty =>
    rw [trimLeft, List.isEmpty_iff.mp empty, dropWhile_eq_self trimmed.first, List.nil_append]
  · rfl

theorem ofText_trim (t : Text) : Expression.ofText (trim t) = Expression.ofText t :=
  Expression.read_trim expressionLimit t

theorem trim_of_short {t : Text} (parted : isParted t = true) (short : t.length < 3) :
    trim t = [] := by
  rw [isParted, Bool.and_eq_true] at parted
  obtain ⟨first, last⟩ := parted
  apply trim_of_blank
  match t with
  | [] => contradiction
  | [c] => simpa using first
  | [c, d] => simpa using ⟨first, last⟩
  | _ :: _ :: _ :: _ =>
    simp only [List.length_cons] at short
    omega

namespace IsIfThen
variable {line between : Text}

theorem isTrimmed (shape : IsIfThen line between) : IsTrimmed line := by
  rw [shape.whole]
  exact (isTrimmed_of_solid (by decide) (of_all rfl)).between
    (isTrimmed_of_solid (by decide) (of_all rfl)) between

theorem withoutFinal (shape : IsIfThen line between) : withoutFinal ';' line = line := by
  have last : line.getLast? = some 'N' := by
    rw [shape.whole, List.getLast?_append]
    rfl
  rw [StructuredText.withoutFinal, last, if_neg (by decide)]

theorem lineCondition (shape : IsIfThen line between) :
    IsConditionOf between ((lineCondition? line).map Expression.ofText) := by
  have word : IsTrimmed "THEN".toList := isTrimmed_of_solid (by decide) (of_all rfl)
  have behind : trim (line.drop 2) = trimLeft between ++ "THEN".toList := by
    rw [shape.whole, trim, List.append_assoc]
    show trimRight (trimLeft (between ++ "THEN".toList)) = _
    rw [trimLeft_append_trimmed between word, trimRight_append _ word.last]
  have apart : (trimLeft between).getLast?.all (! isWord ·) = true := by
    obtain ⟨blanks, whole⟩ : trimLeft between <:+ between := List.dropWhile_suffix _
    have last := shape.last
    rw [← whole, List.getLast?_append, atWordStart] at last
    cases final : (trimLeft between).getLast? with
    | none => rfl
    | some c => simpa [final] using last
  have condition : withoutThen (trim (line.drop 2)) = trim between := by
    rw [withoutThen, behind, before?_eq_some_iff.mpr rfl]
    dsimp only
    rw [if_pos apart, trim]
  rw [lineCondition?, condition]
  by_cases empty : trim between = []
  · exact Or.inr ⟨by simp [empty], empty⟩
  · exact Or.inl (by simp [empty])

theorem blockCondition (shape : IsIfThen line between) : blockCondition? line =
    if isParted between && 3 ≤ between.length then some between else none := by
  have behind : before? "THEN".toList (line.drop 2) = some between := by
    rw [before?_eq_some_iff, shape.whole, List.append_assoc]
    rfl
  rw [blockCondition?, behind]
  rfl

end IsIfThen

inductive IsReadFrom : Statement → Text → Prop
  | single {s : Statement} {line : Text} : Statement.ofLine? line = some s → IsReadFrom s line
  | block {line : Text} (body : Branches × Place) : opensBlock line = true →
      IsReadFrom (closedBlock line body).statement line

/-- What a conditional has as its condition, given the line that it is read from. -/
structure KeepsCondition (line : Text) (condition : Option Expression)
    (thenBranch : Option (List Statement)) : Prop where
  /-- Read for itself, or with blanks behind `IF` and before `THEN`. -/
  kept : ∀ between, IsIfThen line between → thenBranch = none ∨ isParted between = true →
    IsConditionOf between condition
  /-- Read as a block that lacks one of these blanks. -/
  dropped : ∀ between, IsIfThen line between → thenBranch ≠ none → isParted between = false →
    condition = none

theorem keepsCondition_single {line : Text} {condition : Option Expression}
    {thenBranch elseBranch : Option (List Statement)}
    (read : Statement.ofLine? line = some (.conditional condition thenBranch elseBranch)) :
    KeepsCondition line condition thenBranch := by
  have facts : condition = (lineCondition? (trim (withoutFinal ';' line))).map Expression.ofText ∧
      thenBranch = none := by
    obtain ⟨clause, found, meaning⟩ := Option.map_eq_some_iff.mp read
    rw [Clause.ofLine?] at found
    dsimp only at found
    split at found
    · obtain rfl := Option.some.inj found
      contradiction
    · split at found
      · obtain rfl := Option.some.inj found
        obtain ⟨rfl, rfl, -⟩ := Statement.conditional.inj meaning
        exact ⟨rfl, rfl⟩
      · obtain ⟨call, -, rfl⟩ := Option.map_eq_some_iff.mp found
        contradiction
  obtain ⟨rfl, rfl⟩ := facts
  constructor
  · intro between shape _
    rw [shape.withoutFinal, trim_eq_self shape.isTrimmed]
    exact shape.lineCondition
  · intro between shape branch
    contradiction

theorem keepsCondition_block (line : Text) (branch : List Statement) :
    KeepsCondition line ((blockCondition? line).map Expression.ofText) (some branch) := by
  constructor
  · intro between shape parted
    have parted : isParted between = true := parted.resolve_left (Option.some_ne_none branch)
    rw [shape.blockCondition, parted, Bool.true_and]
    by_cases long : 3 ≤ between.length
    · rw [if_pos (decide_eq_true long)]
      exact Or.inl (congrArg some (ofText_trim between).symm)
    · rw [if_neg (by simpa using long)]
      exact Or.inr ⟨rfl, trim_of_short parted (Nat.lt_of_not_le long)⟩
  · intro between shape _ apart
    rw [shape.blockCondition, apart]
    rfl

theorem keepsCondition_of_isReadFrom {line : Text} {condition : Option Expression}
    {thenBranch elseBranch : Option (List Statement)}
    (read : IsReadFrom (.conditional condition thenBranch elseBranch) line) :
    KeepsCondition line condition thenBranch := by
  generalize whole : Statement.conditional condition thenBranch elseBranch = s at read
  cases read with
  | single found => exact keepsCondition_single (whole ▸ found)
  | block body opens =>
    obtain ⟨rfl, rfl, rfl⟩ := Statement.conditional.inj whole
    exact keepsCondition_block line body.1.thenBranch

/-- The statements, each before those in its branches, are read from some of the lines, in the order
    of the lines. -/
def ArisesFrom : Account :=
  fun lines statements => List.SublistForall₂ IsReadFrom (Statement.preorderOf statements) lines

theorem preorderOf_ofLine? (line : Text) :
    Statement.preorderOf (Statement.ofLine? line).toList = (Statement.ofLine? line).toList := by
  rw [Statement.ofLine?]
  cases Clause.ofLine? line with
  | none => rfl
  | some clause => cases clause <;> rfl

theorem isKept_arisesFrom (lines : List Text) : ArisesFrom.IsKept lines where
  nil := .nil
  append := by
    intro first second s t left right
    obtain ⟨used, each, part⟩ := List.sublistForall₂_iff.mp left
    obtain ⟨used', each', part'⟩ := List.sublistForall₂_iff.mp right
    rw [ArisesFrom, Statement.preorderOf_append]
    exact List.sublistForall₂_iff.mpr
      ⟨used ++ used', List.rel_append each each', part.append part'⟩
  silent _ := .nil
  single := by
    intro line _
    rw [ArisesFrom, preorderOf_ofLine?]
    cases found : Statement.ofLine? line with
    | none => exact .nil
    | some s => exact .cons (.single found) .nil
  block := by
    intro line used body opens inner
    rw [ArisesFrom, Statement.preorderOf_append] at inner
    have whole : Statement.preorderOf [(closedBlock line body).statement] =
        (closedBlock line body).statement ::
          (Statement.preorderOf body.1.thenBranch ++ Statement.preorderOf body.1.elseBranch) := by
      simp [closedBlock, Statement.preorderOf, Statement.preorder, Statement.branchPreorder]
    rw [ArisesFrom, whole]
    exact .cons (.block body opens) inner

/-- The statements of a unit come from its lines in order, and each conditional has the text between
    `IF` and `THEN` as its condition unless it is a block without the blanks. -/
theorem conditions_of_ofSource? {source : Text} {pou : Pou}
    (found : Pou.ofSource? source = some pou) :
    List.SublistForall₂
      (fun s line => IsReadFrom s line ∧ ∀ condition thenBranch elseBranch,
        s = .conditional condition thenBranch elseBranch → KeepsCondition line condition thenBranch)
      (Statement.preorderOf pou.statements) (lineTexts source) := by
  have arises : ArisesFrom (lineTexts source) pou.statements :=
    (isKept_arisesFrom _).ofSource? (fun _ => .nil) found
  obtain ⟨used, each, part⟩ := List.sublistForall₂_iff.mp arises
  refine List.sublistForall₂_iff.mpr ⟨used, each.imp fun s line read => ⟨read, ?_⟩, part⟩
  rintro condition thenBranch elseBranch rfl
  exact keepsCondition_of_isReadFrom read

def guardedProgram (line : String) : Text :=
  "PROGRAM P\n".toList ++ line.toList ++ "\nx := y;\nEND_IF\nEND_PROGRAM".toList

theorem conditions_of_ofSource?_guarded :
    ∃ pou, Pou.ofSource? (guardedProgram "IF (c) THEN") = some pou ∧
      List.SublistForall₂
        (fun s line => IsReadFrom s line ∧ ∀ condition thenBranch elseBranch,
          s = .conditional condition thenBranch elseBranch →
            KeepsCondition line condition thenBranch)
        (Statement.preorderOf pou.statements) (lineTexts (guardedProgram "IF (c) THEN")) :=
  ⟨_, rfl, conditions_of_ofSource? rfl⟩

/-- Without a blank behind `IF` the condition of a block is lost. -/
theorem condition_lost :
    IsIfThen "IF(c) THEN".toList "(c) ".toList ∧ IsIfThen "IF (c) THEN".toList " (c) ".toList ∧
      trim "(c) ".toList = trim " (c) ".toList ∧ trim "(c) ".toList ≠ [] ∧
      (Pou.ofSource? (guardedProgram "IF(c) THEN")).map (·.statements) =
        some [.conditional none (some [.assignment "x".toList (.variable "y".toList)]) (some [])] ∧
      (Pou.ofSource? (guardedProgram "IF (c) THEN")).map (·.statements) =
        some [.conditional (some (.variable "c".toList))
          (some [.assignment "x".toList (.variable "y".toList)]) (some [])] := by
  refine ⟨?_, ?_, ?_, ?_, rfl, rfl⟩
  · decide
  · decide
  · decide
  · decide

end StructuredText
