import StructuredText.Proofs.Text.Boundary
import StructuredText.Validation

/- What the checks of a line find, each said once with all that it asks of the line.  What holds of
   the findings of a check is shown of these cases. -/
namespace StructuredText

section Nesting

theorem opener?_of_end (t : Text) : opener? ('E' :: t) = none := by
  have noUnit : PouKind.all.find? (opensUnit · ('E' :: t)) = none := rfl
  have noControl : Construct.controls.find? (fun c => startsWithWord c.keyword ('E' :: t)) = none :=
    rfl
  have noSection : sectionKeywords.contains
      (withoutTrailing ';' (('E' :: t).takeWhile (! isBlank ·))) = false := by
    have initial : ∀ word ∈ sectionKeywords, word.head? = some 'V' := by decide
    rw [List.takeWhile_cons_of_pos (by decide), withoutTrailing_cons (by decide)]
    cases found : sectionKeywords.contains _ with
    | false => rfl
    | true => exact absurd (initial _ (List.contains_iff_mem.mp found)) (by simp)
  simp only [opener?, noUnit, noControl, noSection]
  rfl

theorem opener?_of_closed? {t : Text} {c : Construct} (closes : closed? t = some c) :
    opener? t = none := by
  have starts : startsWithWord c.terminator t = true :=
    List.find?_some (p := fun c : Construct => startsWithWord c.terminator t) closes
  obtain ⟨rest, rfl, -⟩ := eq_append_of_startsWithWord starts
  exact opener?_of_end ("ND_".toList ++ c.keyword ++ rest)

theorem opened?_of_closed? {t : Text} {c : Construct} (closes : closed? t = some c) :
    opened? t = none := by
  rw [opened?, opener?_of_closed? closes]
  rfl

def topOf (stack : List OpenConstruct) : Option Construct := stack.head?.map (·.construct)

def strayProblem (top : Option Construct) (found : Construct) : Problem :=
  match top with
  | none => .unexpectedEnd found
  | some top => .wrongEnd top found

theorem severity_strayProblem (top : Option Construct) (found : Construct) :
    (strayProblem top found).severity = .error := by
  cases top <;> rfl

inductive NestingCheck (line : Line) :
    List OpenConstruct → List Finding × List OpenConstruct → Prop
  | plain {stack : List OpenConstruct} (noOpener : opened? line.text = none)
    (noEnd : closed? line.text = none) : NestingCheck line stack ([], stack)
  | opens {stack : List OpenConstruct} {c : Construct} (opener : opened? line.text = some c)
    (noEnd : closed? line.text = none) : NestingCheck line stack ([], ⟨c, line.number⟩ :: stack)
  | closes {top : OpenConstruct} {rest : List OpenConstruct}
    (fits : closed? line.text = some top.construct) : NestingCheck line (top :: rest) ([], rest)
  | astray {stack : List OpenConstruct} {c : Construct} (closes : closed? line.text = some c)
    (other : topOf stack ≠ some c) :
    NestingCheck line stack ([⟨line.number, 0, strayProblem (topOf stack) c⟩], stack)

theorem nestingCheck (line : Line) (stack : List OpenConstruct) :
    NestingCheck line stack (checkNesting line stack) := by
  rw [checkNesting]
  cases closes : closed? line.text with
  | none =>
    cases opens : opened? line.text with
    | none => exact .plain opens closes
    | some c => exact .opens opens closes
  | some c =>
    simp only [opened?_of_closed? closes, Option.toList_none, List.map_nil, List.nil_append]
    cases stack with
    | nil => exact .astray closes nofun
    | cons top rest =>
      rw [closeConstruct]
      split
      · next fits => exact .closes (fits ▸ closes)
      · next other => exact .astray closes fun same => other (Option.some.inj same)

theorem of_mem_checkNesting {line : Line} {stack : List OpenConstruct} {f : Finding}
    (mem : f ∈ (checkNesting line stack).1) :
    ∃ c, f = ⟨line.number, 0, strayProblem (topOf stack) c⟩ := by
  have check := nestingCheck line stack
  generalize checkNesting line stack = result at check mem
  cases check with
  | @astray _ c _ _ => exact ⟨c, List.mem_singleton.mp mem⟩
  | _ => contradiction

end Nesting

section Content
variable {line : Line} {f : Finding}

theorem mem_checkSemicolon : f ∈ checkSemicolon line ↔
    needsSemicolon line.text = true ∧ line.text.getLast? ≠ some ';' ∧
      f = line.finding line.text.length .missingSemicolon := by
  simp [checkSemicolon, and_assoc]

inductive DeclarationFinding (extra : List Text) (line : Line) : Finding → Prop
  | name {d : Declaration} (declared : declaration? line.text = some d)
    (digit : d.name.head?.any isDigitLike = true) :
    DeclarationFinding extra line (line.finding 0 .digitFirst)
  | type {d : Declaration} (declared : declaration? line.text = some d)
    (unknown : isKnownType d.type = false) (noExtra : extra.contains (upper d.type) = false) :
    DeclarationFinding extra line (line.finding d.typeOffset (.unknownType d.type))

theorem mem_checkDeclaration {extra : List Text} :
    f ∈ checkDeclaration extra line ↔ DeclarationFinding extra line f := by
  rw [checkDeclaration]
  constructor
  · intro mem
    split at mem
    · contradiction
    · next d declared =>
      rcases List.mem_append.mp mem with mem | mem
      · split at mem
        · next digit =>
          obtain rfl := List.mem_singleton.mp mem
          exact .name declared digit
        · contradiction
      · split at mem
        · contradiction
        · next unknown =>
          obtain rfl := List.mem_singleton.mp mem
          obtain ⟨unknown, noExtra⟩ := Bool.or_eq_false_iff.mp (Bool.not_eq_true _ ▸ unknown)
          exact .type declared unknown noExtra
  · rintro (⟨declared, digit⟩ | ⟨declared, unknown, noExtra⟩)
    · simp [declared, digit]
    · simp only [declared, unknown, noExtra]
      simp

/-- `:=` stands again behind the first one, or it stands once and is no good. -/
inductive AssignmentFinding (inCase : Bool) (line : Line) : Finding → Prop
  | again {n : Nat} (noLoop : startsFoldedWord "FOR".toList line.text = false)
    (first : findTopLevel? ":=".toList line.text (statementStart inCase line.text) = some n)
    (second : (findTopLevel? ":=".toList line.text (n + 2)).isSome = true) :
    AssignmentFinding inCase line (line.finding n .invalidAssignment)
  | target {n : Nat} (noLoop : startsFoldedWord "FOR".toList line.text = false)
    (first : findTopLevel? ":=".toList line.text (statementStart inCase line.text) = some n)
    (only : (findTopLevel? ":=".toList line.text (n + 2)).isSome = false)
    (bad : isTarget (trim ((line.text.take n).drop (statementStart inCase line.text))) = false) :
    AssignmentFinding inCase line (line.finding (statementStart inCase line.text) .invalidTarget)
  | parens {n : Nat} (noLoop : startsFoldedWord "FOR".toList line.text = false)
    (first : findTopLevel? ":=".toList line.text (statementStart inCase line.text) = some n)
    (only : (findTopLevel? ":=".toList line.text (n + 2)).isSome = false)
    (unequal : hasEqualParens (line.text.drop (n + 2)) = false) :
    AssignmentFinding inCase line (line.finding (n + 2) .unbalanced)

theorem mem_checkAssignment {inCase : Bool} :
    f ∈ checkAssignment inCase line ↔ AssignmentFinding inCase line f := by
  rw [checkAssignment]
  constructor
  · intro mem
    split at mem
    · contradiction
    · next noLoop =>
      have noLoop := Bool.not_eq_true _ ▸ noLoop
      split at mem
      · contradiction
      · next n first =>
        split at mem
        · next second =>
          obtain rfl := List.mem_singleton.mp mem
          exact .again noLoop first second
        · next only =>
          have only := Bool.not_eq_true _ ▸ only
          rcases List.mem_append.mp mem with mem | mem
          · split at mem
            · contradiction
            · next bad =>
              obtain rfl := List.mem_singleton.mp mem
              exact .target noLoop first only (Bool.not_eq_true _ ▸ bad)
          · split at mem
            · contradiction
            · next unequal =>
              obtain rfl := List.mem_singleton.mp mem
              exact .parens noLoop first only (Bool.not_eq_true _ ▸ unequal)
  · rintro (⟨noLoop, first, second⟩ | ⟨noLoop, first, only, bad⟩ | ⟨noLoop, first, only, unequal⟩)
    · simp only [noLoop, first, second]
      simp
    · simp only [noLoop, first, only, bad]
      simp
    · simp only [noLoop, first, only, unequal]
      simp

inductive CallFinding (line : Line) : Finding → Prop
  | parens {name : Text} {opening : Nat} (head : callHead? line.text = some (name, opening))
    (free : isReserved name = false) (unequal : hasEqualParens line.text = false) :
    CallFinding line (line.finding opening .unbalancedCall)
  | positional {name : Text} {opening closing offset number : Nat} {parameter : Text}
    (head : callHead? line.text = some (name, opening)) (free : isReserved name = false)
    (closes : matchingParen? line.text opening = some closing)
    (filled : (trim ((line.text.take closing).drop (opening + 1))).isEmpty = false)
    (part : ((offset, parameter), number) ∈
      (splitTopLevel [','] ((line.text.take closing).drop (opening + 1))).zipIdx 1)
    (unnamed : ((trim parameter).isEmpty || isNamedParameter (trim parameter)) = false) :
    CallFinding line
      (line.finding (opening + 1 + offset + leadingBlanks parameter) (.positional number))

theorem mem_checkParameters {start : Nat} {parameters : Text} :
    f ∈ checkParameters line start parameters ↔ ∃ offset parameter number,
      ((offset, parameter), number) ∈ (splitTopLevel [','] parameters).zipIdx 1 ∧
        ((trim parameter).isEmpty || isNamedParameter (trim parameter)) = false ∧
        f = line.finding (start + offset + leadingBlanks parameter) (.positional number) := by
  rw [checkParameters, List.mem_filterMap]
  constructor
  · rintro ⟨⟨⟨offset, parameter⟩, number⟩, part, found⟩
    dsimp only at found
    split at found
    · contradiction
    · next unnamed =>
      exact ⟨offset, parameter, number, part, Bool.not_eq_true _ ▸ unnamed,
        (Option.some.inj found).symm⟩
  · rintro ⟨offset, parameter, number, part, unnamed, rfl⟩
    refine ⟨_, part, ?_⟩
    dsimp only
    rw [unnamed]
    rfl

theorem mem_checkCall : f ∈ checkCall line ↔ CallFinding line f := by
  rw [checkCall]
  constructor
  · intro mem
    split at mem
    · contradiction
    · next name opening head =>
      split at mem
      · contradiction
      · next free =>
        have free := Bool.not_eq_true _ ▸ free
        rcases List.mem_append.mp mem with mem | mem
        · split at mem
          · contradiction
          · next unequal =>
            obtain rfl := List.mem_singleton.mp mem
            exact .parens head free (Bool.not_eq_true _ ▸ unequal)
        · split at mem
          · contradiction
          · next closing closes =>
            dsimp only at mem
            split at mem
            · contradiction
            · next filled =>
              obtain ⟨offset, parameter, number, part, unnamed, rfl⟩ := mem_checkParameters.mp mem
              exact .positional head free closes (Bool.not_eq_true _ ▸ filled) part unnamed
  · rintro (⟨head, free, unequal⟩ | ⟨head, free, closes, filled, part, unnamed⟩)
    · simp [head, free, unequal]
    · simp only [head, free, closes, filled]
      exact List.mem_append_right _ (mem_checkParameters.mpr ⟨_, _, _, part, unnamed, rfl⟩)

end Content

end StructuredText
