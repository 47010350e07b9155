import StructuredText.Proofs.Expression.Text
import StructuredText.Proofs.Pou.Plain

/- Units in which no name is a word of the language.  Other than plain ones they may hold any
   statement and any number, and their text need not read back to them. -/
namespace StructuredText

/-- An identifier that is no keyword, operator or section in any case, nor begins like an end. -/
def isOrdinaryWord (t : Text) : Bool :=
  isIdentifier t && !keywords.contains (upper t) && !wordOperators.contains (upper t) &&
    !sectionKeywords.contains (upper t) && isOpenWord (upper t)

def isOrdinaryName (t : Text) : Bool := (t.splitOn '.').all isOrdinaryWord

def Literal.isOrdinary : Literal → Bool
  | .bool _ => true
  | .int value => isWritableInteger value
  | .real _ => true
  | .string _ => false

mutual
def Expression.isOrdinary : Expression → Bool
  | .literal value => value.isOrdinary
  | .variable name => isOrdinaryName name
  | .negation operand => operand.isOrdinary
  | .connective _ left right => left.isOrdinary && right.isOrdinary
  | .comparison _ left right => left.isOrdinary && right.isOrdinary
  | .call name arguments => isOrdinaryWord name && Expression.areOrdinary arguments

def Expression.areOrdinary : List Expression → Bool
  | [] => true
  | e :: rest => e.isOrdinary && Expression.areOrdinary rest
end

mutual
def Statement.isOrdinary : Statement → Bool
  | .assignment target value => isOrdinaryName target && value.isOrdinary
  | .conditional condition thenBranch elseBranch =>
    condition.all (·.isOrdinary) && Statement.isOrdinaryBranch thenBranch &&
      Statement.isOrdinaryBranch elseBranch
  | .call _ name arguments => isOrdinaryWord name && Expression.areOrdinary arguments
  | .forLoop body => Statement.areOrdinary body
  | .whileLoop condition body => condition.all (·.isOrdinary) && Statement.areOrdinary body
  | .ret value => value.all (·.isOrdinary)

def Statement.areOrdinary : List Statement → Bool
  | [] => true
  | s :: rest => s.isOrdinary && Statement.areOrdinary rest

def Statement.isOrdinaryBranch : Option (List Statement) → Bool
  | none => true
  | some branch => Statement.areOrdinary branch
end

def isOneLineCode (t : Text) : Bool :=
  t.all (! "\n'\"".toList.contains ·) && !containsText "//".toList t &&
    !containsText "(*".toList t

def Variable.isOrdinary (v : Variable) : Bool :=
  isOrdinaryWord v.name && isName v.type && v.initialValue.all isOneLineCode

def Pou.isOrdinary (pou : Pou) : Bool :=
  isOrdinaryWord pou.name && pou.returnType.all isName && pou.declared.all (·.isOrdinary) &&
    Statement.areOrdinary pou.statements

theorem Expression.areOrdinary_iff (arguments : List Expression) :
    areOrdinary arguments = true ↔ ∀ e ∈ arguments, e.isOrdinary = true := by
  induction arguments with
  | nil => simp [areOrdinary]
  | cons e rest ih => simp [areOrdinary, ih]

theorem Statement.areOrdinary_iff (body : List Statement) :
    areOrdinary body = true ↔ ∀ s ∈ body, s.isOrdinary = true := by
  induction body with
  | nil => simp [areOrdinary]
  | cons s rest ih => simp [areOrdinary, ih]

theorem Identifier.map_fold {w : Text} (word : Identifier w) : w.map fold = upper w := by
  have letters := word.letters
  clear word
  induction w with
  | nil => rfl
  | cons c t ih =>
    have ascii := toNat_lt_of_isAsciiWord (letters c List.mem_cons_self)
    have here : capitals c = [fold c] := by rw [capitals, if_pos ascii, fold_of_ascii ascii]
    rw [List.map_cons, ih fun d mem => letters d (List.mem_cons_of_mem c mem), upper, upper,
      List.flatMap_cons, here]
    rfl

theorem Identifier.name {w : Text} (word : Identifier w) : Name w := ⟨word.ne_nil, word.isWord⟩

structure NonKeyword (w : Text) : Prop extends Identifier w where
  noKeyword : upper w ∉ keywords
  noSection : upper w ∉ sectionKeywords

namespace NonKeyword
variable {w : Text} (word : NonKeyword w)
include word

theorem not_mem_keywords : w ∉ keywords := by
  have capital : ∀ k ∈ keywords, upper k = k := by decide
  exact fun mem => word.noKeyword (by rwa [capital w mem])

theorem not_mem_sectionKeywords : w ∉ sectionKeywords := by
  have capital : ∀ k ∈ sectionKeywords, upper k = k := by decide
  exact fun mem => word.noSection (by rwa [capital w mem])

end NonKeyword

/-- What an ordinary word is like.  Its capitals are no word of the language, nor is it itself. -/
structure OrdinaryWord (w : Text) : Prop extends NonKeyword w where
  noOperator : upper w ∉ wordOperators
  opens : isOpenWord (upper w) = true

theorem ordinaryWord_of_isOrdinaryWord {w : Text} (ordinary : isOrdinaryWord w = true) :
    OrdinaryWord w := by
  simp only [isOrdinaryWord, Bool.and_eq_true, Bool.not_eq_true', List.contains_eq_mem,
    decide_eq_false_iff_not] at ordinary
  obtain ⟨⟨⟨⟨identifier, noKeyword⟩, noOperator⟩, noSection⟩, opens⟩ := ordinary
  exact ⟨⟨identifier_of_isIdentifier identifier, noKeyword, noSection⟩, noOperator, opens⟩

namespace OrdinaryWord
variable {w : Text} (word : OrdinaryWord w)
include word

theorem isOpenWord : isOpenWord w = true := by
  cases begins : "END_".toList.isPrefixOf w with
  | false => rw [StructuredText.isOpenWord, begins, Bool.not_false]
  | true =>
    obtain ⟨rest, rfl⟩ := List.isPrefixOf_iff_prefix.mp begins
    have capital : upper ("END_".toList ++ rest) = "END_".toList ++ upper rest :=
      upper_append "END_".toList rest
    have opens := word.opens
    rw [capital, StructuredText.isOpenWord, Bool.not_eq_true', ← Bool.not_eq_true,
      List.isPrefixOf_iff_prefix] at opens
    exact absurd (List.prefix_append _ _) opens

end OrdinaryWord

theorem parts_of_isOrdinaryName {name : Text} (ordinary : isOrdinaryName name = true) :
    ∃ (w : Text) (rest : List Text), name = w ++ rest.flatMap ('.' :: ·) ∧ OrdinaryWord w ∧
      ∀ v ∈ rest, OrdinaryWord v := by
  rw [isOrdinaryName, List.all_eq_true] at ordinary
  cases split : name.splitOn '.' with
  | nil => exact absurd split (List.splitOn_ne_nil '.' name)
  | cons w rest =>
    rw [split] at ordinary
    refine ⟨w, rest, ?_, ordinaryWord_of_isOrdinaryWord (ordinary w List.mem_cons_self),
      fun v mem => ordinaryWord_of_isOrdinaryWord (ordinary v (List.mem_cons_of_mem w mem))⟩
    have joined := intercalate_cons ['.'] w rest
    rw [← split, List.intercalate_splitOn] at joined
    exact joined

end StructuredText
