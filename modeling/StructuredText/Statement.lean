import StructuredText.Expression

/- Statement trees. -/
namespace StructuredText

/-- A conditional without branches comes from a line whose block never closed. -/
inductive Statement
  | assignment (target : Text) (value : Expression)
  | conditional (condition : Option Expression) (thenBranch elseBranch : Option (List Statement))
  | call (target name : Text) (arguments : List Expression)
  | forLoop (body : List Statement)
  | whileLoop (condition : Option Expression) (body : List Statement)
  | ret (value : Option Expression)

def Expression.sameOption : Option Expression → Option Expression → Bool
  | none, none => true
  | some a, some b => a.same b
  | _, _ => false

mutual
def Statement.same : Statement → Statement → Bool
  | .assignment t₁ e₁, .assignment t₂ e₂ => t₁ = t₂ && e₁.same e₂
  | .conditional c₁ a₁ b₁, .conditional c₂ a₂ b₂ =>
    Expression.sameOption c₁ c₂ && Statement.sameBranch a₁ a₂ && Statement.sameBranch b₁ b₂
  | .call t₁ f₁ as₁, .call t₂ f₂ as₂ => t₁ = t₂ && f₁ = f₂ && Expression.sameAll as₁ as₂
  | .forLoop b₁, .forLoop b₂ => Statement.sameAll b₁ b₂
  | .whileLoop c₁ b₁, .whileLoop c₂ b₂ => Expression.sameOption c₁ c₂ && Statement.sameAll b₁ b₂
  | .ret v₁, .ret v₂ => Expression.sameOption v₁ v₂
  | _, _ => false

def Statement.sameAll : List Statement → List Statement → Bool
  | [], [] => true
  | a :: as, b :: bs => a.same b && Statement.sameAll as bs
  | _, _ => false

def Statement.sameBranch : Option (List Statement) → Option (List Statement) → Bool
  | none, none => true
  | some a, some b => Statement.sameAll a b
  | _, _ => false
end

end StructuredText
