import StructuredText.Number.LReal
import StructuredText.Text.Basic

/- Expression trees. -/
namespace StructuredText

inductive Literal
  | bool (value : Bool)
  | int (value : Int)
  | real (value : LReal)
  | string (value : Text)
  deriving DecidableEq

inductive Connective
  | and
  | or
  deriving DecidableEq

inductive Comparison
  | ne
  | le
  | ge
  | eq
  | lt
  | gt
  deriving DecidableEq

/-- A variable is also the home of any text that cannot be broken down further. -/
inductive Expression
  | literal (value : Literal)
  | variable (name : Text)
  | negation (operand : Expression)
  | connective (op : Connective) (left right : Expression)
  | comparison (op : Comparison) (left right : Expression)
  | call (name : Text) (arguments : List Expression)

def Connective.symbol : Connective → Text
  | .and => "AND".toList
  | .or => "OR".toList

def Comparison.symbol : Comparison → Text
  | .ne => "<>".toList
  | .le => "<=".toList
  | .ge => ">=".toList
  | .eq => "=".toList
  | .lt => "<".toList
  | .gt => ">".toList

def Connective.all : List Connective := [.and, .or]

/-- The order in which a text is searched for them: the two-character symbols come first. -/
def Comparison.all : List Comparison := [.ne, .le, .ge, .eq, .lt, .gt]

theorem Comparison.mem_all (op : Comparison) : op ∈ Comparison.all := by
  cases op <;> decide

/-- A truth value counts as the number 0 or 1. -/
def Literal.integer? : Literal → Option Int
  | .bool value => some value.toInt
  | .int value => some value
  | _ => none

/-- Numbers are the same by value, whatever their kind. -/
def Literal.same : Literal → Literal → Bool
  | .string s, .string t => s = t
  | .real a, .real b => a.same b
  | .real a, b => b.integer?.any a.isInteger
  | a, .real b => a.integer?.any b.isInteger
  | .string _, _ => false
  | _, .string _ => false
  | a, b => a.integer? = b.integer?

mutual
def Expression.same : Expression → Expression → Bool
  | .literal a, .literal b => a.same b
  | .variable a, .variable b => a = b
  | .negation a, .negation b => a.same b
  | .connective op₁ a₁ b₁, .connective op₂ a₂ b₂ => op₁ = op₂ && a₁.same a₂ && b₁.same b₂
  | .comparison op₁ a₁ b₁, .comparison op₂ a₂ b₂ => op₁ = op₂ && a₁.same a₂ && b₁.same b₂
  | .call f as, .call g bs => f = g && Expression.sameAll as bs
  | _, _ => false

def Expression.sameAll : List Expression → List Expression → Bool
  | [], [] => true
  | a :: as, b :: bs => a.same b && Expression.sameAll as bs
  | _, _ => false
end

end StructuredText
