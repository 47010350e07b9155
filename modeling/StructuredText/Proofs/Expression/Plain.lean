import StructuredText.Expression.Writing
import StructuredText.Text.Word
import StructuredText.Limit

/- The expressions that their text stands for without loss: names are made of identifiers, numbers
   are integers, and the arguments of nested calls need no comma. -/
namespace StructuredText

def isIdentifier : Text → Bool
  | [] => false
  | c :: t => (c.isAlpha || c = '_') && t.all isAsciiWord

/-- The words that a reader takes for operators wherever they stand. -/
def operatorWords : List Text := ["AND", "OR", "NOT"].map String.toList

def isFreeWord (t : Text) : Bool := isIdentifier t && !operatorWords.contains t

/-- Free words joined by points, the truth values excepted. -/
def isPlainName (t : Text) : Bool :=
  (t.splitOn '.').all isFreeWord && t ≠ "TRUE".toList && t ≠ "FALSE".toList

def Literal.isPlain : Literal → Bool
  | .bool _ => true
  | .int value => isWritableInteger value
  | .real _ => false
  | .string _ => false

mutual
def Expression.hasLongCall : Expression → Bool
  | .literal _ => false
  | .variable _ => false
  | .negation operand => operand.hasLongCall
  | .connective _ left right => left.hasLongCall || right.hasLongCall
  | .comparison _ left right => left.hasLongCall || right.hasLongCall
  | .call _ arguments => 2 ≤ arguments.length || Expression.haveLongCall arguments

def Expression.haveLongCall : List Expression → Bool
  | [] => false
  | e :: rest => e.hasLongCall || Expression.haveLongCall rest
end

mutual
def Expression.isPlain : Expression → Bool
  | .literal value => value.isPlain
  | .variable name => isPlainName name
  | .negation operand => operand.isPlain
  | .connective _ left right => left.isPlain && right.isPlain
  | .comparison _ left right => left.isPlain && right.isPlain
  | .call name arguments => isFreeWord name && Expression.arePlain arguments

def Expression.arePlain : List Expression → Bool
  | [] => true
  | e :: rest => e.isPlain && !e.hasLongCall && Expression.arePlain rest
end

def Expression.isChain (op : Connective) : Expression → Bool
  | .connective op' _ _ => op' = op
  | _ => false

mutual
/-- The most edges from the root to a leaf, those inside a chain of one connective not counted. -/
def Expression.depth : Expression → Nat
  | .literal _ => 0
  | .variable _ => 0
  | .negation operand => operand.depth + 1
  | .connective op left right =>
    max (left.depth + if left.isChain op then 0 else 1) (right.depth + 1)
  | .comparison _ left right => max (left.depth + 1) (right.depth + 1)
  | .call _ arguments => Expression.argumentDepth arguments

def Expression.argumentDepth : List Expression → Nat
  | [] => 0
  | e :: rest => max (e.depth + 1) (Expression.argumentDepth rest)
end

namespace Expression

@[elab_as_elim, induction_eliminator]
theorem induct {motive : Expression → Prop} (literal : ∀ value, motive (.literal value))
    (reference : ∀ name, motive (.variable name))
    (negation : ∀ operand, motive operand → motive (.negation operand))
    (connective : ∀ op left right, motive left → motive right →
      motive (.connective op left right))
    (comparison : ∀ op left right, motive left → motive right →
      motive (.comparison op left right))
    (call : ∀ name arguments, (∀ e ∈ arguments, motive e) → motive (.call name arguments))
    (e : Expression) : motive e :=
  @Expression.rec motive (fun arguments => ∀ e ∈ arguments, motive e) literal reference negation
    connective comparison call (by simp)
    (fun _ _ here there => List.forall_mem_cons.mpr ⟨here, there⟩) e

theorem arePlain_iff (arguments : List Expression) :
    arePlain arguments = true ↔ ∀ e ∈ arguments, e.isPlain = true ∧ e.hasLongCall = false := by
  induction arguments with
  | nil => simp [arePlain]
  | cons e rest ih => simp [arePlain, ih]

theorem depth_lt_argumentDepth {arguments : List Expression} {e : Expression}
    (mem : e ∈ arguments) : e.depth < argumentDepth arguments := by
  induction arguments with
  | nil => contradiction
  | cons first rest ih =>
    rw [argumentDepth]
    rcases List.mem_cons.mp mem with rfl | mem
    · omega
    · have := ih mem
      omega

theorem isWritable_of_isPlain {e : Expression} (plain : e.isPlain = true) :
    e.isWritable = true := by
  induction e with
  | literal value =>
    cases value <;> simp_all [isPlain, isWritable, Literal.isPlain, Literal.isWritable]
  | reference name => rfl
  | negation operand ih => exact ih plain
  | connective op left right ihl ihr =>
    simp only [isPlain, Bool.and_eq_true] at plain
    simp [isWritable, ihl plain.1, ihr plain.2]
  | comparison op left right ihl ihr =>
    simp only [isPlain, Bool.and_eq_true] at plain
    simp [isWritable, ihl plain.1, ihr plain.2]
  | call name arguments ih =>
    simp only [isPlain, Bool.and_eq_true, arePlain_iff] at plain
    rw [isWritable, areWritable_eq_all, List.all_eq_true]
    intro e mem
    exact ih e mem (plain.2 e mem).1

end Expression
end StructuredText
