import StructuredText.Proofs.Conditional.Limits
import StructuredText.Proofs.Conditional.Listing
import StructuredText.Proofs.Pou.Indentation

/- Units written one behind the other by one writer.  What could stop it are integers that are too long;
   without them each unit is written as if it were alone. -/
namespace StructuredText

mutual
def Expression.integers : Expression → List Int
  | .literal (.int value) => [value]
  | .literal _ => []
  | .variable _ => []
  | .negation operand => operand.integers
  | .connective _ left right => left.integers ++ right.integers
  | .comparison _ left right => left.integers ++ right.integers
  | .call _ arguments => Expression.integersOf arguments

def Expression.integersOf : List Expression → List Int
  | [] => []
  | e :: rest => e.integers ++ Expression.integersOf rest
end

def Pou.integers (pou : Pou) : List Int :=
  (Statement.preorderOf pou.statements).flatMap fun s => s.expressions.flatMap (·.integers)

theorem Expression.mem_integersOf {arguments : List Expression} {e : Expression}
    (mem : e ∈ arguments) {n : Int} (stands : n ∈ e.integers) : n ∈ integersOf arguments := by
  induction arguments with
  | nil => contradiction
  | cons first rest ih =>
    rcases List.mem_cons.mp mem with rfl | mem
    · exact List.mem_append_left _ stands
    · exact List.mem_append_right _ (ih mem)

theorem Expression.isWritable_of_integers {e : Expression}
    (short : ∀ n ∈ e.integers, isWritableInteger n = true) : e.isWritable = true := by
  induction e with
  | literal value =>
    cases value with
    | int value => exact short value List.mem_cons_self
    | _ => rfl
  | reference name => rfl
  | negation operand ih => exact ih short
  | connective op left right ihl ihr =>
    obtain ⟨first, second⟩ := List.forall_mem_append.mp short
    rw [isWritable, ihl first, ihr second, Bool.and_self]
  | comparison op left right ihl ihr =>
    obtain ⟨first, second⟩ := List.forall_mem_append.mp short
    rw [isWritable, ihl first, ihr second, Bool.and_self]
  | call name arguments ih =>
    rw [isWritable, areWritable_eq_all, List.all_eq_true]
    exact fun e mem => ih e mem fun n stands => short n (mem_integersOf mem stands)

namespace Statement

theorem isSome_around {e : Expression} (writable : e.isWritable = true) (depth : Nat)
    (before after : Text) : (Written.around depth before e after).text.isSome = true := by
  rw [Written.around, Option.isSome_map, Expression.text?, if_pos writable]
  rfl

theorem isWritable_getD {condition : Option Expression}
    (writable : ∀ e ∈ condition.toList, e.isWritable = true) :
    (condition.getD (.literal (.bool true))).isWritable = true := by
  cases condition with
  | none => rfl
  | some e => exact writable e List.mem_cons_self

theorem mem_preorderOf {body : List Statement} {s t : Statement} (mem : s ∈ body)
    (within : t ∈ s.preorder) : t ∈ preorderOf body := by
  induction body with
  | nil => contradiction
  | cons first rest ih =>
    rcases List.mem_cons.mp mem with rfl | mem
    · exact List.mem_append_left _ within
    · exact List.mem_append_right _ (ih mem)

theorem isSome_allLines {body : List Statement}
    (each : ∀ s ∈ body, ∀ depth, ∀ line ∈ s.lines depth, line.text.isSome = true) (depth : Nat) :
    ∀ line ∈ allLines depth body, line.text.isSome = true := by
  induction body with
  | nil => exact List.forall_mem_nil _
  | cons s rest ih =>
    obtain ⟨here, later⟩ := List.forall_mem_cons.mp each
    exact List.forall_mem_append.mpr ⟨here depth, ih later⟩

theorem mem_branchPreorder {branch : Option (List Statement)} {s t : Statement}
    (mem : s ∈ branch.getD []) (within : t ∈ s.preorder) : t ∈ branchPreorder branch := by
  cases branch with
  | none => contradiction
  | some body => exact mem_preorderOf mem within

theorem isSome_lines {s : Statement}
    (writable : ∀ t ∈ s.preorder, ∀ e ∈ t.expressions, e.isWritable = true) (depth : Nat) :
    ∀ line ∈ s.lines depth, line.text.isSome = true := by
  induction s generalizing depth with
  | assignment target value =>
    have here := writable _ List.mem_cons_self value List.mem_cons_self
    exact List.forall_mem_singleton.mpr (isSome_around here ..)
  | conditional condition thenBranch elseBranch ihThen ihElse =>
    obtain ⟨here, within⟩ := List.forall_mem_cons.mp writable
    obtain ⟨first, second⟩ := List.forall_mem_append.mp within
    have opened := isSome_around (isWritable_getD here) depth "IF ".toList " THEN".toList
    have eachThen (s) (mem : s ∈ thenBranch.getD []) (depth : Nat) :=
      ihThen s mem (fun t inner => first t (mem_branchPreorder mem inner)) depth
    have eachElse (s) (mem : s ∈ elseBranch.getD []) (depth : Nat) :=
      ihElse s mem (fun t inner => second t (mem_branchPreorder mem inner)) depth
    have thenLines : ∀ line ∈ branchLines (depth + 1) thenBranch, line.text.isSome = true := by
      cases thenBranch with
      | none => exact List.forall_mem_nil _
      | some body => exact isSome_allLines eachThen (depth + 1)
    have elseLines : ∀ line ∈ elseLines depth elseBranch, line.text.isSome = true := by
      match elseBranch with
      | none => exact List.forall_mem_nil _
      | some [] => exact List.forall_mem_nil _
      | some (s :: rest) =>
        exact List.forall_mem_cons.mpr ⟨rfl, isSome_allLines eachElse (depth + 1)⟩
    rw [lines, List.forall_mem_append, List.forall_mem_append, List.forall_mem_cons]
    exact ⟨⟨⟨opened, thenLines⟩, elseLines⟩, List.forall_mem_singleton.mpr rfl⟩
  | call target name arguments =>
    have here := writable _ List.mem_cons_self (.call name arguments) List.mem_cons_self
    exact List.forall_mem_singleton.mpr (isSome_around here ..)
  | forLoop body ih =>
    obtain ⟨-, within⟩ := List.forall_mem_cons.mp writable
    have inner := isSome_allLines
      (fun s mem => ih s mem fun t inside => within t (mem_preorderOf mem inside)) (depth + 1)
    rw [lines, List.forall_mem_append, List.forall_mem_cons]
    exact ⟨⟨rfl, inner⟩, List.forall_mem_singleton.mpr rfl⟩
  | whileLoop condition body ih =>
    obtain ⟨here, within⟩ := List.forall_mem_cons.mp writable
    have opened := isSome_around (isWritable_getD here) depth "WHILE ".toList " DO".toList
    have inner := isSome_allLines
      (fun s mem => ih s mem fun t inside => within t (mem_preorderOf mem inside)) (depth + 1)
    rw [lines, List.forall_mem_append, List.forall_mem_cons]
    exact ⟨⟨opened, inner⟩, List.forall_mem_singleton.mpr rfl⟩
  | ret value =>
    cases value with
    | none => exact List.forall_mem_singleton.mpr rfl
    | some value =>
      have here := writable _ List.mem_cons_self value List.mem_cons_self
      exact List.forall_mem_singleton.mpr (isSome_around here ..)

end Statement

theorem isSome_sectionLines (keyword : Text) (declared : List Variable) :
    ∀ line ∈ sectionLines keyword declared, line.text.isSome = true := by
  rw [sectionLines]
  split
  · exact List.forall_mem_nil _
  · rw [List.forall_mem_append, List.forall_mem_cons, List.forall_mem_map]
    exact ⟨⟨rfl, fun v _ => rfl⟩, List.forall_mem_singleton.mpr rfl⟩

theorem Pou.isWritable_of_integers {pou : Pou}
    (short : ∀ n ∈ pou.integers, isWritableInteger n = true) : pou.isWritable = true := by
  have writable (s) (mem : s ∈ Statement.preorderOf pou.statements) (e)
      (stands : e ∈ s.expressions) : e.isWritable = true :=
    Expression.isWritable_of_integers fun n inside =>
      short n (List.mem_flatMap.mpr ⟨s, mem, List.mem_flatMap.mpr ⟨e, stands, inside⟩⟩)
  have statements : ∀ line ∈ Statement.allLines 0 pou.statements, line.text.isSome = true :=
    Statement.isSome_allLines (fun s mem => Statement.isSome_lines fun t inside =>
      writable t (Statement.mem_preorderOf mem inside)) 0
  have written : stoppedAt? pou.lines = none := by
    rw [stoppedAt?_eq_none_iff, Pou.lines, List.forall_mem_append, List.forall_mem_append,
      List.forall_mem_cons]
    refine ⟨⟨⟨rfl, fun line mem => ?_⟩, statements⟩, List.forall_mem_singleton.mpr rfl⟩
    obtain ⟨item, -, inside⟩ := List.mem_flatMap.mp mem
    exact isSome_sectionLines _ _ line inside
  rw [Pou.isWritable, written]
  rfl

theorem forM_unit {pous : List Pou} (writable : ∀ pou ∈ pous, pou.isWritable = true)
    (buffer : Text) : pous.forM Writing.unit ⟨buffer, 0⟩ =
      .ok () ⟨buffer ++ pous.flatMap fun pou => writtenText 0 pou.lines, 0⟩ := by
  induction pous generalizing buffer with
  | nil =>
    rw [List.flatMap_nil, List.append_nil]
    rfl
  | cons pou rest ih =>
    obtain ⟨here, later⟩ := List.forall_mem_cons.mp writable
    show EStateM.bind (Writing.unit pou) (fun _ => rest.forM Writing.unit) _ = _
    unfold EStateM.bind
    rw [Writing.unit_eq, if_pos here, Writer.write_of_isWritable here, List.flatMap_cons,
      ← List.append_assoc]
    exact ih later _

theorem foldl_write {pous : List Pou} (writable : ∀ pou ∈ pous, pou.isWritable = true)
    (buffer : Text) : pous.foldl Writer.write ⟨buffer, 0⟩ =
      ⟨buffer ++ pous.flatMap fun pou => writtenText 0 pou.lines, 0⟩ := by
  induction pous generalizing buffer with
  | nil => rw [List.flatMap_nil, List.append_nil, List.foldl_nil]
  | cons pou rest ih =>
    obtain ⟨here, later⟩ := List.forall_mem_cons.mp writable
    rw [List.foldl_cons, Writer.write_of_isWritable here, List.flatMap_cons, ← List.append_assoc,
      ih later]

/-- One writer for units whose integers can all be written: behind each of them it is at the left
    margin again, and its text is that of the units so far, one behind the other. -/
theorem Writer.text_of_units {pous : List Pou}
    (short : ∀ pou ∈ pous, ∀ n ∈ pou.integers, isWritableInteger n = true)
    {first rest : List Pou} (split : pous = first ++ rest) (filled : first ≠ []) :
    ∃ w, first.forM Writing.unit Writer.empty = .ok () w ∧
      first.foldl Writer.write Writer.empty = w ∧ w.indent = 0 ∧
      w.text = first.flatMap Pou.text ∧ ∀ pou ∈ first, pou.text? = some pou.text := by
  have writable (pou) (mem : pou ∈ first) : pou.isWritable = true :=
    Pou.isWritable_of_integers (short pou (split ▸ List.mem_append_left rest mem))
  refine ⟨_, forM_unit writable [], foldl_write writable [], rfl, ?_, fun pou mem => ?_⟩
  · have texts : first.flatMap (fun pou => writtenText 0 pou.lines) = first.flatMap Pou.text :=
      List.flatMap_congr fun pou mem => (Pou.text_eq_writtenText (writable pou mem)).symm
    rcases List.eq_nil_or_concat' first with rfl | ⟨before, last, rfl⟩
    · exact absurd rfl filled
    · obtain ⟨t, ends, final⟩ := exists_writtenText (writable last (by simp))
      have whole : (before ++ [last]).flatMap (fun pou => writtenText 0 pou.lines) =
          before.flatMap (fun pou => writtenText 0 pou.lines) ++ t ++ ['\n'] := by
        rw [List.flatMap_append, List.flatMap_singleton, ends, List.append_assoc]
      rw [← texts, List.nil_append, whole]
      exact text_of_line (final _) 0
  · rw [Pou.text?, if_pos (writable pou mem)]

/-- A program with a line break in its name and blocks inside one another, and a function behind
    it. -/
theorem Writer.text_of_units_nested :
    let program : Pou := ⟨.program, "A\nB".toList, none, [],
      [.whileLoop none [.conditional (some (.literal (.int 12))) none (some [.ret none])]]⟩
    let function : Pou := ⟨.function, "F".toList, some "INT".toList, [],
      [.assignment "F".toList (.literal (.int (-7)))]⟩
    (∀ pou ∈ [program, function], ∀ n ∈ pou.integers, isWritableInteger n = true) ∧
      ((Writer.empty.write program).write function).indent = 0 ∧
        ((Writer.empty.write program).write function).text =
          program.text ++ function.text ∧
          program.text ++ function.text =
            ("PROGRAM A\nB\nWHILE TRUE DO\n    IF 12 THEN\n    ELSE\n        RETURN;\n" ++
              "    END_IF;\nEND_WHILE;\nEND_PROGRAM\n" ++
              "FUNCTION F : INT\nF := -7;\nEND_FUNCTION\n").toList := by
  intro program function
  have short : ∀ pou ∈ [program, function], ∀ n ∈ pou.integers, isWritableInteger n = true := by
    decide
  obtain ⟨w, -, same, margin, text, -⟩ := Writer.text_of_units short
    (List.append_nil [program, function]).symm (List.cons_ne_nil program [function])
  rw [List.flatMap_cons, List.flatMap_singleton] at text
  subst same
  exact ⟨short, margin, text, by decide +kernel⟩

/-- In front of the first unit there is a newline already, which does not stay. -/
example : Writer.empty.text = ['\n'] := by decide

end StructuredText
