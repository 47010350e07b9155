import StructuredText.Statement.Clause

/- Conditional blocks over several lines.  The lines behind an IF are read ahead to its END_IF; if
   there is none the reading goes back, and the IF is read as a line for itself.  What a block
   turned out to be is remembered, so that going back does not read it a second time. -/
namespace StructuredText

/-- A place among the lines, given by how many lines are left there. -/
abbrev Place := Nat

structure Closed where
  statement : Statement
  stop : Place

/-- What reading blocks leaves behind: the blocks met, each by the place behind its first line and
    none if it never closes, whether one lay too deep, and the cut-offs of expressions in the
    order of reading. -/
structure Progress where
  blocks : List (Place × Option Closed)
  tooDeep : Bool
  cutOffs : List Nat

namespace Progress

def start : Progress := ⟨[], false, []⟩

def block? (p : Progress) (place : Place) : Option (Option Closed) := p.blocks.lookup place

def remember (p : Progress) (place : Place) (block : Option Closed) : Progress :=
  { p with blocks := (place, block) :: p.blocks }

def note (p : Progress) (lengths : List Nat) : Progress :=
  { p with cutOffs := p.cutOffs ++ lengths }

theorem block?_remember (p : Progress) (place : Place) (block : Option Closed) :
    (p.remember place block).block? place = some block := by
  simp [remember, block?]

theorem block?_remember_of_ne {p : Progress} {place other : Place} (differ : other ≠ place)
    (block : Option Closed) : (p.remember place block).block? other = p.block? other := by
  have elsewhere : (other == place) = false := beq_eq_false_iff_ne.mpr differ
  rw [block?, remember, List.lookup_cons, elsewhere, block?]

end Progress

def opensBlock (line : Text) : Bool :=
  opensConditional line && "THEN".toList.isSuffixOf line

def closesBlock (line : Text) : Bool :=
  line = "END_IF".toList || line = "END_IF;".toList

/-- The condition between `IF` and `THEN`, which blanks have to part from both. -/
def blockCondition? (line : Text) : Option Text :=
  match before? "THEN".toList (line.drop 2) with
  | none => none
  | some between =>
    if between.head?.any isBlank && between.getLast?.any isBlank && 3 ≤ between.length then
      some between
    else none

structure Branches where
  thenBranch : List Statement
  elseBranch : List Statement

def Branches.add (branches : Branches) (inElse : Bool) (statement : Option Statement) : Branches :=
  if inElse then { branches with elseBranch := statement.toList ++ branches.elseBranch }
  else { branches with thenBranch := statement.toList ++ branches.thenBranch }

/-- A way to read the block that a line opens: the line, the lines behind it, the progress. -/
abbrev BlockReader := Text → List Text → Progress → Option Closed × Progress

def readSingle (line : Text) (p : Progress) : Option Statement × Progress :=
  match Clause.ofLine? line with
  | none => (none, p)
  | some clause => (some clause.statement, p.note clause.cutOffs)

def readAt (block : BlockReader) (line : Text) (rest : List Text) (p : Progress) :
    Option Statement × Nat × Progress :=
  if opensBlock line then
    match block line rest p with
    | (some closed, p) => (some closed.statement, rest.length - closed.stop, p)
    | (none, p) => let (statement, p) := readSingle line p; (statement, 0, p)
  else
    let (statement, p) := readSingle line p
    (statement, 0, p)

/-- Reads the lines of a body up to its END_IF, leaving out the next `skip` lines.  An ELSE turns
    to the else branch; there is no result if the lines end first. -/
def readBody (block : BlockReader) (inElse : Bool) :
    (skip : Nat) → List Text → Progress → Option (Branches × Place) × Progress
  | _, [], p => (none, p)
  | skip + 1, _ :: rest, p => readBody block inElse skip rest p
  | 0, line :: rest, p =>
    if line.isEmpty then readBody block inElse 0 rest p
    else if line = "ELSE".toList then readBody block true 0 rest p
    else if closesBlock line then (some (⟨[], []⟩, rest.length), p)
    else
      let (statement, skip, p) := readAt block line rest p
      let (body, p) := readBody block inElse skip rest p
      (body.map fun (branches, stop) => (branches.add inElse statement, stop), p)

theorem readBody_skip (block : BlockReader) (inElse : Bool) (n : Nat) (lines : List Text)
    (p : Progress) :
    readBody block inElse n lines p = readBody block inElse 0 (lines.drop n) p := by
  induction lines generalizing n with
  | nil => simp [readBody]
  | cons line rest ih =>
    cases n with
    | zero => rfl
    | succ n => simp [readBody, ih n]

def closedBlock (line : Text) (body : Branches × Place) : Closed :=
  ⟨.conditional ((blockCondition? line).map Expression.ofText) (some body.1.thenBranch)
    (some body.1.elseBranch), body.2⟩

def conditionCutOffs (line : Text) : List Nat :=
  (blockCondition? line).elim [] Expression.cutOffsOf

/-- Reads the block that `line` opens, `levels` blocks being allowed inside one another. -/
def readBlock : (levels : Nat) → BlockReader
  | 0, _, rest, p =>
    match p.block? rest.length with
    | some block => (block, p)
    | none => (none, { p with tooDeep := true })
  | levels + 1, line, rest, p =>
    match p.block? rest.length with
    | some block => (block, p)
    | none =>
      let (body, p) := readBody (readBlock levels) false 0 rest (p.note (conditionCutOffs line))
      let block := body.map (closedBlock line)
      (block, p.remember rest.length block)

end StructuredText
