import Mathlib.Data.List.TakeWhile
import StructuredText.Proofs.Pou.Plain
import StructuredText.Proofs.Pou.WrittenText

/- A writer that keeps one buffer and one indentation, which each statement raises for what is inside
   it and lowers behind it.  However units and statements lie in one another, each comes back to
   the indentation it was begun at, so that a writer can go on with the next unit. -/
namespace StructuredText

/-- Something that a writer does.  It stops at a line that cannot be written, and what it has done up
    to there stays. -/
abbrev Writing := EStateM Unit Writer Unit

namespace Writing

def line : Option Text → Writing
  | none => throw ()
  | some t => modify fun w =>
    { w with buffer := w.buffer ++ (if t.isEmpty then [] else indentation w.indent ++ t) ++ ['\n'] }

def fixed (t : Text) : Writing := line (some t)

def around (before : Text) (e : Expression) (after : Text) : Writing :=
  line (e.text?.map fun t => before ++ t ++ after)

def raise : Writing := modify fun w => { w with indent := w.indent + 1 }

def lower : Writing := modify fun w => { w with indent := w.indent - 1 }

def inside (inner : Writing) : Writing := do
  raise
  inner
  lower

mutual
def statement : Statement → Writing
  | .assignment target value => around (target ++ " := ".toList) value [';']
  | .conditional condition thenBranch elseBranch => do
    around "IF ".toList (condition.getD (.literal (.bool true))) " THEN".toList
    inside (branch thenBranch)
    otherwise elseBranch
    fixed "END_IF;".toList
  | .call _ name arguments => around [] (.call name arguments) [';']
  | .forLoop body => do
    fixed "FOR".toList
    inside (statements body)
    fixed "END_FOR;".toList
  | .whileLoop condition body => do
    around "WHILE ".toList (condition.getD (.literal (.bool true))) " DO".toList
    inside (statements body)
    fixed "END_WHILE;".toList
  | .ret none => fixed "RETURN;".toList
  | .ret (some value) => around "RETURN ".toList value [';']

def statements : List Statement → Writing
  | [] => pure ()
  | s :: rest => do
    statement s
    statements rest

def branch : Option (List Statement) → Writing
  | none => pure ()
  | some body => statements body

def otherwise : Option (List Statement) → Writing
  | none => pure ()
  | some [] => pure ()
  | some (s :: rest) => do
    fixed "ELSE".toList
    inside do
      statement s
      statements rest
end

def declarations (keyword : Text) (declared : List Variable) : Writing :=
  if declared.isEmpty then pure ()
  else do
    fixed keyword
    inside (declared.forM fun v => line v.line.text)
    fixed "END_VAR".toList

def unit (pou : Pou) : Writing := do
  fixed pou.header
  sections.forM fun (role, keyword) => declarations keyword (pou.ofRole role)
  statements pou.statements
  fixed pou.kind.terminator

end Writing

namespace Writing

def outcome (buffer : Text) (indent depth : Nat) (lines : List Written) :
    EStateM.Result Unit Writer Unit :=
  match stoppedAt? lines with
  | none => .ok () ⟨buffer ++ writtenText indent lines, indent + depth⟩
  | some stopped => .error () ⟨buffer ++ writtenText indent lines, indent + stopped⟩

/-- What is done writes these lines and comes back to the indentation it was begun at, unless one of
    the lines cannot be written. -/
def Writes (run : Writing) (depth : Nat) (lines : List Written) : Prop :=
  ∀ buffer indent, run ⟨buffer, indent + depth⟩ = outcome buffer indent depth lines

namespace Writes
variable {run next : Writing} {depth : Nat} {lines further : List Written}

theorem nothing (depth : Nat) : Writes (pure ()) depth [] := by
  intro buffer indent
  rw [outcome, stoppedAt?, writtenText, List.append_nil]
  rfl

theorem line {text : Option Text} (filled : ∀ t ∈ text, t ≠ []) (depth : Nat) :
    Writes (Writing.line text) depth [⟨depth, text⟩] := by
  intro buffer indent
  cases text with
  | none =>
    rw [outcome, stoppedAt?, writtenText, List.append_nil]
    rfl
  | some t =>
    have same : t.isEmpty = false := by simpa using filled t rfl
    show EStateM.Result.ok () _ = _
    simp [outcome, stoppedAt?, writtenText, same]

theorem fixed {t : Text} (filled : t ≠ []) (depth : Nat) :
    Writes (Writing.fixed t) depth [.fixed depth t] :=
  line (by rintro _ ⟨⟩; exact filled) depth

theorem around {before after : Text} (filled : before ++ after ≠ []) (e : Expression)
    (depth : Nat) :
    Writes (Writing.around before e after) depth [.around depth before e after] := by
  apply line
  intro t text
  obtain ⟨u, -, rfl⟩ := Option.map_eq_some_iff.mp text
  intro none
  simp at none filled
  exact filled none.1 none.2.2

theorem followed (first : Writes run depth lines) (second : Writes next depth further) :
    Writes (do run; next) depth (lines ++ further) := by
  intro buffer indent
  have begun := first buffer indent
  show EStateM.bind run (fun _ => next) _ = _
  unfold EStateM.bind
  rw [begun, outcome, outcome, stoppedAt?_append, writtenText_append]
  cases stoppedAt? lines with
  | some stopped => simp
  | none =>
    have ended := second (buffer ++ writtenText indent lines) indent
    rw [outcome, List.append_assoc] at ended
    simpa using ended

theorem inside (inner : Writes run (depth + 1) lines) :
    Writes (Writing.inside run) depth lines := by
  intro buffer indent
  have done := inner buffer indent
  show EStateM.bind run (fun _ => lower) ⟨buffer, indent + depth + 1⟩ = _
  unfold EStateM.bind
  rw [Nat.add_assoc, done, outcome, outcome]
  cases stoppedAt? lines with
  | some stopped => rfl
  | none => rfl

theorem forM {α : Type} {items : List α} {each : α → Writing} {texts : α → List Written}
    (writes : ∀ item ∈ items, Writes (each item) depth (texts item)) :
    Writes (items.forM each) depth (items.flatMap texts) := by
  induction items with
  | nil => exact nothing depth
  | cons item rest ih =>
    obtain ⟨here, later⟩ := List.forall_mem_cons.mp writes
    exact here.followed (ih later)

theorem statements {body : List Statement}
    (each : ∀ s ∈ body, ∀ depth, Writes (statement s) depth (s.lines depth)) (depth : Nat) :
    Writes (Writing.statements body) depth (Statement.allLines depth body) := by
  induction body with
  | nil => exact nothing depth
  | cons s rest ih =>
    obtain ⟨here, later⟩ := List.forall_mem_cons.mp each
    exact (here depth).followed (ih later)

theorem branch {body : Option (List Statement)}
    (each : ∀ s ∈ body.getD [], ∀ depth, Writes (statement s) depth (s.lines depth))
    (depth : Nat) : Writes (Writing.branch body) depth (Statement.branchLines depth body) := by
  cases body with
  | none => exact nothing depth
  | some body => exact statements each depth

theorem otherwise {body : Option (List Statement)}
    (each : ∀ s ∈ body.getD [], ∀ depth, Writes (statement s) depth (s.lines depth))
    (depth : Nat) : Writes (Writing.otherwise body) depth (Statement.elseLines depth body) := by
  match body with
  | none => exact nothing depth
  | some [] => exact nothing depth
  | some (s :: rest) =>
    exact (fixed (by decide) depth).followed (inside (statements each (depth + 1)))

theorem statement (s : Statement) (depth : Nat) :
    Writes (Writing.statement s) depth (s.lines depth) := by
  induction s generalizing depth with
  | assignment target value => exact around (by simp) value depth
  | conditional condition thenBranch elseBranch ihThen ihElse =>
    rw [Statement.lines, List.append_assoc, List.cons_append]
    exact (around (by simp) _ depth).followed
      ((inside (branch ihThen (depth + 1))).followed
        ((otherwise ihElse depth).followed (fixed (by decide) depth)))
  | call target name arguments => exact around (by simp) _ depth
  | forLoop body ih =>
    exact (fixed (by decide) depth).followed
      ((inside (statements ih (depth + 1))).followed (fixed (by decide) depth))
  | whileLoop condition body ih =>
    exact (around (by simp) _ depth).followed
      ((inside (statements ih (depth + 1))).followed (fixed (by decide) depth))
  | ret value =>
    cases value with
    | none => exact fixed (by decide) depth
    | some value => exact around (by simp) value depth

theorem declarations {keyword : Text} (filled : keyword ≠ []) (declared : List Variable) :
    Writes (Writing.declarations keyword declared) 0 (sectionLines keyword declared) := by
  rw [Writing.declarations, sectionLines]
  split
  · exact nothing 0
  · have each : Writes (declared.forM fun v => Writing.line v.line.text) 1
        (declared.map Variable.line) := by
      rw [List.map_eq_flatMap]
      exact forM fun v _ => line (by simp [Variable.line, Written.fixed]) 1
    exact (fixed filled 0).followed ((inside each).followed (fixed (by decide) 0))

theorem header_ne_nil (pou : Pou) : pou.header ≠ [] := by
  have solid : ∃ c ∈ pou.kind.keyword, isBlank c = false := by
    cases pou.kind <;> exact ⟨_, List.mem_cons_self, by decide⟩
  obtain ⟨c, mem, inner⟩ := solid
  intro none
  have cut : trimRight (pou.kind.keyword ++ ' ' :: pou.name) = [] :=
    (List.append_eq_nil_iff.mp none).1
  rw [trimRight, List.reverse_eq_nil_iff, List.dropWhile_eq_nil_iff] at cut
  have blank := cut c (List.mem_reverse.mpr (List.mem_append_left _ mem))
  rw [inner] at blank
  contradiction

theorem unit (pou : Pou) : Writes (Writing.unit pou) 0 pou.lines := by
  have declared : Writes
      (sections.forM fun (role, keyword) => Writing.declarations keyword (pou.ofRole role)) 0
      (sections.flatMap fun (role, keyword) => sectionLines keyword (pou.ofRole role)) := by
    have filled : ∀ item ∈ sections, item.2 ≠ [] := by decide
    exact forM fun item mem => declarations (filled item mem) (pou.ofRole item.1)
  have last : pou.kind.terminator ≠ [] := by cases pou.kind <;> decide
  have body : Writes (Writing.statements pou.statements) 0 _ := statements (fun s _ => statement s) 0
  rw [Pou.lines, List.append_assoc, List.cons_append]
  exact (fixed (header_ne_nil pou) 0).followed
    (declared.followed (body.followed (fixed last 0)))

end Writes

/-- A unit written step by step is what the writer adds of it. -/
theorem unit_eq (pou : Pou) (w : Writer) : unit pou w =
    if pou.isWritable then .ok () (w.write pou) else .error () (w.write pou) := by
  have run := Writes.unit pou w.buffer w.indent
  rw [Nat.add_zero, outcome] at run
  rw [run, Pou.isWritable, Writer.write]
  cases stoppedAt? pou.lines <;> rfl

end Writing

end StructuredText
