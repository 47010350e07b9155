import StructuredText.Proofs.Pou.StatementLine

/- The lines of statements whose blocks are all closed, read from the first on: each statement takes
   its own lines and leaves those behind it to the next. -/
namespace StructuredText

def Progress.Fresh (p : Progress) (n : Nat) : Prop := ∀ place < n, p.block? place = none

namespace Progress.Fresh
variable {p : Progress} {n : Nat}

theorem start (n : Nat) : Progress.start.Fresh n := fun _ _ => rfl

theorem mono (fresh : p.Fresh n) {fewer : Nat} (le : fewer ≤ n) : p.Fresh fewer :=
  fun place below => fresh place (Nat.lt_of_lt_of_le below le)

theorem remember (fresh : p.Fresh n) {place : Place} (behind : n ≤ place) (block : Option Closed) :
    (p.remember place block).Fresh n := by
  intro other below
  rw [block?_remember_of_ne (Nat.ne_of_lt (Nat.lt_of_lt_of_le below behind))]
  exact fresh other below

theorem of_blocks (fresh : p.Fresh n) {q : Progress} (same : q.blocks = p.blocks) : q.Fresh n := by
  intro place below
  rw [Progress.block?, same]
  exact fresh place below

theorem single (fresh : p.Fresh n) (line : Text) : (readSingle line p).2.Fresh n :=
  fresh.of_blocks (readSingle_blocks line p)

end Progress.Fresh

/-- Lines that are read as one statement, at most `nesting` blocks being open at once. -/
structure ReadsAs (nesting : Nat) (first : Text) (more : List Text) (s : Statement) : Prop where
  content : IsContent first
  reads : ∀ {levels}, nesting ≤ levels → ∀ (rest) {p : Progress},
    p.Fresh (more.length + rest.length + 1) →
      ∃ q : Progress, q.Fresh rest.length ∧
        readAt (readBlock levels) first (more ++ rest) p = (some s, more.length, q)

theorem IsSingleLine.readsAs {line : Text} {s : Statement} (single : IsSingleLine line s) :
    ReadsAs 0 line [] s where
  content := single.content
  reads := by
    intro levels _ rest p fresh
    refine ⟨_, (fresh.mono (by simp)).single line, ?_⟩
    rw [List.nil_append, readAt_eq_of_single single.single, single.reads]
    rfl

theorem ReadsAs.deeper {nesting deep : Nat} {first : Text} {more : List Text} {s : Statement}
    (reads : ReadsAs nesting first more s) (le : nesting ≤ deep) : ReadsAs deep first more s :=
  ⟨reads.content, fun enough => reads.reads (Nat.le_trans le enough)⟩

def Branches.prepend (inElse : Bool) (body : List Statement) (branches : Branches) : Branches :=
  if inElse then { branches with elseBranch := body ++ branches.elseBranch }
  else { branches with thenBranch := body ++ branches.thenBranch }

theorem Branches.prepend_nil (inElse : Bool) (branches : Branches) :
    branches.prepend inElse [] = branches := by
  cases inElse <;> rfl

theorem Branches.prepend_cons (inElse : Bool) (s : Statement) (body : List Statement)
    (branches : Branches) :
    branches.prepend inElse (s :: body) = (branches.prepend inElse body).add inElse (some s) := by
  cases inElse <;> rfl

def ReadsBody (nesting : Nat) (lines : List Text) (body : List Statement) : Prop :=
  ∀ levels, nesting ≤ levels → ∀ (inElse) (rest) {p : Progress},
    p.Fresh (lines.length + rest.length) →
      ∃ q : Progress, q.Fresh rest.length ∧
        readBody (readBlock levels) inElse 0 (lines ++ rest) p =
          ((readBody (readBlock levels) inElse 0 rest q).1.map fun read =>
              (read.1.prepend inElse body, read.2),
            (readBody (readBlock levels) inElse 0 rest q).2)

theorem readsBody_nil (nesting : Nat) : ReadsBody nesting [] [] := by
  intro levels _ inElse rest p fresh
  refine ⟨p, fresh.mono (Nat.le_add_left ..), ?_⟩
  rw [List.nil_append]
  simp [Branches.prepend_nil]

theorem ReadsAs.body {nesting : Nat} {first : Text} {more lines : List Text} {s : Statement}
    {body : List Statement} (here : ReadsAs nesting first more s)
    (later : ReadsBody nesting lines body) :
    ReadsBody nesting (first :: (more ++ lines)) (s :: body) := by
  intro levels enough inElse rest p fresh
  simp only [List.length_cons, List.length_append] at fresh
  obtain ⟨between, freshBetween, readHere⟩ := here.reads enough (lines ++ rest)
    (p := p) (fresh.mono (by simp only [List.length_append]; omega))
  obtain ⟨q, freshBehind, readLater⟩ := later levels enough inElse rest
    (freshBetween.mono (by simp only [List.length_append]; omega))
  refine ⟨q, freshBehind, ?_⟩
  rw [List.cons_append, List.append_assoc, readBody_content _ _ _ _ here.content, readHere]
  dsimp only
  rw [readBody_skip, List.drop_left, readLater]
  simp [Branches.prepend_cons, Function.comp_def]

theorem ReadsBody.deeper {nesting deep : Nat} {lines : List Text} {body : List Statement}
    (reads : ReadsBody nesting lines body) (le : nesting ≤ deep) : ReadsBody deep lines body :=
  fun levels enough => reads levels (Nat.le_trans le enough)

def ReadsBranches (nesting : Nat) (inner : List Text) (thenBranch elseBranch : List Statement) :
    Prop :=
  ∀ levels, nesting ≤ levels → ∀ (rest) {p : Progress},
    p.Fresh (inner.length + 1 + rest.length) →
      ∃ q : Progress, q.Fresh rest.length ∧
        readBody (readBlock levels) false 0 (inner ++ "END_IF;".toList :: rest) p =
          (some (⟨thenBranch, elseBranch⟩, rest.length), q)

section Branches
variable {nesting : Nat} {first : List Text} {thenBranch : List Statement}
  (thenReads : ReadsBody nesting first thenBranch)
include thenReads

theorem ReadsBody.withoutElse : ReadsBranches nesting first thenBranch [] := by
  intro levels enough rest p fresh
  obtain ⟨q, freshBehind, read⟩ := thenReads levels enough false ("END_IF;".toList :: rest)
    (p := p) (fresh.mono (by simp only [List.length_cons]; omega))
  refine ⟨q, freshBehind.mono (by simp), ?_⟩
  rw [read, readBody_close _ _ _ _ (by decide)]
  simp [Branches.prepend]

theorem ReadsBody.withElse {second : List Text} {elseBranch : List Statement}
    (elseReads : ReadsBody nesting second elseBranch) :
    ReadsBranches nesting (first ++ "ELSE".toList :: second) thenBranch elseBranch := by
  intro levels enough rest p fresh
  simp only [List.length_cons, List.length_append] at fresh
  obtain ⟨between, freshBetween, readThen⟩ := thenReads levels enough false
    ("ELSE".toList :: (second ++ "END_IF;".toList :: rest)) (p := p)
    (fresh.mono (by simp only [List.length_cons, List.length_append]; omega))
  obtain ⟨q, freshBehind, readElse⟩ := elseReads levels enough true ("END_IF;".toList :: rest)
    (p := between) (freshBetween.mono (by simp only [List.length_cons, List.length_append]; omega))
  refine ⟨q, freshBehind.mono (by simp), ?_⟩
  rw [List.append_assoc, List.cons_append, readThen, readBody_else, readElse,
    readBody_close _ _ _ _ (by decide)]
  simp [Branches.prepend]

end Branches

theorem ReadsBranches.readsAs {nesting : Nat} {inner : List Text}
    {thenBranch elseBranch : List Statement}
    (branches : ReadsBranches nesting inner thenBranch elseBranch) {line : Text}
    (opens : opensBlock line = true) {condition : Expression}
    (reads : (blockCondition? line).map Expression.ofText = some condition) :
    ReadsAs (nesting + 1) line (inner ++ ["END_IF;".toList])
      (.conditional (some condition) (some thenBranch) (some elseBranch)) where
  content := content_of_opensBlock opens
  reads := by
    intro levels enough rest p fresh
    obtain ⟨levels, rfl⟩ := Nat.exists_eq_add_one_of_ne_zero (by omega : levels ≠ 0)
    simp only [List.length_append, List.length_cons, List.length_nil] at fresh
    have whole : inner ++ ["END_IF;".toList] ++ rest = inner ++ "END_IF;".toList :: rest := by
      rw [List.append_assoc, List.singleton_append]
    have place : (inner ++ "END_IF;".toList :: rest).length = inner.length + 1 + rest.length := by
      simp only [List.length_append, List.length_cons]
      omega
    have unknown : p.block? (inner ++ "END_IF;".toList :: rest).length = none :=
      fresh _ (by omega)
    obtain ⟨q, freshBehind, read⟩ := branches levels (Nat.le_of_succ_le_succ enough) rest
      (p := p.note (conditionCutOffs line)) (fresh.mono (by omega))
    have behind : rest.length ≤ (inner ++ "END_IF;".toList :: rest).length := by omega
    refine ⟨_, freshBehind.remember behind
      (some (closedBlock line (⟨thenBranch, elseBranch⟩, rest.length))), ?_⟩
    rw [whole, readAt, if_pos opens, readBlock, unknown]
    simp only [read, Option.map_some, closedBlock, reads, place, List.length_append,
      List.length_singleton, Nat.add_sub_cancel]

def ReadsUnit (kind : PouKind) (nesting : Nat) (lines : List Text) (body : List Statement) : Prop :=
  ∀ levels, nesting ≤ levels → ∀ (rest) {p : Progress}, p.Fresh (lines.length + rest.length) →
    ∃ q : Progress, q.Fresh rest.length ∧
      (readUnitLines (readBlock levels) kind .body 0 (lines ++ rest) p).1 =
        ⟨(readUnitLines (readBlock levels) kind .body 0 rest q).1.declared,
          body ++ (readUnitLines (readBlock levels) kind .body 0 rest q).1.statements⟩

theorem readsUnit_nil (kind : PouKind) (nesting : Nat) : ReadsUnit kind nesting [] [] := by
  intro levels _ rest p fresh
  exact ⟨p, fresh.mono (Nat.le_add_left ..), rfl⟩

theorem ReadsUnit.deeper {kind : PouKind} {nesting deep : Nat} {lines : List Text}
    {body : List Statement} (reads : ReadsUnit kind nesting lines body) (le : nesting ≤ deep) :
    ReadsUnit kind deep lines body :=
  fun levels enough => reads levels (Nat.le_trans le enough)

theorem ReadsAs.unit {kind : PouKind} {nesting : Nat} {first : Text} {more lines : List Text}
    {s : Statement} {body : List Statement} (here : ReadsAs nesting first more s)
    (other : UnitLine.of kind first = .other) (later : ReadsUnit kind nesting lines body) :
    ReadsUnit kind nesting (first :: (more ++ lines)) (s :: body) := by
  intro levels enough rest p fresh
  simp only [List.length_cons, List.length_append] at fresh
  obtain ⟨between, freshBetween, readHere⟩ := here.reads enough (lines ++ rest)
    (p := p) (fresh.mono (by simp only [List.length_append]; omega))
  obtain ⟨q, freshBehind, readLater⟩ := later levels enough rest
    (freshBetween.mono (by simp only [List.length_append]; omega))
  refine ⟨q, freshBehind, ?_⟩
  rw [List.cons_append, List.append_assoc, readUnitLines_statement _ _ other, readHere]
  dsimp only
  rw [readUnitLines_skip, List.drop_left, readLater]
  rfl

end StructuredText
