import StructuredText.Proofs.Pou.Origin

/- Reading lines: what is remembered of blocks on the way, and what is found at last, is made of
   statements that were read from the lines. -/
namespace StructuredText

structure IsReadBlock (s : Statement) : Prop where
  read : s.IsRead
  block : ∃ condition thenBranch elseBranch, s = .conditional condition thenBranch elseBranch

def Progress.IsRead (p : Progress) : Prop :=
  ∀ place closed, p.block? place = some (some closed) → IsReadBlock closed.statement

theorem isRead_start : Progress.start.IsRead :=
  fun _ closed none => absurd none.symm (Option.some_ne_none (some closed))

/-- Reading goes from `p` to `q`, and what it finds holds if what is remembered was read. -/
def Gives (p q : Progress) (found : Prop) : Prop := p.IsRead → q.IsRead ∧ found

namespace Gives
variable {p q r : Progress} {found later : Prop}

theorem stay (p : Progress) : Gives p p True := fun read => ⟨read, trivial⟩

theorem imp (gives : Gives p q found) (implies : found → later) : Gives p q later :=
  fun read => (gives read).imp_right implies

theorem trans (first : Gives p q found) (second : Gives q r later) : Gives p r (found ∧ later) := by
  intro read
  obtain ⟨readBetween, here⟩ := first read
  obtain ⟨readBehind, there⟩ := second readBetween
  exact ⟨readBehind, here, there⟩

theorem note (lengths : List Nat) : Gives p (p.note lengths) True := fun read => ⟨read, trivial⟩

theorem remember (gives : Gives p q found) (place : Place) {block : Option Closed}
    (made : found → ∀ closed, block = some closed → IsReadBlock closed.statement) :
    Gives p (q.remember place block) found := by
  intro read
  obtain ⟨readBehind, here⟩ := gives read
  refine ⟨fun other closed known => ?_, here⟩
  rw [Progress.block?, Progress.remember, List.lookup_cons] at known
  split at known
  · exact made here closed (Option.some.inj known)
  · exact readBehind other closed known

end Gives

def AreOneLine (lines : List Text) : Prop := ∀ line ∈ lines, '\n' ∉ line

theorem gives_readSingle {line : Text} (oneLine : '\n' ∉ line) (p : Progress) :
    Gives p (readSingle line p).2
      (∀ s, (readSingle line p).1 = some s → s.IsRead ∧ Statement.ofLine? line = some s) := by
  rw [readSingle]
  cases found : Clause.ofLine? line with
  | none => exact (Gives.stay p).imp fun _ s none => absurd none.symm (Option.some_ne_none s)
  | some clause =>
    apply (Gives.note clause.cutOffs).imp
    intro _ s same
    obtain rfl := Option.some.inj same
    exact ⟨isRead_of_clause oneLine found, by rw [Statement.ofLine?, found, Option.map_some]⟩

structure Branches.AreRead (branches : Branches) : Prop where
  thenBranch : ∀ s ∈ branches.thenBranch, s.IsRead
  elseBranch : ∀ s ∈ branches.elseBranch, s.IsRead

theorem Branches.AreRead.add {branches : Branches} (read : branches.AreRead) (inElse : Bool)
    {found : Option Statement} (here : ∀ s, found = some s → s.IsRead) :
    (branches.add inElse found).AreRead := by
  have first : ∀ s ∈ found.toList, s.IsRead := fun s mem => here s (Option.mem_toList.mp mem)
  cases inElse with
  | false => exact ⟨List.forall_mem_append.mpr ⟨first, read.thenBranch⟩, read.elseBranch⟩
  | true => exact ⟨read.thenBranch, List.forall_mem_append.mpr ⟨first, read.elseBranch⟩⟩

def KeepsRead (block : BlockReader) : Prop :=
  ∀ line rest p, '\n' ∉ line → AreOneLine rest →
    Gives p (block line rest p).2
      (∀ closed, (block line rest p).1 = some closed → IsReadBlock closed.statement)

section Block
variable {block : BlockReader} (keeps : KeepsRead block)
include keeps

theorem KeepsRead.readAt {line : Text} {rest : List Text} (oneLine : '\n' ∉ line)
    (below : AreOneLine rest) (p : Progress) :
    Gives p (StructuredText.readAt block line rest p).2.2
      (∀ s, (StructuredText.readAt block line rest p).1 = some s → s.IsRead ∧
        (Statement.ofLine? line = some s ∨ IsReadBlock s)) := by
  have single (q : Progress) := gives_readSingle oneLine q
  have first := keeps line rest p oneLine below
  rw [StructuredText.readAt]
  split
  · generalize block line rest p = read at first ⊢
    obtain ⟨_ | closed, q⟩ := read
    · exact (first.trans (single q)).imp fun facts s found =>
        (facts.2 s found).imp_right Or.inl
    · apply first.imp
      intro facts s same
      obtain rfl := Option.some.inj same
      have here := facts closed rfl
      exact ⟨here.read, Or.inr here⟩
  · exact (single p).imp fun facts s found => (facts s found).imp_right Or.inl

theorem KeepsRead.readBody (inElse : Bool) (skip : Nat) {lines : List Text}
    (oneLine : AreOneLine lines) (p : Progress) :
    Gives p (StructuredText.readBody block inElse skip lines p).2
      (∀ body, (StructuredText.readBody block inElse skip lines p).1 = some body →
        body.1.AreRead) := by
  induction lines generalizing inElse skip p with
  | nil => exact (Gives.stay p).imp fun _ => nofun
  | cons line rest ih =>
    obtain ⟨here, below⟩ := List.forall_mem_cons.mp oneLine
    cases skip with
    | succ skip => exact ih inElse skip below p
    | zero =>
      rcases bodyLine_cases line with rfl | rfl | closes | content
      · rw [readBody_blank]
        exact ih inElse 0 below p
      · rw [readBody_else]
        exact ih true 0 below p
      · rw [readBody_close _ _ _ _ closes]
        apply (Gives.stay p).imp
        intro _ body same
        obtain rfl := Option.some.inj same
        exact ⟨nofun, nofun⟩
      · rw [readBody_content _ _ _ _ content]
        have both := (keeps.readAt here below p).trans (ih inElse
          (StructuredText.readAt block line rest p).2.1 below
          (StructuredText.readAt block line rest p).2.2)
        apply both.imp
        rintro ⟨first, later⟩ body same
        obtain ⟨read, found, rfl⟩ := Option.map_eq_some_iff.mp same
        exact (later read found).add inElse fun s mem => (first s mem).1

end Block

theorem gives_known {p : Progress} {place : Place} {block : Option Closed}
    (known : p.block? place = some block) :
    Gives p p (∀ closed, block = some closed → IsReadBlock closed.statement) :=
  fun read => ⟨read, fun closed same => read place closed (by rw [known, same])⟩

theorem isReadBlock_closedBlock {line : Text} (oneLine : '\n' ∉ line) {body : Branches × Place}
    (read : body.1.AreRead) :
    IsReadBlock (closedBlock line body).statement where
  read := by
    have inside : ∀ t ∈ blockCondition? line, t ⊆ line := by
      intro t mem
      rw [blockCondition?] at mem
      split at mem
      · contradiction
      · next between found =>
        split at mem
        · obtain rfl := Option.some.inj mem
          have part : between ⊆ line.drop 2 := by
            rw [before?_eq_some_iff.mp found]
            exact List.subset_append_left ..
          exact List.Subset.trans part (List.drop_subset 2 line)
        · contradiction
    exact .conditional (fun t mem newline => oneLine (inside t mem newline)) read.thenBranch
      read.elseBranch
  block := ⟨_, _, _, rfl⟩

theorem keepsRead_readBlock (levels : Nat) : KeepsRead (readBlock levels) := by
  induction levels with
  | zero =>
    intro line rest p oneLine below
    rw [readBlock]
    split
    · next known => exact gives_known known
    · exact fun read => ⟨read, fun closed none => absurd none.symm (Option.some_ne_none closed)⟩
  | succ levels ih =>
    intro line rest p oneLine below
    rw [readBlock]
    split
    · next known => exact gives_known known
    · have whole := (Gives.note (p := p) (conditionCutOffs line)).trans
        (ih.readBody false 0 below (p.note (conditionCutOffs line)))
      dsimp only
      generalize readBody (readBlock levels) false 0 rest (p.note (conditionCutOffs line)) = read
        at whole ⊢
      obtain ⟨body, q⟩ := read
      have made (facts : True ∧ ∀ b, body = some b → b.1.AreRead)
          (closed : Closed) (same : body.map (closedBlock line) = some closed) :
          IsReadBlock closed.statement := by
        obtain ⟨b, found, rfl⟩ := Option.map_eq_some_iff.mp same
        exact isReadBlock_closedBlock oneLine (facts.2 b found)
      exact (whole.remember _ made).imp made

section Unit
variable {block : BlockReader} (keeps : KeepsRead block)
include keeps

theorem KeepsRead.readUnitLines (kind : PouKind) (place : UnitPlace) (skip : Nat)
    {lines : List Text} (oneLine : AreOneLine lines) (p : Progress) :
    Gives p (StructuredText.readUnitLines block kind place skip lines p).2
      (∀ s ∈ (StructuredText.readUnitLines block kind place skip lines p).1.statements,
        s.IsRead ∧ s.IsOpen) := by
  induction lines generalizing place skip p with
  | nil => exact (Gives.stay p).imp fun _ => nofun
  | cons line rest ih =>
    obtain ⟨here, below⟩ := List.forall_mem_cons.mp oneLine
    cases skip with
    | succ skip => exact ih place skip below p
    | zero =>
      rcases frame_cases kind line place with ends | ⟨rfl, other⟩ | ⟨after, declared, frame⟩
      · rw [readUnitLines_terminator _ _ _ ends]
        exact (Gives.stay p).imp fun _ => nofun
      · rw [readUnitLines_statement _ _ other]
        have both := (keeps.readAt here below p).trans (ih .body
          (StructuredText.readAt block line rest p).2.1 below
          (StructuredText.readAt block line rest p).2.2)
        apply both.imp
        rintro ⟨first, later⟩
        rw [List.forall_mem_append]
        refine ⟨fun s mem => ?_, later⟩
        obtain ⟨read, single | ⟨-, condition, thenBranch, elseBranch, rfl⟩⟩ :=
          first s (Option.mem_toList.mp mem)
        · exact ⟨read, isOpen_of_ofLine? other single⟩
        · exact ⟨read, trivial⟩
      · rw [frame.reads]
        exact ih after 0 below p

end Unit

theorem declared_readUnitLines (block : BlockReader) (kind : PouKind) (place : UnitPlace)
    (skip : Nat) (lines : List Text) (p : Progress) :
    ∀ v ∈ (readUnitLines block kind place skip lines p).1.declared,
      ∃ line ∈ lines, ∃ role, Variable.ofLine? role line = some v := by
  induction lines generalizing place skip p with
  | nil => exact nofun
  | cons line rest ih =>
    have behind {content : UnitContent} (later : ∀ v ∈ content.declared,
        ∃ line ∈ rest, ∃ role, Variable.ofLine? role line = some v) :
        ∀ v ∈ content.declared, ∃ l ∈ line :: rest, ∃ role, Variable.ofLine? role l = some v := by
      intro v mem
      obtain ⟨l, inside, found⟩ := later v mem
      exact ⟨l, List.mem_cons_of_mem line inside, found⟩
    cases skip with
    | succ skip => exact behind (ih place skip p)
    | zero =>
      rcases frame_cases kind line place with ends | ⟨rfl, other⟩ | ⟨after, declared, frame⟩
      · rw [readUnitLines_terminator _ _ _ ends]
        exact nofun
      · rw [readUnitLines_statement _ _ other]
        exact behind (ih _ _ _)
      · rw [frame.reads]
        refine List.forall_mem_append.mpr ⟨fun v mem => ?_, behind (ih after 0 p)⟩
        obtain ⟨role, found⟩ := frame.declares v mem
        exact ⟨line, List.mem_cons_self, role, found⟩

end StructuredText
