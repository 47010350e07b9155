import StructuredText.Proofs.Conditional.Step

/- What reading does to what is remembered.  A block is remembered only where nothing was known, and
   that one lay too deep is never taken back; what holds from one progress to the next follows from
   these two alone, whatever lines are read. -/
namespace StructuredText

/-- The second progress comes from the first by remembering blocks of places with fewer lines left
    than a bound. -/
def AddsBelow (bound : Place) (p q : Progress) : Prop :=
  ∃ added, q.blocks = added ++ p.blocks ∧ ∀ entry ∈ added, entry.1 < bound

def Retains (p q : Progress) : Prop :=
  ∀ place block, p.block? place = some block → q.block? place = some block

def Progress.allClosed (p : Progress) : Bool := p.blocks.all (·.2.isSome)

theorem allClosed_remember (p : Progress) (place : Place) (block : Option Closed) :
    (p.remember place block).allClosed = true ↔ block.isSome = true ∧ p.allClosed = true := by
  rw [Progress.allClosed, Progress.remember, List.all_cons, Bool.and_eq_true, Progress.allClosed]

namespace AddsBelow
variable {bound : Place} {p q r : Progress}

theorem of_blocks (same : q.blocks = p.blocks) : AddsBelow bound p q :=
  ⟨[], same, fun _ mem => absurd mem List.not_mem_nil⟩

theorem trans (first : AddsBelow bound p q) (second : AddsBelow bound q r) :
    AddsBelow bound p r := by
  obtain ⟨added, eq, below⟩ := first
  obtain ⟨added', eq', below'⟩ := second
  refine ⟨added' ++ added, by rw [eq', eq, List.append_assoc], ?_⟩
  intro entry mem
  rcases List.mem_append.mp mem with mem | mem
  · exact below' entry mem
  · exact below entry mem

theorem remember (p : Progress) {place : Place} (below : place < bound) (block : Option Closed) :
    AddsBelow bound p (p.remember place block) := by
  refine ⟨[(place, block)], rfl, ?_⟩
  intro entry mem
  obtain rfl := List.mem_singleton.mp mem
  exact below

theorem block?_eq (adds : AddsBelow bound p q) {place : Place} (above : bound ≤ place) :
    q.block? place = p.block? place := by
  obtain ⟨added, eq, below⟩ := adds
  have missing : added.lookup place = none := by
    rw [List.lookup_eq_none_iff]
    intro entry mem
    have lower := Nat.lt_of_lt_of_le (below entry mem) above
    exact bne_iff_ne.mpr (Nat.ne_of_gt lower)
  rw [Progress.block?, eq, List.lookup_append, missing, Option.none_or, Progress.block?]

theorem allClosed (adds : AddsBelow bound p q) (closed : q.allClosed = true) :
    p.allClosed = true := by
  obtain ⟨added, eq, -⟩ := adds
  rw [Progress.allClosed, eq, List.all_append, Bool.and_eq_true] at closed
  exact closed.2

end AddsBelow

namespace Retains
variable {p q r : Progress}

theorem of_blocks (same : q.blocks = p.blocks) : Retains p q := by
  intro place block known
  rwa [Progress.block?, same]

theorem trans (first : Retains p q) (second : Retains q r) : Retains p r :=
  fun place block known => second place block (first place block known)

theorem remember {place : Place} (unknown : p.block? place = none) (block : Option Closed) :
    Retains p (p.remember place block) := by
  intro other known found
  have differ : other ≠ place := by
    rintro rfl
    rw [unknown] at found
    contradiction
  rwa [Progress.block?_remember_of_ne differ]

end Retains

/-- Reading goes from one progress to the other, the places it comes by being below the bound. -/
inductive Proceeds (bound : Place) : Progress → Progress → Prop
  | still {p q : Progress} : q.blocks = p.blocks → (p.tooDeep = true → q.tooDeep = true) →
      Proceeds bound p q
  | remember {p : Progress} {place : Place} (block : Option Closed) : place < bound →
      p.block? place = none → Proceeds bound p (p.remember place block)
  | trans {p q r : Progress} : Proceeds bound p q → Proceeds bound q r → Proceeds bound p r

namespace Proceeds
variable {bound : Place} {p q : Progress}

theorem refl (p : Progress) : Proceeds bound p p := .still rfl id

theorem of_same (blocks : q.blocks = p.blocks) (deep : q.tooDeep = p.tooDeep) :
    Proceeds bound p q :=
  .still blocks deep.trans

theorem mono (proceeds : Proceeds bound p q) {higher : Place} (le : bound ≤ higher) :
    Proceeds higher p q := by
  induction proceeds with
  | still blocks deep => exact .still blocks deep
  | remember block below unknown => exact .remember block (Nat.lt_of_lt_of_le below le) unknown
  | trans _ _ first second => exact first.trans second

theorem adds (proceeds : Proceeds bound p q) : AddsBelow bound p q := by
  induction proceeds with
  | still blocks _ => exact .of_blocks blocks
  | remember block below _ => exact .remember _ below block
  | trans _ _ first second => exact first.trans second

theorem retains (proceeds : Proceeds bound p q) : Retains p q := by
  induction proceeds with
  | still blocks _ => exact .of_blocks blocks
  | remember block _ unknown => exact .remember unknown block
  | trans _ _ first second => exact first.trans second

theorem tooDeep (proceeds : Proceeds bound p q) : p.tooDeep = true → q.tooDeep = true := by
  induction proceeds with
  | still _ deep => exact deep
  | remember _ _ _ => exact id
  | trans _ _ first second => exact second ∘ first

theorem fine (proceeds : Proceeds bound p q) (fine : q.tooDeep = false) : p.tooDeep = false := by
  cases deep : p.tooDeep with
  | false => rfl
  | true =>
    rw [proceeds.tooDeep deep] at fine
    contradiction

end Proceeds

def BlockProceeds (block : BlockReader) : Prop :=
  ∀ line rest p, Proceeds (rest.length + 1) p (block line rest p).2

section Reading
variable {block : BlockReader} (proceeds : BlockProceeds block)
include proceeds

theorem readAt_proceeds (line : Text) (rest : List Text) (p : Progress) :
    Proceeds (rest.length + 1) p (readAt block line rest p).2.2 := by
  cases opens : opensBlock line with
  | true =>
    obtain ⟨-, -, deep, blocks⟩ := readAt_opening block opens rest p
    exact (proceeds line rest p).trans (.of_same blocks deep)
  | false =>
    obtain ⟨-, -, deep, blocks⟩ := readAt_single block opens rest p
    exact .of_same blocks deep

theorem readBody_proceeds (inElse : Bool) (skip : Nat) (lines : List Text) (p : Progress) :
    Proceeds lines.length p (readBody block inElse skip lines p).2 := by
  induction lines generalizing inElse skip p with
  | nil =>
    rw [readBody]
    exact .refl p
  | cons line rest ih =>
    have le : rest.length ≤ (line :: rest).length := Nat.le_succ _
    cases skip with
    | succ skip => exact (ih inElse skip p).mono le
    | zero =>
      rcases bodyLine_cases line with rfl | rfl | closes | content
      · rw [readBody_blank]
        exact (ih inElse 0 p).mono le
      · rw [readBody_else]
        exact (ih true 0 p).mono le
      · rw [readBody_close _ _ _ _ closes]
        exact .refl p
      · rw [readBody_content _ _ _ _ content]
        exact (readAt_proceeds proceeds line rest p).trans ((ih inElse _ _).mono le)

theorem readUnitLines_proceeds (kind : PouKind) (place : UnitPlace) (skip : Nat)
    (lines : List Text) (p : Progress) :
    Proceeds lines.length p (readUnitLines block kind place skip lines p).2 := by
  induction lines generalizing place skip p with
  | nil =>
    rw [readUnitLines]
    exact .refl p
  | cons line rest ih =>
    have le : rest.length ≤ (line :: rest).length := Nat.le_succ _
    cases skip with
    | succ skip => exact (ih place skip p).mono le
    | zero =>
      rcases frame_cases kind line place with ends | ⟨rfl, other⟩ | ⟨later, declared, frame⟩
      · rw [readUnitLines_terminator _ _ _ ends]
        exact .refl p
      · rw [readUnitLines_statement _ _ other]
        exact (readAt_proceeds proceeds line rest p).trans ((ih .body _ _).mono le)
      · rw [frame.reads]
        exact (ih later 0 p).mono le

end Reading

/-- The block is remembered behind its body, in which its own place is not come by. -/
theorem readBlock_proceeds (levels : Nat) : BlockProceeds (readBlock levels) := by
  induction levels with
  | zero =>
    intro line rest p
    rw [readBlock]
    split
    · exact .refl p
    · exact .still rfl fun _ => rfl
  | succ levels ih =>
    intro line rest p
    rw [readBlock]
    split
    · exact .refl p
    · next unknown =>
      have noted : Proceeds rest.length p (p.note (conditionCutOffs line)) := .of_same rfl rfl
      have body := noted.trans (readBody_proceeds ih false 0 rest (p.note (conditionCutOffs line)))
      have still := (body.adds.block?_eq (Nat.le_refl rest.length)).trans unknown
      exact (body.mono (Nat.le_succ _)).trans (.remember _ (Nat.lt_succ_self _) still)

section Block
variable (levels : Nat) (inElse : Bool) (lines : List Text) (p : Progress)

theorem block?_readBody :
    (readBody (readBlock levels) inElse 0 lines p).2.block? lines.length =
      p.block? lines.length :=
  (readBody_proceeds (readBlock_proceeds levels) inElse 0 lines p).adds.block?_eq (Nat.le_refl _)

theorem retains_readBody : Retains p (readBody (readBlock levels) inElse 0 lines p).2 :=
  (readBody_proceeds (readBlock_proceeds levels) inElse 0 lines p).retains

end Block

end StructuredText
