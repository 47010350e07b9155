import StructuredText.Proofs.Conditional.Matching

/- Accounts that lines give of the statements they are read as.  An account that each line gives of
   itself, and that is put together along lines and around blocks, is given of everything that is
   read.  Reading ahead, going back and remembering lose nothing and repeat nothing, also where
   blocks lie too deep to be read as such. -/
namespace StructuredText

/-- What lines tell of statements. -/
abbrev Account := List Text → List Statement → Prop

structure Account.IsKept (tells : Account) (lines : List Text) : Prop where
  nil : tells [] []
  append {first second : List Text} {s t : List Statement} (left : tells first s)
    (right : tells second t) : tells (first ++ second) (s ++ t)
  silent {line : Text} (silent : line = [] ∨ line = "ELSE".toList ∨ closesBlock line = true) :
    tells [line] []
  single {line : Text} (mem : line ∈ lines) : tells [line] (Statement.ofLine? line).toList
  block {line : Text} {used : List Text} {body : Branches × Place} (opens : opensBlock line = true)
    (inner : tells used (body.1.thenBranch ++ body.1.elseBranch)) :
    tells (line :: used) [(closedBlock line body).statement]

section Told
variable (tells : Account)

def IsToldBlock (line : Text) (rest : List Text) (closed : Closed) : Prop :=
  ∃ used close behind, rest = used ++ close :: behind ∧ closesBlock close = true ∧
    closed.stop = behind.length ∧ tells (line :: used) [closed.statement]

/-- A body ends with the first of the lines, and they tell of it; in the else branch nothing more
    goes to the then branch. -/
def IsToldBody (inElse : Bool) (lines : List Text) (body : Branches × Place) : Prop :=
  (inElse = true → body.1.thenBranch = []) ∧
    ∃ used close behind, lines = used ++ close :: behind ∧ closesBlock close = true ∧
      body.2 = behind.length ∧ tells used (body.1.thenBranch ++ body.1.elseBranch)

def RemembersTold (lines : List Text) (p : Progress) : Prop :=
  ∀ line rest closed, line :: rest <:+ lines → p.block? rest.length = some (some closed) →
    IsToldBlock tells line rest closed

def TellsBlocks (lines : List Text) (block : BlockReader) : Prop :=
  ∀ line rest p, line :: rest <:+ lines → opensBlock line = true → RemembersTold tells lines p →
    (∀ closed, (block line rest p).1 = some closed → IsToldBlock tells line rest closed) ∧
      RemembersTold tells lines (block line rest p).2

/-- What stands at a line is told of by the line and some lines behind it, the last of which, if
    there is one, closes a block; the reading goes on behind them. -/
structure IsToldAt (lines : List Text) (line : Text) (rest : List Text)
    (found : Option Statement × Nat × Progress) : Prop where
  taken : ∃ used behind, rest = used ++ behind ∧ rest.drop found.2.1 = behind ∧
    (used = [] ∨ ∃ front close, used = front ++ [close] ∧ closesBlock close = true) ∧
    tells (line :: used) found.1.toList
  told : RemembersTold tells lines found.2.2

end Told

variable {tells : Account} {lines : List Text}

theorem remembersTold_start (lines : List Text) : RemembersTold tells lines Progress.start :=
  fun _ _ _ _ found => nomatch found

namespace RemembersTold

theorem of_blocks {p q : Progress} (told : RemembersTold tells lines p)
    (same : q.blocks = p.blocks) : RemembersTold tells lines q := by
  intro line rest closed inside found
  exact told line rest closed inside (by simpa [Progress.block?, same] using found)

theorem remember {p : Progress} {line : Text} {rest : List Text} {block : Option Closed}
    (told : RemembersTold tells lines p) (inside : line :: rest <:+ lines)
    (here : ∀ closed, block = some closed → IsToldBlock tells line rest closed) :
    RemembersTold tells lines (p.remember rest.length block) := by
  intro line' rest' closed inside' found
  by_cases same : rest'.length = rest.length
  · obtain ⟨rfl, rfl⟩ := List.cons.inj (suffix_unique inside' inside (by simp [same]))
    rw [Progress.block?_remember] at found
    exact here closed (Option.some.inj found)
  · rw [Progress.block?_remember_of_ne same] at found
    exact told line' rest' closed inside' found

theorem remembered {p : Progress} {line : Text} {rest : List Text} {block : Option Closed}
    (told : RemembersTold tells lines p) (inside : line :: rest <:+ lines)
    (known : p.block? rest.length = some block) :
    ∀ closed, block = some closed → IsToldBlock tells line rest closed :=
  fun closed same => told line rest closed inside (known.trans (congrArg some same))

end RemembersTold

namespace Account.IsKept
variable (kept : tells.IsKept lines)
include kept

theorem cons {inElse : Bool} {line : Text} {used left : List Text} {body : Branches × Place}
    {statement : Option Statement} (here : tells (line :: used) statement.toList)
    (told : IsToldBody tells inElse left body) :
    IsToldBody tells inElse (line :: (used ++ left)) (body.1.add inElse statement, body.2) := by
  obtain ⟨side, more, close, behind, rfl, closes, stop, inner⟩ := told
  refine ⟨?_, line :: (used ++ more), close, behind, by simp, closes, stop, ?_⟩
  · rintro rfl
    exact side rfl
  · have joined := kept.append here inner
    cases inElse with
    | false => simpa [Branches.add] using joined
    | true => simpa [Branches.add, side rfl] using joined

theorem passed {inElse inElse' : Bool} {line : Text} {rest : List Text} {body : Branches × Place}
    (silent : line = [] ∨ line = "ELSE".toList ∨ closesBlock line = true)
    (later : inElse = true → inElse' = true) (told : IsToldBody tells inElse' rest body) :
    IsToldBody tells inElse (line :: rest) body := by
  obtain ⟨side, used, close, behind, rfl, closes, stop, inner⟩ := told
  exact ⟨fun inside => side (later inside), line :: used, close, behind, rfl, closes, stop,
    kept.append (kept.silent silent) inner⟩

section Reading
variable {block : BlockReader} (blocks : TellsBlocks tells lines block)
include blocks

theorem readAt {line : Text} {rest : List Text} {p : Progress} (inside : line :: rest <:+ lines)
    (told : RemembersTold tells lines p) :
    IsToldAt tells lines line rest (readAt block line rest p) := by
  have alone := kept.single (inside.mem List.mem_cons_self)
  cases opens : opensBlock line with
  | false =>
    obtain ⟨statement, taken, -, same⟩ := readAt_single block opens rest p
    refine ⟨⟨[], rest, rfl, by rw [taken]; rfl, Or.inl rfl, ?_⟩, told.of_blocks same⟩
    rw [statement]
    exact alone
  | true =>
    obtain ⟨statement, taken, -, same⟩ := readAt_opening block opens rest p
    obtain ⟨here, told'⟩ := blocks line rest p inside opens told
    refine ⟨?_, told'.of_blocks same⟩
    rw [statement, taken]
    cases found : (block line rest p).1 with
    | none => exact ⟨[], rest, rfl, rfl, Or.inl rfl, alone⟩
    | some closed =>
      obtain ⟨used, close, behind, rfl, closes, stop, inner⟩ := here closed found
      refine ⟨used ++ [close], behind, by simp, ?_, Or.inr ⟨used, close, rfl, closes⟩, ?_⟩
      · have resumed := drop_used (used ++ [close]) behind [] (n := closed.stop) (by simp [stop])
        simpa [statementAt] using resumed
      · exact kept.append inner (kept.silent (Or.inr (Or.inr closes)))

theorem readBody {inElse : Bool} {rest : List Text} {p : Progress} (inside : rest <:+ lines)
    (told : RemembersTold tells lines p) :
    (∀ body, (readBody block inElse 0 rest p).1 = some body → IsToldBody tells inElse rest body) ∧
      RemembersTold tells lines (readBody block inElse 0 rest p).2 := by
  induction size : rest.length using Nat.strongRecOn generalizing rest inElse p with
  | ind n ih =>
    cases rest with
    | nil => exact ⟨nofun, told⟩
    | cons line rest =>
      subst size
      have behind : rest <:+ lines := (List.suffix_cons line rest).trans inside
      rcases bodyLine_cases line with rfl | rfl | closes | content
      · rw [readBody_blank]
        obtain ⟨found, told'⟩ := @ih rest.length (by simp) inElse rest p behind told rfl
        exact ⟨fun body eq => kept.passed (Or.inl rfl) id (found body eq), told'⟩
      · rw [readBody_else]
        obtain ⟨found, told'⟩ := @ih rest.length (by simp) true rest p behind told rfl
        exact ⟨fun body eq => kept.passed (Or.inr (Or.inl rfl)) (fun _ => rfl) (found body eq),
          told'⟩
      · rw [readBody_close _ _ _ _ closes]
        refine ⟨fun body eq => ?_, told⟩
        obtain rfl := Option.some.inj eq
        exact ⟨fun _ => rfl, [], line, rest, rfl, closes, rfl, kept.nil⟩
      · rw [readBody_content _ _ _ _ content]
        obtain ⟨⟨used, left, split, resumed, -, here⟩, told'⟩ := kept.readAt blocks inside told
        rw [readBody_skip, resumed]
        have shorter : left.length < (line :: rest).length := by
          rw [split]
          exact length_behind_lt line used left
        have further : left <:+ lines := (split ▸ List.suffix_append used left).trans behind
        obtain ⟨found, told''⟩ := @ih left.length shorter inElse left _ further told' rfl
        refine ⟨fun body read => ?_, told''⟩
        obtain ⟨inner, eq, rfl⟩ := Option.map_eq_some_iff.mp read
        have whole := kept.cons here (found inner eq)
        rwa [← split] at whole

end Reading

/-- Whatever lies too deep, of what is read as a block its lines tell: the induction is on the levels
    that are left. -/
theorem readBlock (levels : Nat) : TellsBlocks tells lines (readBlock levels) := by
  induction levels with
  | zero =>
    intro line rest p inside _ told
    simp only [StructuredText.readBlock]
    cases known : p.block? rest.length with
    | none => exact ⟨fun closed none => absurd none.symm (Option.some_ne_none closed), told⟩
    | some block => exact ⟨told.remembered inside known, told⟩
  | succ levels ih =>
    intro line rest p inside opens told
    simp only [StructuredText.readBlock]
    cases known : p.block? rest.length with
    | some block => exact ⟨told.remembered inside known, told⟩
    | none =>
      have behind : rest <:+ lines := (List.suffix_cons line rest).trans inside
      have noted : RemembersTold tells lines (p.note (conditionCutOffs line)) := told.of_blocks rfl
      obtain ⟨found, told'⟩ := @readBody _ _ kept _ ih false rest _ behind noted
      have here : ∀ closed, (StructuredText.readBody (StructuredText.readBlock levels) false 0 rest
          (p.note (conditionCutOffs line))).1.map (closedBlock line) = some closed →
            IsToldBlock tells line rest closed := by
        intro closed read
        obtain ⟨body, eq, rfl⟩ := Option.map_eq_some_iff.mp read
        obtain ⟨-, used, close, left, rfl, closes, place, inner⟩ := found body eq
        exact ⟨used, close, left, rfl, closes, place, kept.block opens inner⟩
      exact ⟨here, told'.remember inside here⟩

theorem readUnitLines (silent : ∀ used, tells used []) {block : BlockReader}
    (blocks : TellsBlocks tells lines block) (kind : PouKind) (place : UnitPlace)
    {rest : List Text} (inside : rest <:+ lines) {p : Progress}
    (told : RemembersTold tells lines p) :
    tells rest (readUnitLines block kind place 0 rest p).1.statements := by
  induction size : rest.length using Nat.strongRecOn generalizing rest place p with
  | ind n ih =>
    cases rest with
    | nil => exact kept.nil
    | cons line rest =>
      subst size
      have behind : rest <:+ lines := (List.suffix_cons line rest).trans inside
      rcases frame_cases kind line place with ends | ⟨rfl, other⟩ | ⟨after, declared, frame⟩
      · rw [readUnitLines_terminator _ _ _ ends]
        exact silent _
      · rw [readUnitLines_statement _ _ other]
        obtain ⟨⟨used, left, rfl, resumed, -, here⟩, told'⟩ := kept.readAt blocks inside told
        rw [readUnitLines_skip, resumed]
        have further : left <:+ lines := (List.suffix_append used left).trans behind
        exact kept.append here
          (ih left.length (length_behind_lt line used left) .body further told' rfl)
      · rw [frame.reads]
        exact kept.append (silent [line]) (ih rest.length (Nat.lt_succ_self _) after behind told rfl)

end Account.IsKept

theorem Account.IsKept.ofSource? {source : Text} {pou : Pou}
    (kept : tells.IsKept (lineTexts source)) (silent : ∀ used, tells used [])
    (found : Pou.ofSource? source = some pou) :
    tells (lineTexts source) pou.statements := by
  rw [Pou.ofSource?, Reading.ofSource, readLines] at found
  split at found
  · contradiction
  · next kind before header rest first =>
    obtain rfl := Option.some.inj found
    obtain ⟨-, lead, whole, -⟩ := findHeader?_split first
    have behind := suffix_of_findHeader? first
    have told := kept.readUnitLines silent (kept.readBlock blockLimit) kind .body behind
      (remembersTold_start _)
    rw [whole, ← List.singleton_append, ← List.append_assoc]
    exact kept.append (silent (lead ++ [header])) told

/-- What statements are made of: each is the statement of a line or that of a block with such
    statements in its branches. -/
inductive Statement.IsFound : Statement → Prop
  | single {line : Text} {s : Statement} : Statement.ofLine? line = some s → IsFound s
  | block {line : Text} {body : Branches × Place} : (∀ s ∈ body.1.thenBranch, IsFound s) →
      (∀ s ∈ body.1.elseBranch, IsFound s) → IsFound (closedBlock line body).statement

def AreFound : Account := fun _ statements => ∀ s ∈ statements, s.IsFound

theorem isKept_areFound (lines : List Text) : AreFound.IsKept lines where
  nil := List.forall_mem_nil _
  append left right := List.forall_mem_append.mpr ⟨left, right⟩
  silent _ := List.forall_mem_nil _
  single _ := fun _ mem => .single (Option.mem_toList.mp mem)
  block := by
    intro line used body _ inner
    obtain ⟨thenBranch, elseBranch⟩ := List.forall_mem_append.mp inner
    exact List.forall_mem_singleton.mpr (.block thenBranch elseBranch)

theorem isFound_of_ofSource? {source : Text} {pou : Pou} (read : Pou.ofSource? source = some pou) :
    ∀ s ∈ pou.statements, s.IsFound :=
  (isKept_areFound (lineTexts source)).ofSource? (fun _ => List.forall_mem_nil _) read

end StructuredText
