import StructuredText.Proofs.Conditional.Endless

/- How many blocks may still open at each line, counted from the first one: an END_IF gives back the
   level that the line of its block took.  A reading that is given up leaves behind what it
   remembers, and in that no block is nested deeper than there are levels behind it. -/
namespace StructuredText

mutual
def Statement.blockNesting : Statement → Nat
  | .conditional _ thenBranch elseBranch =>
    max (Statement.branchBlockNesting thenBranch) (Statement.branchBlockNesting elseBranch)
  | _ => 0

def Statement.branchBlockNesting : Option (List Statement) → Nat
  | none => 0
  | some branch => Statement.blockNestingOf branch + 1

def Statement.blockNestingOf : List Statement → Nat
  | [] => 0
  | s :: rest => max s.blockNesting (Statement.blockNestingOf rest)
end

def Branches.nesting (branches : Branches) : Nat :=
  max (Statement.blockNestingOf branches.thenBranch) (Statement.blockNestingOf branches.elseBranch)

theorem blockNesting_le_of_mem {s : Statement} {statements : List Statement}
    (mem : s ∈ statements) : s.blockNesting ≤ Statement.blockNestingOf statements := by
  induction statements with
  | nil => contradiction
  | cons first rest ih =>
    rw [Statement.blockNestingOf]
    rcases List.mem_cons.mp mem with rfl | mem
    · exact Nat.le_max_left ..
    · exact Nat.le_trans (ih mem) (Nat.le_max_right ..)

theorem blockNestingOf_append (first second : List Statement) :
    Statement.blockNestingOf (first ++ second) =
      max (Statement.blockNestingOf first) (Statement.blockNestingOf second) := by
  induction first with
  | nil => simp [Statement.blockNestingOf]
  | cons s rest ih =>
    rw [List.cons_append, Statement.blockNestingOf, ih, Statement.blockNestingOf, Nat.max_assoc]

theorem blockNestingOf_singleton (s : Statement) :
    Statement.blockNestingOf [s] = s.blockNesting := by
  simp [Statement.blockNestingOf]

theorem nesting_add (branches : Branches) (inElse : Bool) (statement : Option Statement) :
    (branches.add inElse statement).nesting =
      max (Statement.blockNestingOf statement.toList) branches.nesting := by
  cases inElse with
  | false => simp [Branches.add, Branches.nesting, blockNestingOf_append, Nat.max_assoc]
  | true => simp [Branches.add, Branches.nesting, blockNestingOf_append, Nat.max_left_comm]

theorem blockNesting_closedBlock (line : Text) (body : Branches × Place) :
    (closedBlock line body).statement.blockNesting = body.1.nesting + 1 := by
  rw [closedBlock, Statement.blockNesting, Statement.branchBlockNesting,
    Statement.branchBlockNesting, Branches.nesting, Nat.add_max_add_right]

theorem blockNestingOf_ofLine? (line : Text) :
    Statement.blockNestingOf (Statement.ofLine? line).toList = 0 := by
  rw [Statement.ofLine?]
  cases Clause.ofLine? line with
  | none => rfl
  | some clause => cases clause <;> rfl

/-- How many levels a line leaves for the lines behind it. -/
def levelBehind (level : Nat) (line : Text) : Nat :=
  if closesBlock line then level + 1 else if opensBlock line then level - 1 else level

section Line
variable {line : Text} (level : Nat)

theorem levelBehind_close (closes : closesBlock line = true) :
    levelBehind level line = level + 1 := by rw [levelBehind, if_pos closes]

theorem levelBehind_opening (opens : opensBlock line = true) :
    levelBehind level line = level - 1 := by
  have content := content_of_opensBlock opens
  rw [levelBehind, if_neg (by simp [content.goesOn]), if_pos opens]

theorem levelBehind_other (stays : closesBlock line = false) (single : opensBlock line = false) :
    levelBehind level line = level := by
  rw [levelBehind, if_neg (by simp [stays]), if_neg (by simp [single])]

end Line

def AreLevels (lines : List Text) (level : Place → Nat) : Prop :=
  ∀ line rest, line :: rest <:+ lines →
    level rest.length = levelBehind (level (rest.length + 1)) line

theorem exists_levels (lines : List Text) (first : Nat) :
    ∃ level, level lines.length = first ∧ AreLevels lines level := by
  induction lines generalizing first with
  | nil => exact ⟨fun _ => first, rfl, fun line rest inside => by simp at inside⟩
  | cons line rest ih =>
    obtain ⟨level, start, levels⟩ := ih (levelBehind first line)
    refine ⟨fun place => if place = rest.length + 1 then first else level place, if_pos rfl, ?_⟩
    intro line' rest' inside
    rcases List.suffix_cons_iff.mp inside with same | behind
    · obtain ⟨rfl, rfl⟩ := List.cons.inj same
      have later : rest'.length ≠ rest'.length + 1 := by omega
      simp only [if_neg later, if_true, start]
    · have shorter := behind.length_le
      rw [List.length_cons] at shorter
      have here : rest'.length ≠ rest.length + 1 := by omega
      have before : rest'.length + 1 ≠ rest.length + 1 := by omega
      simp only [if_neg here, if_neg before, levels _ _ behind]

/-- What is remembered of some lines: no block that closes is nested deeper than there are levels
    behind it, and behind the first line of one that does not close there is no end. -/
structure IsTame (lines : List Text) (level : Place → Nat) (p : Progress) : Prop where
  closed : ∀ line rest c, line :: rest <:+ lines → p.block? rest.length = some (some c) →
    c.stop < rest.length ∧ c.statement.blockNesting ≤ level c.stop ∧
      level (rest.length + 1) ≤ level c.stop
  failed : ∀ line rest, line :: rest <:+ lines → p.block? rest.length = some none → Endless p rest

def IsFull (level : Place → Nat) (place : Nat) (lines : List Text) (p : Progress) : Prop :=
  ∀ line rest, line :: rest <:+ lines → place ≤ rest.length → opensBlock line = true →
    0 < level (rest.length + 1) → p.block? rest.length ≠ none

theorem IsFull.of_retains {level : Place → Nat} {place : Nat} {lines : List Text}
    {p q : Progress} (full : IsFull level place lines p) (retains : Retains p q) :
    IsFull level place lines q := by
  intro line rest inside below opens left missing
  obtain ⟨block, known⟩ := Option.ne_none_iff_exists'.mp (full line rest inside below opens left)
  rw [retains _ _ known] at missing
  contradiction

theorem IsFull.of_suffix {level : Place → Nat} {place : Nat} {lines behind : List Text}
    {p : Progress} (full : IsFull level place lines p) (suffix : behind <:+ lines) :
    IsFull level place behind p :=
  fun line rest inside => full line rest (inside.trans suffix)

section Levels
variable {lines : List Text} {level : Place → Nat}

theorem IsTame.of_blocks {p q : Progress} (tame : IsTame lines level p)
    (same : q.blocks = p.blocks) : IsTame lines level q := by
  have known (place : Place) : q.block? place = p.block? place := by
    rw [Progress.block?, Progress.block?, same]
  refine ⟨fun line rest c inside found => ?_, fun line rest inside found => ?_⟩
  · exact tame.closed line rest c inside (known _ ▸ found)
  · exact (tame.failed line rest inside (known _ ▸ found)).congr (.of_blocks same)

/-- A body that ends with one of the lines is not nested deeper than there are levels there. -/
structure EndsWithin (level : Place → Nat) (rest : List Text) (q : Progress)
    (body : Branches × Place) : Prop where
  split : ∃ used close behind, rest = used ++ close :: behind ∧ closesBlock close = true ∧
    body.2 = behind.length
  nesting : body.1.nesting ≤ level (body.2 + 1)
  rises : level rest.length ≤ level (body.2 + 1)
  ends : ¬ Endless q rest

theorem EndsWithin.level_stop {rest : List Text} {q : Progress} {body : Branches × Place}
    (within : EndsWithin level rest q body) (inside : rest <:+ lines)
    (levels : AreLevels lines level) : level body.2 = level (body.2 + 1) + 1 := by
  obtain ⟨used, close, behind, split, closes, stop⟩ := within.split
  have inside' : close :: behind <:+ lines := by
    refine List.IsSuffix.trans ?_ inside
    exact split ▸ List.suffix_append used _
  rw [stop, levels close behind inside', levelBehind_close _ closes]

theorem EndsWithin.stop_lt {rest : List Text} {q : Progress} {body : Branches × Place}
    (within : EndsWithin level rest q body) : body.2 < rest.length := by
  obtain ⟨used, close, behind, split, -, stop⟩ := within.split
  rw [stop, split, List.length_append, List.length_cons]
  exact Nat.lt_of_lt_of_le (Nat.lt_succ_self _) (Nat.le_add_left _ _)

structure IsTameBody (lines : List Text) (level : Place → Nat) (rest : List Text)
    (found : Option (Branches × Place) × Progress) : Prop where
  tame : IsTame lines level found.2
  failed : found.1 = none → Endless found.2 rest
  closed : ∀ body, found.1 = some body → EndsWithin level rest found.2 body

theorem IsTameBody.cons {line : Text} {rest used behind : List Text}
    {found : Option (Branches × Place) × Progress} (tame : IsTameBody lines level behind found)
    (split : rest = used ++ behind) (inElse : Bool) (statement : Option Statement)
    (nesting : Statement.blockNestingOf statement.toList ≤ level behind.length)
    (rises : level (rest.length + 1) ≤ level behind.length)
    (same : Endless found.2 (line :: rest) ↔ Endless found.2 behind) :
    IsTameBody lines level (line :: rest)
      (found.1.map fun body => (body.1.add inElse statement, body.2), found.2) where
  tame := tame.tame
  failed := fun none => same.mpr (tame.failed (Option.map_eq_none_iff.mp none))
  closed := by
    intro body eq
    obtain ⟨inner, read, rfl⟩ := Option.map_eq_some_iff.mp eq
    obtain ⟨⟨more, close, last, rfl, closes, stop⟩, deep, rises', ends⟩ := tame.closed inner read
    refine ⟨⟨line :: (used ++ more), close, last, by simp [split], closes, stop⟩, ?_, ?_, ?_⟩
    · rw [nesting_add]
      exact Nat.max_le.mpr ⟨Nat.le_trans nesting rises', deep⟩
    · exact Nat.le_trans rises rises'
    · exact fun endless => ends (same.mp endless)

section Remember
variable {line : Text} {rest : List Text} {q : Progress} (inside : line :: rest <:+ lines)
  (unknown : q.block? rest.length = none) (tame : IsTame lines level q)
include inside unknown tame

theorem IsTame.remember_failed (endless : Endless q rest) :
    IsTame lines level (q.remember rest.length none) := by
  have same : SameClosed q (q.remember rest.length none) := (SameClosed.refl q).remember unknown
  refine ⟨fun line' rest' c inside' found => ?_, fun line' rest' inside' found => ?_⟩
  · exact tame.closed line' rest' c inside' ((same _ _).mpr found)
  · by_cases here : rest'.length = rest.length
    · obtain ⟨rfl, rfl⟩ := List.cons.inj (suffix_unique inside' inside (by simp [here]))
      exact endless.congr same
    · rw [Progress.block?_remember_of_ne here] at found
      exact (tame.failed line' rest' inside' found).congr same

variable (levels : AreLevels lines level)
include levels

/-- The level that the END_IF gives back is the one that the block's nesting takes. -/
theorem IsTame.remember_closed (opens : opensBlock line = true) {body : Branches × Place}
    (within : EndsWithin level rest q body) :
    IsTame lines level (q.remember rest.length (some (closedBlock line body))) := by
  have stop := within.level_stop ((List.suffix_cons line rest).trans inside) levels
  have below : level rest.length = level (rest.length + 1) - 1 := by
    rw [levels line rest inside, levelBehind_opening _ opens]
  refine ⟨fun line' rest' c inside' found => ?_, fun line' rest' inside' found => ?_⟩
  · by_cases here : rest'.length = rest.length
    · rw [here, Progress.block?_remember] at found
      obtain rfl := Option.some.inj (Option.some.inj found)
      rw [blockNesting_closedBlock, here]
      simp only [closedBlock, stop]
      have rises := within.rises
      exact ⟨within.stop_lt, Nat.succ_le_succ within.nesting, by omega⟩
    · rw [Progress.block?_remember_of_ne here] at found
      exact tame.closed line' rest' c inside' found
  · by_cases here : rest'.length = rest.length
    · rw [here, Progress.block?_remember] at found
      cases found
    · rw [Progress.block?_remember_of_ne here] at found
      have behind' : rest' <:+ lines := (List.suffix_cons line' rest').trans inside'
      exact (tame.failed line' rest' inside' found).remember inside unknown within.ends behind' _

end Remember

/-- What stands at a line that opens a block: the block, if it closes, or else the line for itself.
    Only where no level is left it may be unknown whether the block closes. -/
inductive Meets (level : Place → Nat) (line : Text) (rest : List Text) :
    Option Statement × Nat × Progress → Prop
  | closed {closed : Closed} {q : Progress} : q.block? rest.length = some (some closed) →
      Meets level line rest (some closed.statement, rest.length - closed.stop, q)
  | failed {q : Progress} : q.block? rest.length = some none →
      Meets level line rest (Statement.ofLine? line, 0, q)
  | tooDeep {q : Progress} : q.block? rest.length = none → level (rest.length + 1) = 0 →
      Meets level line rest (Statement.ofLine? line, 0, q)

section Block
variable {line : Text} {rest : List Text} {p : Progress} (opens : opensBlock line = true)
include opens

theorem meets_of_block {count : Nat} {block : Option Closed}
    (found : (readBlock count line rest p).1 = block)
    (known : (readBlock count line rest p).2.block? rest.length = some block) :
    Meets level line rest (readAt (readBlock count) line rest p) := by
  obtain ⟨statement, taken, -, blocks⟩ := readAt_opening (readBlock count) opens rest p
  have known' : (readAt (readBlock count) line rest p).2.2.block? rest.length = some block := by
    rwa [Progress.block?, blocks]
  generalize readAt (readBlock count) line rest p = read at statement taken known' ⊢
  obtain ⟨s, n, q⟩ := read
  rw [found] at statement taken
  cases block with
  | some closed =>
    obtain ⟨rfl, rfl⟩ := And.intro statement taken
    exact .closed known'
  | none =>
    obtain ⟨rfl, rfl⟩ := And.intro statement taken
    exact .failed known'

variable (inside : line :: rest <:+ lines) (levels : AreLevels lines level)
include inside levels

theorem readAt_meets (count : Nat) (tame : IsTame lines level p)
    (left : p.block? rest.length = none → count = 0 → level (rest.length + 1) = 0)
    (body : ∀ fewer, count = fewer + 1 → p.block? rest.length = none →
      IsTameBody lines level rest
        (readBody (readBlock fewer) false 0 rest (p.note (conditionCutOffs line)))) :
    Meets level line rest (readAt (readBlock count) line rest p) ∧
      IsTame lines level (readAt (readBlock count) line rest p).2.2 := by
  obtain ⟨statement, taken, -, blocks⟩ := readAt_opening (readBlock count) opens rest p
  suffices both : Meets level line rest (readAt (readBlock count) line rest p) ∧
      IsTame lines level (readBlock count line rest p).2 from both.imp_right (·.of_blocks blocks)
  cases known : p.block? rest.length with
  | some block =>
    have read : readBlock count line rest p = (block, p) := readBlock_known known count
    refine ⟨meets_of_block opens (by rw [read]) (by rw [read, known]), ?_⟩
    rwa [read]
  | none =>
    cases count with
    | zero =>
      have read : readBlock 0 line rest p = (none, { p with tooDeep := true }) :=
        readBlock_zero_unknown known
      refine ⟨?_, by rw [read]; exact tame.of_blocks rfl⟩
      have same : (readAt (readBlock 0) line rest p).2.2.block? rest.length = none := by
        rw [Progress.block?, blocks, read]
        exact known
      generalize readAt (readBlock 0) line rest p = found at statement taken same ⊢
      obtain ⟨s, n, q⟩ := found
      rw [read] at statement taken
      obtain ⟨rfl, rfl⟩ := And.intro statement taken
      exact .tooDeep same (left known rfl)
    | succ fewer =>
      have here := body fewer rfl known
      have unknown : (readBody (readBlock fewer) false 0 rest
          (p.note (conditionCutOffs line))).2.block? rest.length = none := by
        rw [block?_readBody]
        exact known
      refine ⟨meets_of_block opens rfl ?_, ?_⟩
      · rw [readBlock_succ_unknown known, Progress.block?_remember]
      · rw [readBlock_succ_unknown known]
        generalize readBody (readBlock fewer) false 0 rest (p.note (conditionCutOffs line)) = found
          at here unknown ⊢
        obtain ⟨_ | inner, q⟩ := found
        · exact here.tame.remember_failed inside unknown (here.failed rfl)
        · exact here.tame.remember_closed inside unknown levels opens (here.closed inner rfl)

end Block

section Single
variable {line : Text} {rest : List Text} {found : Option (Branches × Place) × Progress}
  (inside : line :: rest <:+ lines) (levels : AreLevels lines level)
  (stays : closesBlock line = false) (plain : opensBlock line = false)
include inside levels stays plain

theorem level_single : level rest.length = level (rest.length + 1) := by
  rw [levels line rest inside, levelBehind_other _ stays plain]

theorem IsTameBody.single (tame : IsTameBody lines level rest found) (inElse : Bool) :
    IsTameBody lines level (line :: rest)
      (found.1.map fun body => (body.1.add inElse (Statement.ofLine? line), body.2), found.2) := by
  refine tame.cons (List.nil_append rest).symm inElse _ ?_ ?_ (Endless.single_iff stays plain)
  · rw [blockNestingOf_ofLine?]
    exact Nat.zero_le _
  · exact Nat.le_of_eq (level_single inside levels stays plain).symm

theorem IsTameBody.pass (tame : IsTameBody lines level rest found) :
    IsTameBody lines level (line :: rest) found := by
  have whole := tame.cons (List.nil_append rest).symm false none (Nat.zero_le _)
    (Nat.le_of_eq (level_single inside levels stays plain).symm) (Endless.single_iff stays plain)
  simpa [Branches.add] using whole

end Single

section Close
variable {line : Text} {rest : List Text} {p : Progress}

theorem isTameBody_nil (tame : IsTame lines level p) : IsTameBody lines level [] (none, p) :=
  ⟨tame, fun _ => .nil, nofun⟩

theorem isTameBody_close (tame : IsTame lines level p) (closes : closesBlock line = true) :
    IsTameBody lines level (line :: rest) (some (⟨[], []⟩, rest.length), p) where
  tame := tame
  failed := nofun
  closed := by
    intro body found
    obtain rfl := Option.some.inj found
    exact ⟨⟨[], line, rest, rfl, closes, rfl⟩, by simp [Branches.nesting, Statement.blockNestingOf],
      Nat.le_refl _, Endless.not_close closes⟩

end Close

theorem length_behindClosed {line : Text} {rest : List Text} {q : Progress} {c : Closed}
    (inside : line :: rest <:+ lines) (tame : IsTame lines level q)
    (known : q.block? rest.length = some (some c)) :
    (rest.drop (rest.length - c.stop)).length = c.stop := by
  rw [List.length_drop]
  exact Nat.sub_sub_self (Nat.le_of_lt (tame.closed line rest c inside known).1)

section Opening
variable {line : Text} {rest : List Text} {found : Option (Branches × Place) × Progress}
  (opens : opensBlock line = true)
include opens

theorem IsTameBody.block {c : Closed}
    (tame : IsTameBody lines level (rest.drop (rest.length - c.stop)) found)
    (inside : line :: rest <:+ lines) (known : found.2.block? rest.length = some (some c))
    (inElse : Bool) :
    IsTameBody lines level (line :: rest)
      (found.1.map fun body => (body.1.add inElse (some c.statement), body.2), found.2) := by
  obtain ⟨-, nesting, rises⟩ := tame.tame.closed line rest c inside known
  have left := length_behindClosed inside tame.tame known
  refine tame.cons (List.take_append_drop _ rest).symm inElse _ ?_ ?_
    (Endless.closed_iff opens known)
  · rw [left, Option.toList_some, blockNestingOf_singleton]
    exact nesting
  · rw [left]
    exact rises

theorem IsTameBody.unread (tame : IsTameBody lines level rest found)
    (unclosed : ∀ closed, found.2.block? rest.length ≠ some (some closed))
    (none : level (rest.length + 1) = 0) (inElse : Bool) :
    IsTameBody lines level (line :: rest)
      (found.1.map fun body => (body.1.add inElse (Statement.ofLine? line), body.2), found.2) := by
  refine tame.cons (List.nil_append rest).symm inElse _ ?_ ?_ (Endless.opening_iff opens unclosed)
  · rw [blockNestingOf_ofLine?]
    exact Nat.zero_le _
  · rw [none]
    exact Nat.zero_le _

theorem IsTameBody.open (tame : IsTameBody lines level rest found)
    (known : found.2.block? rest.length = some none) (endless : Endless found.2 rest) :
    IsTameBody lines level (line :: rest) (none, found.2) where
  tame := tame.tame
  failed := fun _ => (Endless.opening_iff opens (not_closed_of_failed known)).mpr endless
  closed := nofun

end Opening

/-- Where every block is known for which a level is left, a body can be read with any number of
    levels: the induction is on the lines that are left. -/
theorem readBody_settled (levels : AreLevels lines level) {rest : List Text} {p : Progress}
    (inside : rest <:+ lines) (tame : IsTame lines level p) (full : IsFull level 0 rest p)
    (count : Nat) (inElse : Bool) :
    IsTameBody lines level rest (readBody (readBlock count) inElse 0 rest p) := by
  induction size : rest.length using Nat.strongRecOn generalizing rest p count inElse with
  | ind n ih =>
    subst size
    cases rest with
    | nil =>
      rw [readBody]
      exact isTameBody_nil tame
    | cons line rest =>
      have shorter : rest.length < (line :: rest).length := Nat.lt_succ_self _
      have behind : rest <:+ lines := (List.suffix_cons line rest).trans inside
      have full' : IsFull level 0 rest p := full.of_suffix (List.suffix_cons line rest)
      rcases bodyLine_cases line with rfl | rfl | closes | content
      · rw [readBody_blank]
        exact (@ih _ shorter rest p behind tame full' count inElse rfl).pass inside levels rfl rfl
      · rw [readBody_else]
        exact (@ih _ shorter rest p behind tame full' count true rfl).pass inside levels
          (by decide) (by decide)
      · rw [readBody_close _ _ _ _ closes]
        exact isTameBody_close tame closes
      · rw [readBody_content _ _ _ _ content]
        have retains : Retains p (readAt (readBlock count) line rest p).2.2 :=
          (readAt_proceeds (readBlock_proceeds count) line rest p).retains
        cases opens : opensBlock line with
        | false =>
          obtain ⟨statement, taken, -, blocks⟩ := readAt_single (readBlock count) opens rest p
          rw [statement, taken]
          exact (@ih _ shorter rest _ behind (tame.of_blocks blocks) (full'.of_retains retains)
            count inElse rfl).single inside levels content.goesOn opens inElse
        | true =>
          obtain ⟨meets, tame'⟩ := readAt_meets opens inside levels count tame
            (fun unknown _ => Nat.eq_zero_of_not_pos fun left =>
              full line rest (List.suffix_refl _) (Nat.zero_le _) opens left unknown)
            fun fewer _ _ => @ih _ shorter rest (p.note (conditionCutOffs line)) behind
              (tame.of_blocks rfl) (full'.of_retains (.of_blocks rfl)) fewer false rfl
          generalize readAt (readBlock count) line rest p = read at meets tame' retains ⊢
          have full'' : IsFull level 0 rest read.2.2 := full'.of_retains retains
          have next (skip : Nat) := @ih _ (length_drop_lt line rest skip) _ read.2.2
            ((List.drop_suffix skip rest).trans behind) tame'
            (full''.of_suffix (List.drop_suffix skip rest)) count inElse rfl
          cases meets with
          | @closed closed q known =>
            have read := next (rest.length - closed.stop)
            rw [readBody_skip]
            exact read.block opens inside
              (retains_readBody count _ _ _ _ _ known) inElse
          | @failed q known =>
            have endless : Endless q rest := tame'.failed line rest inside known
            have read := next 0
            obtain ⟨none, same⟩ := endless.readBody count inElse
            dsimp only
            rw [none]
            exact read.open opens (retains_readBody count _ _ _ _ _ known)
              (endless.congr same)
          | @tooDeep q unknown none =>
            have read : IsTameBody lines level rest (readBody (readBlock count) inElse 0 rest q) :=
              next 0
            have still := (block?_readBody count inElse rest q).trans unknown
            exact read.unread opens (not_closed_of_unknown still) none inElse

end Levels
end StructuredText
