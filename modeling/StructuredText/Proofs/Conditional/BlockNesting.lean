import StructuredText.Proofs.Conditional.BlockLevels

/- How deep the blocks of a unit lie inside one another: never deeper than blocks may be open at
   once, also where a block is remembered from a reading that was given up. -/
namespace StructuredText

section Levels
variable {lines : List Text} {level : Place → Nat}

theorem IsFull.append {place : Nat} {rest behind : List Text} {p : Progress}
    (before : IsFull level behind.length rest p) (suffix : behind <:+ rest)
    (later : IsFull level place behind p) : IsFull level place rest p := by
  intro line more inside below
  by_cases early : behind.length ≤ more.length
  · exact before line more inside early
  · refine later line more ?_ below
    exact List.suffix_of_suffix_length_le inside suffix (by rw [List.length_cons]; omega)

/-- What the first reading of a body leaves behind, which ends at a place or not at all: before it
    no block is missing for which a level is left, and behind it none is known. -/
structure IsFirst (level : Place → Nat) (levels : Nat) (rest : List Text) (stop : Option Nat)
    (q : Progress) : Prop where
  full : IsFull level (stop.getD 0) rest q
  within : ∀ k ≤ rest.length, (∀ place ∈ stop, place < k) → level k ≤ levels
  ended : ∀ place ∈ stop, level place = levels + 1 ∧ q.Fresh place

section First
variable {levels : Nat} {line : Text} {rest behind : List Text} {stop : Option Nat} {p q : Progress}

theorem IsFull.cons {place : Nat} (full : IsFull level place rest q)
    (known : opensBlock line = true → 0 < level (rest.length + 1) → q.block? rest.length ≠ none) :
    IsFull level place (line :: rest) q := by
  intro line' rest' inside below opens left
  rcases List.suffix_cons_iff.mp inside with same | later
  · obtain ⟨rfl, rfl⟩ := List.cons.inj same
    exact known opens left
  · exact full line' rest' later below opens left

theorem IsFirst.pass (first : IsFirst level levels rest stop q)
    (here : level (rest.length + 1) = levels)
    (known : opensBlock line = true → 0 < level (rest.length + 1) → q.block? rest.length ≠ none) :
    IsFirst level levels (line :: rest) stop q where
  full := first.full.cons known
  within := by
    intro k inside before
    by_cases head : k = rest.length + 1
    · rw [head, here]
    · exact first.within k (by rw [List.length_cons] at inside; omega) before
  ended := first.ended

theorem IsFirst.block (inner : IsFirst level levels rest (some behind.length) p)
    (first : IsFirst level (levels + 1) behind stop q) (suffix : behind <:+ rest)
    (here : level (rest.length + 1) = levels + 1) (retains : Retains p q)
    (known : q.block? rest.length ≠ none) : IsFirst level (levels + 1) (line :: rest) stop q where
  full := by
    refine IsFull.append ?_ (suffix.trans (List.suffix_cons line rest)) first.full
    exact (inner.full.of_retains retains).cons fun _ _ => known
  within := by
    intro k inside before
    by_cases head : k = rest.length + 1
    · rw [head, here]
    · by_cases early : behind.length < k
      · refine Nat.le_succ_of_le (inner.within k ?_ ?_)
        · rw [List.length_cons] at inside
          omega
        · intro place stop
          obtain rfl := Option.some.inj stop
          exact early
      · exact first.within k (Nat.le_of_not_lt early) before
  ended := first.ended

theorem IsFirst.single (first : IsFirst level levels rest stop q)
    (here : level (rest.length + 1) = levels) (plain : opensBlock line = false) :
    IsFirst level levels (line :: rest) stop q :=
  first.pass here fun opens => absurd (plain.symm.trans opens) Bool.false_ne_true

theorem isFirst_none (full : IsFull level 0 rest q) (within : ∀ k ≤ rest.length, level k ≤ levels) :
    IsFirst level levels rest none q where
  full := full
  within := fun k inside _ => within k inside
  ended := fun place stop => absurd stop (Option.not_mem_none place)

theorem IsFirst.le (first : IsFirst level levels rest none q) {k : Nat} (inside : k ≤ rest.length) :
    level k ≤ levels :=
  first.within k inside fun place stop => absurd stop (Option.not_mem_none place)

theorem isFirst_nil (here : level 0 = levels) : IsFirst level levels [] none q := by
  refine isFirst_none (fun line rest inside => by simp at inside) fun k inside => ?_
  rw [Nat.le_zero.mp inside, here]

theorem isFirst_close (closes : closesBlock line = true) (here : level (rest.length + 1) = levels)
    (more : level rest.length = levels + 1) (fresh : q.Fresh rest.length) :
    IsFirst level levels (line :: rest) (some rest.length) q where
  full := by
    intro line' rest' inside below opens
    rcases List.suffix_cons_iff.mp inside with same | later
    · obtain ⟨rfl, rfl⟩ := List.cons.inj same
      rw [(content_of_opensBlock opens).goesOn] at closes
      contradiction
    · have shorter := later.length_le
      rw [List.length_cons] at shorter
      rw [Option.getD_some] at below
      omega
  within := by
    intro k inside before
    have behind := before _ rfl
    obtain rfl : k = rest.length + 1 := Nat.le_antisymm inside behind
    exact Nat.le_of_eq here
  ended := by
    intro place stop
    obtain rfl := Option.some.inj stop
    exact ⟨more, fresh⟩

end First

theorem isTame_of_fresh {p : Progress} (fresh : p.Fresh lines.length) : IsTame lines level p := by
  have unknown {line : Text} {rest : List Text} (inside : line :: rest <:+ lines) :
      p.block? rest.length = none := fresh _ inside.length_le
  refine ⟨fun line rest c inside found => ?_, fun line rest inside found => ?_⟩
  · rw [unknown inside] at found
    contradiction
  · rw [unknown inside] at found
    contradiction

theorem IsFirst.remember {levels : Nat} {rest : List Text} {stop : Option Nat} {q : Progress}
    (first : IsFirst level levels rest stop q) (unknown : q.block? rest.length = none)
    (before : ∀ place ∈ stop, place ≤ rest.length) (block : Option Closed) :
    IsFirst level levels rest stop (q.remember rest.length block) where
  full := first.full.of_retains (.remember unknown block)
  within := first.within
  ended := fun place mem => (first.ended place mem).imp_right (·.remember (before place mem) block)

theorem IsFirst.of_blocks {levels : Nat} {rest : List Text} {stop : Option Nat} {p q : Progress}
    (first : IsFirst level levels rest stop p) (same : q.blocks = p.blocks) :
    IsFirst level levels rest stop q where
  full := first.full.of_retains (.of_blocks same)
  within := first.within
  ended := fun place mem => (first.ended place mem).imp_right (·.of_blocks same)

section Opening
variable {line : Text} {rest : List Text} {p : Progress} (opens : opensBlock line = true)
  (inside : line :: rest <:+ lines) (levels : AreLevels lines level)
include opens inside levels

theorem readAt_first (unknown : p.block? rest.length = none) {count : Nat}
    {found : Option (Branches × Place) × Progress}
    (read : readBody (readBlock count) false 0 rest (p.note (conditionCutOffs line)) = found)
    (tame : IsTameBody lines level rest found)
    (first : IsFirst level count rest (found.1.map (·.2)) found.2) :
    ∃ block q, readAt (readBlock (count + 1)) line rest p =
        ((statementAt line rest block).1, (statementAt line rest block).2, q) ∧
      q.block? rest.length = some block ∧ IsTame lines level q ∧
      IsFirst level count rest (block.map (·.stop)) q := by
  obtain ⟨statement, taken, -, blocks⟩ := readAt_opening (readBlock (count + 1)) opens rest p
  have unknown' : found.2.block? rest.length = none := by
    rw [← read, block?_readBody]
    exact unknown
  rw [readBlock_succ_unknown unknown, read] at statement taken blocks
  refine ⟨found.1.map (closedBlock line), _, Prod.ext statement (Prod.ext taken rfl), ?_, ?_, ?_⟩
  · rw [Progress.block?, blocks]
    exact Progress.block?_remember ..
  · refine IsTame.of_blocks ?_ blocks
    obtain ⟨_ | body, q⟩ := found
    · exact tame.tame.remember_failed inside unknown' (tame.failed rfl)
    · exact tame.tame.remember_closed inside unknown' levels opens (tame.closed body rfl)
  · refine IsFirst.of_blocks ?_ blocks
    rw [Option.map_map]
    refine first.remember unknown' (fun place stop => ?_) _
    obtain ⟨body, ends, rfl⟩ := Option.map_eq_some_iff.mp stop
    exact Nat.le_of_lt (tame.closed body ends).stop_lt

end Opening

structure IsFirstBody (lines : List Text) (level : Place → Nat) (count : Nat) (rest : List Text)
    (found : Option (Branches × Place) × Progress) : Prop where
  tame : IsTameBody lines level rest found
  first : IsFirst level count rest (found.1.map (·.2)) found.2

namespace IsFirstBody
variable {count : Nat} {line : Text} {rest : List Text}
  {found : Option (Branches × Place) × Progress}

theorem of_first {inElse : Bool} {statement : Option Statement}
    (tame : IsTameBody lines level (line :: rest)
      (found.1.map fun body => (body.1.add inElse statement, body.2), found.2))
    (first : IsFirst level count (line :: rest) (found.1.map (·.2)) found.2) :
    IsFirstBody lines level count (line :: rest)
      (found.1.map fun body => (body.1.add inElse statement, body.2), found.2) := by
  refine ⟨tame, ?_⟩
  rw [Option.map_map]
  exact first

section Single
variable (body : IsFirstBody lines level count rest found) (inside : line :: rest <:+ lines)
  (levels : AreLevels lines level) (here : level (rest.length + 1) = count)
  (stays : closesBlock line = false) (plain : opensBlock line = false)
include body inside levels here stays plain

theorem pass : IsFirstBody lines level count (line :: rest) found :=
  ⟨body.tame.pass inside levels stays plain, body.first.single here plain⟩

theorem single (inElse : Bool) : IsFirstBody lines level count (line :: rest)
    (found.1.map fun body => (body.1.add inElse (Statement.ofLine? line), body.2), found.2) :=
  of_first (body.tame.single inside levels stays plain inElse) (body.first.single here plain)

end Single

theorem unread (body : IsFirstBody lines level 0 rest found) (opens : opensBlock line = true)
    (spent : level (rest.length + 1) = 0) (unknown : found.2.block? rest.length = none)
    (inElse : Bool) : IsFirstBody lines level 0 (line :: rest)
      (found.1.map fun body => (body.1.add inElse (Statement.ofLine? line), body.2), found.2) := by
  refine of_first (body.tame.unread opens (not_closed_of_unknown unknown) spent inElse) ?_
  exact body.first.pass spent fun _ left => absurd spent (Nat.ne_of_gt left)

theorem block {c : Closed} {q : Progress}
    (body : IsFirstBody lines level (count + 1) (rest.drop (rest.length - c.stop)) found)
    (opens : opensBlock line = true) (inside : line :: rest <:+ lines)
    (here : level (rest.length + 1) = count + 1) (tame : IsTame lines level q)
    (inner : IsFirst level count rest (some c.stop) q)
    (known : q.block? rest.length = some (some c)) (retains : Retains q found.2) (inElse : Bool) :
    IsFirstBody lines level (count + 1) (line :: rest)
      (found.1.map fun body => (body.1.add inElse (some c.statement), body.2), found.2) := by
  have known' := retains _ _ known
  refine of_first (body.tame.block opens inside known' inElse) ?_
  refine IsFirst.block ?_ body.first (List.drop_suffix _ rest) here retains ?_
  · rw [length_behindClosed inside tame known]
    exact inner
  · rw [known']
    exact Option.some_ne_none _

/-- When a block turns out not to close, the reading goes back, and the body behind the line is read
    once more: no end is found in it, and no block that was not known. -/
theorem failed {q : Progress} (opens : opensBlock line = true) (inside : line :: rest <:+ lines)
    (levels : AreLevels lines level) (here : level (rest.length + 1) = count + 1)
    (known : q.block? rest.length = some none) (tame : IsTame lines level q)
    (first : IsFirst level count rest none q) (inElse : Bool)
    (read : readBody (readBlock (count + 1)) inElse 0 rest q = found) :
    IsFirstBody lines level (count + 1) (line :: rest)
      (found.1.map fun body => (body.1.add inElse (Statement.ofLine? line), body.2), found.2) := by
  have behind : rest <:+ lines := (List.suffix_cons line rest).trans inside
  have endless : Endless q rest := tame.failed line rest inside known
  have settled := readBody_settled levels behind tame first.full (count + 1) inElse
  have retains := retains_readBody (count + 1) inElse rest q
  obtain ⟨unended, same⟩ := endless.readBody (count + 1) inElse
  rw [read] at settled retains unended same
  have known' := retains _ _ known
  have again : IsFirst level (count + 1) rest none found.2 :=
    isFirst_none (first.full.of_retains retains) fun k shorter =>
      Nat.le_succ_of_le (first.le shorter)
  rw [unended]
  refine ⟨settled.open opens known' (endless.congr same), again.pass here fun _ _ => ?_⟩
  rw [known']
  exact Option.some_ne_none _

end IsFirstBody

theorem readBody_first (levels : AreLevels lines level) {rest : List Text} {p : Progress}
    {count : Nat} (inside : rest <:+ lines) (here : level rest.length = count)
    (tame : IsTame lines level p) (fresh : p.Fresh rest.length) (inElse : Bool) :
    IsFirstBody lines level count rest (readBody (readBlock count) inElse 0 rest p) := by
  induction size : rest.length using Nat.strongRecOn generalizing rest p count inElse with
  | ind n ih =>
    subst size
    cases rest with
    | nil =>
      rw [readBody]
      exact ⟨isTameBody_nil tame, isFirst_nil here⟩
    | cons line rest =>
      have shorter : rest.length < (line :: rest).length := Nat.lt_succ_self _
      have behind : rest <:+ lines := (List.suffix_cons line rest).trans inside
      have fresh' : p.Fresh rest.length := fresh.mono (Nat.le_succ _)
      have unknown : p.block? rest.length = none := fresh _ shorter
      have next := levels line rest inside
      rw [List.length_cons] at here
      rw [here] at next
      rcases bodyLine_cases line with rfl | rfl | closes | content
      · rw [readBody_blank]
        exact (@ih _ shorter rest p count behind next tame fresh' inElse rfl).pass inside levels
          here rfl rfl
      · rw [readBody_else]
        exact (@ih _ shorter rest p count behind next tame fresh' true rfl).pass inside levels
          here (by decide) (by decide)
      · rw [readBody_close _ _ _ _ closes]
        rw [levelBehind_close _ closes] at next
        exact ⟨isTameBody_close tame closes, isFirst_close closes here next fresh'⟩
      · rw [readBody_content _ _ _ _ content]
        cases opens : opensBlock line with
        | false =>
          rw [readAt_eq_of_single opens]
          rw [levelBehind_other _ content.goesOn opens] at next
          exact (@ih _ shorter rest (readSingle line p).2 count behind next
            (tame.of_blocks (readSingle_blocks line p)) (fresh'.single line) inElse rfl).single
              inside levels here content.goesOn opens inElse
        | true =>
          rw [levelBehind_opening _ opens] at next
          cases count with
          | zero =>
            obtain ⟨statement, taken, -, blocks⟩ := readAt_opening (readBlock 0) opens rest p
            rw [readBlock_zero_unknown unknown] at statement taken blocks
            rw [statement, taken]
            generalize (readAt (readBlock 0) line rest p).2.2 = q at blocks ⊢
            have body := @ih _ shorter rest q 0 behind next (tame.of_blocks blocks)
              (fresh'.of_blocks blocks) inElse rfl
            refine body.unread opens here ?_ inElse
            rw [block?_readBody, Progress.block?, blocks]
            exact unknown
          | succ count =>
            obtain ⟨inner, first⟩ := @ih _ shorter rest (p.note (conditionCutOffs line)) count
              behind next (tame.of_blocks rfl) fresh' false rfl
            obtain ⟨block, q, read, known, tame', first⟩ :=
              readAt_first opens inside levels unknown rfl inner first
            rw [read]
            cases block with
            | none => exact .failed opens inside levels here known tame' first inElse rfl
            | some c =>
              obtain ⟨stop, free⟩ := first.ended c.stop rfl
              have left := length_behindClosed inside tame' known
              dsimp only [statementAt]
              rw [readBody_skip]
              have body := @ih _ (length_drop_lt line rest (rest.length - c.stop)) _ q (count + 1)
                ((List.drop_suffix _ rest).trans behind) (by rw [left, stop]) tame'
                (by rw [left]; exact free) inElse rfl
              exact body.block opens inside here tame' first known
                (retains_readBody (count + 1) inElse _ q) inElse

end Levels

/-- Nothing is remembered of the lines, or all that matters is: some levels that are nowhere above a
    bound, so that no block nested deeper closes. -/
def IsBounded (bound : Nat) (lines : List Text) (p : Progress) : Prop :=
  p.Fresh lines.length ∨ ∃ whole level, lines <:+ whole ∧ AreLevels whole level ∧
    IsTame whole level p ∧ IsFull level 0 lines p ∧ ∀ k ≤ lines.length, level k ≤ bound

theorem IsBounded.of_suffix {bound : Nat} {lines behind : List Text} {p : Progress}
    (bounded : IsBounded bound lines p) (suffix : behind <:+ lines) : IsBounded bound behind p := by
  rcases bounded with fresh | ⟨whole, level, inside, levels, tame, full, within⟩
  · exact Or.inl (fresh.mono suffix.length_le)
  · exact Or.inr ⟨whole, level, suffix.trans inside, levels, tame, full.of_suffix suffix,
      fun k shorter => within k (Nat.le_trans shorter suffix.length_le)⟩

section Unit
variable {count : Nat} {line : Text} {rest : List Text} {p : Progress}

/-- What is read at a line is nested no deeper than there are levels. -/
structure ReadsWithin (bound : Nat) (rest : List Text) (found : Option Statement × Nat × Progress) :
    Prop where
  nesting : Statement.blockNestingOf found.1.toList ≤ bound
  bounded : IsBounded bound (rest.drop found.2.1) found.2.2

theorem readsWithin_single (plain : opensBlock line = false)
    (bounded : IsBounded (count + 1) (line :: rest) p) :
    ReadsWithin (count + 1) rest (readAt (readBlock (count + 1)) line rest p) := by
  rw [readAt_eq_of_single plain]
  refine ⟨by rw [blockNestingOf_ofLine?]; exact Nat.zero_le _, ?_⟩
  have blocks := readSingle_blocks line p
  rcases bounded.of_suffix (List.suffix_cons line rest) with
    fresh | ⟨whole, level, inside, levels, tame, full, within⟩
  · exact Or.inl (fresh.single line)
  · exact Or.inr ⟨whole, level, inside, levels, tame.of_blocks blocks,
      full.of_retains (.of_blocks blocks), within⟩

section Opening
variable (opens : opensBlock line = true)
include opens

theorem readsWithin_fresh (fresh : p.Fresh (line :: rest).length) :
    ReadsWithin (count + 1) rest (readAt (readBlock (count + 1)) line rest p) := by
  obtain ⟨level, start, levels⟩ := exists_levels (line :: rest) (count + 1)
  have inside : line :: rest <:+ line :: rest := List.suffix_refl _
  have behind : rest <:+ line :: rest := List.suffix_cons line rest
  have unknown : p.block? rest.length = none := fresh _ (Nat.lt_succ_self _)
  have here : level rest.length = count := by
    rw [List.length_cons] at start
    rw [levels line rest inside, levelBehind_opening _ opens, start]
    rfl
  have noted : (p.note (conditionCutOffs line)).Fresh (line :: rest).length := fresh
  obtain ⟨inner, first⟩ := readBody_first levels behind here (isTame_of_fresh noted)
    (noted.mono (Nat.le_succ _)) false
  obtain ⟨block, q, read, known, tame, first⟩ :=
    readAt_first opens inside levels unknown rfl inner first
  rw [read]
  cases block with
  | none =>
    refine ⟨by rw [statementAt, blockNestingOf_ofLine?]; exact Nat.zero_le _, Or.inr ?_⟩
    exact ⟨line :: rest, level, behind, levels, tame, first.full, fun k shorter =>
      Nat.le_succ_of_le (first.le shorter)⟩
  | some c =>
    obtain ⟨-, nesting, -⟩ := tame.closed line rest c inside known
    obtain ⟨stop, free⟩ := first.ended c.stop rfl
    refine ⟨?_, Or.inl ?_⟩
    · rw [statementAt, Option.toList_some, blockNestingOf_singleton, ← stop]
      exact nesting
    · rw [statementAt, length_behindClosed inside tame known]
      exact free

theorem readsWithin_settled {whole : List Text} {level : Place → Nat}
    (inside : line :: rest <:+ whole) (levels : AreLevels whole level) (tame : IsTame whole level p)
    (full : IsFull level 0 (line :: rest) p)
    (within : ∀ k ≤ (line :: rest).length, level k ≤ count + 1) :
    ReadsWithin (count + 1) rest (readAt (readBlock (count + 1)) line rest p) := by
  have behind : rest <:+ whole := (List.suffix_cons line rest).trans inside
  have full' : IsFull level 0 rest p := full.of_suffix (List.suffix_cons line rest)
  have noted : IsTame whole level (p.note (conditionCutOffs line)) := tame.of_blocks rfl
  have full'' : IsFull level 0 rest (p.note (conditionCutOffs line)) :=
    full'.of_retains (.of_blocks rfl)
  obtain ⟨meets, tame'⟩ := readAt_meets opens inside levels (count + 1) tame
    (fun _ none => absurd none (Nat.succ_ne_zero count))
    fun fewer _ _ => readBody_settled levels behind noted full'' fewer false
  have retains : Retains p (readAt (readBlock (count + 1)) line rest p).2.2 :=
    (readAt_proceeds (readBlock_proceeds (count + 1)) line rest p).retains
  generalize readAt (readBlock (count + 1)) line rest p = read at meets tame' retains ⊢
  have later : IsBounded (count + 1) rest read.2.2 :=
    Or.inr ⟨whole, level, behind, levels, tame', full'.of_retains retains,
      fun k shorter => within k (Nat.le_succ_of_le shorter)⟩
  refine ⟨?_, later.of_suffix (List.drop_suffix _ _)⟩
  cases meets with
  | @closed c q known =>
    obtain ⟨before, nesting, -⟩ := tame'.closed line rest c inside known
    rw [Option.toList_some, blockNestingOf_singleton]
    exact Nat.le_trans nesting (within c.stop (Nat.le_succ_of_le (Nat.le_of_lt before)))
  | failed => rw [blockNestingOf_ofLine?]; exact Nat.zero_le _
  | tooDeep => rw [blockNestingOf_ofLine?]; exact Nat.zero_le _

end Opening

theorem readAt_within (bounded : IsBounded (count + 1) (line :: rest) p) :
    ReadsWithin (count + 1) rest (readAt (readBlock (count + 1)) line rest p) := by
  cases opens : opensBlock line with
  | false => exact readsWithin_single opens bounded
  | true =>
    rcases bounded with fresh | ⟨whole, level, inside, levels, tame, full, within⟩
    · exact readsWithin_fresh opens fresh
    · exact readsWithin_settled opens inside levels tame full within

theorem readUnitLines_within (kind : PouKind) (place : UnitPlace) {lines : List Text} {p : Progress}
    (bounded : IsBounded (count + 1) lines p) :
    Statement.blockNestingOf
      (readUnitLines (readBlock (count + 1)) kind place 0 lines p).1.statements ≤ count + 1 := by
  induction size : lines.length using Nat.strongRecOn generalizing place lines p with
  | ind n ih =>
    cases lines with
    | nil => exact Nat.zero_le _
    | cons line rest =>
      subst size
      have behind := bounded.of_suffix (List.suffix_cons line rest)
      rcases frame_cases kind line place with ends | ⟨rfl, other⟩ | ⟨after, declared, frame⟩
      · rw [readUnitLines_terminator _ _ _ ends]
        exact Nat.zero_le _
      · rw [readUnitLines_statement _ _ other, readUnitLines_skip, blockNestingOf_append]
        obtain ⟨nesting, later⟩ := readAt_within bounded
        exact Nat.max_le.mpr ⟨nesting, ih _ (length_drop_lt line rest _) .body later rfl⟩
      · rw [frame.reads]
        exact ih rest.length (Nat.lt_succ_self _) after behind rfl

end Unit

theorem blockNesting_le_blockLimit {source : Text} {pou : Pou}
    (read : Pou.ofSource? source = some pou) {s : Statement} (mem : s ∈ pou.statements) :
    s.blockNesting ≤ blockLimit := by
  rw [Pou.ofSource?, Reading.ofSource, readLines] at read
  split at read
  · contradiction
  · next kind before header rest found =>
    obtain rfl := Option.some.inj read
    refine Nat.le_trans (blockNesting_le_of_mem mem) ?_
    exact readUnitLines_within kind .body (Or.inl (Progress.Fresh.start rest.length))

end StructuredText
