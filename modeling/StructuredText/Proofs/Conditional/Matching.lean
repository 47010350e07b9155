import StructuredText.Proofs.Conditional.BlockStack
import StructuredText.Proofs.Conditional.Rereading

/- Reading ahead, going back and remembering come to the same as the single pass of the stack: each
   END_IF closes the nearest open block, and a block that never closes is a line for itself. -/
namespace StructuredText
open BlockStack

def rereadBody (inElse : Bool) (lines : List Text) : Option (Branches × Place) :=
  (readBody reread inElse 0 lines Progress.start).1

def rereadBlock (line : Text) (rest : List Text) : Option Closed :=
  (reread line rest Progress.start).1

theorem rereadBlock_eq (line : Text) (rest : List Text) :
    rereadBlock line rest = (rereadBody false rest).map (closedBlock line) := by
  rw [rereadBlock, reread_eq, readBody_forgetful reread_forgetful _ _ _ _ Progress.start,
    rereadBody]

section Body
variable (inElse : Bool) (rest : List Text)

theorem rereadBody_nil : rereadBody inElse [] = none := by simp [rereadBody, readBody]

theorem rereadBody_blank : rereadBody inElse ([] :: rest) = rereadBody inElse rest := by
  rw [rereadBody, readBody_blank, rereadBody]

theorem rereadBody_else :
    rereadBody inElse ("ELSE".toList :: rest) = rereadBody true rest := by
  rw [rereadBody, readBody_else, rereadBody]

theorem rereadBody_close {line : Text} (closes : closesBlock line = true) :
    rereadBody inElse (line :: rest) = some (⟨[], []⟩, rest.length) := by
  rw [rereadBody, readBody_close _ _ _ _ closes]

def withStatement (inElse : Bool) (statement : Option Statement) (body : Branches × Place) :
    Branches × Place :=
  (body.1.add inElse statement, body.2)

theorem rereadBody_single {line : Text} (content : IsContent line)
    (single : opensBlock line = false) :
    rereadBody inElse (line :: rest) =
      (rereadBody inElse rest).map (withStatement inElse (Statement.ofLine? line)) := by
  obtain ⟨statement, taken, -⟩ := readAt_single reread single rest Progress.start
  rw [rereadBody, readBody_content _ _ _ _ content, statement, taken,
    readBody_forgetful reread_forgetful _ _ _ _ Progress.start]
  rfl

theorem rereadBody_opening {line : Text} (opens : opensBlock line = true) :
    rereadBody inElse (line :: rest) =
      (rereadBody inElse (rest.drop (statementAt line rest (rereadBlock line rest)).2)).map
        (withStatement inElse (statementAt line rest (rereadBlock line rest)).1) := by
  obtain ⟨statement, taken, -⟩ := readAt_opening reread opens rest Progress.start
  rw [rereadBody, readBody_content _ _ _ _ (content_of_opensBlock opens), statement, taken,
    readBody_skip,
    readBody_forgetful reread_forgetful _ _ _ _ Progress.start]
  rfl

end Body

theorem length_drop_lt (line : Text) (rest : List Text) (n : Nat) :
    (rest.drop n).length < (line :: rest).length := by
  rw [List.length_drop, List.length_cons]
  omega

theorem length_behind_lt (line : Text) (used behind : List Text) :
    behind.length < (line :: (used ++ behind)).length := by
  rw [List.length_cons, List.length_append]
  omega

theorem rereadBody_isSome (a b : Bool) (lines : List Text) :
    (rereadBody a lines).isSome = (rereadBody b lines).isSome := by
  induction size : lines.length using Nat.strongRecOn generalizing lines a b with
  | ind n ih =>
    cases lines with
    | nil => rw [rereadBody_nil, rereadBody_nil]
    | cons line rest =>
      subst size
      have next (a b : Bool) (k : Nat) :
          (rereadBody a (rest.drop k)).isSome = (rereadBody b (rest.drop k)).isSome :=
        ih _ (length_drop_lt line rest k) a b _ rfl
      rcases bodyLine_cases line with rfl | rfl | closes | content
      · rw [rereadBody_blank, rereadBody_blank]
        exact next a b 0
      · rw [rereadBody_else, rereadBody_else]
      · rw [rereadBody_close _ _ closes, rereadBody_close _ _ closes]
      · cases opens : opensBlock line with
        | true =>
          rw [rereadBody_opening _ _ opens, rereadBody_opening _ _ opens,
            Option.isSome_map, Option.isSome_map]
          exact next a b _
        | false =>
          rw [rereadBody_single _ _ content opens, rereadBody_single _ _ content opens,
            Option.isSome_map, Option.isSome_map]
          exact next a b 0

def CloseFree (lines : List Text) : Prop := ∀ line ∈ lines, closesBlock line = false

theorem rereadBody_closeFree {lines : List Text} (free : CloseFree lines) (inElse : Bool) :
    rereadBody inElse lines = none := by
  induction size : lines.length using Nat.strongRecOn generalizing lines inElse with
  | ind n ih =>
    cases lines with
    | nil => exact rereadBody_nil inElse
    | cons line rest =>
      subst size
      have next : ∀ b k, rereadBody b (rest.drop k) = none := fun b k =>
        ih _ (length_drop_lt line rest k)
          (fun l mem => free l (List.mem_cons_of_mem _ (List.mem_of_mem_drop mem))) b rfl
      rcases bodyLine_cases line with rfl | rfl | closes | content
      · rw [rereadBody_blank]
        exact next inElse 0
      · rw [rereadBody_else]
        exact next true 0
      · rw [free line (by simp)] at closes
        contradiction
      · cases opens : opensBlock line with
        | true => rw [rereadBody_opening _ _ opens, next, Option.map_none]
        | false =>
          rw [rereadBody_single _ _ content opens, ← List.drop_zero (l := rest), next,
            Option.map_none]

/-- Wherever a body closes that begins with `lines` and goes on with `tail`, the stack closes its
    innermost block at the same place and with the same branches. -/
def Matches (tail lines : List Text) : Prop :=
  ∀ inElse branches stop, rereadBody inElse (lines ++ tail) = some (branches, stop) →
    ∃ used behind, lines = used ++ behind ∧ stop = (behind ++ tail).length ∧
      ∀ outside b outer, b.elseBranch.isSome = inElse →
        used.foldl step ⟨outside, b :: outer⟩ = put ⟨outside, outer⟩ [b.closedWith branches]

/-- A line that opens a block either begins lines that the stack takes for one statement, or its
    block never closes. -/
theorem rereadBlock_cases {tail rest : List Text} (matched : Matches tail rest) {line : Text}
    (opens : opensBlock line = true) :
    (∃ closed used behind, rereadBlock line (rest ++ tail) = some closed ∧ rest = used ++ behind ∧
        closed.stop = (behind ++ tail).length ∧
        ∀ s : BlockStack, (line :: used).foldl step s = s.put [closed.statement]) ∨
      (rereadBlock line (rest ++ tail) = none ∧ rereadBody false (rest ++ tail) = none) := by
  rw [rereadBlock_eq]
  cases body : rereadBody false (rest ++ tail) with
  | none => exact Or.inr ⟨rfl, rfl⟩
  | some body' =>
    obtain ⟨branches, stop⟩ := body'
    obtain ⟨used, behind, split, place, closes⟩ := matched false branches stop body
    refine Or.inl ⟨closedBlock line (branches, stop), used, behind, rfl, split, place, ?_⟩
    intro s
    rw [List.foldl_cons, step_opening s opens, push, closes _ _ _ rfl]
    rfl

theorem drop_used (used behind tail : List Text) {n : Nat} (place : n = (behind ++ tail).length) :
    (used ++ behind ++ tail).drop ((used ++ behind ++ tail).length - n) = behind ++ tail := by
  subst place
  rw [List.append_assoc, List.length_append, Nat.add_sub_cancel, List.drop_left]

theorem matches_of_closeFree {tail : List Text} (free : CloseFree tail) (lines : List Text) :
    Matches tail lines := by
  induction size : lines.length using Nat.strongRecOn generalizing lines with
  | ind n ih =>
    intro inElse branches stop body
    cases lines with
    | nil =>
      rw [List.nil_append, rereadBody_closeFree free] at body
      contradiction
    | cons line rest =>
      subst size
      have matched : Matches tail rest := ih rest.length (by simp) rest rfl
      rw [List.cons_append] at body
      rcases bodyLine_cases line with rfl | rfl | closes | content
      · rw [rereadBody_blank] at body
        obtain ⟨used, behind, rfl, place, closes⟩ := matched inElse branches stop body
        refine ⟨[] :: used, behind, rfl, place, ?_⟩
        intro outside b outer side
        rw [List.foldl_cons, step_blank, closes outside b outer side]
      · rw [rereadBody_else] at body
        obtain ⟨used, behind, rfl, place, closes⟩ := matched true branches stop body
        refine ⟨"ELSE".toList :: used, behind, rfl, place, ?_⟩
        intro outside b outer _
        rw [List.foldl_cons, step_else, turn, closes outside b.turn outer rfl,
          OpenBlock.closedWith_turn]
      · rw [rereadBody_close _ _ closes] at body
        obtain ⟨rfl, rfl⟩ := Prod.mk.inj (Option.some.inj body)
        refine ⟨[line], rest, rfl, rfl, ?_⟩
        intro outside b outer _
        rw [List.foldl_cons, step_close _ closes]
        rfl
      · cases opens : opensBlock line with
        | false =>
          rw [rereadBody_single _ _ content opens] at body
          obtain ⟨⟨inner, stop'⟩, body', eq⟩ := Option.map_eq_some_iff.mp body
          obtain ⟨rfl, rfl⟩ := Prod.mk.inj eq
          obtain ⟨used, behind, rfl, place, closes⟩ := matched inElse inner _ body'
          refine ⟨line :: used, behind, rfl, place, ?_⟩
          intro outside b outer side
          rw [List.foldl_cons, step_single _ content opens, put,
            closes outside _ outer (by rw [OpenBlock.isSome_put, side]),
            OpenBlock.closedWith_put, side]
        | true =>
          rw [rereadBody_opening _ _ opens] at body
          rcases rereadBlock_cases matched opens with
            ⟨closed, used, behind, found, rfl, place, taken⟩ | ⟨missing, never⟩
          · simp only [found, statementAt, drop_used used behind tail place] at body
            obtain ⟨⟨inner, stop'⟩, body', eq⟩ := Option.map_eq_some_iff.mp body
            obtain ⟨rfl, rfl⟩ := Prod.mk.inj eq
            obtain ⟨used', behind', rfl, place', closes⟩ :=
              ih _ (length_behind_lt line used behind) behind rfl inElse inner _ body'
            refine ⟨line :: used ++ used', behind', by simp, place', ?_⟩
            intro outside b outer side
            rw [List.foldl_append, taken, put,
              closes outside _ outer (by rw [OpenBlock.isSome_put, side])]
            have one := OpenBlock.closedWith_put b inner (some closed.statement)
            rw [Option.toList_some, side] at one
            rw [one]
          -- An inner block that never closes leaves none of its lines to close the outer one.
          · have shut := rereadBody_isSome inElse false (rest ++ tail)
            simp only [missing, statementAt, List.drop_zero] at body
            rw [never, Option.isSome_none, Option.isSome_eq_false_iff, Option.isNone_iff_eq_none]
              at shut
            rw [shut] at body
            contradiction

theorem run_cons (line : Text) (rest : List Text) :
    run (line :: rest) = rest.foldl step (empty.step line) := rfl

theorem statements_foldl_of_open {tail : List Text} (free : CloseFree tail) {lines : List Text}
    {inElse : Bool} (never : rereadBody inElse (lines ++ tail) = none) {s : BlockStack}
    (inside : s.opened ≠ []) :
    (lines.foldl step s).statements = s.statements ++ (run lines).statements := by
  induction size : lines.length using Nat.strongRecOn generalizing lines inElse s with
  | ind n ih =>
    cases lines with
    | nil => simp [run, empty, statements]
    | cons line rest =>
      subst size
      rw [List.cons_append] at never
      have kept : ∀ more, (s.put more).opened ≠ [] := fun more none =>
        inside (List.length_eq_zero_iff.mp (by rw [← length_put s more, none, List.length_nil]))
      rw [List.foldl_cons, run_cons]
      rcases bodyLine_cases line with rfl | rfl | closes | content
      · rw [rereadBody_blank] at never
        rw [step_blank, step_blank, ih rest.length (by simp) never inside rfl, run]
      · rw [rereadBody_else] at never
        have turned : s.turn.opened ≠ [] := fun none =>
          inside (List.length_eq_zero_iff.mp (by rw [← length_turn s, none, List.length_nil]))
        rw [step_else, step_else, ih rest.length (by simp) never turned rfl, statements_turn]
        rfl
      · rw [rereadBody_close _ _ closes] at never
        contradiction
      · cases opens : opensBlock line with
        | false =>
          rw [rereadBody_single _ _ content opens, Option.map_eq_none_iff] at never
          rw [step_single _ content opens, step_single _ content opens,
            ih rest.length (by simp) never (kept _) rfl, statements_foldl_put, statements_put,
            List.append_assoc]
        | true =>
          rw [rereadBody_opening _ _ opens, Option.map_eq_none_iff] at never
          rcases rereadBlock_cases (matches_of_closeFree free rest) opens with
            ⟨closed, used, behind, found, rfl, place, taken⟩ | ⟨missing, open_⟩
          · simp only [found, statementAt, drop_used used behind tail place] at never
            rw [← List.foldl_cons, ← List.foldl_cons, ← List.cons_append, List.foldl_append,
              List.foldl_append, taken, taken,
              ih _ (length_behind_lt line used behind) never (kept _) rfl, statements_foldl_put,
              statements_put, List.append_assoc]
          · rw [step_opening _ opens, step_opening _ opens,
              ih rest.length (by simp) open_ (by simp [push]) rfl,
              ih rest.length (by simp) open_ (by simp [push]) rfl, statements_push, statements_push,
              List.append_assoc]
            simp [empty, statements]

/-- A line of a unit that is neither a terminator, END_IF apart, nor one of a section. -/
def IsCode (kind : PouKind) (line : Text) : Prop :=
  UnitLine.of kind line = .empty ∨ UnitLine.of kind line = .other ∨ closesBlock line = true

def EndsUnit (kind : PouKind) (lines : List Text) : Prop :=
  lines = [] ∨ ∃ line rest, lines = line :: rest ∧ UnitLine.of kind line = .terminator

theorem unitLine_of_closesBlock (kind : PouKind) {line : Text} (closes : closesBlock line = true) :
    UnitLine.of kind line = .strayTerminator := by
  rcases eq_of_closesBlock closes with rfl | rfl <;> cases kind <;> rfl

theorem eq_nil_of_unitLine_empty {kind : PouKind} {line : Text}
    (empty : UnitLine.of kind line = .empty) : line = [] := by
  rw [UnitLine.of] at empty
  split at empty
  · next blank => exact List.isEmpty_iff.mp blank
  · repeat' split at empty
    all_goals contradiction

theorem unitLine_nil (kind : PouKind) : UnitLine.of kind [] = .empty := rfl

theorem unitLine_of_content {kind : PouKind} {line : Text} (code : IsCode kind line)
    (content : IsContent line) : UnitLine.of kind line = .other := by
  rcases code with empty | other | closes
  · have nonempty := content.nonempty
    rw [eq_nil_of_unitLine_empty empty] at nonempty
    contradiction
  · exact other
  · rw [content.goesOn] at closes
    contradiction

theorem readUnitLines_end {block : BlockReader} {kind : PouKind} {tail : List Text}
    (ends : EndsUnit kind tail) (place : UnitPlace) (p : Progress) :
    readUnitLines block kind place 0 tail p = (⟨[], []⟩, p) := by
  rcases ends with rfl | ⟨line, rest, rfl, terminator⟩
  · simp [readUnitLines]
  · exact readUnitLines_terminator _ _ _ terminator

def rereadUnit (kind : PouKind) (lines : List Text) : UnitContent :=
  (readUnitLines reread kind .body 0 lines Progress.start).1

section Unit
variable {kind : PouKind} (rest : List Text)

theorem rereadUnit_blank : rereadUnit kind ([] :: rest) = rereadUnit kind rest := by
  rw [rereadUnit, readUnitLines_empty _ _ _ (unitLine_nil kind), rereadUnit]

theorem rereadUnit_close {line : Text} (closes : closesBlock line = true) :
    rereadUnit kind (line :: rest) = rereadUnit kind rest := by
  rw [rereadUnit, readUnitLines_stray _ _ (unitLine_of_closesBlock kind closes), rereadUnit]

theorem rereadUnit_single {line : Text} (other : UnitLine.of kind line = .other)
    (single : opensBlock line = false) :
    rereadUnit kind (line :: rest) =
      ⟨(rereadUnit kind rest).declared,
        (Statement.ofLine? line).toList ++ (rereadUnit kind rest).statements⟩ := by
  obtain ⟨statement, taken, -⟩ := readAt_single reread single rest Progress.start
  rw [rereadUnit, readUnitLines_statement _ _ other, statement, taken,
    readUnitLines_forgetful reread_forgetful _ _ _ _ Progress.start]
  rfl

theorem rereadUnit_opening {line : Text} (other : UnitLine.of kind line = .other)
    (opens : opensBlock line = true) :
    rereadUnit kind (line :: rest) =
      ⟨(rereadUnit kind
          (rest.drop (statementAt line rest (rereadBlock line rest)).2)).declared,
        (statementAt line rest (rereadBlock line rest)).1.toList ++
          (rereadUnit kind
            (rest.drop (statementAt line rest (rereadBlock line rest)).2)).statements⟩ := by
  obtain ⟨statement, taken, -⟩ := readAt_opening reread opens rest Progress.start
  rw [rereadUnit, readUnitLines_statement _ _ other, statement, taken, readUnitLines_skip,
    readUnitLines_forgetful reread_forgetful _ _ _ _ Progress.start]
  rfl

theorem rereadUnit_end {tail : List Text} (ends : EndsUnit kind tail) :
    rereadUnit kind tail = ⟨[], []⟩ := by
  rw [rereadUnit, readUnitLines_end ends]

end Unit

theorem rereadUnit_code {kind : PouKind} {tail : List Text} (free : CloseFree tail)
    (ends : EndsUnit kind tail) {lines : List Text} (code : ∀ line ∈ lines, IsCode kind line) :
    rereadUnit kind (lines ++ tail) = ⟨[], (run lines).statements⟩ := by
  induction size : lines.length using Nat.strongRecOn generalizing lines with
  | ind n ih =>
    cases lines with
    | nil => rw [List.nil_append, rereadUnit_end ends]; rfl
    | cons line rest =>
      subst size
      have inside : ∀ l ∈ rest, IsCode kind l := fun l mem => code l (by simp [mem])
      have next := ih rest.length (by simp) inside rfl
      rw [List.cons_append, run_cons]
      rcases bodyLine_cases line with rfl | rfl | closes | content
      · rw [rereadUnit_blank, next, step_blank, run]
      · have other : UnitLine.of kind "ELSE".toList = .other := by cases kind <;> rfl
        rw [rereadUnit_single _ other rfl, next, step_else]
        rfl
      · rw [rereadUnit_close _ closes, next, step_close _ closes]
        rfl
      · have other := unitLine_of_content (code line (by simp)) content
        cases opens : opensBlock line with
        | false =>
          rw [rereadUnit_single _ other opens, next, step_single _ content opens,
            statements_foldl_put]
        | true =>
          rw [rereadUnit_opening _ other opens]
          rcases rereadBlock_cases (matches_of_closeFree free rest) opens with
            ⟨closed, used, behind, found, rfl, place, taken⟩ | ⟨missing, never⟩
          · have further := ih _ (length_behind_lt line used behind)
              (fun l mem => inside l (by simp [mem])) rfl
            simp only [found, statementAt, drop_used used behind tail place, further]
            rw [← List.foldl_cons, ← List.cons_append, List.foldl_append, taken,
              statements_foldl_put, Option.toList_some]
          · simp only [missing, statementAt, List.drop_zero, next]
            rw [step_opening _ opens,
              statements_foldl_of_open free never (by simp [push]), statements_push]
            rfl

/-- From `s` on, no more blocks than `limit` are open behind any of the lines. -/
def StaysWithin (limit : Nat) (s : BlockStack) (lines : List Text) : Prop :=
  ∀ used, used <+: lines → (used.foldl step s).opened.length ≤ limit

section Within
variable {limit : Nat} {s : BlockStack}

theorem StaysWithin.behind (used : List Text) {behind : List Text}
    (within : StaysWithin limit s (used ++ behind)) :
    StaysWithin limit (used.foldl step s) behind := by
  intro more start
  rw [← List.foldl_append]
  exact within (used ++ more) ((List.prefix_append_right_inj used).mpr start)

theorem StaysWithin.tail {line : Text} {rest : List Text}
    (within : StaysWithin limit s (line :: rest)) : StaysWithin limit (s.step line) rest :=
  StaysWithin.behind [line] within

theorem StaysWithin.append {first second : List Text} (left : StaysWithin limit s first)
    (right : StaysWithin limit (first.foldl step s) second) :
    StaysWithin limit s (first ++ second) := by
  intro used start
  rcases List.prefix_or_prefix_of_prefix start (List.prefix_append first second) with inner | beyond
  · exact left used inner
  · obtain ⟨more, rfl⟩ := beyond
    rw [List.foldl_append]
    exact right more ((List.prefix_append_right_inj first).mp start)

theorem StaysWithin.cons {line : Text} {rest : List Text} (here : s.opened.length ≤ limit)
    (later : StaysWithin limit (s.step line) rest) : StaysWithin limit s (line :: rest) := by
  intro used start
  cases used with
  | nil => exact here
  | cons first used =>
    obtain ⟨rfl, inner⟩ := List.cons_prefix_cons.mp start
    exact later used inner

theorem StaysWithin.nil (here : s.opened.length ≤ limit) : StaysWithin limit s [] := by
  intro used start
  rw [List.prefix_nil.mp start]
  exact here

end Within

theorem readBlock_fine {levels : Nat} {line : Text} {rest : List Text} {p : Progress}
    (room : 0 < levels) (fine : p.tooDeep = false)
    (body : ∀ inner q, levels = inner + 1 → q.tooDeep = false → q.blocks = p.blocks →
      (readBody (readBlock inner) false 0 rest q).2.tooDeep = false) :
    (readBlock levels line rest p).2.tooDeep = false := by
  cases levels with
  | zero => contradiction
  | succ inner =>
    simp only [readBlock]
    split
    · exact fine
    · exact body inner _ rfl fine rfl

theorem readAt_opening_fine {whole : List Text} {levels : Nat} {line : Text} {rest : List Text}
    {p : Progress} (opens : opensBlock line = true) (inside : line :: rest <:+ whole)
    (faithful : Faithful whole p) (fine : (readBlock levels line rest p).2.tooDeep = false) :
    (readAt (readBlock levels) line rest p).2.1 =
        (statementAt line rest (rereadBlock line rest)).2 ∧
      (readAt (readBlock levels) line rest p).2.2.tooDeep = false ∧
      Faithful whole (readAt (readBlock levels) line rest p).2.2 := by
  obtain ⟨-, taken, deep, blocks⟩ := readAt_opening (readBlock levels) opens rest p
  obtain ⟨same, kept⟩ := readBlock_agrees whole levels line rest p inside faithful fine
  exact ⟨by rw [taken, same, rereadBlock], by rw [deep, fine], kept.of_blocks blocks⟩

theorem readBody_fine_of_single {block : BlockReader} {lines : List Text}
    (single : ∀ line ∈ lines, opensBlock line = false) {inElse : Bool} {p : Progress}
    (fine : p.tooDeep = false) : (readBody block inElse 0 lines p).2.tooDeep = false := by
  induction lines generalizing inElse p with
  | nil => simpa [readBody] using fine
  | cons line rest ih =>
    have next : ∀ l ∈ rest, opensBlock l = false := fun l mem => single l (by simp [mem])
    rcases bodyLine_cases line with rfl | rfl | closes | content
    · rw [readBody_blank]
      exact ih next fine
    · rw [readBody_else]
      exact ih next fine
    · rw [readBody_close _ _ _ _ closes]
      exact fine
    · obtain ⟨-, taken, deep, -⟩ := readAt_single block (single line (by simp)) rest p
      rw [readBody_content _ _ _ _ content, taken]
      exact ih next (by rw [deep, fine])

/-- Where the reading goes on behind an opening line: at the same lines as the stack, which has no
    fewer blocks open there than before. -/
structure GoesOn (whole tail rest : List Text) (s : BlockStack)
    (at_ : Option Statement × Nat × Progress) : Prop where
  resumes : ∃ used behind s', rest = used ++ behind ∧
    (rest ++ tail).drop at_.2.1 = behind ++ tail ∧ StaysWithin blockLimit s' behind ∧
    s.opened.length ≤ s'.opened.length
  fine : at_.2.2.tooDeep = false
  faithful : Faithful whole at_.2.2

theorem goesOn_opening {whole tail : List Text} (free : CloseFree tail) {line : Text}
    {rest : List Text} (opens : opensBlock line = true)
    (inside : line :: (rest ++ tail) <:+ whole) {s : BlockStack}
    (shallow : StaysWithin blockLimit s (line :: rest)) {levels : Nat} {p : Progress}
    (faithful : Faithful whole p)
    (fine : (readBlock levels line (rest ++ tail) p).2.tooDeep = false) :
    GoesOn whole tail rest s (readAt (readBlock levels) line (rest ++ tail) p) := by
  obtain ⟨taken, fine', kept⟩ := readAt_opening_fine opens inside faithful fine
  refine ⟨?_, fine', kept⟩
  rw [taken]
  rcases rereadBlock_cases (matches_of_closeFree free rest) opens with
    ⟨closed, used, behind, found, rfl, place, moved⟩ | ⟨missing, never⟩
  · refine ⟨used, behind, s.put [closed.statement], rfl, ?_, ?_, by rw [length_put]⟩
    · simp only [found, statementAt, drop_used used behind tail place]
    · rw [← moved s]
      exact StaysWithin.behind (line :: used) shallow
  · refine ⟨[], rest, s.push line, rfl, ?_, ?_, by simp [push]⟩
    · simp only [missing, statementAt, List.drop_zero]
    · rw [← step_opening s opens]
      exact shallow.tail

section Fine
variable {whole tail : List Text} (free : CloseFree tail)
  (single : ∀ line ∈ tail, opensBlock line = false)

include free single in
/-- The stack has at least as many blocks open as the reader is inside of, so while the stack stays
    shallow the reader has levels left. -/
theorem readBody_fine {lines : List Text} (inside : lines ++ tail <:+ whole) {s : BlockStack}
    (shallow : StaysWithin blockLimit s lines) {levels : Nat}
    (room : blockLimit ≤ levels + s.opened.length) {inElse : Bool} {p : Progress}
    (fine : p.tooDeep = false) (faithful : Faithful whole p) :
    (readBody (readBlock levels) inElse 0 (lines ++ tail) p).2.tooDeep = false := by
  induction size : lines.length using Nat.strongRecOn generalizing lines s levels inElse p with
  | ind n ih =>
    cases lines with
    | nil => exact readBody_fine_of_single single fine
    | cons line rest =>
      subst size
      rw [List.cons_append] at inside ⊢
      have behind : rest ++ tail <:+ whole := (List.suffix_cons line _).trans inside
      have next := shallow.tail
      rcases bodyLine_cases line with rfl | rfl | closes | content
      · rw [readBody_blank]
        rw [step_blank] at next
        exact ih rest.length (by simp) behind next room fine faithful rfl
      · rw [readBody_else]
        rw [step_else] at next
        exact ih rest.length (by simp) behind next (by rw [length_turn]; exact room) fine faithful
          rfl
      · rw [readBody_close _ _ _ _ closes]
        exact fine
      · rw [readBody_content _ _ _ _ content]
        cases opens : opensBlock line with
        | false =>
          obtain ⟨-, taken, deep, blocks⟩ :=
            readAt_single (readBlock levels) opens (rest ++ tail) p
          rw [step_single _ content opens] at next
          rw [taken]
          exact ih rest.length (by simp) behind next (by rw [length_put]; exact room)
            (by rw [deep, fine]) (faithful.of_blocks blocks) rfl
        | true =>
          rw [step_opening _ opens] at next
          have pushed : (s.push line).opened.length ≤ blockLimit := next [] List.nil_prefix
          have deeper : (s.push line).opened.length = s.opened.length + 1 := rfl
          have here : (readBlock levels line (rest ++ tail) p).2.tooDeep = false := by
            apply readBlock_fine (by omega) fine
            intro inner q eq fine' blocks
            exact ih rest.length (by simp) behind next (by omega) fine'
              (faithful.of_blocks blocks) rfl
          obtain ⟨⟨used, after, s', rfl, resumed, shallow', more⟩, fine', kept⟩ :=
            goesOn_opening free opens inside shallow faithful here
          rw [readBody_skip, resumed]
          rw [List.append_assoc] at behind
          exact ih _ (length_behind_lt line used after) ((List.suffix_append used _).trans behind)
            shallow' (by omega) fine' kept rfl

include free single in
theorem readUnitLines_fine {kind : PouKind} (ends : EndsUnit kind tail) {lines : List Text}
    (code : ∀ line ∈ lines, IsCode kind line) (inside : lines ++ tail <:+ whole) {s : BlockStack}
    (shallow : StaysWithin blockLimit s lines) {p : Progress} (fine : p.tooDeep = false)
    (faithful : Faithful whole p) :
    (readUnitLines (readBlock blockLimit) kind .body 0 (lines ++ tail) p).2.tooDeep = false := by
  induction size : lines.length using Nat.strongRecOn generalizing lines s p with
  | ind n ih =>
    cases lines with
    | nil => rw [List.nil_append, readUnitLines_end ends]; exact fine
    | cons line rest =>
      subst size
      rw [List.cons_append] at inside ⊢
      have behind : rest ++ tail <:+ whole := (List.suffix_cons line _).trans inside
      have next := shallow.tail
      have code' : ∀ l ∈ rest, IsCode kind l := fun l mem => code l (by simp [mem])
      rcases code line (by simp) with empty | other | closes
      · rw [readUnitLines_empty _ _ _ empty]
        exact ih rest.length (by simp) code' behind next fine faithful rfl
      · rw [readUnitLines_statement _ _ other]
        cases opens : opensBlock line with
        | false =>
          obtain ⟨-, taken, deep, blocks⟩ :=
            readAt_single (readBlock blockLimit) opens (rest ++ tail) p
          rw [taken]
          exact ih rest.length (by simp) code' behind next (by rw [deep, fine])
            (faithful.of_blocks blocks) rfl
        | true =>
          have here : (readBlock blockLimit line (rest ++ tail) p).2.tooDeep = false := by
            apply readBlock_fine (by decide) fine
            intro inner q eq fine' blocks
            rw [step_opening _ opens] at next
            have deeper : (s.push line).opened.length = s.opened.length + 1 := rfl
            exact readBody_fine free single behind next (by omega) fine' (faithful.of_blocks blocks)
          obtain ⟨⟨used, after, s', rfl, resumed, shallow', -⟩, fine', kept⟩ :=
            goesOn_opening free opens inside shallow faithful here
          rw [readUnitLines_skip, resumed]
          rw [List.append_assoc] at behind
          exact ih _ (length_behind_lt line used after) (fun l mem => code' l (by simp [mem]))
            ((List.suffix_append used _).trans behind) shallow' fine' kept rfl
      · rw [readUnitLines_stray _ _ (unitLine_of_closesBlock kind closes)]
        exact ih rest.length (by simp) code' behind next fine faithful rfl

include free single in
/-- Where nothing lies too deep, the statements of a unit's code are those of the single pass,
    whatever has been read before. -/
theorem readUnitLines_code {kind : PouKind} (ends : EndsUnit kind tail) {lines : List Text}
    (code : ∀ line ∈ lines, IsCode kind line) (inside : lines ++ tail <:+ whole) {s : BlockStack}
    (shallow : StaysWithin blockLimit s lines) {p : Progress} (fine : p.tooDeep = false)
    (faithful : Faithful whole p) :
    (readUnitLines (readBlock blockLimit) kind .body 0 (lines ++ tail) p).1 =
      ⟨[], (run lines).statements⟩ := by
  have fine := readUnitLines_fine free single ends code inside shallow fine faithful
  rw [readUnitLines_agrees (readBlock_agrees whole blockLimit) (readBlock_proceeds blockLimit) inside
    faithful fine]
  exact rereadUnit_code free ends code

end Fine

end StructuredText
