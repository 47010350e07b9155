import StructuredText.Proofs.Conditional.Tail
import StructuredText.Proofs.Pou.Forward

/- Lines from which no END_IF is ever reached, since every one of them lies in a block that is known
   to close.  No body that begins there ends, however many levels are left. -/
namespace StructuredText

section Known
variable {line : Text} {rest : List Text} {p : Progress}

theorem readBlock_known {block : Option Closed} (known : p.block? rest.length = some block)
    (levels : Nat) : readBlock levels line rest p = (block, p) := by
  cases levels <;> simp [readBlock, known]

theorem readBlock_zero_unknown (unknown : p.block? rest.length = none) :
    readBlock 0 line rest p = (none, { p with tooDeep := true }) := by
  simp [readBlock, unknown]

theorem readBlock_succ_unknown (unknown : p.block? rest.length = none) (levels : Nat) :
    readBlock (levels + 1) line rest p =
      ((readBody (readBlock levels) false 0 rest (p.note (conditionCutOffs line))).1.map
          (closedBlock line),
        (readBody (readBlock levels) false 0 rest (p.note (conditionCutOffs line))).2.remember
          rest.length ((readBody (readBlock levels) false 0 rest
            (p.note (conditionCutOffs line))).1.map (closedBlock line))) := by
  simp [readBlock, unknown]

end Known

section Unclosed
variable {p : Progress} {place : Place}

theorem not_closed_of_unknown (unknown : p.block? place = none) (closed : Closed) :
    p.block? place ≠ some (some closed) := by
  rw [unknown]
  exact (Option.some_ne_none _).symm

theorem not_closed_of_failed (failed : p.block? place = some none) (closed : Closed) :
    p.block? place ≠ some (some closed) := by
  rw [failed]
  intro same
  exact Option.some_ne_none closed (Option.some.inj same).symm

end Unclosed

def SameClosed (p q : Progress) : Prop :=
  ∀ place closed, p.block? place = some (some closed) ↔ q.block? place = some (some closed)

namespace SameClosed
variable {p q r : Progress}

theorem of_blocks (same : q.blocks = p.blocks) : SameClosed p q := by
  intro place closed
  rw [Progress.block?, Progress.block?, same]

theorem refl (p : Progress) : SameClosed p p := .of_blocks rfl

theorem trans (first : SameClosed p q) (second : SameClosed q r) : SameClosed p r :=
  fun place closed => (first place closed).trans (second place closed)

theorem remember (same : SameClosed p q) {place : Place} (unknown : p.block? place = none) :
    SameClosed p (q.remember place none) := by
  intro other closed
  by_cases here : other = place
  · subst here
    rw [unknown, Progress.block?_remember]
    exact ⟨nofun, nofun⟩
  · rw [Progress.block?_remember_of_ne here]
    exact same other closed

end SameClosed

/-- No line is an END_IF but those of blocks that are known to close. -/
inductive Endless (p : Progress) : List Text → Prop
  | nil : Endless p []
  | pass {line : Text} {rest : List Text} : closesBlock line = false →
      (opensBlock line = true → ∀ closed, p.block? rest.length ≠ some (some closed)) →
      Endless p rest → Endless p (line :: rest)
  | skip {line : Text} {rest : List Text} {closed : Closed} : opensBlock line = true →
      p.block? rest.length = some (some closed) →
      Endless p (rest.drop (rest.length - closed.stop)) → Endless p (line :: rest)

namespace Endless
variable {p q : Progress} {line : Text} {rest : List Text}

theorem congr (same : SameClosed p q) (endless : Endless p rest) : Endless q rest := by
  induction endless with
  | nil => exact .nil
  | pass stays unknown _ ih =>
    exact .pass stays (fun opens closed known => unknown opens closed ((same _ _).mpr known)) ih
  | skip opens known _ ih => exact .skip opens ((same _ _).mp known) ih

theorem single_iff (stays : closesBlock line = false) (single : opensBlock line = false) :
    Endless p (line :: rest) ↔ Endless p rest := by
  constructor
  · rintro (_ | ⟨-, -, behind⟩ | ⟨opens, -, -⟩)
    · exact behind
    · rw [single] at opens
      contradiction
  · intro behind
    refine .pass stays (fun opens => ?_) behind
    rw [single] at opens
    contradiction

theorem opening_iff (opens : opensBlock line = true)
    (unclosed : ∀ closed, p.block? rest.length ≠ some (some closed)) :
    Endless p (line :: rest) ↔ Endless p rest := by
  constructor
  · rintro (_ | ⟨-, -, behind⟩ | ⟨-, known, -⟩)
    · exact behind
    · exact absurd known (unclosed _)
  · exact .pass (content_of_opensBlock opens).goesOn fun _ => unclosed

theorem closed_iff (opens : opensBlock line = true) {closed : Closed}
    (known : p.block? rest.length = some (some closed)) :
    Endless p (line :: rest) ↔ Endless p (rest.drop (rest.length - closed.stop)) := by
  constructor
  · rintro (_ | ⟨-, unclosed, -⟩ | ⟨-, known', behind⟩)
    · exact absurd known (unclosed opens closed)
    · rw [known] at known'
      obtain rfl := Option.some.inj (Option.some.inj known')
      exact behind
  · exact .skip opens known

theorem not_close (closes : closesBlock line = true) : ¬ Endless p (line :: rest) := by
  rintro (_ | ⟨stays, -, -⟩ | ⟨opens, -, -⟩)
  · rw [closes] at stays
    contradiction
  · rw [(content_of_opensBlock opens).goesOn] at closes
    contradiction

/-- A block that closes is not met from lines without an end, for such lines would begin behind its
    first line too. -/
theorem remember {lines : List Text} (inside : line :: rest <:+ lines)
    (unknown : p.block? rest.length = none) (ends : ¬ Endless p rest) {more : List Text}
    (among : more <:+ lines) (endless : Endless p more) (block : Option Closed) :
    Endless (p.remember rest.length block) more := by
  induction endless with
  | nil => exact .nil
  | @pass line' rest' stays unclosed behind ih =>
    have differ : rest'.length ≠ rest.length := by
      intro same
      obtain ⟨rfl, rfl⟩ := List.cons.inj (suffix_unique among inside (by simp [same]))
      exact ends behind
    refine .pass stays ?_ (ih ((List.suffix_cons _ _).trans among))
    rwa [Progress.block?_remember_of_ne differ]
  | @skip line' rest' closed opens known _ ih =>
    have differ : rest'.length ≠ rest.length := by
      intro same
      rw [same, unknown] at known
      contradiction
    refine .skip opens (by rwa [Progress.block?_remember_of_ne differ]) (ih ?_)
    exact (List.drop_suffix _ _).trans ((List.suffix_cons _ _).trans among)

end Endless

/-- A line whose block is not known to close is read for itself, if none closes on the way through
    the lines behind it. -/
theorem readAt_unclosed {line : Text} {rest : List Text} {p : Progress}
    (unclosed : opensBlock line = true → ∀ closed, p.block? rest.length ≠ some (some closed))
    (levels : Nat)
    (body : ∀ fewer,
      (readBody (readBlock fewer) false 0 rest (p.note (conditionCutOffs line))).1 = none ∧
        SameClosed (p.note (conditionCutOffs line))
          (readBody (readBlock fewer) false 0 rest (p.note (conditionCutOffs line))).2) :
    (readAt (readBlock levels) line rest p).2.1 = 0 ∧
      SameClosed p (readAt (readBlock levels) line rest p).2.2 := by
  cases opens : opensBlock line with
  | false =>
    obtain ⟨-, taken, -, blocks⟩ := readAt_single (readBlock levels) opens rest p
    exact ⟨taken, .of_blocks blocks⟩
  | true =>
    obtain ⟨-, taken, -, blocks⟩ := readAt_opening (readBlock levels) opens rest p
    suffices met : (readBlock levels line rest p).1 = none ∧
        SameClosed p (readBlock levels line rest p).2 by
      rw [taken, met.1]
      exact ⟨rfl, met.2.trans (.of_blocks blocks)⟩
    cases known : p.block? rest.length with
    | some block =>
      rw [readBlock_known known]
      cases block with
      | none => exact ⟨rfl, .refl p⟩
      | some closed => exact absurd known (unclosed opens closed)
    | none =>
      cases levels with
      | zero =>
        rw [readBlock_zero_unknown known]
        exact ⟨rfl, .of_blocks rfl⟩
      | succ fewer =>
        have noted : SameClosed p (p.note (conditionCutOffs line)) := .of_blocks rfl
        obtain ⟨none, same⟩ := body fewer
        rw [readBlock_succ_unknown known, none]
        exact ⟨rfl, (noted.trans same).remember known⟩

/-- A body without an end is read to the last line, and no block is found on the way that was not
    known: the induction is on the lines, for any number of levels. -/
theorem Endless.readBody {rest : List Text} {p : Progress} (endless : Endless p rest)
    (levels : Nat) (inElse : Bool) :
    (StructuredText.readBody (readBlock levels) inElse 0 rest p).1 = none ∧
      SameClosed p (StructuredText.readBody (readBlock levels) inElse 0 rest p).2 := by
  induction size : rest.length using Nat.strongRecOn generalizing levels inElse rest p with
  | ind n ih =>
    subst size
    cases endless with
    | nil =>
      rw [StructuredText.readBody]
      exact ⟨rfl, .refl p⟩
    | @pass line rest stays unclosed behind =>
      have shorter : rest.length < (line :: rest).length := Nat.lt_succ_self _
      rcases bodyLine_cases line with rfl | rfl | closes | content
      · rw [readBody_blank]
        exact @ih _ shorter rest p behind levels inElse rfl
      · rw [readBody_else]
        exact @ih _ shorter rest p behind levels true rfl
      · rw [stays] at closes
        contradiction
      · have noted : SameClosed p (p.note (conditionCutOffs line)) := .of_blocks rfl
        obtain ⟨taken, same⟩ := readAt_unclosed unclosed levels fun fewer =>
          @ih _ shorter rest _ (behind.congr noted) fewer false rfl
        rw [readBody_content _ _ _ _ content, taken]
        obtain ⟨none, later⟩ := @ih _ shorter rest _ (behind.congr same) levels inElse rfl
        exact ⟨by rw [none, Option.map_none], same.trans later⟩
    | @skip line rest closed opens known behind =>
      obtain ⟨-, taken, -, blocks⟩ := readAt_opening (readBlock levels) opens rest p
      rw [readBlock_known known] at taken blocks
      have same : SameClosed p (readAt (readBlock levels) line rest p).2.2 := .of_blocks blocks
      rw [readBody_content _ _ _ _ (content_of_opensBlock opens), taken, readBody_skip]
      obtain ⟨none, later⟩ := @ih _ (length_drop_lt line rest _) _ _ (behind.congr same) levels
        inElse rfl
      exact ⟨by rw [statementAt, none, Option.map_none], same.trans later⟩

end StructuredText
