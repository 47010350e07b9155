import StructuredText.Proofs.Conditional.Matching

/- Which blocks are open behind a line, and how many.  Whether a block closes, and where, depends on
   this number alone. -/
namespace StructuredText
open BlockStack

def depthAfter (depth : Nat) (line : Text) : Nat :=
  if closesBlock line then depth - 1 else if opensBlock line then depth + 1 else depth

def behindClose? : (depth : Nat) → List Text → Option (List Text)
  | _, [] => none
  | depth, line :: rest =>
    if depthAfter depth line = 0 then some rest else behindClose? (depthAfter depth line) rest

section Line
variable {line : Text} (depth : Nat)

theorem depthAfter_close (closes : closesBlock line = true) : depthAfter depth line = depth - 1 := by
  rw [depthAfter, if_pos closes]

theorem depthAfter_opening (opens : opensBlock line = true) :
    depthAfter depth line = depth + 1 := by
  have content := content_of_opensBlock opens
  rw [depthAfter, if_neg (by simp [content.goesOn]), if_pos opens]

theorem depthAfter_other (stays : closesBlock line = false) (single : opensBlock line = false) :
    depthAfter depth line = depth := by
  rw [depthAfter, if_neg (by simp [stays]), if_neg (by simp [single])]

end Line

theorem depthAfter_mono {m n : Nat} (le : m ≤ n) (line : Text) :
    depthAfter m line ≤ depthAfter n line := by
  unfold depthAfter
  split
  · omega
  · split <;> omega

theorem depthAfter_add {m : Nat} (inside : 0 < m) (n : Nat) (line : Text) :
    depthAfter (m + n) line = depthAfter m line + n := by
  unfold depthAfter
  split
  · omega
  · split <;> omega

/-- What a line makes of the first lines of the open blocks, the innermost first. -/
def openLinesAfter (openLines : List Text) (line : Text) : List Text :=
  if closesBlock line then openLines.tail
  else if opensBlock line then line :: openLines else openLines

theorem length_openLinesAfter (openLines : List Text) (line : Text) :
    (openLinesAfter openLines line).length = depthAfter openLines.length line := by
  unfold openLinesAfter depthAfter
  split
  · exact List.length_tail
  · split <;> rfl

def BlockStack.openLines (s : BlockStack) : List Text := s.opened.map (·.line)

section Lines
variable (s : BlockStack)

theorem openLines_put (more : List Statement) : (s.put more).openLines = s.openLines := by
  obtain ⟨outside, opened⟩ := s
  cases opened with
  | nil => rfl
  | cons b outer =>
    obtain ⟨line, thenBranch, elseBranch⟩ := b
    cases elseBranch <;> rfl

theorem openLines_turn : s.turn.openLines = s.openLines := by
  obtain ⟨outside, opened⟩ := s
  cases opened <;> rfl

theorem openLines_close : s.close.openLines = s.openLines.tail := by
  obtain ⟨outside, opened⟩ := s
  cases opened with
  | nil => rfl
  | cons b outer => exact openLines_put ⟨outside, outer⟩ [b.closed]

theorem openLines_step (line : Text) :
    (s.step line).openLines = openLinesAfter s.openLines line := by
  unfold openLinesAfter
  rcases bodyLine_cases line with rfl | rfl | closes | content
  · rw [step_blank]
    rfl
  · rw [step_else, openLines_turn]
    rfl
  · rw [step_close _ closes, if_pos closes, openLines_close]
  · rw [if_neg (by simp [content.goesOn])]
    cases opens : opensBlock line with
    | true =>
      rw [step_opening _ opens]
      rfl
    | false => rw [step_single _ content opens, openLines_put, if_neg Bool.false_ne_true]

theorem length_step (line : Text) :
    (s.step line).opened.length = depthAfter s.opened.length line := by
  have lengths := congrArg List.length (openLines_step s line)
  rwa [length_openLinesAfter, openLines, openLines, List.length_map, List.length_map] at lengths

end Lines

theorem length_foldl_step (s : BlockStack) (lines : List Text) :
    (lines.foldl step s).opened.length = lines.foldl depthAfter s.opened.length := by
  induction lines generalizing s with
  | nil => rfl
  | cons line rest ih => rw [List.foldl_cons, List.foldl_cons, ih, length_step]

theorem behindClose?_suffix {depth : Nat} {lines behind : List Text}
    (found : behindClose? depth lines = some behind) : behind <:+ lines := by
  induction lines generalizing depth with
  | nil => contradiction
  | cons line rest ih =>
    rw [behindClose?] at found
    split at found
    · obtain rfl := Option.some.inj found
      exact List.suffix_cons line rest
    · exact (ih found).trans (List.suffix_cons line rest)

theorem behindClose?_add {m n : Nat} (inner : 0 < m) (outer : 0 < n) (lines : List Text) :
    behindClose? (m + n) lines = (behindClose? m lines).bind (behindClose? n) := by
  induction lines generalizing m with
  | nil => rfl
  | cons line rest ih =>
    have more : depthAfter m line + n ≠ 0 := by omega
    rw [behindClose?, behindClose?, depthAfter_add inner, if_neg more]
    by_cases closed : depthAfter m line = 0
    · rw [if_pos closed, closed, Nat.zero_add, Option.bind_some]
    · rw [if_neg closed, ih (Nat.pos_of_ne_zero closed)]

theorem place_rereadBody (inElse : Bool) (lines : List Text) :
    (rereadBody inElse lines).map (·.2) = (behindClose? 1 lines).map List.length := by
  induction size : lines.length using Nat.strongRecOn generalizing lines inElse with
  | ind n ih =>
    cases lines with
    | nil => rw [rereadBody_nil, behindClose?, Option.map_none, Option.map_none]
    | cons line rest =>
      subst size
      have next (b : Bool) := ih rest.length (Nat.lt_succ_self _) b rest rfl
      rw [behindClose?]
      rcases bodyLine_cases line with rfl | rfl | closes | content
      · rw [rereadBody_blank]
        exact next inElse
      · rw [rereadBody_else]
        exact next true
      · rw [rereadBody_close _ _ closes, depthAfter_close _ closes]
        rfl
      · cases opens : opensBlock line with
        | false =>
          rw [rereadBody_single _ _ content opens, depthAfter_other _ content.goesOn opens,
            Option.map_map]
          exact next inElse
        | true =>
          rw [rereadBody_opening _ _ opens, depthAfter_opening _ opens, if_neg (by decide),
            behindClose?_add Nat.one_pos Nat.one_pos, Option.map_map, rereadBlock_eq]
          have inner := next false
          cases found : behindClose? 1 rest with
          | none =>
            rw [found, Option.map_none, Option.map_eq_none_iff] at inner
            have outer := next inElse
            rw [found] at outer
            rw [inner]
            exact outer
          | some behind =>
            rw [found, Option.map_some, Option.map_eq_some_iff] at inner
            obtain ⟨body, eq, place⟩ := inner
            obtain ⟨used, rfl⟩ := behindClose?_suffix found
            have resumed := drop_used used behind [] (n := body.2) (by rw [place, List.append_nil])
            rw [List.append_nil, List.append_nil] at resumed
            rw [eq, Option.bind_some]
            simp only [Option.map_some, statementAt, closedBlock, resumed]
            exact ih behind.length (length_behind_lt line used behind) inElse behind rfl

theorem rereadBlock_of_behindClose? (line : Text) {rest behind : List Text}
    (found : behindClose? 1 rest = some behind) :
    ∃ closed, rereadBlock line rest = some closed ∧ closed.stop = behind.length := by
  have place := place_rereadBody false rest
  rw [found, Option.map_some, Option.map_eq_some_iff] at place
  obtain ⟨body, eq, stop⟩ := place
  rw [rereadBlock_eq, eq]
  exact ⟨closedBlock line body, rfl, stop⟩

end StructuredText
