import StructuredText.Pou.Writing

/- Lines written one under the other, up to the first one that cannot be written.  The last line of a
   unit is its terminator, so that its text has one newline at its end from the beginning. -/
namespace StructuredText

theorem stoppedAt?_eq_none_iff {lines : List Written} :
    stoppedAt? lines = none ↔ ∀ line ∈ lines, line.text.isSome = true := by
  induction lines with
  | nil => exact ⟨fun _ => List.forall_mem_nil _, fun _ => rfl⟩
  | cons line rest ih =>
    obtain ⟨depth, none | t⟩ := line
    · simp [stoppedAt?]
    · rw [stoppedAt?, ih, List.forall_mem_cons]
      exact ⟨fun later => ⟨rfl, later⟩, fun all => all.2⟩

theorem stoppedAt?_append (first second : List Written) :
    stoppedAt? (first ++ second) = (stoppedAt? first).or (stoppedAt? second) := by
  induction first with
  | nil => rfl
  | cons line rest ih =>
    obtain ⟨depth, none | t⟩ := line
    · rfl
    · exact ih

theorem writtenText_append (indent : Nat) (first second : List Written) :
    writtenText indent (first ++ second) = writtenText indent first ++
      if stoppedAt? first = none then writtenText indent second else [] := by
  induction first with
  | nil => rfl
  | cons line rest ih =>
    obtain ⟨depth, none | t⟩ := line
    · rfl
    · rw [List.cons_append, writtenText, ih, writtenText, List.append_assoc, List.append_assoc,
        List.append_assoc]
      rfl

theorem withoutTrailing_newline {t : Text} (last : t.getLast? ≠ some '\n') :
    withoutTrailing '\n' (t ++ ['\n']) = t := by
  have stays : t.reverse.dropWhile (· == '\n') = t.reverse := by
    rw [← List.head?_reverse] at last
    cases backwards : t.reverse with
    | nil => rfl
    | cons c u =>
      have other : c ≠ '\n' := by
        rintro rfl
        exact last (by rw [backwards]; rfl)
      rw [List.dropWhile_cons_of_neg (by simpa using other)]
  rw [withoutTrailing, List.reverse_append, List.reverse_singleton, List.singleton_append,
    List.dropWhile_cons_of_pos (by decide), stays, List.reverse_reverse]

theorem Writer.text_of_line {t : Text} (last : t.getLast? ≠ some '\n') (indent : Nat) :
    Writer.text ⟨t ++ ['\n'], indent⟩ = t ++ ['\n'] := by
  rw [Writer.text, withoutTrailing_newline last]

section Writable
variable {pou : Pou} (writable : pou.isWritable = true)
include writable

theorem exists_writtenText :
    ∃ t, writtenText 0 pou.lines = t ++ ['\n'] ∧ ∀ before, (before ++ t).getLast? ≠ some '\n' := by
  obtain ⟨before, split⟩ : ∃ before, pou.lines = before ++ [.fixed 0 pou.kind.terminator] :=
    ⟨_, rfl⟩
  have unstopped : stoppedAt? before = none := by
    rw [Pou.isWritable, split, stoppedAt?_append, Option.isNone_iff_eq_none,
      Option.or_eq_none_iff] at writable
    exact writable.1
  refine ⟨writtenText 0 before ++ pou.kind.terminator, ?_, fun earlier => ?_⟩
  · rw [split, writtenText_append, if_pos unstopped, List.append_assoc]
    rfl
  · have final : ∃ c ∈ pou.kind.terminator.getLast?, c ≠ '\n' := by
      cases pou.kind <;> exact ⟨_, rfl, by decide⟩
    obtain ⟨c, last, other⟩ := final
    rw [← List.append_assoc, List.getLast?_append, Option.mem_def.mp last]
    exact fun same => other (Option.some.inj same)

theorem Pou.text_eq_writtenText : pou.text = writtenText 0 pou.lines := by
  obtain ⟨t, ends, last⟩ := exists_writtenText writable
  show Writer.text ⟨[] ++ writtenText 0 pou.lines, _⟩ = _
  rw [List.nil_append, ends]
  exact Writer.text_of_line (last []) _

theorem Writer.write_of_isWritable (buffer : Text) :
    Writer.write ⟨buffer, 0⟩ pou = ⟨buffer ++ writtenText 0 pou.lines, 0⟩ :=
  congrArg (Writer.mk (buffer ++ writtenText 0 pou.lines)) (Writer.indent_write writable)

end Writable

end StructuredText
