import StructuredText.Proofs.Source.Comments
import StructuredText.Proofs.Text.Marked

/- A quoted literal that begins in the code of a source and ends on its line.  What it says is kept
   as it is, and wherever it stands the lines around it, and the rest of its own line, are the same. -/
namespace StructuredText

def withLiteral (before : Text) (mark : Char) (contents behind : Text) : Text :=
  before ++ mark :: (contents ++ mark :: behind)

theorem isEmpty_withLiteral (before : Text) (mark : Char) (contents behind : Text) :
    (withLiteral before mark contents behind).isEmpty = false := by
  simp [withLiteral]

structure IsContents (mark : Char) (contents : Text) : Prop where
  unclosed : mark ∉ contents
  oneLine : '\n' ∉ contents

section Literal
variable {mark : Char} (quote : IsQuote mark)
include quote

theorem cleanText_quoted {contents : Text} (inside : IsContents mark contents) (behind : Text) :
    cleanText (.quoted mark) 0 (contents ++ mark :: behind) =
      contents ++ mark :: cleanText .code 0 behind := by
  have noBreak : mark ≠ '\n' := quote.ne (by decide)
  induction contents with
  | nil => rw [List.nil_append, cleanText, scanText_inner noBreak, scan, if_pos rfl]; rfl
  | cons c contents ih =>
    obtain ⟨unclosed, oneLine⟩ := inside
    rw [List.mem_cons, not_or] at unclosed oneLine
    rw [List.cons_append, cleanText, scanText_inner (Ne.symm oneLine.1), scan,
      if_neg (Ne.symm unclosed.1), ih ⟨unclosed.2, oneLine.2⟩]
    rfl

theorem cleanText_withLiteral {before : Text} (code : regionBehindText .code 0 before = .code)
    {contents : Text} (inside : IsContents mark contents) (behind : Text) :
    cleanText .code 0 (withLiteral before mark contents behind) =
      withLiteral (cleanText .code 0 before) mark contents (cleanText .code 0 behind) := by
  have plain : completesMark mark = false := quote.apart (by decide)
  have opened : scanText .code 0 mark (contents ++ mark :: behind) = ⟨mark, .quoted mark, 0⟩ := by
    have noBreak : mark ≠ '\n' := quote.ne (by decide)
    rw [scanText_inner noBreak]
    exact if_pos quote
  rw [withLiteral, cleanText_append (free_cons plain _) (Nat.zero_le _), code, cleanText, opened,
    cleanText_quoted quote inside]
  rfl

end Literal

theorem exists_lastLine (t : Text) : ∃ lines last, '\n' ∉ last ∧ t.splitOn '\n' = lines ++ [last] ∧
    ∀ rest, (t ++ rest).splitOn '\n' = lines ++ (last ++ rest).splitOn '\n' := by
  induction t using line_induction with
  | last line oneLine =>
    exact ⟨[], line, oneLine, List.splitOn_eq_singleton oneLine, fun rest => rfl⟩
  | more line t oneLine ih =>
    obtain ⟨lines, last, free, split, appended⟩ := ih
    refine ⟨line :: lines, last, free, ?_, fun rest => ?_⟩
    · rw [List.splitOn_append_cons_self_of_not_mem oneLine, split]
      rfl
    · rw [List.append_assoc, List.cons_append, List.splitOn_append_cons_self_of_not_mem oneLine,
        appended]
      rfl

theorem exists_firstLine (t : Text) : ∃ first lines, ∀ start, '\n' ∉ start →
    (start ++ t).splitOn '\n' = (start ++ first) :: lines := by
  by_cases several : '\n' ∈ t
  · obtain ⟨first, rest, rfl, free⟩ := List.eq_append_cons_of_mem several
    refine ⟨first, rest.splitOn '\n', fun start oneLine => ?_⟩
    have joined : '\n' ∉ start ++ first := by simp [oneLine, free]
    rw [← List.append_assoc, List.splitOn_append_cons_self_of_not_mem joined]
  · refine ⟨t, [], fun start oneLine => ?_⟩
    have joined : '\n' ∉ start ++ t := by simp [oneLine, several]
    rw [List.splitOn_eq_singleton joined]

theorem Line.ofCleaned_withLiteral {mark : Char} (quote : IsQuote mark) (number : Nat)
    (left contents right : Text) : Line.ofCleaned number (withLiteral left mark contents right) =
      ⟨number, withLiteral (trimLeft left) mark contents (trimRight right), leadingBlanks left⟩ := by
  have text : trim (withLiteral left mark contents right) =
      withLiteral (trimLeft left) mark contents (trimRight right) := by
    rw [withLiteral, trim_marked _ _ quote, trimRight_marked _ _ quote]
    rfl
  have filled : (trim (withLiteral left mark contents right)).isEmpty = false := by
    rw [text]
    exact isEmpty_withLiteral ..
  have leading : leadingBlanks (withLiteral left mark contents right) = leadingBlanks left :=
    leadingBlanks_marked _ _ quote
  rw [Line.ofCleaned, filled, text, leading]
  rfl

section Line
variable {mark : Char} (quote : IsQuote mark) {before : Text}
  (code : regionBehindText .code 0 before = .code)
include quote code

theorem cleanText_mark :
    cleanText .code 0 (before ++ [mark]) = cleanText .code 0 before ++ [mark] := by
  have plain : completesMark mark = false := quote.apart (by decide)
  have alone : cleanText .code 0 [mark] = [mark] := by rcases quote with rfl | rfl <;> rfl
  rw [cleanText_append (free_cons plain _) (Nat.zero_le _), code, alone]

theorem exists_line_withLiteral (behind : Text) : ∃ number left right indent later,
    (lineTexts (before ++ [mark])).getLast? = some (left ++ [mark]) ∧
      ∀ contents, IsContents mark contents →
        sourceLines (withLiteral before mark contents behind) =
          (sourceLines before).dropLast ++
            ⟨number, withLiteral left mark contents right, indent⟩ :: later := by
  have noBreak : mark ≠ '\n' := quote.ne (by decide)
  obtain ⟨lines, last, free, split, appended⟩ := exists_lastLine (cleanText .code 0 before)
  obtain ⟨first, further, continued⟩ := exists_firstLine (cleanText .code 0 behind)
  refine ⟨1 + (0 + lines.length), trimLeft last, trimRight first, leadingBlanks last,
    further.mapIdx fun i => Line.ofCleaned (1 + (i + 1 + lines.length)), ?_, ?_⟩
  · have alone : '\n' ∉ last ++ [mark] := by simp [free, Ne.symm noBreak]
    rw [lineTexts_eq_splitOn, cleanText_mark quote code, appended, List.splitOn_eq_singleton alone,
      List.map_append, List.map_singleton, List.getLast?_concat, trim_marked _ _ quote]
    rfl
  · intro contents inside
    have oneLine : '\n' ∉ last ++ mark :: (contents ++ [mark]) := by
      simp [free, Ne.symm noBreak, inside.oneLine]
    have here : (cleanText .code 0 (withLiteral before mark contents behind)).splitOn '\n' =
        lines ++ withLiteral last mark contents first :: further := by
      have joined : last ++ mark :: (contents ++ mark :: cleanText .code 0 behind) =
          last ++ mark :: (contents ++ [mark]) ++ cleanText .code 0 behind := by simp
      rw [cleanText_withLiteral quote code inside, withLiteral, appended, joined,
        continued _ oneLine, withLiteral]
      simp
    rw [sourceLines_eq_cleanText, sourceLines_eq_cleanText, here, split, List.mapIdx_append,
      List.mapIdx_append, List.mapIdx_cons, List.mapIdx_cons, List.mapIdx_nil, List.dropLast_concat,
      Line.ofCleaned_withLiteral quote]

end Line

end StructuredText
