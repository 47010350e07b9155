import StructuredText.Proofs.Source.Pieces

/- Where a character of a source is found again.  A line has a record, and what the record says of it
   stands at the same columns as in the source; what it leaves out is blank or part of a comment. -/
namespace StructuredText

/-- A character of a source, and whether it is part of a comment. -/
structure Marked where
  char : Char
  commented : Bool

def markedText (pieces : List Piece) : List Marked :=
  pieces.flatMap fun piece => piece.text.map fun c => ⟨c, piece.isComment⟩

def markedLines (pieces : List Piece) : List (List Marked) :=
  (markedText pieces).splitOnP (·.char == '\n')

/-- What is recorded of a line: its number, and a text that stands where it stood. -/
structure IsRecord (number : Nat) (raw : List Marked) (line : Line) : Prop where
  numbered : line.number = number
  /-- At its column stands the same character, or a character of a comment, for a space. -/
  inside : ∀ offset c, line.text[offset]? = some c → ∃ m, raw[line.column offset - 1]? = some m ∧
    (c = m.char ∨ m.commented = true ∧ c = ' ')
  /-- What is not recorded is blank or part of a comment. -/
  outside : ∀ i m, raw[i]? = some m → ¬ (line.indent ≤ i ∧ i < line.indent + line.text.length) →
    isBlank m.char = true ∨ m.commented = true

def Shows (kept : Char) (m : Marked) : Prop :=
  kept = m.char ∨ m.commented = true ∧ kept = ' ' ∧ m.char ≠ '\n'

theorem forall₂_splitOnP {α β : Type} {R : α → β → Prop} {p : α → Bool} {q : β → Bool}
    (same : ∀ a b, R a b → p a = q b) {s : List α} {t : List β} (related : List.Forall₂ R s t) :
    List.Forall₂ (List.Forall₂ R) (s.splitOnP p) (t.splitOnP q) := by
  induction related with
  | nil => exact .cons .nil .nil
  | @cons a b s t here later ih =>
    rw [List.splitOnP_cons_eq_if_modifyHead, List.splitOnP_cons_eq_if_modifyHead, same a b here]
    split
    · exact .cons .nil ih
    · generalize s.splitOnP p = first, t.splitOnP q = second at ih
      cases ih with
      | nil => exact .nil
      | cons first rest => exact .cons (.cons here first) rest

theorem shows_newline (kept : Char) (m : Marked) (shows : Shows kept m) :
    (kept == '\n') = (m.char == '\n') := by
  rcases shows with rfl | ⟨-, rfl, other⟩
  · rfl
  · rw [beq_eq_false_iff_ne.mpr other]
    rfl

theorem Piece.shows_cleaned (piece : Piece) :
    List.Forall₂ Shows piece.cleaned (piece.text.map fun c => ⟨c, piece.isComment⟩) := by
  have blanked (t : Text) : List.Forall₂ Shows (blankedOut t) (t.map fun c => ⟨c, true⟩) := by
    rw [blankedOut, List.forall₂_map_left_iff, List.forall₂_map_right_iff, List.forall₂_same]
    intro c _
    split
    · next newline => exact Or.inl newline.symm
    · next other => exact Or.inr ⟨rfl, rfl, other⟩
  have kept (t : Text) : List.Forall₂ Shows t (t.map fun c => ⟨c, false⟩) := by
    rw [List.forall₂_map_right_iff, List.forall₂_same]
    exact fun c _ => Or.inl rfl
  cases piece with
  | code c => exact kept _
  | literal mark contents => exact kept _
  | openLiteral mark contents => exact kept _
  | lineComment body => exact blanked _
  | blockComment body => exact blanked _
  | openComment body => exact blanked _

theorem shows_cleanText {pieces : List Piece} (fitting : AreFitting pieces) :
    List.Forall₂ Shows (cleanText .code 0 (piecesText pieces)) (markedText pieces) := by
  rw [cleanText_piecesText fitting]
  clear fitting
  induction pieces with
  | nil => exact .nil
  | cons piece rest ih => exact List.rel_append piece.shows_cleaned ih

section Related
variable {α β : Type} {R : α → β → Prop} {s : List α} {t : List β}

theorem exists_of_forall₂_left (related : List.Forall₂ R s t) {i : Nat} {a : α}
    (here : s[i]? = some a) : ∃ b, t[i]? = some b ∧ R a b := by
  obtain ⟨short, rfl⟩ := List.getElem?_eq_some_iff.mp here
  have long : i < t.length := related.length_eq ▸ short
  exact ⟨t[i], List.getElem?_eq_getElem long, related.get short long⟩

theorem exists_of_forall₂_right (related : List.Forall₂ R s t) {i : Nat} {b : β}
    (here : t[i]? = some b) : ∃ a, s[i]? = some a ∧ R a b :=
  exists_of_forall₂_left related.flip here

end Related

theorem Shows.of_blank {kept : Char} {m : Marked} (shows : Shows kept m)
    (blank : isBlank kept = true) : isBlank m.char = true ∨ m.commented = true := by
  rcases shows with rfl | ⟨commented, -⟩
  · exact Or.inl blank
  · exact Or.inr commented

theorem isRecord_ofCleaned {cleaned : Text} {raw : List Marked}
    (shows : List.Forall₂ Shows cleaned raw) (number : Nat) :
    IsRecord number raw (Line.ofCleaned number cleaned) := by
  by_cases empty : trim cleaned = []
  · have blank := blank_of_trim empty
    rw [Line.ofCleaned_of_blank number blank]
    refine ⟨rfl, nofun, fun i m here _ => ?_⟩
    obtain ⟨kept, shown, stands⟩ := exists_of_forall₂_right shows here
    exact stands.of_blank (blank kept (List.mem_of_getElem? shown))
  · obtain ⟨a, b, whole, left, right⟩ := exists_trim cleaned
    have record := Line.ofCleaned_of_trimmed left right number (isTrimmed_trim empty)
    rw [← whole] at record
    rw [record]
    refine ⟨rfl, fun offset c here => ?_, fun i m here beyond => ?_⟩
    · have shown : cleaned[a.length + offset]? = some c := by
        obtain ⟨within, -⟩ := List.getElem?_eq_some_iff.mp here
        rw [whole, List.append_assoc, List.getElem?_append_right (Nat.le_add_right _ _),
          Nat.add_sub_cancel_left, List.getElem?_append_left within]
        exact here
      obtain ⟨m, there, stands⟩ := exists_of_forall₂_left shows shown
      exact ⟨m, there, stands.imp_right fun blanked => ⟨blanked.1, blanked.2.1⟩⟩
    · obtain ⟨kept, shown, stands⟩ := exists_of_forall₂_right shows here
      refine stands.of_blank ?_
      rw [whole] at shown
      by_cases before : i < a.length
      · rw [List.append_assoc, List.getElem?_append_left before] at shown
        exact left kept (List.mem_of_getElem? shown)
      · have behind : (a ++ trim cleaned).length ≤ i := by
          rw [List.length_append]
          simp only at beyond
          omega
        rw [List.getElem?_append_right behind] at shown
        exact right kept (List.mem_of_getElem? shown)

theorem map_splitOnP {α β : Type} (f : α → β) (p : β → Bool) (s : List α) :
    (s.splitOnP (p ∘ f)).map (List.map f) = (s.map f).splitOnP p := by
  induction s with
  | nil => rfl
  | cons a s ih =>
    rw [List.map_cons, List.splitOnP_cons_eq_if_modifyHead, List.splitOnP_cons_eq_if_modifyHead,
      ← ih, Function.comp_apply]
    cases p (f a) with
    | true => rfl
    | false => cases s.splitOnP (p ∘ f) <;> rfl

theorem char_markedText (pieces : List Piece) :
    (markedText pieces).map Marked.char = piecesText pieces := by
  simp [markedText, piecesText, List.map_flatMap, Function.comp_def]

theorem char_markedLines (pieces : List Piece) :
    (markedLines pieces).map (List.map Marked.char) = (piecesText pieces).splitOn '\n' := by
  rw [← char_markedText, List.splitOn_eq_splitOnP, ← map_splitOnP]
  rfl

/-- A source consists of code, literals and comments, and whichever way it does, there is one record
    for each of its lines, numbered from 1, with every character of the text at its column: what is
    shown there is the character itself, or a space for one of a comment, and what is left out is
    blank or part of a comment. -/
theorem sourceLines_records (source : Text) :
    (∃ pieces, AreFitting pieces ∧ piecesText pieces = source) ∧
      ∀ pieces, AreFitting pieces → piecesText pieces = source →
        (markedLines pieces).map (List.map Marked.char) = source.splitOn '\n' ∧
          (sourceLines source).length = (source.splitOn '\n').length ∧
            ∀ i raw, (markedLines pieces)[i]? = some raw →
              ∃ line, (sourceLines source)[i]? = some line ∧ IsRecord (i + 1) raw line := by
  refine ⟨exists_pieces source, ?_⟩
  rintro pieces fitting rfl
  refine ⟨char_markedLines pieces, ?_, fun i raw here => ?_⟩
  · rw [sourceLines_eq_linesFrom, length_linesFrom]
  · have shows := forall₂_splitOnP shows_newline (shows_cleanText fitting)
    obtain ⟨cleaned, there, stands⟩ := exists_of_forall₂_right shows here
    refine ⟨Line.ofCleaned (1 + i) cleaned, ?_, ?_⟩
    · rw [sourceLines_eq_cleanText, List.getElem?_mapIdx, List.splitOn_eq_splitOnP, there]
      rfl
    · rw [Nat.add_comm]
      exact isRecord_ofCleaned stands (1 + i)

/-- A comment over the end of a line, behind a literal that looks like one: the letter behind it is
    where it was. -/
theorem sourceLines_records_overLines :
    let pieces : List Piece :=
      [.literal '\'' "(*".toList, .blockComment " a\n//".toList, .code 'y']
    let raw : List Marked :=
      [⟨'/', true⟩, ⟨'/', true⟩, ⟨'*', true⟩, ⟨')', true⟩, ⟨'y', false⟩]
    AreFitting pieces ∧ piecesText pieces = "'(*'(* a\n//*)y".toList ∧
      (markedLines pieces)[1]? = some raw ∧ IsRecord 2 raw ⟨2, ['y'], 4⟩ := by
  intro pieces raw
  have fitting : AreFitting pieces := by
    refine .cons ⟨Or.inl rfl, by decide, by decide⟩ (.cons ?_ (.cons ?_ .nil))
    · show ¬ "*)".toList <:+: " a\n//".toList
      decide
    · exact ⟨by simp [IsQuote], by decide, by decide⟩
  have here : (markedLines pieces)[1]? = some raw := by rfl
  obtain ⟨line, there, record⟩ :=
    ((sourceLines_records "'(*'(* a\n//*)y".toList).2 pieces fitting rfl).2.2 1 raw here
  have known : (sourceLines "'(*'(* a\n//*)y".toList)[1]? = some ⟨2, ['y'], 4⟩ := by
    decide
  obtain rfl : ⟨2, ['y'], 4⟩ = line := Option.some.inj (known.symm.trans there)
  exact ⟨fitting, rfl, here, record⟩

end StructuredText
