import StructuredText.Proofs.Pou.WrittenText
import StructuredText.Proofs.Source.Lines
import StructuredText.Proofs.Text.Boundary

/- Lines that are read as they are written: no comment is cut from them and no end of a line is
   inside them, so only their indentation goes. -/
namespace StructuredText

/-- In the text no line ends, nothing is quoted and no comment opens. -/
structure IsCommentFree (t : Text) : Prop where
  oneLine : '\n' ∉ t
  unquoted : ∀ c ∈ t, c ≠ '\'' ∧ c ≠ '"'
  noLineComment : ¬ "//".toList <:+: t
  noBlockComment : ¬ "(*".toList <:+: t

structure IsBareLine (t : Text) : Prop where
  oneLine : '\n' ∉ t
  unquoted : ∀ c ∈ t, c ≠ '\'' ∧ c ≠ '"'
  noLineComment : ¬ "//".toList <:+: t
  noBlockComment : ¬ "(*".toList <:+: t
  trimmed : IsTrimmed t

theorem IsCommentFree.isBareLine {t : Text} (free : IsCommentFree t) (trimmed : IsTrimmed t) :
    IsBareLine t :=
  ⟨free.oneLine, free.unquoted, free.noLineComment, free.noBlockComment, trimmed⟩

theorem isCommentFree_of_chars {t : Text} (chars : ∀ c ∈ t, c ∉ "\n'\"/*".toList) :
    IsCommentFree t where
  oneLine := fun mem => chars _ mem (by decide)
  unquoted := by
    intro c mem
    constructor
    · rintro rfl
      exact chars _ mem (by decide)
    · rintro rfl
      exact chars _ mem (by decide)
  noLineComment := fun inside => chars _ (inside.subset List.mem_cons_self) (by decide)
  noBlockComment := fun inside => chars '*' (inside.subset (by decide)) (by decide)

theorem infix_pair_append {a b : Char} {s t : Text} (inside : [a, b] <:+: s ++ t) :
    [a, b] <:+: s ∨ [a, b] <:+: t ∨ s.getLast? = some a ∧ t.head? = some b := by
  induction s with
  | nil => exact Or.inr (Or.inl inside)
  | cons c s ih =>
    rw [List.cons_append, List.infix_cons_iff] at inside
    rcases inside with first | later
    · obtain ⟨rfl, next⟩ := List.cons_prefix_cons.mp first
      cases s with
      | nil =>
        obtain ⟨rest, rfl⟩ := next
        exact Or.inr (Or.inr ⟨rfl, rfl⟩)
      | cons d s =>
        obtain ⟨rfl, -⟩ := List.cons_prefix_cons.mp next
        exact Or.inl ⟨[], s, rfl⟩
    · rcases ih later with left | right | ⟨last, first⟩
      · exact Or.inl (left.trans (List.suffix_cons c s).isInfix)
      · exact Or.inr (Or.inl right)
      · refine Or.inr (Or.inr ⟨?_, first⟩)
        rw [List.getLast?_cons, last]
        rfl

theorem IsCommentFree.append {s t : Text} (left : IsCommentFree s) (right : IsCommentFree t)
    (noLine : s.getLast? = some '/' → t.head? ≠ some '/')
    (noBlock : s.getLast? = some '(' → t.head? ≠ some '*') : IsCommentFree (s ++ t) where
  oneLine := fun mem => (List.mem_append.mp mem).elim left.oneLine right.oneLine
  unquoted := List.forall_mem_append.mpr ⟨left.unquoted, right.unquoted⟩
  noLineComment := fun inside => by
    rcases infix_pair_append inside with first | second | ⟨slash, next⟩
    · exact left.noLineComment first
    · exact right.noLineComment second
    · exact noLine slash next
  noBlockComment := fun inside => by
    rcases infix_pair_append inside with first | second | ⟨opens, next⟩
    · exact left.noBlockComment first
    · exact right.noBlockComment second
    · exact noBlock opens next

def isCodeChar (c : Char) : Bool := isWord c || " .,:;-()<>=[]".toList.contains c

theorem isCodeChar_of_isWord {c : Char} (word : isWord c = true) : isCodeChar c = true := by
  rw [isCodeChar, word, Bool.true_or]

theorem isBareLine_of_code {t : Text} (code : ∀ c ∈ t, isCodeChar c = true)
    (trimmed : IsTrimmed t) : IsBareLine t := by
  apply (isCommentFree_of_chars _).isBareLine trimmed
  have signs : ∀ c ∈ "\n'\"/*".toList, isCodeChar c = false := of_all rfl
  intro c mem sign
  have other := signs c sign
  exact Bool.noConfusion ((code c mem).symm.trans other)

theorem infix_of_append_left {w a t : Text} (apart : ∀ c ∈ a, c ∉ w) (inside : w <:+: a ++ t) :
    w <:+: t := by
  induction a with
  | nil => exact inside
  | cons c a ih =>
    have later : ∀ d ∈ a, d ∉ w := fun d mem => apart d (List.mem_cons_of_mem c mem)
    rw [List.cons_append, List.infix_cons_iff] at inside
    rcases inside with first | inside
    · cases w with
      | nil => exact List.nil_infix
      | cons d w =>
        obtain rfl := (List.cons_prefix_cons.mp first).1
        exact absurd List.mem_cons_self (apart d List.mem_cons_self)
    · exact ih later inside

theorem infix_of_append_right {w t b : Text} (apart : ∀ c ∈ b, c ∉ w) (inside : w <:+: t ++ b) :
    w <:+: t := by
  rw [← List.reverse_infix, List.reverse_append] at inside
  apply List.reverse_infix.mp
  apply infix_of_append_left _ inside
  intro c mem
  simpa using apart c (List.mem_reverse.mp mem)

theorem scan_code {c : Char} {t : Text} (unquoted : c ≠ '\'' ∧ c ≠ '"')
    (noLineComment : ¬ "//".toList <+: c :: t) (noBlockComment : ¬ "(*".toList <+: c :: t) :
    scan .code c t = ⟨c, .code, 0⟩ := by
  have pair {d e : Char} (free : ¬ [d, e] <+: c :: t) : ¬ (c = d ∧ t.head? = some e) := by
    rintro ⟨rfl, next⟩
    obtain ⟨u, rfl⟩ := List.head?_eq_some_iff.mp next
    exact free ⟨u, rfl⟩
  have line : ¬ (c = '/' ∧ t.head? = some '/') := pair noLineComment
  have block : ¬ (c = '(' ∧ t.head? = some '*') := pair noBlockComment
  rw [scan, if_neg (by simp [unquoted]), if_neg line, if_neg block]

theorem cleanFrom_code {t : Text} (unquoted : ∀ c ∈ t, c ≠ '\'' ∧ c ≠ '"')
    (noLineComment : ¬ "//".toList <:+: t) (noBlockComment : ¬ "(*".toList <:+: t) :
    cleanFrom .code 0 t = t := by
  induction t with
  | nil => rfl
  | cons c t ih =>
    rw [List.infix_cons_iff, not_or] at noLineComment noBlockComment
    have here := scan_code (unquoted c List.mem_cons_self) noLineComment.1 noBlockComment.1
    have later := ih (fun d mem => unquoted d (List.mem_cons_of_mem c mem))
      noLineComment.2 noBlockComment.2
    rw [cleanFrom, here]
    exact congrArg _ later

theorem eq_of_mem_indentation {depth : Nat} {c : Char} (mem : c ∈ indentation depth) : c = ' ' :=
  List.eq_of_mem_replicate mem

/-- A line that keeps its text when it is indented and when the lines are parted again. -/
structure IsSolidLine (t : Text) : Prop where
  oneLine : '\n' ∉ t
  trimmed : IsTrimmed t

theorem IsBareLine.solid {t : Text} (bare : IsBareLine t) : IsSolidLine t :=
  ⟨bare.oneLine, bare.trimmed⟩

theorem IsBareLine.clean {t : Text} (bare : IsBareLine t) (depth : Nat) :
    cleanLine .code (indentation depth ++ t) = indentation depth ++ t := by
  have behind {word : Text} (free : ' ' ∉ word) (inside : word <:+: indentation depth ++ t) :
      word <:+: t := by
    apply infix_of_append_left _ inside
    intro c mem
    rwa [eq_of_mem_indentation mem]
  apply cleanFrom_code
  · rw [List.forall_mem_append]
    refine ⟨?_, bare.unquoted⟩
    intro c mem
    rw [eq_of_mem_indentation mem]
    decide
  · exact fun inside => bare.noLineComment (behind (by decide) inside)
  · exact fun inside => bare.noBlockComment (behind (by decide) inside)

namespace IsSolidLine
variable {t : Text} (solid : IsSolidLine t) (depth : Nat)
include solid

theorem trim_indented : trim (indentation depth ++ t) = t := by
  have blank : ∀ c ∈ indentation depth, isBlank c = true := by
    intro c mem
    rw [eq_of_mem_indentation mem]
    decide
  have cut := trim_surrounded (b := []) solid.trimmed blank (of_all rfl)
  rwa [List.append_nil] at cut

theorem not_mem_indented : '\n' ∉ indentation depth ++ t := by
  intro mem
  rcases List.mem_append.mp mem with mem | mem
  · have := eq_of_mem_indentation mem
    contradiction
  · exact solid.oneLine mem

theorem getLast?_indented {d : Char} (blank : isBlank d = true) :
    (indentation depth ++ t).getLast? ≠ some d := by
  obtain ⟨c, last, inner⟩ := solid.trimmed.last
  rw [List.getLast?_append, Option.mem_def.mp last]
  intro same
  obtain rfl : c = d := Option.some.inj same
  rw [inner] at blank
  contradiction

end IsSolidLine

def textsOf (lines : List Written) : List Text := lines.filterMap (·.text)

theorem textsOf_append (first second : List Written) :
    textsOf (first ++ second) = textsOf first ++ textsOf second := List.filterMap_append

inductive AreBare : List Written → Prop
  | nil : AreBare []
  | cons {depth : Nat} {t : Text} {rest : List Written} (first : IsBareLine t)
    (later : AreBare rest) : AreBare (⟨depth, some t⟩ :: rest)

theorem AreBare.append {first second : List Written} (left : AreBare first)
    (right : AreBare second) : AreBare (first ++ second) := by
  induction left with
  | nil => exact right
  | cons first later ih => exact .cons first ih

theorem AreBare.singleton {depth : Nat} {t : Text} (bare : IsBareLine t) :
    AreBare [⟨depth, some t⟩] := .cons bare .nil

theorem AreBare.flatMap {α : Type} {items : List α} {lines : α → List Written}
    (bare : ∀ item ∈ items, AreBare (lines item)) : AreBare (items.flatMap lines) := by
  induction items with
  | nil => exact .nil
  | cons item rest ih =>
    rw [List.flatMap_cons]
    exact (bare item List.mem_cons_self).append
      (ih fun i mem => bare i (List.mem_cons_of_mem item mem))

def AreSolid (lines : List Written) : Prop :=
  ∀ line ∈ lines, ∃ t, line.text = some t ∧ IsSolidLine t

theorem AreBare.solid {lines : List Written} (bare : AreBare lines) : AreSolid lines := by
  induction bare with
  | nil => exact fun _ mem => absurd mem List.not_mem_nil
  | @cons depth t rest first later ih =>
    exact List.forall_mem_cons.mpr ⟨⟨t, rfl, first.solid⟩, ih⟩

theorem stoppedAt?_of_solid {lines : List Written} (solid : AreSolid lines) :
    stoppedAt? lines = none := by
  rw [stoppedAt?_eq_none_iff]
  intro line mem
  obtain ⟨t, text, -⟩ := solid line mem
  rw [text]
  rfl

def indentedTexts (indent : Nat) (lines : List Written) : List Text :=
  lines.map fun line => indentation (indent + line.depth) ++ line.text.getD []

theorem physicalLines_writtenText {lines : List Written} (solid : AreSolid lines) (indent : Nat) :
    physicalLines (writtenText indent lines) = indentedTexts indent lines ++ [[]] := by
  induction lines with
  | nil => rfl
  | cons line rest ih =>
    obtain ⟨⟨t, text, here⟩, later⟩ := List.forall_mem_cons.mp solid
    obtain ⟨depth, _⟩ := line
    obtain rfl : _ = some t := text
    have keeps : withoutFinal '\r' (indentation (indent + depth) ++ t) =
        indentation (indent + depth) ++ t := by
      rw [withoutFinal, if_neg (here.getLast?_indented _ (by decide))]
    rw [physicalLines, writtenText,
      List.splitOn_append_cons_self_of_not_mem (here.not_mem_indented _), List.map_cons, keeps,
      ← physicalLines, ih later]
    rfl

theorem trim_indentedTexts {lines : List Written} (solid : AreSolid lines) (indent : Nat) :
    (indentedTexts indent lines).map trim = textsOf lines := by
  induction lines with
  | nil => rfl
  | cons line rest ih =>
    obtain ⟨⟨t, text, here⟩, later⟩ := List.forall_mem_cons.mp solid
    obtain ⟨depth, _⟩ := line
    obtain rfl : _ = some t := text
    have first : trim (indentation (indent + depth) ++ (some t).getD []) = t :=
      here.trim_indented (indent + depth)
    have tail := ih later
    rw [indentedTexts] at tail ⊢
    rw [List.map_cons, List.map_cons, first, tail]
    rfl

theorem clean_indentedTexts {lines : List Written} (bare : AreBare lines) (indent : Nat) :
    ∀ raw ∈ indentedTexts indent lines, cleanLine .code raw = raw := by
  induction bare with
  | nil => exact fun _ mem => absurd mem List.not_mem_nil
  | @cons depth t rest first later ih =>
    exact List.forall_mem_cons.mpr ⟨first.clean (indent + depth), ih⟩

theorem lineTexts_writtenText {lines : List Written} (bare : AreBare lines) (indent : Nat) :
    lineTexts (writtenText indent lines) = textsOf lines ++ [[]] := by
  have physical := physicalLines_writtenText bare.solid indent
  have clean : opensNoComment (writtenText indent lines) = true := by
    rw [opensNoComment, physical, List.all_eq_true, List.forall_mem_append]
    refine ⟨fun raw mem => decide_eq_true (clean_indentedTexts bare indent raw mem), ?_⟩
    exact List.forall_mem_singleton.mpr rfl
  rw [lineTexts_of_clean clean, physical, List.map_append, trim_indentedTexts bare.solid]
  rfl

section Unit
variable {pou : Pou} (solid : AreSolid pou.lines)
include solid

theorem Pou.isWritable_of_solid : pou.isWritable = true := by
  rw [isWritable, stoppedAt?_of_solid solid]
  rfl

theorem Pou.text?_of_solid : pou.text? = some pou.text := if_pos (isWritable_of_solid solid)

/-- The lines of a unit are read as they were written if no comment opens in them. -/
theorem lineTexts_text_of_clean (clean : opensNoComment pou.text = true) :
    lineTexts pou.text = textsOf pou.lines ++ [[]] := by
  rw [lineTexts_of_clean clean, Pou.text_eq_writtenText (Pou.isWritable_of_solid solid),
    physicalLines_writtenText solid, List.map_append, trim_indentedTexts solid]
  rfl

end Unit

section Bare
variable {pou : Pou} (bare : AreBare pou.lines)
include bare

theorem Pou.text?_of_bare : pou.text? = some pou.text := Pou.text?_of_solid bare.solid

theorem lineTexts_text : lineTexts pou.text = textsOf pou.lines ++ [[]] := by
  rw [Pou.text_eq_writtenText (Pou.isWritable_of_solid bare.solid), lineTexts_writtenText bare]

end Bare

end StructuredText
