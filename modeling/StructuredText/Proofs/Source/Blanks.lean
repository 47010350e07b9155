import StructuredText.Proofs.Source.Lines
import StructuredText.Proofs.Text.Boundary

/- Blanks at the two ends of a line.  They neither open nor close anything, so they are no part of
   its text and leave the next lines as they are.  A carriage return is a blank like the others. -/
namespace StructuredText

theorem trim_of_blank {t : Text} (blank : ∀ c ∈ t, isBlank c = true) : trim t = [] := by
  have none : trimLeft t = [] := by
    rw [trimLeft, ← List.append_nil t, List.dropWhile_append_of_pos blank]
    rfl
  rw [trim, none]
  rfl

theorem blank_of_trim {t : Text} (empty : trim t = []) : ∀ c ∈ t, isBlank c = true := by
  obtain ⟨a, b, whole, left, right⟩ := exists_trim t
  rw [whole, empty, List.append_nil]
  exact List.forall_mem_append.mpr ⟨left, right⟩

def Line.movedRight (n : Nat) (line : Line) : Line :=
  { line with indent := if line.text.isEmpty then line.indent else line.indent + n }

theorem Line.movedRight_zero (line : Line) : line.movedRight 0 = line := by
  rw [movedRight, Nat.add_zero, ite_self]

theorem Line.ofCleaned_of_blank (number : Nat) {t : Text} (blank : ∀ c ∈ t, isBlank c = true) :
    Line.ofCleaned number t = ⟨number, [], 0⟩ := by
  rw [Line.ofCleaned, trim_of_blank blank]
  rfl

section Cleaned
variable {a b : Text} (left : ∀ c ∈ a, isBlank c = true) (right : ∀ c ∈ b, isBlank c = true)
include left right

theorem Line.ofCleaned_of_trimmed (number : Nat) {t : Text} (trimmed : IsTrimmed t) :
    Line.ofCleaned number (a ++ t ++ b) = ⟨number, t, a.length⟩ := by
  have filled : t.isEmpty = false := by simpa using trimmed.ne_nil
  obtain ⟨c, first, inner⟩ := trimmed.first
  obtain ⟨u, rfl⟩ := List.head?_eq_some_iff.mp first
  have leading : leadingBlanks (a ++ c :: u ++ b) = a.length := by
    rw [leadingBlanks, List.append_assoc, List.takeWhile_append_of_pos left, List.cons_append,
      List.takeWhile_cons_of_neg (by simp [inner]), List.append_nil]
  rw [Line.ofCleaned, trim_surrounded trimmed left right, leading, filled]
  rfl

theorem Line.ofCleaned_surrounded (number : Nat) (t : Text) :
    Line.ofCleaned number (a ++ t ++ b) = (Line.ofCleaned number t).movedRight a.length := by
  by_cases empty : trim t = []
  · have blank := blank_of_trim empty
    have around : ∀ c ∈ a ++ t ++ b, isBlank c = true :=
      List.forall_mem_append.mpr ⟨List.forall_mem_append.mpr ⟨left, blank⟩, right⟩
    rw [Line.ofCleaned_of_blank number blank, Line.ofCleaned_of_blank number around]
    rfl
  · have trimmed := isTrimmed_trim empty
    obtain ⟨a', b', whole, left', right'⟩ := exists_trim t
    have filled : (trim t).isEmpty = false := by simpa using empty
    have joined : a ++ t ++ b = (a ++ a') ++ trim t ++ (b' ++ b) := by
      calc a ++ t ++ b = a ++ (a' ++ trim t ++ b') ++ b := by rw [← whole]
        _ = (a ++ a') ++ trim t ++ (b' ++ b) := by simp only [List.append_assoc]
    calc Line.ofCleaned number (a ++ t ++ b)
        = ⟨number, trim t, (a ++ a').length⟩ := by
          rw [joined]
          exact Line.ofCleaned_of_trimmed (List.forall_mem_append.mpr ⟨left, left'⟩)
            (List.forall_mem_append.mpr ⟨right', right⟩) number trimmed
      _ = (⟨number, trim t, a'.length⟩ : Line).movedRight a.length := by
          rw [Line.movedRight, filled, List.length_append, Nat.add_comm]
          rfl
      _ = (Line.ofCleaned number t).movedRight a.length := by
          rw [← Line.ofCleaned_of_trimmed left' right' number trimmed, ← whole]

end Cleaned

def isSign (c : Char) : Bool := "'\"/(*)".toList.contains c

def completesMark (c : Char) : Bool := "/*)".toList.contains c

theorem isSign_eq_false {holds : Char → Bool} (apart : ∀ d ∈ "'\"/(*)".toList, holds d = false)
    {c : Char} (here : holds c = true) : isSign c = false := by
  cases sign : isSign c with
  | false => rfl
  | true =>
    rw [apart c (List.contains_iff_mem.mp sign)] at here
    contradiction

theorem isSign_of_isBlank {c : Char} (blank : isBlank c = true) : isSign c = false :=
  isSign_eq_false (of_all rfl) blank

theorem completesMark_of_plain {c : Char} (plain : isSign c = false) : completesMark c = false := by
  cases completes : completesMark c with
  | false => rfl
  | true =>
    have signs : ∀ d ∈ "/*)".toList, isSign d = true := of_all rfl
    rw [signs c (List.contains_iff_mem.mp completes)] at plain
    contradiction

/-- The scan looks at the next character only for the second one of a mark. -/
theorem scan_append {b : Text} (free : ∀ c ∈ b.head?, completesMark c = false) (region : Region)
    (c : Char) (t : Text) : scan region c (t ++ b) = scan region c t := by
  cases t with
  | cons d t => cases region <;> rfl
  | nil =>
    have apart {d : Char} (completes : completesMark d = true) : b.head? ≠ some d := by
      intro first
      rw [free d first] at completes
      contradiction
    have closes : b.head? ≠ some ')' := apart rfl
    have line : b.head? ≠ some '/' := apart rfl
    have opens : b.head? ≠ some '*' := apart rfl
    cases region <;> simp [scan, closes, line, opens]

theorem skip_cases (region : Region) (c : Char) (t : Text) : (scan region c t).skip = 0 ∨
    (scan region c t).skip = 1 ∧ ∃ d ∈ t.head?, completesMark d = true := by
  cases region with
  | quoted mark => exact Or.inl rfl
  | lineComment => exact Or.inl rfl
  | blockComment =>
    rcases scan_blockComment_cases c t with ⟨same, -, next⟩ | ⟨same, -⟩ <;> rw [same]
    · exact Or.inr ⟨rfl, ')', next, rfl⟩
    · exact Or.inl rfl
  | code =>
    rcases scan_code_cases c t with ⟨same, -⟩ | ⟨same, -⟩ | ⟨same, -, next⟩ | ⟨same, -⟩ <;>
      rw [same]
    · exact Or.inl rfl
    · exact Or.inl rfl
    · exact Or.inr ⟨rfl, '*', next, rfl⟩
    · exact Or.inl rfl

theorem skip_le (region : Region) (c : Char) (t : Text) : (scan region c t).skip ≤ t.length := by
  rcases skip_cases region c t with none | ⟨one, d, next, -⟩
  · rw [none]
    exact Nat.zero_le _
  · obtain ⟨u, rfl⟩ := List.head?_eq_some_iff.mp next
    rw [one, List.length_cons]
    exact Nat.le_add_left 1 _

section Append
variable {b : Text} (free : ∀ c ∈ b.head?, completesMark c = false)
include free

theorem cleanFrom_append {region : Region} {skip : Nat} {t : Text} (within : skip ≤ t.length) :
    cleanFrom region skip (t ++ b) =
      cleanFrom region skip t ++ cleanFrom (regionAfter region skip t) 0 b := by
  induction t generalizing region skip with
  | nil =>
    obtain rfl := Nat.le_zero.mp within
    rfl
  | cons c t ih =>
    cases skip with
    | succ skip =>
      rw [List.cons_append, cleanFrom, ih (Nat.le_of_succ_le_succ within)]
      rfl
    | zero =>
      rw [List.cons_append, cleanFrom, scan_append free, ih (skip_le region c t)]
      rfl

theorem regionAfter_append {region : Region} {skip : Nat} {t : Text} (within : skip ≤ t.length) :
    regionAfter region skip (t ++ b) = regionAfter (regionAfter region skip t) 0 b := by
  induction t generalizing region skip with
  | nil =>
    obtain rfl := Nat.le_zero.mp within
    rw [List.nil_append, regionAfter]
  | cons c t ih =>
    cases skip with
    | succ skip =>
      rw [List.cons_append, regionAfter, regionAfter, ih (Nat.le_of_succ_le_succ within)]
    | zero =>
      rw [List.cons_append, regionAfter, regionAfter, scan_append free, ih (skip_le region c t)]

end Append

/-- What the scan does with a character that is no sign, whatever follows it. -/
def scanPlain : Region → Char → Scanned
  | .quoted mark, c => ⟨c, if c = mark then .code else .quoted mark, 0⟩
  | .lineComment, _ => ⟨' ', .lineComment, 0⟩
  | .blockComment, _ => ⟨' ', .blockComment, 0⟩
  | .code, c => ⟨c, .code, 0⟩

theorem scan_of_plain {c : Char} (plain : isSign c = false) (region : Region) (t : Text) :
    scan region c t = scanPlain region c := by
  have other {d : Char} (sign : isSign d = true) : c ≠ d := by
    rintro rfl
    rw [plain] at sign
    contradiction
  have single : c ≠ '\'' := other rfl
  have double : c ≠ '"' := other rfl
  have slash : c ≠ '/' := other rfl
  have opening : c ≠ '(' := other rfl
  have star : c ≠ '*' := other rfl
  cases region with
  | quoted mark => rfl
  | lineComment => rfl
  | blockComment => simp [scan, scanPlain, star]
  | code => simp [scan, scanPlain, single, double, slash, opening]

theorem skip_scanPlain (region : Region) (c : Char) : (scanPlain region c).skip = 0 := by
  cases region <;> rfl

theorem nextLine_scanPlain (region : Region) (c : Char) :
    (scanPlain region c).region.nextLine = region.nextLine := by
  cases region with
  | quoted mark =>
    rw [scanPlain]
    split <;> rfl
  | _ => rfl

theorem nextLine_regionAfter_of_plain {b : Text} (plain : ∀ c ∈ b, isSign c = false)
    (region : Region) : (regionAfter region 0 b).nextLine = region.nextLine := by
  induction b generalizing region with
  | nil => rw [regionAfter]
  | cons c b ih =>
    obtain ⟨here, later⟩ := List.forall_mem_cons.mp plain
    rw [regionAfter, scan_of_plain here, skip_scanPlain, ih later, nextLine_scanPlain]

theorem cleanFrom_plain_append {a : Text} (plain : ∀ c ∈ a, isSign c = false) {start : Region}
    (between : start = .code ∨ start = .blockComment) (t : Text) :
    cleanFrom start 0 (a ++ t) = cleanFrom start 0 a ++ cleanFrom start 0 t ∧
      regionAfter start 0 (a ++ t) = regionAfter start 0 t := by
  induction a with
  | nil => exact ⟨rfl, rfl⟩
  | cons c a ih =>
    obtain ⟨here, later⟩ := List.forall_mem_cons.mp plain
    have stays : (scanPlain start c).region = start := by rcases between with rfl | rfl <;> rfl
    obtain ⟨clean, behind⟩ := ih later
    rw [List.cons_append, cleanFrom, cleanFrom, regionAfter, scan_of_plain here,
      scan_of_plain here, skip_scanPlain, stays, clean]
    exact ⟨rfl, behind⟩

section Blank
variable {b : Text} (blank : ∀ c ∈ b, isBlank c = true)
include blank

theorem cleanFrom_of_blank (region : Region) (skip : Nat) :
    ∀ c ∈ cleanFrom region skip b, isBlank c = true := by
  intro c mem
  rcases mem_of_mem_cleanFrom mem with inside | rfl
  · exact blank c inside
  · decide

theorem cleanLine_trailing (start : Region) (number : Nat) (t : Text) :
    Line.ofCleaned number (cleanLine start (t ++ b)) = Line.ofCleaned number (cleanLine start t) ∧
      (regionAfter start 0 (t ++ b)).nextLine = (regionAfter start 0 t).nextLine := by
  have plain : ∀ c ∈ b, isSign c = false := fun c mem => isSign_of_isBlank (blank c mem)
  have free : ∀ c ∈ b.head?, completesMark c = false := fun c first =>
    completesMark_of_plain (plain c (List.mem_of_mem_head? first))
  have within := Nat.zero_le t.length
  constructor
  · have cleaned := cleanFrom_of_blank blank (regionAfter start 0 t) 0
    rw [cleanLine, cleanFrom_append free within]
    exact (Line.ofCleaned_surrounded (a := []) (by simp) cleaned number _).trans
      (Line.movedRight_zero _)
  · rw [regionAfter_append free within, nextLine_regionAfter_of_plain plain]

theorem cleanLine_leading {start : Region} (between : start = .code ∨ start = .blockComment)
    (number : Nat) (t : Text) :
    Line.ofCleaned number (cleanLine start (b ++ t)) =
        (Line.ofCleaned number (cleanLine start t)).movedRight b.length ∧
      regionAfter start 0 (b ++ t) = regionAfter start 0 t := by
  obtain ⟨clean, behind⟩ :=
    cleanFrom_plain_append (fun c mem => isSign_of_isBlank (blank c mem)) between t
  refine ⟨?_, behind⟩
  have moved := Line.ofCleaned_surrounded (b := []) (cleanFrom_of_blank blank start 0) (by simp)
    number (cleanFrom start 0 t)
  rw [List.append_nil, length_cleanFrom] at moved
  rw [cleanLine, clean, moved]
  rfl

end Blank

theorem exists_withoutFinal (c : Char) (t : Text) :
    ∃ e, t = withoutFinal c t ++ e ∧ ∀ d ∈ e, d = c := by
  by_cases last : t.getLast? = some c
  · obtain ⟨u, rfl⟩ := List.getLast?_eq_some_iff.mp last
    exact ⟨[c], by rw [withoutFinal_append], fun d mem => List.mem_singleton.mp mem⟩
  · exact ⟨[], by rw [withoutFinal, if_neg last, List.append_nil], by simp⟩

theorem withoutFinal_return (start : Region) (number : Nat) (t : Text) :
    Line.ofCleaned number (cleanLine start (withoutFinal '\r' t)) =
        Line.ofCleaned number (cleanLine start t) ∧
      (regionAfter start 0 (withoutFinal '\r' t)).nextLine = (regionAfter start 0 t).nextLine := by
  obtain ⟨e, whole, returns⟩ := exists_withoutFinal '\r' t
  have blank : ∀ c ∈ e, isBlank c = true := by
    intro c mem
    rw [returns c mem]
    decide
  obtain ⟨same, behind⟩ := cleanLine_trailing blank start number (withoutFinal '\r' t)
  rw [← whole] at same behind
  exact ⟨same.symm, behind.symm⟩

theorem linesFrom_withoutFinal (number : Nat) (start : Region) (raw : List Text) :
    linesFrom number start (raw.map (withoutFinal '\r')) = linesFrom number start raw := by
  induction raw generalizing number start with
  | nil => rfl
  | cons line rest ih =>
    obtain ⟨same, behind⟩ := withoutFinal_return start number line
    rw [List.map_cons, linesFrom, linesFrom, ih, same, behind]

/-- To the lines as they are read it does not matter whether a carriage return ends them. -/
theorem sourceLines_eq_linesFrom (source : Text) :
    sourceLines source = linesFrom 1 .code (source.splitOn '\n') :=
  linesFrom_withoutFinal 1 .code _

end StructuredText
