import Mathlib.Data.List.Forall2
import StructuredText.Source.Line

/- Lines read one after another.  The only thing that one line leaves for the next is whether a
   block comment is open. -/
namespace StructuredText

def regionBehind : Region → List Text → Region
  | start, [] => start
  | start, raw :: rest => regionBehind (regionAfter start 0 raw).nextLine rest

def endsInComment (source : Text) : Bool :=
  regionBehind .code (physicalLines source) = .blockComment

theorem Region.nextLine_cases (region : Region) :
    region.nextLine = .code ∨ region.nextLine = .blockComment := by
  cases region with
  | blockComment => exact Or.inr rfl
  | _ => exact Or.inl rfl

theorem regionBehind_cases {start : Region} (between : start = .code ∨ start = .blockComment)
    (raw : List Text) :
    regionBehind start raw = .code ∨ regionBehind start raw = .blockComment := by
  induction raw generalizing start with
  | nil => exact between
  | cons line rest ih => exact ih (Region.nextLine_cases _)

theorem regionBehind_eq_code {source : Text} (closed : endsInComment source = false) :
    regionBehind .code (physicalLines source) = .code := by
  rcases regionBehind_cases (Or.inl rfl) (physicalLines source) with code | comment
  · exact code
  · exact absurd comment (of_decide_eq_false closed)

theorem linesFrom_append (number : Nat) (start : Region) (first second : List Text) :
    linesFrom number start (first ++ second) = linesFrom number start first ++
      linesFrom (number + first.length) (regionBehind start first) second := by
  induction first generalizing number start with
  | nil => rfl
  | cons raw rest ih =>
    rw [List.cons_append, linesFrom, ih, linesFrom, List.cons_append, regionBehind,
      List.length_cons, Nat.add_assoc, Nat.add_comm 1]

theorem scan_code_cases (c : Char) (rest : Text) :
    scan .code c rest = ⟨c, .quoted c, 0⟩ ∧ (c = '\'' ∨ c = '"') ∨
      scan .code c rest = ⟨' ', .lineComment, 0⟩ ∧ c = '/' ∧ rest.head? = some '/' ∨
      scan .code c rest = ⟨' ', .blockComment, 1⟩ ∧ c = '(' ∧ rest.head? = some '*' ∨
      scan .code c rest = ⟨c, .code, 0⟩ ∧ ¬ (c = '\'' ∨ c = '"') ∧
        ¬ (c = '/' ∧ rest.head? = some '/') ∧ ¬ (c = '(' ∧ rest.head? = some '*') := by
  rw [scan]
  split
  · next quote => exact Or.inl ⟨rfl, quote⟩
  · next noQuote =>
    split
    · next line => exact Or.inr (Or.inl ⟨rfl, line⟩)
    · next noLine =>
      split
      · next block => exact Or.inr (Or.inr (Or.inl ⟨rfl, block⟩))
      · next noBlock => exact Or.inr (Or.inr (Or.inr ⟨rfl, noQuote, noLine, noBlock⟩))

theorem scan_blockComment_cases (c : Char) (rest : Text) :
    scan .blockComment c rest = ⟨' ', .code, 1⟩ ∧ c = '*' ∧ rest.head? = some ')' ∨
      scan .blockComment c rest = ⟨' ', .blockComment, 0⟩ ∧
        ¬ (c = '*' ∧ rest.head? = some ')') := by
  rw [scan]
  split
  · next closes => exact Or.inl ⟨rfl, closes⟩
  · next stays => exact Or.inr ⟨rfl, stays⟩

theorem kept_cases (region : Region) (c : Char) (rest : Text) :
    (scan region c rest).kept = c ∨ (scan region c rest).kept = ' ' := by
  cases region with
  | quoted mark => exact Or.inl rfl
  | lineComment => exact Or.inr rfl
  | blockComment =>
    rcases scan_blockComment_cases c rest with ⟨same, -⟩ | ⟨same, -⟩
    · exact Or.inr (congrArg Scanned.kept same)
    · exact Or.inr (congrArg Scanned.kept same)
  | code =>
    rcases scan_code_cases c rest with ⟨same, -⟩ | ⟨same, -⟩ | ⟨same, -⟩ | ⟨same, -⟩
    · exact Or.inl (congrArg Scanned.kept same)
    · exact Or.inr (congrArg Scanned.kept same)
    · exact Or.inr (congrArg Scanned.kept same)
    · exact Or.inl (congrArg Scanned.kept same)

abbrev IsBlanked : Text → Text → Prop := List.Forall₂ fun kept c => kept = c ∨ kept = ' '

theorem isBlanked_cleanFrom (region : Region) (skip : Nat) (t : Text) :
    IsBlanked (cleanFrom region skip t) t := by
  induction t generalizing region skip with
  | nil => exact .nil
  | cons c t ih =>
    cases skip with
    | succ skip => exact .cons (Or.inr rfl) (ih region skip)
    | zero => exact .cons (kept_cases region c t) (ih _ _)

/-- A word without spaces that is still there has always been there. -/
theorem isPrefix_of_isBlanked {read : Char → Char} {word s t : Text} (solid : read ' ' ∉ word)
    (blanked : IsBlanked s t) (start : word <+: s.map read) : word <+: t.map read := by
  induction word generalizing s t with
  | nil => exact List.nil_prefix
  | cons d word ih =>
    rw [List.mem_cons, not_or] at solid
    cases blanked with
    | nil => exact start
    | @cons kept c s t here later =>
      obtain ⟨same, start⟩ := List.cons_prefix_cons.mp start
      rcases here with rfl | rfl
      · exact List.cons_prefix_cons.mpr ⟨same, ih solid.2 later start⟩
      · exact absurd same.symm solid.1

theorem mem_of_mem_cleanFrom {region : Region} {skip : Nat} {t : Text} {c : Char}
    (mem : c ∈ cleanFrom region skip t) : c ∈ t ∨ c = ' ' := by
  induction t generalizing region skip with
  | nil => contradiction
  | cons d t ih =>
    cases skip with
    | succ skip =>
      rcases List.mem_cons.mp mem with rfl | mem
      · exact Or.inr rfl
      · exact (ih mem).imp_left (List.mem_cons_of_mem d)
    | zero =>
      rcases List.mem_cons.mp mem with rfl | mem
      · exact (kept_cases region d t).imp_left fun same => by rw [same]; exact List.mem_cons_self
      · exact (ih mem).imp_left (List.mem_cons_of_mem d)

theorem texts_linesFrom (number number' : Nat) (start : Region) (raw : List Text) :
    (linesFrom number start raw).map (·.text) = (linesFrom number' start raw).map (·.text) := by
  induction raw generalizing number number' start with
  | nil => rfl
  | cons line rest ih =>
    rw [linesFrom, linesFrom, List.map_cons, List.map_cons, ih (number + 1) (number' + 1)]
    rfl

theorem physicalLines_append (first second : Text) :
    physicalLines (first ++ '\n' :: second) = physicalLines first ++ physicalLines second := by
  rw [physicalLines, List.splitOn_append_cons_self, List.map_append]
  rfl

theorem lineTexts_append {first : Text} (closed : endsInComment first = false) (second : Text) :
    lineTexts (first ++ '\n' :: second) = lineTexts first ++ lineTexts second := by
  rw [lineTexts, sourceLines, physicalLines_append, linesFrom_append, regionBehind_eq_code closed,
    List.map_append, texts_linesFrom _ 1 .code (physicalLines second)]
  rfl

theorem scan_of_kept {start : Region} (outside : start ≠ .lineComment ∧ start ≠ .blockComment)
    {c : Char} {rest : Text} (kept : (scan start c rest).kept = c) :
    (scan start c rest).skip = 0 ∧ (scan start c rest).region ≠ .lineComment ∧
      (scan start c rest).region ≠ .blockComment := by
  cases start with
  | quoted mark =>
    rw [scan]
    refine ⟨rfl, ?_⟩
    split <;> exact ⟨nofun, nofun⟩
  | lineComment => exact absurd rfl outside.1
  | blockComment => exact absurd rfl outside.2
  | code =>
    rcases scan_code_cases c rest with
      ⟨same, -⟩ | ⟨same, rfl, -⟩ | ⟨same, rfl, -⟩ | ⟨same, -⟩ <;> rw [same] at kept ⊢
    · exact ⟨rfl, nofun, nofun⟩
    · exact absurd kept (by decide)
    · exact absurd kept (by decide)
    · exact ⟨rfl, nofun, nofun⟩

theorem regionAfter_of_clean {start : Region}
    (outside : start ≠ .lineComment ∧ start ≠ .blockComment) {t : Text}
    (clean : cleanFrom start 0 t = t) : regionAfter start 0 t ≠ .blockComment := by
  induction t generalizing start with
  | nil => exact outside.2
  | cons c t ih =>
    rw [cleanFrom, List.cons.injEq] at clean
    obtain ⟨skip, outside⟩ := scan_of_kept outside clean.1
    rw [skip] at clean
    rw [regionAfter, skip]
    exact ih outside clean.2

def opensNoComment (source : Text) : Bool :=
  (physicalLines source).all fun raw => cleanLine .code raw = raw

theorem lineTexts_of_clean {source : Text} (clean : opensNoComment source = true) :
    lineTexts source = (physicalLines source).map trim := by
  simp only [opensNoComment, List.all_eq_true, decide_eq_true_eq] at clean
  rw [lineTexts, sourceLines]
  generalize physicalLines source = raw at clean ⊢
  generalize 1 = number
  induction raw generalizing number with
  | nil => rfl
  | cons line rest ih =>
    obtain ⟨here, later⟩ := List.forall_mem_cons.mp clean
    have next : (regionAfter .code 0 line).nextLine = .code := by
      rcases Region.nextLine_cases (regionAfter .code 0 line) with code | comment
      · exact code
      · have stays := regionAfter_of_clean (by decide) here
        cases after : regionAfter .code 0 line <;> simp_all [Region.nextLine]
    rw [linesFrom, here, next, List.map_cons, ih later]
    rfl

theorem text_at_number {number : Nat} {start : Region} {raw : List Text} {line : Line}
    (mem : line ∈ linesFrom number start raw) : number ≤ line.number ∧
      ((linesFrom number start raw).map (·.text))[line.number - number]? = some line.text := by
  induction raw generalizing number start with
  | nil => contradiction
  | cons first rest ih =>
    rw [linesFrom] at mem ⊢
    rcases List.mem_cons.mp mem with rfl | mem
    · have here : (Line.ofCleaned number (cleanLine start first)).number = number := rfl
      rw [here, Nat.sub_self]
      exact ⟨Nat.le_refl _, rfl⟩
    · obtain ⟨later, text⟩ := ih mem
      have next : line.number - number = line.number - (number + 1) + 1 := by omega
      rw [next, List.map_cons, List.getElem?_cons_succ]
      exact ⟨by omega, text⟩

end StructuredText
