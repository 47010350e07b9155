import StructuredText.Proofs.Pou.Reread
import StructuredText.Proofs.Source.Comments

/- Lines that have been read are read again as they are.  A second scan goes through the blanked text
   beside the first one: in a literal where the first was in a literal, and else in code, as there
   is no comment left to be in. -/
namespace StructuredText

def Region.rescanned : Region → Region
  | .quoted mark => .quoted mark
  | _ => .code

theorem scan_space (rest : Text) : scan .code ' ' rest = ⟨' ', .code, 0⟩ := by
  simp [scan]

/-- What has been kept is kept again.  The second scan sees a mark only where the first one saw it,
    as what follows is blanked out if it is not as it was. -/
theorem scan_kept (region : Region) (c : Char) {rest later : Text}
    (next : ∀ d ∈ later.head?, d = ' ' ∨ rest.head? = some d) :
    scan region.rescanned (scan region c rest).kept later =
      ⟨(scan region c rest).kept, (scan region c rest).region.rescanned, 0⟩ := by
  cases region with
  | quoted mark =>
    rw [Region.rescanned, scan, scan]
    split <;> rfl
  | lineComment => exact scan_space later
  | blockComment =>
    rcases scan_blockComment_cases c rest with ⟨same, -⟩ | ⟨same, -⟩
    · rw [same]
      exact scan_space later
    · rw [same]
      exact scan_space later
  | code =>
    rcases scan_code_cases c rest with
      ⟨same, quote⟩ | ⟨same, -⟩ | ⟨same, -⟩ | ⟨same, noQuote, noLine, noBlock⟩
    · rw [same]
      exact if_pos quote
    · rw [same]
      exact scan_space later
    · rw [same]
      exact scan_space later
    · have unmarked {d e : Char} (solid : e ≠ ' ') (free : ¬ (c = d ∧ rest.head? = some e)) :
          ¬ (c = d ∧ later.head? = some e) := by
        rintro ⟨here, first⟩
        rcases next e first with space | same
        · exact solid space
        · exact free ⟨here, same⟩
      rw [same]
      show scan .code c later = ⟨c, .code, 0⟩
      rw [scan, if_neg noQuote, if_neg (unmarked (by decide) noLine),
        if_neg (unmarked (by decide) noBlock)]

theorem head_cleanFrom (region : Region) (skip : Nat) (t : Text) :
    ∀ d ∈ (cleanFrom region skip t).head?, d = ' ' ∨ t.head? = some d := by
  intro d first
  cases t with
  | nil => contradiction
  | cons c t =>
    cases skip with
    | succ skip => exact Or.inl (Option.some.inj first).symm
    | zero =>
      obtain rfl := Option.some.inj first
      exact (kept_cases region c t).symm.imp_right fun same => congrArg some same.symm

theorem rescanned_of_skip {region : Region} {c : Char} {t : Text}
    (skips : (scan region c t).skip ≠ 0) : (scan region c t).region.rescanned = .code := by
  cases region with
  | quoted mark => exact absurd rfl skips
  | lineComment => rfl
  | blockComment =>
    rcases scan_blockComment_cases c t with ⟨same, -⟩ | ⟨same, -⟩ <;> rw [same] <;> rfl
  | code =>
    rcases scan_code_cases c t with ⟨same, -⟩ | ⟨same, -⟩ | ⟨same, -⟩ | ⟨same, -⟩
    · exact absurd (congrArg Scanned.skip same) skips
    · rw [same]
      rfl
    · rw [same]
      rfl
    · rw [same]
      rfl

theorem cleanFrom_cleanFrom {region : Region} {skip : Nat}
    (within : skip ≠ 0 → region.rescanned = .code) (t : Text) :
    cleanFrom region.rescanned 0 (cleanFrom region skip t) = cleanFrom region skip t := by
  induction t generalizing region skip with
  | nil => rfl
  | cons c t ih =>
    cases skip with
    | succ skip =>
      have code := within (Nat.succ_ne_zero skip)
      have later := @ih region skip fun _ => code
      rw [code] at later ⊢
      rw [cleanFrom, cleanFrom, scan_space, later]
    | zero =>
      rw [cleanFrom, cleanFrom, scan_kept region c (head_cleanFrom _ _ t), ih rescanned_of_skip]

/-- Of a text that is clean every piece between blanks is clean. -/
theorem cleanFrom_trim {t : Text} (clean : cleanFrom .code 0 t = t) :
    cleanFrom .code 0 (trim t) = trim t := by
  obtain ⟨a, b, whole, left, right⟩ := exists_trim t
  have plain {s : Text} (blank : ∀ c ∈ s, isBlank c = true) : ∀ c ∈ s, isSign c = false :=
    fun c mem => isSign_of_isBlank (blank c mem)
  have free : ∀ c ∈ b.head?, completesMark c = false := fun c first =>
    completesMark_of_plain (plain right c (List.mem_of_mem_head? first))
  have parts : cleanFrom .code 0 a ++ (cleanFrom .code 0 (trim t) ++
      cleanFrom (regionAfter .code 0 (trim t)) 0 b) = a ++ (trim t ++ b) := by
    rw [← cleanFrom_append free (Nat.zero_le _),
      ← (cleanFrom_plain_append (plain left) (Or.inl rfl) _).1, ← List.append_assoc, ← whole, clean]
  have behind := List.append_inj_right parts (length_cleanFrom ..)
  exact List.append_inj_left behind (length_cleanFrom ..)

theorem clean_of_mem_linesFrom {number : Nat} {start : Region}
    (between : start = .code ∨ start = .blockComment) {raw : List Text} {line : Line}
    (mem : line ∈ linesFrom number start raw) : cleanLine .code line.text = line.text := by
  induction raw generalizing number start with
  | nil => contradiction
  | cons first rest ih =>
    rcases List.mem_cons.mp mem with rfl | mem
    · have code : start.rescanned = .code := by rcases between with rfl | rfl <;> rfl
      have clean := @cleanFrom_cleanFrom start 0 (fun _ => code) first
      rw [code] at clean
      exact cleanFrom_trim clean
    · exact ih (Region.nextLine_cases _) mem

/-- A line that has been read is not cut any further. -/
theorem cut_of_mem_lineTexts {source line : Text} (mem : line ∈ lineTexts source) :
    trim line = line ∧ withoutFinal '\r' line = line := by
  by_cases empty : line = []
  · rw [empty]
    exact ⟨rfl, rfl⟩
  · have trimmed := (lineTexts_facts mem).2 empty
    refine ⟨trim_eq_self trimmed, if_neg fun last => ?_⟩
    obtain ⟨c, last', inner⟩ := trimmed.last
    obtain rfl : '\r' = c := Option.some.inj (last.symm.trans last')
    contradiction

/-- The lines of a source, put one under the other, are a source with the same lines and the same
    unit. -/
theorem lineTexts_joined (source : Text) :
    lineTexts (['\n'].intercalate (lineTexts source)) = lineTexts source ∧
      Pou.ofSource? (['\n'].intercalate (lineTexts source)) = Pou.ofSource? source := by
  have physical : physicalLines (['\n'].intercalate (lineTexts source)) = lineTexts source := by
    have filled : lineTexts source ≠ [] := by
      rw [lineTexts_eq_splitOn]
      exact fun none => List.splitOn_ne_nil _ _ (List.map_eq_nil_iff.mp none)
    rw [physicalLines, List.splitOn_intercalate _ (fun line mem => (lineTexts_facts mem).1) filled,
      List.map_congr_left fun line mem => (cut_of_mem_lineTexts mem).2, List.map_id']
  have clean : opensNoComment (['\n'].intercalate (lineTexts source)) = true := by
    rw [opensNoComment, physical, List.all_eq_true]
    intro line mem
    obtain ⟨l, inside, rfl⟩ := List.mem_map.mp mem
    exact decide_eq_true (clean_of_mem_linesFrom (Or.inl rfl) inside)
  have same : lineTexts (['\n'].intercalate (lineTexts source)) = lineTexts source := by
    rw [lineTexts_of_clean clean, physical,
      List.map_congr_left fun line mem => (cut_of_mem_lineTexts mem).1, List.map_id']
  exact ⟨same, congrArg (fun lines => (readLines lines).pou) same⟩

end StructuredText
