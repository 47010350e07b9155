import StructuredText.Diagram.Pattern
import StructuredText.Proofs.Source.BareLine
import StructuredText.Proofs.Source.Comments

/- Names of known programs in a source.  A name stands in one of the lines as they are read or in a
   comment; only the latter is not seen in the lines, and it is all that tells two sources with the
   same lines apart when they are drawn from patterns. -/
namespace StructuredText

theorem infix_append_cons {word : Text} {c : Char} (free : c ∉ word) (s t : Text) :
    word <:+: s ++ c :: t ↔ word <:+: s ∨ word <:+: t := by
  constructor
  · intro inside
    induction s with
    | nil =>
      rcases List.infix_cons_iff.mp inside with first | later
      · cases word with
        | nil => exact Or.inl List.nil_infix
        | cons d word =>
          obtain rfl := (List.cons_prefix_cons.mp first).1
          exact absurd List.mem_cons_self free
      · exact Or.inr later
    | cons d s ih =>
      rcases List.infix_cons_iff.mp inside with first | later
      · have within : word <+: d :: s := by
          rw [← List.isPrefixOf_iff_prefix, ← isPrefixOf_append free (d :: s) t]
          exact List.isPrefixOf_iff_prefix.mpr first
        exact Or.inl within.isInfix
      · exact (ih later).imp_left fun behind => List.infix_cons behind
  · rintro (left | right)
    · exact left.trans (List.prefix_append s _).isInfix
    · exact right.trans ⟨s ++ [c], [], by simp⟩

def mentions (name t : Text) : Bool := containsText name (t.map Char.toLower)

theorem mentions_iff {name t : Text} :
    mentions name t = true ↔ name <:+: t.map Char.toLower := containsText_iff

theorem isAsciiWord_of_toLower {c : Char} (word : isAsciiWord c.toLower = true) :
    isAsciiWord c = true := by
  by_cases capital : c.isUpper = true
  · change (c.isUpper || c.isLower || c.isDigit || decide (c = '_')) = true
    rw [capital]
    rfl
  · have same : c.toLower = c := dif_neg fun range => capital (decide_eq_true range)
    rwa [same] at word

def commentsFrom (region : Region) (skip : Nat) (t : Text) : Text :=
  List.zipWith (fun c kept => if kept = c then ' ' else c) t (cleanText region skip t)

def commentsOf (source : Text) : Text := commentsFrom .code 0 source

theorem commentsFrom_cons (region : Region) (skip : Nat) (c : Char) (t : Text) :
    commentsFrom region skip (c :: t) =
      (if (scanText region skip c t).kept = c then ' ' else c) ::
        commentsFrom (scanText region skip c t).region (scanText region skip c t).skip t := rfl

def Region.isComment : Region → Bool
  | .lineComment | .blockComment => true
  | _ => false

theorem isSign_of_isAsciiWord {c : Char} (word : isAsciiWord c = true) : isSign c = false :=
  isSign_eq_false (of_all rfl) word

theorem scanText_of_isAsciiWord {c : Char} (word : isAsciiWord c = true) (region : Region)
    (t : Text) : (scanText region 0 c t).skip = 0 ∧
      (scanText region 0 c t).region.isComment = region.isComment ∧
      (scanText region 0 c t).kept = if region.isComment then ' ' else c := by
  have inner : c ≠ '\n' := by
    rintro rfl
    contradiction
  rw [scanText_inner inner, scan_of_plain (isSign_of_isAsciiWord word)]
  refine ⟨skip_scanPlain region c, ?_, ?_⟩
  · cases region with
    | quoted mark =>
      rw [scanPlain]
      dsimp only
      split <;> rfl
    | _ => rfl
  · cases region <;> rfl

def IsAtMark (skip : Nat) (t : Text) : Prop :=
  skip = 0 ∨ skip = 1 ∧ ∃ d ∈ t.head?, completesMark d = true

theorem isAtMark_scanText (region : Region) {skip : Nat} {c : Char} {t : Text}
    (here : IsAtMark skip (c :: t)) : IsAtMark (scanText region skip c t).skip t := by
  unfold scanText
  split
  · exact Or.inl rfl
  · rcases here with rfl | ⟨rfl, -⟩
    · exact skip_cases region c t
    · exact Or.inl rfl

theorem kept_scanText_cases (region : Region) (skip : Nat) (c : Char) (t : Text) :
    (scanText region skip c t).kept = c ∨ (scanText region skip c t).kept = ' ' := by
  by_cases newline : c = '\n'
  · rw [scanText.eq_def, if_pos newline, newline]
    exact Or.inl rfl
  · cases skip with
    | zero =>
      rw [scanText_inner newline]
      exact kept_cases region c t
    | succ skip =>
      rw [scanText.eq_def, if_neg newline]
      exact Or.inr rfl

theorem isBlanked_cleanText (region : Region) (skip : Nat) (t : Text) :
    IsBlanked (cleanText region skip t) t := by
  induction t generalizing region skip with
  | nil => exact .nil
  | cons c t ih => exact .cons (kept_scanText_cases region skip c t) (ih _ _)

theorem isBlanked_commentsFrom (region : Region) (skip : Nat) (t : Text) :
    IsBlanked (commentsFrom region skip t) t := by
  induction t generalizing region skip with
  | nil => exact .nil
  | cons c t ih =>
    rw [commentsFrom_cons]
    refine .cons ?_ (ih _ _)
    split
    · exact Or.inr rfl
    · exact Or.inl rfl

section Name
variable {name : Text} (letters : ∀ c ∈ name, isAsciiWord c = true)
include letters

theorem mention_of_isBlanked {s t : Text} (blanked : IsBlanked s t)
    (inside : name <:+: s.map Char.toLower) : name <:+: t.map Char.toLower := by
  induction blanked with
  | nil => exact inside
  | @cons kept c s t here later ih =>
    rcases List.infix_cons_iff.mp inside with first | inside
    · have solid : Char.toLower ' ' ∉ name := fun mem => absurd (letters _ mem) (by decide)
      exact (isPrefix_of_isBlanked solid (.cons here later) first).isInfix
    · exact List.infix_cons (ih inside)

theorem isPrefix_of_mention (region : Region) {t : Text} (start : name <+: t.map Char.toLower) :
    name <+: (if region.isComment then commentsFrom region 0 t
      else cleanText region 0 t).map Char.toLower := by
  induction name generalizing region t with
  | nil => exact List.nil_prefix
  | cons d name ih =>
    cases t with
    | nil => exact absurd (List.prefix_nil.mp start) (List.cons_ne_nil d name)
    | cons c t =>
      obtain ⟨same, later⟩ := List.cons_prefix_cons.mp start
      obtain ⟨first, others⟩ := List.forall_mem_cons.mp letters
      rw [same] at first
      have word := isAsciiWord_of_toLower first
      obtain ⟨skip, region', kept⟩ := scanText_of_isAsciiWord word region t
      have later' := ih others (scanText region 0 c t).region later
      rw [region'] at later'
      cases comment : region.isComment with
      | true =>
        have blanked : ¬ ' ' = c := by
          rintro rfl
          contradiction
        rw [comment, if_pos rfl] at kept later'
        rw [if_pos rfl, commentsFrom_cons, kept, skip, if_neg blanked]
        exact List.cons_prefix_cons.mpr ⟨same, later'⟩
      | false =>
        rw [comment, if_neg Bool.false_ne_true] at kept later'
        rw [if_neg Bool.false_ne_true, cleanText, kept, skip]
        exact List.cons_prefix_cons.mpr ⟨same, later'⟩

/-- A comment begins and ends with a mark, so no name reaches over its ends. -/
theorem mention_cases {region : Region} {skip : Nat} {t : Text} (atMark : IsAtMark skip t)
    (inside : name <:+: t.map Char.toLower) :
    name <:+: (cleanText region skip t).map Char.toLower ∨
      name <:+: (commentsFrom region skip t).map Char.toLower := by
  induction t generalizing region skip with
  | nil => exact Or.inl inside
  | cons c t ih =>
    rcases List.infix_cons_iff.mp inside with first | later
    · rcases atMark with rfl | ⟨rfl, d, head, mark⟩
      · have whole := isPrefix_of_mention letters region (t := c :: t) first
        split at whole
        · exact Or.inr whole.isInfix
        · exact Or.inl whole.isInfix
      · obtain rfl := Option.some.inj head
        cases name with
        | nil => exact Or.inl List.nil_infix
        | cons e name =>
          have word := letters e List.mem_cons_self
          rw [(List.cons_prefix_cons.mp first).1] at word
          rw [completesMark_of_plain (isSign_of_isAsciiWord (isAsciiWord_of_toLower word))] at mark
          contradiction
    · rw [commentsFrom_cons]
      exact (ih (isAtMark_scanText region atMark) later).imp List.infix_cons List.infix_cons

theorem mention_trim (t : Text) :
    name <:+: (trim t).map Char.toLower ↔ name <:+: t.map Char.toLower := by
  have apart {a : Text} (blank : ∀ c ∈ a, isBlank c = true) :
      ∀ c ∈ a.map Char.toLower, c ∉ name := by
    intro d mem inside
    obtain ⟨c, here, rfl⟩ := List.mem_map.mp mem
    have solid := isBlank_of_isAsciiWord (isAsciiWord_of_toLower (letters _ inside))
    rw [blank c here] at solid
    contradiction
  obtain ⟨a, b, whole, left, right⟩ := exists_trim t
  have parts : t.map Char.toLower =
      a.map Char.toLower ++ (trim t).map Char.toLower ++ b.map Char.toLower := by
    rw [← List.map_append, ← List.map_append, ← whole]
  rw [parts]
  constructor
  · intro inside
    exact inside.trans (List.infix_append _ _ _)
  · intro inside
    exact infix_of_append_left (apart left) (infix_of_append_right (apart right) inside)

theorem mention_splitOn (t : Text) : name <:+: t.map Char.toLower ↔
    ∃ line ∈ t.splitOn '\n', name <:+: line.map Char.toLower := by
  have inLine : '\n' ∉ name := by
    intro mem
    have word := letters _ mem
    contradiction
  induction t using line_induction with
  | last line oneLine => simp [List.splitOn_eq_singleton oneLine]
  | more line rest oneLine ih =>
    have newline : Char.toLower '\n' = '\n' := rfl
    rw [List.splitOn_append_cons_self_of_not_mem oneLine, List.map_append, List.map_cons, newline,
      infix_append_cons inLine, List.exists_mem_cons_iff]
    exact or_congr_right ih

theorem mentions_source (source : Text) : mentions name source = true ↔
    (∃ t ∈ lineTexts source, mentions name t = true) ∨
      mentions name (commentsOf source) = true := by
  have inLines : (∃ t ∈ lineTexts source, mentions name t = true) ↔
      name <:+: (cleanText .code 0 source).map Char.toLower := by
    rw [lineTexts_eq_splitOn, mention_splitOn letters]
    simp only [List.mem_map, exists_exists_and_eq_and, mentions_iff, mention_trim letters]
  rw [inLines, mentions_iff, mentions_iff, commentsOf]
  constructor
  · exact mention_cases letters (Or.inl rfl)
  · rintro (kept | comment)
    · exact mention_of_isBlanked letters (isBlanked_cleanText .code 0 source) kept
    · exact mention_of_isBlanked letters (isBlanked_commentsFrom .code 0 source) comment

end Name

def programNames : List Text := ["systemsafe", "emergencystop", "conveyormotor"].map String.toList

theorem isAsciiWord_of_mem_programNames {name : Text} (mem : name ∈ programNames) :
    ∀ c ∈ name, isAsciiWord c = true :=
  of_all_words (by decide) name mem

theorem knownProgram?_congr {s s' : Text}
    (same : ∀ name ∈ programNames, mentions name s = mentions name s') :
    knownProgram? s = knownProgram? s' := by
  have safe := same "systemsafe".toList (by decide)
  have stop := same "emergencystop".toList (by decide)
  have motor := same "conveyormotor".toList (by decide)
  rw [mentions, mentions] at safe stop motor
  rw [knownProgram?, knownProgram?, safe, stop, motor]

theorem knownProgram?_cases {s : Text} {d : Diagram Position} (known : knownProgram? s = some d) :
    d = safetyMonitor ∨ d = conveyorMotor := by
  simp only [knownProgram?] at known
  split at known
  · exact Or.inl (Option.some.inj known).symm
  · split at known
    · exact Or.inr (Option.some.inj known).symm
    · contradiction

/-- The diagrams of the known programs do not keep to the grid. -/
theorem knownProgram?_ne_arrange {s : Text} {d : Diagram Position}
    (known : knownProgram? s = some d) {Place : Type} (nodes : List (Node Place)) :
    d.nodes ≠ Grid.standard.arrange nodes := by
  have second : d.nodes[1]?.map (·.place.x) = some (LReal.ofInt 300) := by
    rcases knownProgram?_cases known with rfl | rfl <;> rfl
  intro same
  rw [same, Grid.arrange, List.getElem?_mapIdx] at second
  cases there : nodes[1]? with
  | none =>
    rw [there] at second
    contradiction
  | some n =>
    rw [there] at second
    have column : (Grid.standard.position 1).x = LReal.ofInt 300 := Option.some.inj second
    have off : (Grid.standard.position 1).x ≠ LReal.ofInt 300 := by decide
    exact off column

theorem patternDiagram_of_known {s : Text} {d : Diagram Position}
    (known : knownProgram? s = some d) : patternDiagram s = d := by
  rw [patternDiagram, known]

theorem patternDiagram_of_unknown {s : Text} (unknown : knownProgram? s = none) :
    patternDiagram s = ⟨Grid.standard.arrange (patternDraft s).nodes, (patternDraft s).edges⟩ := by
  rw [patternDiagram, unknown]

/-- Sources with the same lines are drawn alike exactly if they are known as the same program, or as
    none.  For that it is enough that their comments name the same programs, as when they name
    none at all. -/
theorem patternDiagram_of_lineTexts {s s' : Text} (lines : lineTexts s = lineTexts s') :
    (patternDiagram s = patternDiagram s' ↔ knownProgram? s = knownProgram? s') ∧
      ((∀ name ∈ programNames, mentions name (commentsOf s) = mentions name (commentsOf s')) →
        patternDiagram s = patternDiagram s') := by
  have alike (same : knownProgram? s = knownProgram? s') :
      patternDiagram s = patternDiagram s' := by
    rw [patternDiagram, patternDiagram, same, patternDraft, patternDraft, lines]
  refine ⟨⟨fun drawn => ?_, alike⟩, fun comments => alike (knownProgram?_congr ?_)⟩
  · cases known : knownProgram? s with
    | none =>
      cases known' : knownProgram? s' with
      | none => rfl
      | some d' =>
        rw [patternDiagram_of_unknown known, patternDiagram_of_known known'] at drawn
        exact absurd (congrArg Diagram.nodes drawn.symm) (knownProgram?_ne_arrange known' _)
    | some d =>
      cases known' : knownProgram? s' with
      | none =>
        rw [patternDiagram_of_known known, patternDiagram_of_unknown known'] at drawn
        exact absurd (congrArg Diagram.nodes drawn) (knownProgram?_ne_arrange known _)
      | some d' =>
        rw [patternDiagram_of_known known, patternDiagram_of_known known'] at drawn
        rw [drawn]
  · intro name mem
    have letters := isAsciiWord_of_mem_programNames mem
    rw [Bool.eq_iff_iff, mentions_source letters s, mentions_source letters s', lines,
      comments name mem]

/-- A rung below a timer that is commented out, and the rung laid out in another way. -/
theorem patternDiagram_of_lineTexts_rung :
    let s := "// Timer1(IN := Start, PT := T#5s);\nMotor := A AND B;".toList
    let s' := " (* no timer *)\r\n\tMotor := A AND B; // the drive\r".toList
    lineTexts s = lineTexts s' ∧ patternDiagram s = patternDiagram s' := by
  intro s s'
  have lines : lineTexts s = lineTexts s' := by decide
  have comments : ∀ name ∈ programNames,
      mentions name (commentsOf s) = mentions name (commentsOf s') := by decide
  exact ⟨lines, (patternDiagram_of_lineTexts lines).2 comments⟩

/-- A call that is commented out is drawn all the same if it is that of a known program. -/
theorem patternDiagram_ne_of_lineTexts :
    let s := "// ConveyorMotor(Start := Run);".toList
    lineTexts s = lineTexts [] ∧ patternDiagram s ≠ patternDiagram [] := by
  decide

end StructuredText
