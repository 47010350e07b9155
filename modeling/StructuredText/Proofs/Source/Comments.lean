import StructuredText.Pou.Reading
import StructuredText.Proofs.Source.Blanks
import StructuredText.Validation

/- A whole text scanned at once.  Its lines are those of the text with the comments blanked out, and
   in a block comment nothing counts but where its lines end. -/
namespace StructuredText

def scanText (region : Region) (skip : Nat) (c : Char) (rest : Text) : Scanned :=
  if c = '\n' then ⟨'\n', region.nextLine, 0⟩
  else match skip with
    | 0 => scan region c rest
    | skip + 1 => ⟨' ', region, skip⟩

def cleanText : Region → Nat → Text → Text
  | _, _, [] => []
  | region, skip, c :: rest =>
    (scanText region skip c rest).kept ::
      cleanText (scanText region skip c rest).region (scanText region skip c rest).skip rest

def regionBehindText : Region → Nat → Text → Region
  | region, _, [] => region
  | region, skip, c :: rest =>
    regionBehindText (scanText region skip c rest).region (scanText region skip c rest).skip rest

theorem line_induction {motive : Text → Prop} (last : ∀ line, '\n' ∉ line → motive line)
    (more : ∀ line rest, '\n' ∉ line → motive rest → motive (line ++ '\n' :: rest)) (t : Text) :
    motive t := by
  induction size : t.length using Nat.strongRecOn generalizing t with
  | ind n ih =>
    by_cases mem : '\n' ∈ t
    · obtain ⟨line, rest, rfl, free⟩ := List.eq_append_cons_of_mem mem
      have shorter : rest.length < n := by
        rw [← size, List.length_append, List.length_cons]
        omega
      exact more line rest free (ih _ shorter rest rfl)
    · exact last t mem

section Append
variable {b : Text} (free : ∀ c ∈ b.head?, completesMark c = false)
include free

theorem scanText_append (region : Region) (skip : Nat) (c : Char) (t : Text) :
    scanText region skip c (t ++ b) = scanText region skip c t := by
  cases skip with
  | zero => rw [scanText, scanText, scan_append free]
  | succ skip => rfl

omit free in
theorem skip_scanText_le {region : Region} {skip : Nat} {c : Char} {t : Text}
    (within : skip ≤ (c :: t).length) : (scanText region skip c t).skip ≤ t.length := by
  unfold scanText
  split
  · exact Nat.zero_le _
  · cases skip with
    | zero => exact skip_le region c t
    | succ skip => exact Nat.le_of_succ_le_succ within

theorem cleanText_append {region : Region} {skip : Nat} {t : Text} (within : skip ≤ t.length) :
    cleanText region skip (t ++ b) =
      cleanText region skip t ++ cleanText (regionBehindText region skip t) 0 b := by
  induction t generalizing region skip with
  | nil =>
    obtain rfl := Nat.le_zero.mp within
    rfl
  | cons c t ih =>
    rw [List.cons_append, cleanText, scanText_append free, ih (skip_scanText_le within)]
    rfl

end Append

theorem scanText_inner {c : Char} (inner : c ≠ '\n') (region : Region) (rest : Text) :
    scanText region 0 c rest = scan region c rest := if_neg inner

theorem free_cons {c : Char} (other : completesMark c = false) (rest : Text) :
    ∀ d ∈ (c :: rest).head?, completesMark d = false := by
  intro d first
  obtain rfl := Option.some.inj first
  exact other

section Line
variable {line : Text} (oneLine : '\n' ∉ line)
include oneLine

theorem cleanText_line (region : Region) (skip : Nat) :
    cleanText region skip line = cleanFrom region skip line := by
  induction line generalizing region skip with
  | nil => rfl
  | cons c line ih =>
    rw [List.mem_cons, not_or] at oneLine
    have inner := Ne.symm oneLine.1
    cases skip with
    | zero => rw [cleanText, cleanFrom, scanText_inner inner, ih oneLine.2]
    | succ skip => rw [cleanText, cleanFrom, scanText, if_neg inner, ih oneLine.2]

theorem regionBehindText_line (region : Region) (skip : Nat) :
    regionBehindText region skip line = regionAfter region skip line := by
  induction line generalizing region skip with
  | nil => rw [regionBehindText, regionAfter]
  | cons c line ih =>
    rw [List.mem_cons, not_or] at oneLine
    have inner := Ne.symm oneLine.1
    cases skip with
    | zero => rw [regionBehindText, regionAfter, scanText_inner inner, ih oneLine.2]
    | succ skip => rw [regionBehindText, regionAfter, scanText, if_neg inner, ih oneLine.2]

theorem cleanText_append_line (region : Region) (rest : Text) :
    cleanText region 0 (line ++ '\n' :: rest) = cleanLine region line ++
      '\n' :: cleanText (regionAfter region 0 line).nextLine 0 rest := by
  rw [cleanText_append (free_cons rfl rest) (Nat.zero_le _), cleanText_line oneLine,
    regionBehindText_line oneLine]
  rfl

theorem not_mem_cleanLine (region : Region) : '\n' ∉ cleanLine region line := by
  intro mem
  rcases mem_of_mem_cleanFrom mem with inside | blank
  · exact oneLine inside
  · contradiction

end Line

theorem linesFrom_splitOn (number : Nat) (start : Region) (t : Text) :
    linesFrom number start (t.splitOn '\n') = ((cleanText start 0 t).splitOn '\n').mapIdx
      fun i cleaned => Line.ofCleaned (number + i) cleaned := by
  induction t using line_induction generalizing number start with
  | last line oneLine =>
    rw [cleanText_line oneLine, ← cleanLine, List.splitOn_eq_singleton oneLine,
      List.splitOn_eq_singleton (not_mem_cleanLine oneLine start)]
    rfl
  | more line rest oneLine ih =>
    rw [List.splitOn_append_cons_self_of_not_mem oneLine, linesFrom, ih,
      cleanText_append_line oneLine,
      List.splitOn_append_cons_self_of_not_mem (not_mem_cleanLine oneLine start), List.mapIdx_cons]
    simp only [Nat.add_zero, Nat.add_assoc, Nat.add_comm 1]

/-- The lines of a source are those of the source without its comments. -/
theorem sourceLines_eq_cleanText (source : Text) :
    sourceLines source = ((cleanText .code 0 source).splitOn '\n').mapIdx
      fun i cleaned => Line.ofCleaned (1 + i) cleaned := by
  rw [sourceLines_eq_linesFrom, linesFrom_splitOn]

theorem lineTexts_eq_splitOn (source : Text) :
    lineTexts source = ((cleanText .code 0 source).splitOn '\n').map trim := by
  apply List.ext_getElem?
  intro i
  rw [lineTexts, sourceLines_eq_cleanText, List.getElem?_map, List.getElem?_mapIdx,
    List.getElem?_map, Option.map_map]
  rfl

def blankedOut (t : Text) : Text := t.map fun c => if c = '\n' then '\n' else ' '

theorem cleanText_blockComment {body : Text} (unclosed : ¬ "*)".toList <:+: body) (rest : Text) :
    cleanText .blockComment 0 (body ++ "*)".toList ++ rest) =
      blankedOut body ++ "  ".toList ++ cleanText .code 0 rest := by
  induction body with
  | nil => rfl
  | cons c body ih =>
    rw [List.infix_cons_iff, not_or] at unclosed
    have stays : scanText .blockComment 0 c (body ++ "*)".toList ++ rest) =
        ⟨if c = '\n' then '\n' else ' ', .blockComment, 0⟩ := by
      by_cases newline : c = '\n'
      · rw [scanText, if_pos newline, if_pos newline]
        rfl
      · have open_ : ¬ (c = '*' ∧ (body ++ "*)".toList ++ rest).head? = some ')') := by
          rintro ⟨rfl, next⟩
          cases body with
          | nil =>
            have same : '*' = ')' := Option.some.inj next
            contradiction
          | cons d body =>
            obtain rfl : d = ')' := by simpa using next
            exact unclosed.1 ⟨body, rfl⟩
        rw [scanText_inner newline, scan, if_neg open_, if_neg newline]
    rw [List.cons_append, List.cons_append, cleanText, stays, ih unclosed.2]
    rfl

def withComment (before body behind : Text) : Text :=
  before ++ "(*".toList ++ body ++ "*)".toList ++ behind

theorem cleanText_withComment {before : Text} (code : regionBehindText .code 0 before = .code)
    {body : Text} (unclosed : ¬ "*)".toList <:+: body) (behind : Text) :
    cleanText .code 0 (withComment before body behind) =
      cleanText .code 0 before ++ "  ".toList ++ blankedOut body ++ "  ".toList ++
        cleanText .code 0 behind := by
  have free : ∀ c ∈ ("(*".toList ++ (body ++ "*)".toList ++ behind)).head?,
      completesMark c = false := free_cons (c := '(') rfl _
  have opened : cleanText .code 0 ("(*".toList ++ (body ++ "*)".toList ++ behind)) =
      "  ".toList ++ cleanText .blockComment 0 (body ++ "*)".toList ++ behind) := rfl
  have joined : withComment before body behind =
      before ++ ("(*".toList ++ (body ++ "*)".toList ++ behind)) := by
    simp only [withComment, List.append_assoc]
  rw [joined, cleanText_append free (Nat.zero_le _), code, opened,
    cleanText_blockComment unclosed]
  simp only [List.append_assoc]

theorem blankedOut_eq {body body' : Text} (length : body.length = body'.length)
    (breaks : ∀ i : Nat, body[i]? = some '\n' ↔ body'[i]? = some '\n') :
    blankedOut body = blankedOut body' := by
  apply List.ext_getElem?
  intro i
  have here := breaks i
  rw [blankedOut, blankedOut, List.getElem?_map, List.getElem?_map]
  by_cases inside : i < body.length
  · have inside' : i < body'.length := length ▸ inside
    rw [List.getElem?_eq_getElem inside, List.getElem?_eq_getElem inside'] at here ⊢
    simp only [Option.some.injEq] at here
    simp only [Option.map_some, here]
  · rw [List.getElem?_eq_none (Nat.le_of_not_lt inside),
      List.getElem?_eq_none (length ▸ Nat.le_of_not_lt inside)]

/-- Of a block comment that opens in code nothing is seen but how long it is and where lines end in
    it: whatever else it says, a source has the same lines, and is read and validated the same. -/
theorem sourceLines_withComment {before : Text} (code : regionBehindText .code 0 before = .code)
    {body body' : Text} (length : body.length = body'.length)
    (breaks : ∀ i : Nat, body[i]? = some '\n' ↔ body'[i]? = some '\n')
    (unclosed : ¬ "*)".toList <:+: body) (unclosed' : ¬ "*)".toList <:+: body')
    (behind : Text) :
    sourceLines (withComment before body behind) = sourceLines (withComment before body' behind) ∧
      Pou.ofSource? (withComment before body behind) =
        Pou.ofSource? (withComment before body' behind) ∧
      ∀ extraTypes, validate extraTypes (withComment before body behind) =
        validate extraTypes (withComment before body' behind) := by
  have same : sourceLines (withComment before body behind) =
      sourceLines (withComment before body' behind) := by
    rw [sourceLines_eq_cleanText, sourceLines_eq_cleanText, cleanText_withComment code unclosed,
      cleanText_withComment code unclosed', blankedOut_eq length breaks]
  refine ⟨same, ?_, fun extraTypes => ?_⟩
  · exact congrArg (fun lines => (readLines (lines.map (·.text))).pou) same
  · rw [validate, validate, same]

/-- The words of a comment, and signs that mean nothing in it, next to a line in quotation marks. -/
theorem sourceLines_withComment_signs :
    let before := "s := '(*';\nx := 1; ".toList
    let body := " the old\n value ".toList
    let body' := ")//'\"(* \nIF a **".toList
    regionBehindText .code 0 before = .code ∧
      (∀ i : Nat, body[i]? = some '\n' ↔ body'[i]? = some '\n') ∧
      sourceLines (withComment before body " y := 2;".toList) =
        sourceLines (withComment before body' " y := 2;".toList) := by
  intro before body body'
  have code : regionBehindText .code 0 before = .code := by decide
  have length : body.length = body'.length := by decide
  have within : ∀ i < body.length, body[i]? = some '\n' ↔ body'[i]? = some '\n' := by
    decide
  have breaks (i : Nat) : body[i]? = some '\n' ↔ body'[i]? = some '\n' := by
    rcases Nat.lt_or_ge i body.length with inside | behind
    · exact within i inside
    · rw [List.getElem?_eq_none behind, List.getElem?_eq_none (length ▸ behind)]
  have unclosed : ¬ "*)".toList <:+: body := by decide +kernel
  have unclosed' : ¬ "*)".toList <:+: body' := by decide +kernel
  exact ⟨code, breaks, (sourceLines_withComment code length breaks unclosed unclosed' _).1⟩

end StructuredText
