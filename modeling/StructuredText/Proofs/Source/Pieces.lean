import Mathlib.Data.List.TakeWhile
import StructuredText.Proofs.Source.BareLine
import StructuredText.Proofs.Source.Literal

/- What a source consists of: characters of code, literals and comments, one behind the other.  A
   literal ends at its mark, a comment of the first kind at the end of the line, one of the second
   kind at the first `*)`.  Cleaning blanks out the comments and nothing else. -/
namespace StructuredText

inductive Piece
  | code (c : Char)
  | literal (mark : Char) (contents : Text)
  | openLiteral (mark : Char) (contents : Text)
  | lineComment (body : Text)
  | blockComment (body : Text)
  | openComment (body : Text)

namespace Piece

def text : Piece → Text
  | .code c => [c]
  | .literal mark contents => mark :: (contents ++ [mark])
  | .openLiteral mark contents => mark :: contents
  | .lineComment body => "//".toList ++ body
  | .blockComment body => "(*".toList ++ body ++ "*)".toList
  | .openComment body => "(*".toList ++ body

def isComment : Piece → Bool
  | .lineComment _ | .blockComment _ | .openComment _ => true
  | _ => false

/-- What makes a piece, and what can follow it: a literal without its second mark and a comment of
    the first kind go on to the end of the line, an open comment goes on to the end of the text. -/
def Fits (behind : Text) : Piece → Prop
  | .code c => ¬ IsQuote c ∧ ¬ "//".toList <+: c :: behind ∧ ¬ "(*".toList <+: c :: behind
  | .literal mark contents => IsQuote mark ∧ IsContents mark contents
  | .openLiteral mark contents =>
    IsQuote mark ∧ IsContents mark contents ∧ ∀ c ∈ behind.head?, c = '\n'
  | .lineComment body => '\n' ∉ body ∧ ∀ c ∈ behind.head?, c = '\n'
  | .blockComment body => ¬ "*)".toList <:+: body
  | .openComment body => ¬ "*)".toList <:+: body ∧ behind = []

def cleaned (piece : Piece) : Text :=
  if piece.isComment then blankedOut piece.text else piece.text

end Piece

def piecesText (pieces : List Piece) : Text := pieces.flatMap (·.text)

inductive AreFitting : List Piece → Prop
  | nil : AreFitting []
  | cons {piece : Piece} {rest : List Piece} (here : piece.Fits (piecesText rest))
    (later : AreFitting rest) : AreFitting (piece :: rest)

theorem exists_first_infix {word t : Text} (filled : word ≠ []) (inside : word <:+: t) :
    ∃ before behind, t = before ++ word ++ behind ∧ ¬ word <:+: before := by
  induction t with
  | nil => exact absurd (List.infix_nil.mp inside) filled
  | cons c t ih =>
    by_cases here : word <+: c :: t
    · obtain ⟨behind, same⟩ := here
      exact ⟨[], behind, same.symm, fun empty => filled (List.infix_nil.mp empty)⟩
    · obtain ⟨before, behind, rfl, first⟩ := ih ((List.infix_cons_iff.mp inside).resolve_left here)
      refine ⟨c :: before, behind, rfl, fun earlier => ?_⟩
      rcases List.infix_cons_iff.mp earlier with start | later
      · rw [List.append_assoc] at here
        exact here (start.trans (List.prefix_append (c :: before) (word ++ behind)))
      · exact first later

theorem exists_upTo (stops : Char → Bool) (t : Text) : ∃ before behind, t = before ++ behind ∧
    (∀ c ∈ before, stops c = false) ∧ ∀ c ∈ behind.head?, stops c = true := by
  refine ⟨t.takeWhile (! stops ·), t.dropWhile (! stops ·),
    (List.takeWhile_append_dropWhile ..).symm, ?_, ?_⟩
  · intro c mem
    simpa using List.mem_takeWhile_imp mem
  · intro c first
    have stopped := List.head?_dropWhile_not (! stops ·) t
    rw [Option.mem_def.mp first] at stopped
    simpa using stopped

theorem exists_piece_quote {mark : Char} (quote : IsQuote mark) (t : Text) :
    ∃ piece behind, mark :: t = Piece.text piece ++ behind ∧ piece.Fits behind := by
  obtain ⟨contents, behind, rfl, inner, ends⟩ := exists_upTo (fun c => c == mark || c == '\n') t
  have inside : IsContents mark contents := by
    constructor
    · intro mem
      simpa using inner mark mem
    · intro mem
      simpa using inner '\n' mem
  cases behind with
  | nil => exact ⟨.openLiteral mark contents, [], by simp [Piece.text], quote, inside, by simp⟩
  | cons c behind =>
    by_cases closed : c = mark
    · refine ⟨.literal mark contents, behind, by simp [Piece.text, closed], quote, inside⟩
    · have newline : c = '\n' := by simpa [closed] using ends c rfl
      exact ⟨.openLiteral mark contents, c :: behind, rfl, quote, inside, by simp [newline]⟩

theorem exists_piece (c : Char) (t : Text) :
    ∃ piece behind, c :: t = Piece.text piece ++ behind ∧ piece.Fits behind := by
  by_cases quote : IsQuote c
  · exact exists_piece_quote quote t
  by_cases line : "//".toList <+: c :: t
  · obtain ⟨u, same⟩ := line
    obtain ⟨body, behind, rfl, inner, ends⟩ := exists_upTo (· == '\n') u
    refine ⟨.lineComment body, behind, ?_, fun mem => ?_, fun c first => ?_⟩
    · rw [← same, Piece.text, List.append_assoc]
    · simpa using inner '\n' mem
    · simpa using ends c first
  by_cases block : "(*".toList <+: c :: t
  · obtain ⟨u, same⟩ := block
    by_cases closed : "*)".toList <:+: u
    · obtain ⟨body, behind, rfl, first⟩ := exists_first_infix (by decide) closed
      refine ⟨.blockComment body, behind, ?_, first⟩
      rw [← same, Piece.text]
      simp only [List.append_assoc]
    · exact ⟨.openComment u, [], by rw [← same, Piece.text, List.append_nil], closed, rfl⟩
  · exact ⟨.code c, t, rfl, quote, line, block⟩

theorem Piece.text_ne_nil (piece : Piece) : piece.text ≠ [] := by
  cases piece <;> exact List.cons_ne_nil _ _

/-- Every text consists of pieces. -/
theorem exists_pieces (t : Text) : ∃ pieces, AreFitting pieces ∧ piecesText pieces = t := by
  induction size : t.length using Nat.strongRecOn generalizing t with
  | ind n ih =>
    cases t with
    | nil => exact ⟨[], .nil, rfl⟩
    | cons c t =>
      obtain ⟨piece, behind, split, fits⟩ := exists_piece c t
      have filled := List.length_pos_iff.mpr piece.text_ne_nil
      have shorter : behind.length < n := by
        rw [← size, split, List.length_append]
        omega
      obtain ⟨rest, later, rfl⟩ := ih _ shorter behind rfl
      exact ⟨piece :: rest, .cons fits later, split.symm⟩

def blankedChar (c : Char) : Char := if c = '\n' then '\n' else ' '

theorem cleanText_stays {region : Region} (kept : Char → Char) {t behind : Text}
    (stays : ∀ u c v, t = u ++ c :: v →
      scanText region 0 c (v ++ behind) = ⟨kept c, region, 0⟩) :
    cleanText region 0 (t ++ behind) = t.map kept ++ cleanText region 0 behind := by
  induction t with
  | nil => rfl
  | cons c t ih =>
    have later := ih fun u d v split => stays (c :: u) d v (by rw [split]; rfl)
    rw [List.cons_append, cleanText, stays [] c t rfl, later]
    rfl

theorem cleanText_lineEnd {region : Region} (ends : region.nextLine = .code) {behind : Text}
    (lineEnd : ∀ c ∈ behind.head?, c = '\n') :
    cleanText region 0 behind = cleanText .code 0 behind := by
  cases behind with
  | nil => rfl
  | cons c behind =>
    obtain rfl := lineEnd c rfl
    rw [cleanText, cleanText, scanText, scanText, if_pos rfl, if_pos rfl, ends]
    rfl

theorem cleanText_quote {mark : Char} (quote : IsQuote mark) (rest : Text) :
    cleanText .code 0 (mark :: rest) = mark :: cleanText (.quoted mark) 0 rest := by
  have opened : scanText .code 0 mark rest = ⟨mark, .quoted mark, 0⟩ := by
    rw [scanText_inner (quote.ne (by decide))]
    exact if_pos quote
  rw [cleanText, opened]

theorem cleanText_openLiteral {mark : Char} {contents behind : Text}
    (inside : IsContents mark contents) (lineEnd : ∀ c ∈ behind.head?, c = '\n') :
    cleanText (.quoted mark) 0 (contents ++ behind) = contents ++ cleanText .code 0 behind := by
  rw [cleanText_stays id, List.map_id, cleanText_lineEnd rfl lineEnd]
  rintro u c v rfl
  have inner : c ≠ '\n' := fun same => inside.oneLine (by simp [same])
  have unmarked : c ≠ mark := fun same => inside.unclosed (by simp [same])
  rw [scanText_inner inner, scan, if_neg unmarked]
  rfl

theorem cleanText_lineComment {body behind : Text} (oneLine : '\n' ∉ body)
    (lineEnd : ∀ c ∈ behind.head?, c = '\n') :
    cleanText .lineComment 0 (body ++ behind) = blankedOut body ++ cleanText .code 0 behind := by
  rw [cleanText_stays blankedChar, cleanText_lineEnd rfl lineEnd]
  · rfl
  · rintro u c v rfl
    have inner : c ≠ '\n' := fun same => oneLine (by simp [same])
    rw [scanText_inner inner, blankedChar, if_neg inner]
    rfl

theorem cleanText_openComment {body : Text} (unclosed : ¬ "*)".toList <:+: body) :
    cleanText .blockComment 0 body = blankedOut body := by
  rw [← List.append_nil body, cleanText_stays blankedChar]
  · rw [List.append_nil]
    exact List.append_nil _
  · rintro u c v rfl
    by_cases newline : c = '\n'
    · rw [newline]
      rfl
    · have opens : ¬ (c = '*' ∧ v.head? = some ')') := by
        rintro ⟨rfl, next⟩
        obtain ⟨w, rfl⟩ := List.head?_eq_some_iff.mp next
        exact unclosed ⟨u, w, by simp⟩
      rw [List.append_nil, scanText_inner newline, scan, if_neg opens, blankedChar, if_neg newline]

theorem Piece.cleanText_append {piece : Piece} {behind : Text} (fits : piece.Fits behind) :
    cleanText .code 0 (piece.text ++ behind) = piece.cleaned ++ cleanText .code 0 behind := by
  cases piece with
  | code c =>
    obtain ⟨noQuote, noLine, noBlock⟩ := fits
    show cleanText .code 0 (c :: behind) = c :: cleanText .code 0 behind
    by_cases newline : c = '\n'
    · rw [newline]
      rfl
    · rw [cleanText, scanText_inner newline, scan_code (not_or.mp noQuote) noLine noBlock]
  | literal mark contents =>
    obtain ⟨quote, inside⟩ := fits
    have closed := cleanText_quoted quote inside behind
    simp [text, cleaned, isComment, cleanText_quote quote, closed]
  | openLiteral mark contents =>
    obtain ⟨quote, inside, lineEnd⟩ := fits
    rw [text, List.cons_append, cleanText_quote quote, cleanText_openLiteral inside lineEnd]
    rfl
  | lineComment body =>
    obtain ⟨oneLine, lineEnd⟩ := fits
    have opened : cleanText .code 0 ("//".toList ++ (body ++ behind)) =
        ' ' :: cleanText .lineComment 0 (('/' :: body) ++ behind) := rfl
    rw [text, List.append_assoc, opened, cleanText_lineComment (by simp [oneLine]) lineEnd]
    rfl
  | blockComment body =>
    have opened : cleanText .code 0 ("(*".toList ++ (body ++ "*)".toList ++ behind)) =
        "  ".toList ++ cleanText .blockComment 0 (body ++ "*)".toList ++ behind) := rfl
    have blanked : cleaned (.blockComment body) =
        "  ".toList ++ (blankedOut body ++ "  ".toList) := by
      simp [cleaned, isComment, text, blankedOut]
    rw [text, List.append_assoc, List.append_assoc, ← List.append_assoc body, opened,
      cleanText_blockComment fits, blanked]
    simp only [List.append_assoc]
  | openComment body =>
    obtain ⟨unclosed, rfl⟩ := fits
    have opened : cleanText .code 0 ("(*".toList ++ body) =
        "  ".toList ++ cleanText .blockComment 0 body := rfl
    rw [List.append_nil, text, opened, cleanText_openComment unclosed]
    exact (List.append_nil ("  ".toList ++ blankedOut body)).symm

theorem cleanText_piecesText {pieces : List Piece} (fitting : AreFitting pieces) :
    cleanText .code 0 (piecesText pieces) = pieces.flatMap (·.cleaned) := by
  induction fitting with
  | nil => rfl
  | @cons piece rest here later ih =>
    rw [piecesText, List.flatMap_cons, ← piecesText, Piece.cleanText_append here, ih]
    rfl

end StructuredText
