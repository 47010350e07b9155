import StructuredText.Proofs.Text.Marked
import StructuredText.Proofs.Validation.Sections

/- What the checks make of a line with a quotation mark in it.  What a line opens, closes, declares or
   calls stands before the mark; only the end of a construct and what is behind its condition are
   searched further on. -/
namespace StructuredText

section Head
variable {mark : Char} (left rest : Text)

theorem any_head?_marked {test : Char → Bool} (stops : test mark = false) :
    (left ++ mark :: rest).head?.any test = left.head?.any test := by
  cases left with
  | nil => simp [stops]
  | cons c left => rfl

theorem head?_marked {c : Char} (other : mark ≠ c) :
    (left ++ mark :: rest).head? = some c ↔ left.head? = some c := by
  cases left with
  | nil => simp [other]
  | cons d left => rfl

end Head

theorem mem_withoutTrailing {c d : Char} (other : d ≠ c) {t : Text} (mem : d ∈ t) :
    d ∈ withoutTrailing c t := by
  obtain ⟨tail, whole, trailing⟩ := withoutTrailing_split c t
  rw [whole] at mem
  rcases List.mem_append.mp mem with inside | behind
  · exact inside
  · exact absurd (trailing d behind) other

namespace IsQuote
variable {mark : Char} (quote : IsQuote mark)
include quote

theorem not_mem_terminator (c : Construct) : mark ∉ c.terminator :=
  quote.not_mem c.isWord_terminator

theorem not_mem_keyword (c : Construct) : mark ∉ c.keyword := fun mem =>
  quote.not_mem_terminator c (List.mem_append_right _ mem)

end IsQuote

section Beginning
variable {mark : Char} (quote : IsQuote mark) (left rest : Text)
include quote

theorem opensUnit_marked (kind : PouKind) :
    opensUnit kind (left ++ mark :: rest) = opensUnit kind left := by
  have free : mark ∉ kind.keyword := quote.not_mem_keyword (.unit kind)
  rw [opensUnit, opensUnit, after?_marked _ _ free]
  cases after? kind.keyword left with
  | none => rfl
  | some behind =>
    simp only [Option.map_some, Option.bind_some, afterBlanks?_marked _ _ quote]
    cases afterBlanks? behind with
    | none => rfl
    | some name => exact any_head?_marked name rest quote.isWord

theorem contains_sectionKeywords_marked :
    sectionKeywords.contains (withoutTrailing ';' ((left ++ mark :: rest).takeWhile (! isBlank ·))) =
      (left.any isBlank &&
        sectionKeywords.contains (withoutTrailing ';' (left.takeWhile (! isBlank ·)))) := by
  cases blank : left.any isBlank with
  | true =>
    have stops : (left.takeWhile (! isBlank ·)).length ≠ left.length := by
      intro whole
      have solid := List.takeWhile_eq_self_iff.mp ((List.takeWhile_prefix _).eq_of_length whole)
      obtain ⟨c, mem, here⟩ := List.any_eq_true.mp blank
      have inner := solid c mem
      rw [here] at inner
      contradiction
    rw [List.takeWhile_append, if_neg stops, Bool.true_and]
  | false =>
    have solid : ∀ c ∈ left, (! isBlank c) = true := by simpa using blank
    have inside : mark ∈ withoutTrailing ';' ((left ++ mark :: rest).takeWhile (! isBlank ·)) := by
      apply mem_withoutTrailing (quote.ne (by decide))
      rw [List.takeWhile_append_of_pos solid, List.takeWhile_cons_of_pos (by simp [quote.isBlank])]
      simp
    rw [Bool.false_and, ← Bool.not_eq_true, List.contains_iff_mem]
    intro listed
    exact quote.not_mem_listed (of_all_words (by decide)) listed inside

theorem opener?_marked : opener? (left ++ mark :: rest) = opener? (left ++ [mark]) := by
  have units (t : Text) : (fun kind => opensUnit kind (left ++ mark :: t)) = (opensUnit · left) :=
    funext fun kind => opensUnit_marked quote left t kind
  have controls (t : Text) : (fun c : Construct => startsWithWord c.keyword (left ++ mark :: t)) =
      fun c => startsWithWord c.keyword left :=
    funext fun c => startsWithWord_marked left t quote (quote.not_mem_keyword c)
  simp only [opener?, units, controls, contains_sectionKeywords_marked quote]

theorem closed?_marked : closed? (left ++ mark :: rest) = closed? left := by
  have ends : (fun c : Construct => startsWithWord c.terminator (left ++ mark :: rest)) =
      fun c => startsWithWord c.terminator left :=
    funext fun c => startsWithWord_marked left rest quote (quote.not_mem_terminator c)
  rw [closed?, closed?, ends]

theorem callHead?_marked : callHead? (left ++ mark :: rest) = callHead? left := by
  rw [callHead?, callHead?, word?_marked _ _ quote]
  cases word? left with
  | none => rfl
  | some cut =>
    obtain ⟨name, behind⟩ := cut
    have opens := head?_marked (trimLeft behind) rest (quote.ne (c := '(') (by decide))
    simp only [Option.map_some, trimLeft_marked _ _ quote, opens, List.length_append,
      Nat.add_sub_add_right]

theorem declaration?_marked : declaration? (left ++ mark :: rest) =
    (declaration? left).map fun d => { d with rest := d.rest ++ mark :: rest } := by
  rw [declaration?, declaration?, word?_marked _ _ quote]
  cases word? left with
  | none => rfl
  | some cut =>
    obtain ⟨name, behind⟩ := cut
    have colon : mark ∉ [':'] := by simpa using quote.ne (c := ':') (by decide)
    simp only [Option.map_some, trimLeft_marked _ _ quote, after?_marked _ _ colon]
    cases after? [':'] (trimLeft behind) with
    | none => rfl
    | some typed =>
      simp only [Option.map_some, trimLeft_marked _ _ quote, word?_marked _ _ quote, Option.map_map,
        List.length_append, Nat.add_sub_add_right]
      rfl

theorem any_startsFoldedWord_marked {words : List Text} (free : ∀ word ∈ words, mark ∉ word) :
    words.any (startsFoldedWord · (left ++ mark :: rest)) = words.any (startsFoldedWord · left) := by
  rw [Bool.eq_iff_iff, List.any_eq_true, List.any_eq_true]
  exact exists_congr fun word => and_congr_right fun mem => by
    rw [startsFoldedWord_marked _ _ quote (free word mem)]

theorem isExempt_marked : isExempt (left ++ mark :: rest) = isExempt left := by
  have listed : ∀ word ∈ exemptWords, mark ∉ word := fun word mem =>
    quote.not_mem_listed (of_all_words (by decide)) mem
  have section_ : mark ∉ "VAR".toList := quote.not_mem (of_all (by decide))
  have end_ : mark ∉ "END_".toList := quote.not_mem (of_all (by decide))
  rw [isExempt, isExempt, any_startsFoldedWord_marked quote left rest listed,
    startsFolded_marked left rest quote section_, startsFolded_marked left rest quote end_]

theorem isJump_marked : isJump (left ++ mark :: rest) = isJump left := by
  have free : ∀ word ∈ ["RETURN", "EXIT", "CONTINUE"].map String.toList, mark ∉ word :=
    fun word mem => quote.not_mem_listed (of_all_words (by decide)) mem
  have jumps := any_startsFoldedWord_marked quote left rest free
  rw [List.any_map, List.any_map] at jumps
  exact jumps

theorem behindElse?_marked : behindElse? (left ++ mark :: rest) = behindElse? left := by
  have free : mark ∉ "ELSE".toList := quote.not_mem (of_all (by decide))
  rw [behindElse?, behindElse?, startsFolded_marked left rest quote free]
  cases starts : startsFolded "ELSE".toList left with
  | false => rfl
  | true =>
    have within : 4 ≤ left.length := length_le_of_startsFolded left starts
    rw [List.drop_append_of_le_length within, any_head?_marked _ _ quote.isBlank,
      leadingBlanks_marked _ _ quote]

theorem behindLabel?_marked : behindLabel? (left ++ mark :: rest) = behindLabel? left := by
  have noLabel : isLabelChar mark = false := quote.apart (by decide)
  have colon : mark ≠ ':' := quote.ne (by decide)
  rw [behindLabel?, behindLabel?, dropWhile_marked _ _ noLabel, takeWhile_marked _ _ noLabel]
  cases left.dropWhile isLabelChar with
  | nil => simp [colon]
  | cons c behind =>
    by_cases label : c = ':'
    · subst label
      have assigns := head?_marked behind rest (quote.ne (c := '=') (by decide))
      simp only [List.cons_append, assigns, trimLeft_marked _ _ quote, List.length_append,
        Nat.add_sub_add_right]
    · simp [label]

end Beginning

section Closing
variable {mark : Char} (quote : IsQuote mark) {word : Text} (filled : word ≠ [])
  (free : mark ∉ word)
include quote

theorem behindWord?_mark (t : Text) : behindWord? word (some mark) t = behindWord? word none t := by
  have starts : atWordStart (some mark) = true := by simp [atWordStart, quote.isWord]
  cases t with
  | nil => rfl
  | cons c t =>
    rw [behindWord?, behindWord?, starts]
    rfl

include filled free

theorem behindWord?_marked (previous : Option Char) (left rest : Text) :
    behindWord? word previous (left ++ mark :: rest) =
      (behindWord? word previous left).or
        ((behindWord? word none rest).map (· + (left.length + 1))) := by
  induction left generalizing previous with
  | nil =>
    have start : startsFolded word (mark :: rest) = false := by
      rw [startsFolded_eq_isPrefixOf, List.map_cons, quote.fold_eq, isPrefixOf_mark filled free]
    simp [behindWord?, start, behindWord?_mark quote]
  | cons c left ih =>
    have start := startsFolded_marked (c :: left) rest quote free
    have further : (behindWord? word (some c) (left ++ mark :: rest)).map (· + 1) =
        ((behindWord? word (some c) left).map (· + 1)).or
          ((behindWord? word none rest).map (· + ((c :: left).length + 1))) := by
      rw [ih, List.length_cons]
      cases behindWord? word (some c) left with
      | some n => rfl
      | none => cases behindWord? word none rest <;> rfl
    rw [List.cons_append] at start ⊢
    rw [behindWord?, behindWord?, start, further]
    cases starts : startsFolded word (c :: left) with
    | false => simp
    | true =>
      have behind : (c :: (left ++ mark :: rest)).drop word.length =
          (c :: left).drop word.length ++ mark :: rest :=
        List.drop_append_of_le_length (length_le_of_startsFolded _ starts)
      rw [behind, any_head?_marked _ _ quote.isBlank, leadingBlanks_marked _ _ quote]
      split <;> rfl

omit quote filled free in
theorem behindWord?_le {previous : Option Char} {t : Text} {n : Nat}
    (found : behindWord? word previous t = some n) : n ≤ t.length := by
  induction t generalizing previous n with
  | nil => contradiction
  | cons c t ih =>
    rw [behindWord?] at found
    split at found
    · next here =>
      obtain rfl := Option.some.inj found
      simp only [Bool.and_eq_true] at here
      have within := length_le_of_startsFolded _ here.1.2
      have blanks := leadingBlanks_add_length ((c :: t).drop word.length)
      rw [List.length_drop] at blanks
      omega
    · obtain ⟨m, later, rfl⟩ := Option.map_eq_some_iff.mp found
      exact Nat.succ_le_succ (ih later)

end Closing

end StructuredText
