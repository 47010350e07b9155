import Mathlib.Algebra.GroupWithZero.Nat
import StructuredText.Proofs.Duration
import StructuredText.Proofs.Number.Numeral

/- Durations in every spelling: prefix and units in letters of either case, zeros in front of a
   number, blanks around the whole.  A literal is looked at twice, once as a whole and once part by
   part, and both times the parts are the same. -/
namespace StructuredText

/-- The parts that stand one behind the other as a search meets them; what is no part is passed
    over. -/
def partsFoundWithin : (steps : Nat) → Text → List (Text × Text)
  | 0, _ => []
  | steps + 1, t =>
    match durationPart? t with
    | some (part, rest) => part :: partsFoundWithin steps rest
    | none => partsFoundWithin steps (t.drop 1)

def partsFound (t : Text) : List (Text × Text) := partsFoundWithin t.length t

def IsPartsText (t : Text) : Prop :=
  ∃ parts, parts ≠ [] ∧ (∀ part ∈ parts, IsDurationPart part) ∧ t = partsText parts

theorem unit?_eq_some {t unit rest : Text} (found : unit? t = some (unit, rest)) :
    unit.map fold ∈ units ∧ t = unit ++ rest := by
  rw [unit?] at found
  split at found
  · next pair =>
    obtain ⟨rfl, rfl⟩ := Prod.mk.inj (Option.some.inj found)
    have same : (t.take 2).map fold = "MS".toList := eq_of_beq pair
    rw [same]
    exact ⟨by decide, (List.take_append_drop 2 t).symm⟩
  · split at found
    · next one =>
      obtain ⟨rfl, rfl⟩ := Prod.mk.inj (Option.some.inj found)
      refine ⟨?_, (List.take_append_drop 1 t).symm⟩
      rw [Bool.or_eq_true, Bool.or_eq_true] at one
      rcases one with (hour | minute) | second
      · exact (eq_of_beq hour : (t.take 1).map fold = "H".toList) ▸ by decide
      · exact (eq_of_beq minute : (t.take 1).map fold = "M".toList) ▸ by decide
      · exact (eq_of_beq second : (t.take 1).map fold = "S".toList) ▸ by decide
    · contradiction

theorem durationPart?_eq_some {t rest : Text} {part : Text × Text}
    (found : durationPart? t = some (part, rest)) :
    IsDurationPart part ∧ t = part.1 ++ part.2 ++ rest := by
  rw [durationPart?] at found
  split at found
  · contradiction
  · next filled =>
    obtain ⟨⟨unit, behind⟩, letters, same⟩ := Option.map_eq_some_iff.mp found
    obtain ⟨rfl, rfl⟩ := Prod.mk.inj same
    obtain ⟨known, split⟩ := unit?_eq_some letters
    refine ⟨⟨fun none => filled (List.isEmpty_iff.mpr none),
      fun c mem => List.mem_takeWhile_imp mem, known⟩, ?_⟩
    rw [List.append_assoc, ← split, List.takeWhile_append_dropWhile]

theorem durationPartsWithin_eq_some {count : Nat} {t : Text} {parts : List (Text × Text)}
    (found : durationPartsWithin count t = some parts) :
    parts ≠ [] ∧ (∀ part ∈ parts, IsDurationPart part) ∧ t = partsText parts := by
  induction count generalizing t parts with
  | zero => contradiction
  | succ count ih =>
    rw [durationPartsWithin] at found
    split at found
    · contradiction
    · next part first =>
      obtain rfl := Option.some.inj found
      obtain ⟨written, split⟩ := durationPart?_eq_some first
      have whole : partsText [part] = part.1 ++ part.2 ++ [] := rfl
      exact ⟨List.cons_ne_nil _ _, List.forall_mem_singleton.mpr written, split.trans whole.symm⟩
    · next part rest more first =>
      obtain ⟨later, inner, rfl⟩ := Option.map_eq_some_iff.mp found
      obtain ⟨written, split⟩ := durationPart?_eq_some first
      obtain ⟨-, others, rfl⟩ := ih inner
      exact ⟨List.cons_ne_nil _ _, List.forall_mem_cons.mpr ⟨written, others⟩, split⟩

/-- A text is accepted as a whole if it consists of parts, whichever way it could be cut. -/
theorem durationParts?_eq_some_iff {t : Text} {parts : List (Text × Text)} :
    durationParts? t = some parts ↔
      parts ≠ [] ∧ (∀ part ∈ parts, IsDurationPart part) ∧ t = partsText parts := by
  refine ⟨durationPartsWithin_eq_some, ?_⟩
  rintro ⟨nonempty, written, rfl⟩
  exact durationParts?_partsText written nonempty

theorem partsFoundWithin_partsText {parts : List (Text × Text)}
    (written : ∀ part ∈ parts, IsDurationPart part) {steps : Nat} (enough : parts.length ≤ steps) :
    partsFoundWithin steps (partsText parts) = parts := by
  induction parts generalizing steps with
  | nil =>
    induction steps with
    | zero => rfl
    | succ steps ih => exact ih (Nat.zero_le _)
  | cons part rest ih =>
    obtain ⟨here, later⟩ := List.forall_mem_cons.mp written
    obtain ⟨more, rfl⟩ : ∃ more, steps = more + 1 := ⟨steps - 1, by simp at enough; omega⟩
    have first : durationPart? (partsText (part :: rest)) = some (part, partsText rest) := by
      have behind := noS_partsText later (t := []) (by simp)
      rw [List.append_nil] at behind
      exact here.durationPart?_append behind
    rw [partsFoundWithin, first]
    exact congrArg _ (ih later (Nat.le_of_succ_le_succ enough))

theorem partsFound_partsText {parts : List (Text × Text)}
    (written : ∀ part ∈ parts, IsDurationPart part) : partsFound (partsText parts) = parts :=
  partsFoundWithin_partsText written (length_le_partsText written)

theorem duration?_eq_some_iff {t : Text} {n : Nat} :
    duration? t = some n ↔ ∃ body, durationBody? (trim t) = some body ∧ IsPartsText body ∧
      partsSum? (partsFound body) = some n := by
  simp only [duration?, Option.bind_eq_bind, Option.bind_eq_some_iff]
  constructor
  · rintro ⟨body, prefixed, parts, read, sum⟩
    obtain ⟨nonempty, written, rfl⟩ := durationParts?_eq_some_iff.mp read
    refine ⟨_, prefixed, ⟨parts, nonempty, written, rfl⟩, ?_⟩
    rwa [partsFound_partsText written]
  · rintro ⟨_, prefixed, ⟨parts, nonempty, written, rfl⟩, sum⟩
    refine ⟨_, prefixed, parts, durationParts?_partsText written nonempty, ?_⟩
    rwa [partsFound_partsText written] at sum

inductive DurationUnit
  | hour
  | minute
  | second
  | millisecond
  deriving DecidableEq

def DurationUnit.letters : DurationUnit → Text
  | .hour => "h".toList
  | .minute => "m".toList
  | .second => "s".toList
  | .millisecond => "ms".toList

def DurationUnit.milliseconds : DurationUnit → Nat
  | .hour => 3600000
  | .minute => 60000
  | .second => 1000
  | .millisecond => 1

structure SpelledPart where
  digits : Text
  unit : DurationUnit
  letters : Text
  filled : digits ≠ []
  decimal : ∀ c ∈ digits, c.isDigit = true
  spelled : letters.map Char.toLower = unit.letters

theorem toLower_eq_self {c : Char} (beyond : 128 ≤ c.toNat) : c.toLower = c := by
  refine dif_neg fun capital => ?_
  have below : c.toNat ≤ 90 := UInt32.le_iff_toNat_le.mp capital.2
  omega

theorem ascii_of_toLower {c : Char} (ascii : c.toLower.toNat < 128) : c.toNat < 128 := by
  by_contra beyond
  rw [toLower_eq_self (Nat.le_of_not_lt beyond)] at ascii
  exact beyond ascii

theorem fold_eq_toUpper_toLower {c : Char} (ascii : c.toLower.toNat < 128) :
    fold c = c.toLower.toUpper :=
  of_ascii (fun c => fold c = c.toLower.toUpper) (by decide) (ascii_of_toLower ascii)

theorem map_fold_of_map_toLower {t small : Text} (same : t.map Char.toLower = small)
    (ascii : ∀ c ∈ small, c.toNat < 128) : t.map fold = small.map Char.toUpper := by
  subst same
  rw [List.map_map]
  exact List.map_congr_left fun c mem =>
    fold_eq_toUpper_toLower (ascii _ (List.mem_map_of_mem mem))

namespace SpelledPart
variable (part : SpelledPart)

def text : Text := part.digits ++ part.letters

def milliseconds : Nat := Nat.ofDigitChars 10 part.digits 0 * part.unit.milliseconds

theorem isDurationPart : IsDurationPart (part.digits, part.letters) := by
  refine ⟨part.filled, fun c mem => isDecimal_of_isDigit (part.decimal c mem), ?_⟩
  have ascii : ∀ unit : DurationUnit, ∀ c ∈ unit.letters, c.toNat < 128 := by
    rintro (_ | _ | _ | _) <;> exact of_all rfl
  have known : ∀ unit : DurationUnit, unit.letters.map Char.toUpper ∈ units := by
    rintro (_ | _ | _ | _) <;> decide
  rw [map_fold_of_map_toLower part.spelled (ascii _)]
  exact known part.unit

theorem unitFactor_letters : unitFactor part.letters = part.unit.milliseconds := by
  rw [unitFactor, part.spelled]
  cases part.unit <;> rfl

theorem natural?_digits (short : part.digits.length ≤ numeralLimit) :
    natural? part.digits = some (Nat.ofDigitChars 10 part.digits 0) := by
  rw [natural?, if_pos short, digitsValue_eq_ofDigitChars part.decimal]

end SpelledPart

def spelledText (parts : List SpelledPart) : Text := parts.flatMap (·.text)

theorem spelledText_eq_partsText (parts : List SpelledPart) :
    spelledText parts = partsText (parts.map fun part => (part.digits, part.letters)) := by
  rw [spelledText, partsText, List.flatMap_map]
  rfl

theorem partsSum?_spelled (parts : List SpelledPart) :
    partsSum? (parts.map fun part => (part.digits, part.letters)) =
      if ∀ part ∈ parts, part.digits.length ≤ numeralLimit then
        some (parts.map (·.milliseconds)).sum
      else none := by
  induction parts with
  | nil => rfl
  | cons part rest ih =>
    rw [List.map_cons, partsSum?_cons, ih, part.unitFactor_letters]
    by_cases short : part.digits.length ≤ numeralLimit
    · simp only [List.forall_mem_cons, short, true_and, part.natural?_digits short,
        Option.bind_some]
      split <;> rfl
    · simp only [List.forall_mem_cons, short, false_and, if_false, natural?, Option.bind_none]

def durationPrefixes : List Text := ["t#", "time#"].map String.toList

section Prefix
variable {lead : Text} (spelled : lead.map Char.toLower ∈ durationPrefixes)
include spelled

theorem solid_lead : ∀ c ∈ lead, isBlank c = false := by
  intro c mem
  have letters : ∀ word ∈ durationPrefixes, ∀ d ∈ word, d ∈ "time#".toList :=
    of_all_words rfl
  have letter := letters _ spelled _ (List.mem_map_of_mem mem)
  have ascii : ∀ d ∈ "time#".toList, d.toNat < 128 := of_all rfl
  exact of_ascii (fun c => c.toLower ∈ "time#".toList → isBlank c = false) (by decide)
    (ascii_of_toLower (ascii _ letter)) letter

theorem durationBody?_append (body : Text) : durationBody? (lead ++ body) = some body := by
  have starts (word : Text) {small : Text} (same : lead.map Char.toLower = small)
      (ascii : ∀ c ∈ small, c.toNat < 128) (capital : small.map Char.toUpper = word) :
      lead.length = word.length ∧ startsFolded word (lead ++ body) = true := by
    have length : lead.length = word.length := by
      rw [← capital, ← same, List.length_map, List.length_map]
    refine ⟨length, beq_iff_eq.mpr ?_⟩
    rw [← length, List.take_left, map_fold_of_map_toLower same ascii, capital]
  simp only [durationPrefixes, List.map_cons, List.map_nil, List.mem_cons, List.not_mem_nil,
    or_false] at spelled
  rcases spelled with short | long
  · obtain ⟨length, found⟩ := starts "T#".toList short (of_all rfl) rfl
    have cut : (lead ++ body).drop 2 = body := List.drop_left' length
    rw [durationBody?, if_pos found, cut]
  · obtain ⟨length, found⟩ := starts "TIME#".toList long (of_all rfl) rfl
    have cut : (lead ++ body).drop 5 = body := List.drop_left' length
    have other : ¬ startsFolded "T#".toList (lead ++ body) = true := by
      intro found'
      have first : ((lead ++ body).take 5).map fold = "TIME#".toList := eq_of_beq found
      have second : ((lead ++ body).take 2).map fold = "T#".toList := eq_of_beq found'
      have shorter := congrArg (List.take 2) first
      rw [← List.map_take, List.take_take] at shorter
      rw [show min 2 5 = 2 from rfl, second] at shorter
      contradiction
    rw [durationBody?, if_neg other, if_pos found, cut]

end Prefix

/-- A duration is the sum of its parts, each a number times its unit, however its prefix and its
    units are spelled, whatever zeros the numbers begin with and whatever blanks stand around it.
    One number past the limit of numerals voids the whole. -/
theorem duration?_spelled {parts : List SpelledPart} (nonempty : parts ≠ []) {lead : Text}
    (spelled : lead.map Char.toLower ∈ durationPrefixes) {a b : Text}
    (left : ∀ c ∈ a, isBlank c = true) (right : ∀ c ∈ b, isBlank c = true) :
    duration? (a ++ (lead ++ spelledText parts) ++ b) =
      if ∀ part ∈ parts, part.digits.length ≤ numeralLimit then
        some (parts.map (·.milliseconds)).sum
      else none := by
  have written : ∀ part ∈ parts.map (fun part => (part.digits, part.letters)),
      IsDurationPart part := by
    rw [List.forall_mem_map]
    exact fun part _ => part.isDurationPart
  have filled : parts.map (fun part => (part.digits, part.letters)) ≠ [] := by simpa using nonempty
  have solid : IsTrimmed (lead ++ spelledText parts) := by
    apply isTrimmed_of_solid
    · rw [spelledText_eq_partsText]
      exact fun none => partsText_ne_nil written filled (List.append_eq_nil_iff.mp none).2
    · rw [spelledText_eq_partsText, List.forall_mem_append]
      exact ⟨solid_lead spelled,
        fun c mem => isBlank_of_isWord (isWord_of_mem_partsText written c mem)⟩
  apply Option.ext
  intro n
  have body := durationBody?_append spelled (spelledText parts)
  rw [← partsSum?_spelled, duration?_eq_some_iff, trim_surrounded solid left right, body,
    spelledText_eq_partsText]
  constructor
  · rintro ⟨_, same, -, sum⟩
    obtain rfl := Option.some.inj same
    rwa [partsFound_partsText written] at sum
  · intro sum
    refine ⟨_, rfl, ⟨_, filled, written, rfl⟩, ?_⟩
    rwa [partsFound_partsText written]

def zeroSeconds (n : Nat) : SpelledPart where
  digits := '0' :: List.replicate n '0'
  unit := .second
  letters := ['s']
  filled := List.cons_ne_nil _ _
  decimal := List.forall_mem_cons.mpr
    ⟨rfl, fun c mem => by rw [List.eq_of_mem_replicate mem]; rfl⟩
  spelled := rfl

/-- Half an hour in minutes and a few milliseconds, told apart by the letter S; and the same with a
    number of one zero too many between them. -/
theorem duration?_spelled_halfHour :
    let minutes : SpelledPart := ⟨"030".toList, .minute, ['M'], by decide, of_all rfl, rfl⟩
    let few : SpelledPart := ⟨"5".toList, .millisecond, "Ms".toList, by decide, of_all rfl, rfl⟩
    "Time#".toList.map Char.toLower ∈ durationPrefixes ∧
      (∀ c ∈ "\r\n".toList, isBlank c = true) ∧
      duration? " Time#030M5Ms\r\n".toList = some 1800005 ∧
      duration? ([] ++ ("t#".toList ++ spelledText [minutes, zeroSeconds 4300, few]) ++ []) =
        none := by
  intro minutes few
  have voided (part : SpelledPart) (long : numeralLimit < part.digits.length) :
      duration? ([] ++ ("t#".toList ++ spelledText [minutes, part, few]) ++ []) = none := by
    rw [duration?_spelled (List.cons_ne_nil _ _) (by decide) (of_all rfl) (of_all rfl), if_neg]
    intro short
    exact absurd (short part (by simp)) (Nat.not_le_of_lt long)
  refine ⟨by decide, of_all rfl, ?_, ?_⟩
  · have short : ∀ part ∈ [minutes, few], part.digits.length ≤ numeralLimit := by decide
    have sum : ([minutes, few].map (·.milliseconds)).sum = 1800005 := by decide
    have found : duration?
        ([' '] ++ ("Time#".toList ++ spelledText [minutes, few]) ++ "\r\n".toList) = _ :=
      duration?_spelled (List.cons_ne_nil _ _) (by decide) (of_all rfl) (of_all rfl)
    rwa [if_pos short, sum] at found
  · have length : (zeroSeconds 4300).digits.length = 4300 + 1 :=
      congrArg (· + 1) List.length_replicate
    exact voided (zeroSeconds 4300) (length ▸ Nat.lt_succ_self numeralLimit)

end StructuredText
