import StructuredText.Duration
import StructuredText.Proofs.Text.Boundary

/- Durations as they are written, part by part.  The unit `m` is told from `ms` by what stands
   behind it, which is a digit or nothing. -/
namespace StructuredText

def specialLetters : List Char := [0x17F, 0x130, 0x131, 0x212A].map Char.ofNat

theorem isLower_iff {c : Char} : c.isLower = true ↔ 97 ≤ c.toNat ∧ c.toNat ≤ 122 := by
  have range : c.isLower = (decide (c.val ≥ 'a'.val) && decide (c.val ≤ 'z'.val)) := rfl
  rw [range, Bool.and_eq_true, decide_eq_true_eq, decide_eq_true_eq]
  exact and_congr UInt32.le_iff_toNat_le UInt32.le_iff_toNat_le

theorem fold_eq_self {c : Char} (special : c ∉ specialLetters) (lower : c.isLower = false) :
    fold c = c := by
  have other {n : Nat} (listed : Char.ofNat n ∈ specialLetters) : c.toNat ≠ n := by
    rintro rfl
    rw [Char.ofNat_toNat] at listed
    exact special listed
  have upper : c.toUpper = c := by
    refine dif_neg fun small => ?_
    have letter := isLower_iff.mpr
      ⟨UInt32.le_iff_toNat_le.mp small.1, UInt32.le_iff_toNat_le.mp small.2⟩
    rw [lower] at letter
    contradiction
  unfold fold
  split
  · next here => exact absurd here (other (by decide))
  · next here => exact absurd here (other (by decide))
  · next here => exact absurd here (other (by decide))
  · next here => exact absurd here (other (by decide))
  · exact upper

theorem fold_of_nonword {c : Char} (mark : isWord c = false) : fold c = c := by
  apply fold_eq_self
  · have letters : ∀ d ∈ specialLetters, isWord d = true := of_all (by decide +kernel)
    intro special
    rw [letters c special] at mark
    contradiction
  · cases lower : c.isLower with
    | false => rfl
    | true =>
      have letter : c.isAlpha = (c.isUpper || c.isLower) := rfl
      have word : isAsciiWord c = true := by
        rw [isAsciiWord, Char.isAlphanum, letter, lower, Bool.or_true]
        rfl
      rw [isWord_of_isAsciiWord word] at mark
      contradiction

theorem eq_of_fold_hash {c : Char} (same : fold c = '#') : c = '#' := by
  by_cases ascii : c.toNat < 128
  · exact of_ascii (fun c => fold c = '#' → c = '#') (by decide) ascii same
  · have letters : ∀ d ∈ specialLetters, fold d ≠ '#' := of_all (by decide)
    have lower : c.isLower = false := by
      cases lower : c.isLower with
      | false => rfl
      | true =>
        have := isLower_iff.mp lower
        omega
    rwa [fold_eq_self (fun special => letters c special same) lower] at same

theorem zeros_alphanumeric : ∀ z ∈ zeros, z = 0x30 ∨
    ∃ r ∈ alphanumericRanges, r.1 ≤ z ∧ z + 9 ≤ r.2 := by
  have inside : (zeros.all fun z => Nat.beq z 0x30 ||
      alphanumericRanges.any fun r => Nat.ble r.1 z && Nat.ble (z + 9) r.2) = true := by
    decide +kernel
  simpa only [List.all_eq_true, List.any_eq_true, Bool.or_eq_true, Bool.and_eq_true,
    Nat.beq_eq, Nat.ble_eq] using inside

section Decimal
variable {c : Char} (decimal : isDecimal c = true)
include decimal

theorem exists_zero_of_isDecimal : ∃ z ∈ zeros, z ≤ c.toNat ∧ c.toNat ≤ z + 9 := by
  rw [isDecimal, digitValue?, Option.isSome_map, List.find?_isSome] at decimal
  simpa only [Bool.and_eq_true, decide_eq_true_eq] using decimal

theorem toNat_of_isDecimal : 0x30 ≤ c.toNat ∧ c.toNat ≤ 0x39 ∨ 0x660 ≤ c.toNat := by
  obtain ⟨z, listed, low, high⟩ := exists_zero_of_isDecimal decimal
  have apart : ∀ z ∈ zeros, z = 0x30 ∨ 0x660 ≤ z := by decide
  rcases apart z listed with rfl | far <;> omega

theorem fold_of_isDecimal : fold c = c := by
  apply fold_eq_self
  · have others : ∀ d ∈ specialLetters, isDecimal d = false := of_all (by decide)
    intro special
    rw [others c special] at decimal
    contradiction
  · cases lower : c.isLower with
    | false => rfl
    | true =>
      have letter := isLower_iff.mp lower
      have digit := toNat_of_isDecimal decimal
      omega

theorem isWord_of_isDecimal : isWord c = true := by
  rw [isWord]
  rcases toNat_of_isDecimal decimal with ⟨low, high⟩ | far
  · have digit : c.isDigit = true := by
      rw [Char.isDigit, Bool.and_eq_true, decide_eq_true_eq, decide_eq_true_eq]
      exact ⟨UInt32.le_iff_toNat_le.mpr low, UInt32.le_iff_toNat_le.mpr high⟩
    rw [if_pos (by omega), isAsciiWord, Char.isAlphanum, digit, Bool.or_true]
    rfl
  · rw [if_neg (by omega), inRanges_iff]
    obtain ⟨z, listed, first, last⟩ := exists_zero_of_isDecimal decimal
    rcases zeros_alphanumeric z listed with rfl | ⟨r, mem, low, high⟩
    · omega
    · exact ⟨r, mem, by omega, by omega⟩

end Decimal

def units : List Text := ["MS", "H", "M", "S"].map String.toList

structure IsDurationPart (part : Text × Text) : Prop where
  filled : part.1 ≠ []
  digits : ∀ c ∈ part.1, isDecimal c = true
  unit : part.2.map fold ∈ units

def partsText (parts : List (Text × Text)) : Text := parts.flatMap fun part => part.1 ++ part.2

def durationText (parts : List (Text × Text)) : Text := 'T' :: '#' :: partsText parts

theorem unit?_append {unit rest : Text} (letters : unit.map fold ∈ units)
    (ends : ∀ c ∈ rest.head?, fold c ≠ 'S') : unit? (unit ++ rest) = some (unit, rest) := by
  have noPair (a : Char) : startsFolded "MS".toList (a :: rest) = false := by
    cases rest with
    | nil => simp [startsFolded]
    | cons c rest => simp [startsFolded, ends c rfl]
  have single {a d : Char} (same : fold a = d) (listed : d ∈ "HMS".toList) :
      unit? (a :: rest) = some ([a], rest) := by
    have found : (startsFolded "H".toList (a :: rest) || startsFolded "M".toList (a :: rest) ||
        startsFolded "S".toList (a :: rest)) = true := by
      simpa [startsFolded, same, or_assoc] using listed
    rw [unit?, noPair, if_neg Bool.false_ne_true, if_pos found]
    rfl
  simp only [units, List.map_cons, List.map_nil, List.mem_cons, List.not_mem_nil, or_false]
    at letters
  rcases letters with pair | one | one | one
  · obtain ⟨a, _, rfl, m, b, rfl, s⟩ : ∃ a t, unit = a :: t ∧ fold a = 'M' ∧
        ∃ b, t = [b] ∧ fold b = 'S' := by
      simpa [List.map_eq_cons_iff] using pair
    have found : startsFolded "MS".toList (a :: b :: rest) = true := by simp [startsFolded, m, s]
    exact if_pos found
  all_goals
    obtain ⟨a, rfl, same⟩ : ∃ a, unit = [a] ∧ fold a = _ := by
      simpa [List.map_eq_cons_iff, and_assoc] using one
    exact single same (by decide)

namespace IsDurationPart
variable {part : Text × Text} (written : IsDurationPart part)
include written

theorem first_unit : ∃ c t, part.2 = c :: t ∧ isDecimal c = false := by
  have letters : ∀ unit ∈ units, unit.head?.any (! isDecimal ·) = true := List.all_eq_true.mp rfl
  obtain ⟨d, head, letter⟩ := (Option.any_eq_true ..).mp (letters _ written.unit)
  rw [List.head?_map] at head
  obtain ⟨c, first, rfl⟩ := Option.map_eq_some_iff.mp head
  obtain ⟨t, same⟩ := List.head?_eq_some_iff.mp first
  refine ⟨c, t, same, ?_⟩
  cases decimal : isDecimal c with
  | false => rfl
  | true =>
    rw [fold_of_isDecimal decimal, decimal] at letter
    contradiction

theorem takeWhile_digits (rest : Text) :
    (part.1 ++ part.2 ++ rest).takeWhile isDecimal = part.1 ∧
      (part.1 ++ part.2 ++ rest).dropWhile isDecimal = part.2 ++ rest := by
  obtain ⟨c, t, unit, stops⟩ := written.first_unit
  rw [List.append_assoc, List.takeWhile_append_of_pos written.digits,
    List.dropWhile_append_of_pos written.digits, unit, List.cons_append,
    List.takeWhile_cons_of_neg (by simp [stops]), List.dropWhile_cons_of_neg (by simp [stops]),
    List.append_nil]
  exact ⟨rfl, rfl⟩

theorem durationPart?_append {rest : Text} (ends : ∀ c ∈ rest.head?, fold c ≠ 'S') :
    durationPart? (part.1 ++ part.2 ++ rest) = some (part, rest) := by
  obtain ⟨digits, behind⟩ := written.takeWhile_digits rest
  have filled : part.1.isEmpty = false := List.isEmpty_eq_false_iff.mpr written.filled
  simp only [durationPart?, digits, behind, filled, unit?_append written.unit ends]
  rfl

end IsDurationPart

section Parts
variable {parts : List (Text × Text)} (written : ∀ part ∈ parts, IsDurationPart part)
include written

theorem head_partsText : ∀ c ∈ (partsText parts).head?, isDecimal c = true := by
  intro c first
  cases parts with
  | nil => contradiction
  | cons part rest =>
    have here := written part List.mem_cons_self
    obtain ⟨d, digits, same⟩ := List.exists_cons_of_ne_nil here.filled
    rw [partsText, List.flatMap_cons, same] at first
    obtain rfl := Option.some.inj first
    exact here.digits d (same ▸ List.mem_cons_self)

theorem noS_partsText {t : Text} (ends : ∀ c ∈ t.head?, fold c ≠ 'S') :
    ∀ c ∈ (partsText parts ++ t).head?, fold c ≠ 'S' := by
  intro c first
  rw [List.head?_append] at first
  cases head : (partsText parts).head? with
  | none =>
    rw [head] at first
    exact ends c first
  | some d =>
    rw [head] at first
    obtain rfl := Option.some.inj first
    have decimal := head_partsText written d head
    rw [fold_of_isDecimal decimal]
    rintro rfl
    contradiction

theorem durationPartsWithin_partsText (nonempty : parts ≠ []) {count : Nat}
    (enough : parts.length ≤ count) : durationPartsWithin count (partsText parts) = some parts := by
  induction parts generalizing count with
  | nil => contradiction
  | cons part rest ih =>
    obtain ⟨here, later⟩ := List.forall_mem_cons.mp written
    obtain ⟨more, rfl⟩ : ∃ more, count = more + 1 := ⟨count - 1, by simp at enough; omega⟩
    have first : durationPart? (partsText (part :: rest)) = some (part, partsText rest) := by
      have behind := noS_partsText later (t := []) (by simp)
      rw [List.append_nil] at behind
      exact here.durationPart?_append behind
    rw [durationPartsWithin, first]
    cases rest with
    | nil => rfl
    | cons next rest =>
      have further := ih later (List.cons_ne_nil next rest) (Nat.le_of_succ_le_succ enough)
      cases behind : partsText (next :: rest) with
      | nil =>
        have filled := (later next List.mem_cons_self).filled
        simp [partsText, filled] at behind
      | cons c t =>
        rw [behind] at further
        simp only [further, Option.map_some]

theorem length_le_partsText : parts.length ≤ (partsText parts).length := by
  induction parts with
  | nil => exact Nat.le_refl 0
  | cons part rest ih =>
    obtain ⟨here, later⟩ := List.forall_mem_cons.mp written
    have filled := List.length_pos_iff.mpr here.filled
    have further := ih later
    rw [partsText, List.flatMap_cons, List.length_append, List.length_append, List.length_cons,
      ← partsText]
    omega

theorem durationParts?_partsText (nonempty : parts ≠ []) :
    durationParts? (partsText parts) = some parts :=
  durationPartsWithin_partsText written nonempty (length_le_partsText written)

theorem partsText_ne_nil (nonempty : parts ≠ []) : partsText parts ≠ [] := by
  intro none
  have length := length_le_partsText written
  rw [none] at length
  exact nonempty (List.eq_nil_of_length_eq_zero (Nat.le_zero.mp length))

theorem isWord_of_mem_partsText : ∀ c ∈ partsText parts, isWord c = true := by
  intro c mem
  obtain ⟨part, listed, inside⟩ := List.mem_flatMap.mp mem
  have here := written part listed
  rcases List.mem_append.mp inside with digit | letter
  · exact isWord_of_isDecimal (here.digits c digit)
  · have letters : ∀ unit ∈ units, ∀ d ∈ unit, isWord d = true := of_all_words rfl
    have capital := letters _ here.unit (fold c) (List.mem_map_of_mem letter)
    cases word : isWord c with
    | true => rfl
    | false => rwa [fold_of_nonword word, word] at capital

theorem solid_durationText : ∀ c ∈ durationText parts, isBlank c = false := by
  rw [durationText, List.forall_mem_cons, List.forall_mem_cons]
  exact ⟨by decide, by decide,
    fun c mem => isBlank_of_isWord (isWord_of_mem_partsText written c mem)⟩

theorem isTrimmed_durationText : IsTrimmed (durationText parts) :=
  isTrimmed_of_solid (List.cons_ne_nil _ _) (solid_durationText written)

theorem duration?_durationText (nonempty : parts ≠ []) :
    duration? (durationText parts) = partsSum? parts := by
  have body : durationBody? (durationText parts) = some (partsText parts) :=
    if_pos (startsFolded_self "T#".toList _ (of_all rfl))
  rw [duration?, trim_eq_self (isTrimmed_durationText written), body]
  simp only [Option.bind_eq_bind, Option.bind_some, durationParts?_partsText written nonempty]

end Parts

theorem partsSum?_cons (digits unit : Text) (rest : List (Text × Text)) :
    partsSum? ((digits, unit) :: rest) = (natural? digits).bind fun n =>
      (partsSum? rest).map (n * unitFactor unit + ·) := by
  let value (part : Text × Text) : Option Nat := (natural? part.1).map (· * unitFactor part.2)
  have sum (parts : List (Text × Text)) :
      partsSum? parts = (parts.mapM value).map List.sum := rfl
  rw [sum, sum, List.mapM_cons]
  dsimp only [value]
  cases natural? digits with
  | none => rfl
  | some n =>
    cases rest.mapM value with
    | none => rfl
    | some values => simp

theorem duration?_eq_none {t : Text} (free : '#' ∉ t) : duration? t = none := by
  have missing (word : Text) (mark : '#' ∈ word) : startsFolded word (trim t) = false := by
    cases starts : startsFolded word (trim t) with
    | false => rfl
    | true =>
      have same : ((trim t).take word.length).map fold = word := eq_of_beq starts
      rw [← same] at mark
      obtain ⟨c, taken, hash⟩ := List.mem_map.mp mark
      rw [eq_of_fold_hash hash] at taken
      obtain ⟨a, b, whole, -, -⟩ := exists_trim t
      have inside : '#' ∈ a ++ trim t ++ b :=
        List.mem_append_left b (List.mem_append_right a (List.mem_of_mem_take taken))
      rw [← whole] at inside
      exact absurd inside free
  rw [duration?, durationBody?, missing _ (by decide), missing _ (by decide)]
  rfl

end StructuredText
