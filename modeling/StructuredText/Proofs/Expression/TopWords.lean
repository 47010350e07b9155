import StructuredText.Proofs.Expression.Parts
import StructuredText.Proofs.Expression.Shape
import StructuredText.Proofs.Source.Depth

/- Texts cut at AND or OR.  Each cut is made where the word stands by itself outside parentheses, at
   every such place, and trimming what lies between the cuts makes no new one: where a part begins or
   ends, a blank has been taken off or there is no letter that the word could begin or end with. -/
namespace StructuredText

def WordStandsBetween (word t before behind : Text) : Prop :=
  t = before ++ word ++ behind ∧ before.count '(' = before.count ')' ∧
    atWordStart before.getLast? = true ∧ atWordEnd behind = true

def WordStandsOutside (word t : Text) : Prop :=
  ∃ before behind, t = before ++ word ++ behind ∧ before.count '(' = before.count ')' ∧
    atWordStart before.getLast? = true ∧ atWordEnd behind = true

def EndsWithTopWord (word t : Text) : Prop := ∃ before, WordStandsBetween word t before []

/-- What lies before, between and behind the places where the word stands by itself outside
    parentheses, none of them left out. -/
structure AreSlices (word t : Text) (slices : List Text) : Prop where
  nonempty : slices ≠ []
  joined : word.intercalate slices = t
  cuts : ∀ before behind, WordStandsBetween word t before behind ↔
    ∃ left right, left ≠ [] ∧ right ≠ [] ∧ slices = left ++ right ∧
      before = word.intercalate left ∧ behind = word.intercalate right

instance (word t before behind : Text) : Decidable (WordStandsBetween word t before behind) :=
  inferInstanceAs (Decidable (_ ∧ _ ∧ _ ∧ _))

instance (word t : Text) : Decidable (EndsWithTopWord word t) :=
  decidable_of_iff (WordStandsBetween word t (t.take (t.length - word.length)) []) <| by
    refine ⟨fun here => ⟨_, here⟩, ?_⟩
    rintro ⟨before, here⟩
    have start : t.take (t.length - word.length) = before := by
      rw [here.1, List.append_nil, List.length_append, Nat.add_sub_cancel, List.take_left]
    rwa [start]

structure IsTopPlace (word : Text) (previous : Option Char) (depth : Int)
    (t before behind : Text) : Prop where
  whole : t = before ++ word ++ behind
  level : depth + parenDepth before = 0
  begins : atWordStart (before.getLast?.or previous) = true
  ends : atWordEnd behind = true

theorem isTopPlace_iff {word t before behind : Text} :
    IsTopPlace word none 0 t before behind ↔ WordStandsBetween word t before behind := by
  rw [WordStandsBetween, ← parenDepth_eq_zero_iff]
  constructor
  · rintro ⟨whole, level, begins, ends⟩
    rw [Int.zero_add] at level
    rw [Option.or_none] at begins
    exact ⟨whole, level, begins, ends⟩
  · rintro ⟨whole, level, begins, ends⟩
    exact ⟨whole, by rwa [Int.zero_add], by rwa [Option.or_none], ends⟩

theorem getLast?_cons_or (c : Char) (before : Text) (previous : Option Char) :
    (c :: before).getLast?.or previous = before.getLast?.or (some c) := by
  cases before <;> simp [List.getLast?_cons]

theorem isTopPlace_cons_iff {word : Text} {previous : Option Char} {depth : Int} {c : Char}
    {t before behind : Text} :
    IsTopPlace word previous depth (c :: t) (c :: before) behind ↔
      IsTopPlace word (some c) (depth + parenStep c) t before behind := by
  constructor
  · rintro ⟨whole, level, begins, ends⟩
    rw [parenDepth_cons, ← Int.add_assoc] at level
    rw [getLast?_cons_or] at begins
    exact ⟨(List.cons.inj whole).2, level, begins, ends⟩
  · rintro ⟨whole, level, begins, ends⟩
    refine ⟨by rw [whole]; rfl, ?_, by rwa [getLast?_cons_or], ends⟩
    rw [parenDepth_cons, ← Int.add_assoc]
    exact level

section Search
variable {op : Connective} {previous : Option Char} {depth : Int} {t before behind : Text}

theorem atWordEnd_symbol (op : Connective) (behind : Text) :
    atWordEnd (op.symbol ++ behind) = false := by
  obtain ⟨d, w, symbol, letter⟩ := op.symbol_cons
  simp [symbol, atWordEnd, letter]

theorem symbol_ne_nil (op : Connective) : op.symbol ≠ [] := by
  cases op <;> exact List.cons_ne_nil _ _

theorem atWordStart_symbol (op : Connective) (before : Text) (previous : Option Char) :
    atWordStart ((before ++ op.symbol).getLast?.or previous) = false := by
  have last := List.getLast?_eq_some_getLast (symbol_ne_nil op)
  rw [List.getLast?_append, last]
  simp [atWordStart, isWord_of_mem_symbol op _ (List.getLast_mem (symbol_ne_nil op))]

theorem cutAtTopWord_cons (previous : Option Char) (depth : Int) (c : Char) :
    cutAtTopWord? op.symbol previous depth (c :: t) =
      if depth = 0 ∧ atWordStart previous = true ∧ startsWithWord op.symbol (c :: t) = true then
        some ([], (c :: t).drop op.symbol.length)
      else (cutAtTopWord? op.symbol (some c) (depth + parenStep c) t).map (prepend [c]) := by
  have other {d : Char} (paren : d = '(' ∨ d = ')') :
      startsWithWord op.symbol (d :: t) = false := by
    rcases paren with rfl | rfl <;> cases op <;> rfl
  rw [cutAtTopWord?]
  by_cases opens : c = '('
  · rw [if_pos opens, other (Or.inl opens), if_neg (by simp), parenStep, if_pos opens]
    rfl
  · by_cases closes : c = ')'
    · rw [if_neg opens, if_pos closes, other (Or.inr closes), if_neg (by simp), parenStep,
        if_neg opens, if_pos closes]
      rfl
    · rw [if_neg opens, if_neg closes, parenStep, if_neg opens, if_neg closes, Int.add_zero]
      simp only [Bool.and_eq_true, decide_eq_true_eq, and_assoc]
      rfl

theorem isTopPlace_nil_iff :
    IsTopPlace op.symbol previous depth t [] behind ↔
      (depth = 0 ∧ atWordStart previous = true ∧ startsWithWord op.symbol t = true) ∧
        behind = t.drop op.symbol.length := by
  constructor
  · rintro ⟨whole, level, begins, ends⟩
    rw [List.nil_append] at whole
    refine ⟨⟨by simpa [parenDepth] using level, begins, ?_⟩, by rw [whole, List.drop_left]⟩
    rw [whole, startsWithWord, List.drop_left, ends, Bool.and_true]
    exact List.isPrefixOf_iff_prefix.mpr (List.prefix_append _ _)
  · rintro ⟨⟨level, begins, starts⟩, rfl⟩
    obtain ⟨rest, rfl, ends⟩ := eq_append_of_startsWithWord starts
    rw [List.drop_left]
    exact ⟨rfl, by rw [level]; rfl, begins, ends⟩

theorem not_isTopPlace_of_nil : ¬ IsTopPlace op.symbol previous depth [] before behind := by
  rintro ⟨whole, -⟩
  have empty := (List.append_eq_nil_iff.mp (List.append_eq_nil_iff.mp whole.symm).1).2
  exact symbol_ne_nil op empty

theorem isTopPlace_of_cutAtTopWord
    (found : cutAtTopWord? op.symbol previous depth t = some (before, behind)) :
    IsTopPlace op.symbol previous depth t before behind := by
  induction t generalizing previous depth before with
  | nil => contradiction
  | cons c t ih =>
    rw [cutAtTopWord_cons] at found
    split at found
    · next here =>
      obtain ⟨rfl, rfl⟩ := Prod.mk.inj (Option.some.inj found)
      exact isTopPlace_nil_iff.mpr ⟨here, rfl⟩
    · obtain ⟨⟨start, rest⟩, inner, same⟩ := Option.map_eq_some_iff.mp found
      obtain ⟨rfl, rfl⟩ := Prod.mk.inj same
      exact isTopPlace_cons_iff.mpr (ih inner)

theorem exists_cutAtTopWord (place : IsTopPlace op.symbol previous depth t before behind) :
    ∃ start rest, cutAtTopWord? op.symbol previous depth t = some (start, rest) ∧
      start.length ≤ before.length := by
  induction t generalizing previous depth before with
  | nil => exact absurd place not_isTopPlace_of_nil
  | cons c t ih =>
    rw [cutAtTopWord_cons]
    split
    · exact ⟨[], _, rfl, Nat.zero_le _⟩
    · next elsewhere =>
      cases before with
      | nil => exact absurd (isTopPlace_nil_iff.mp place).1 elsewhere
      | cons d before =>
        obtain rfl := (List.cons.inj place.whole).1
        obtain ⟨start, rest, found, first⟩ := ih (isTopPlace_cons_iff.mp place)
        exact ⟨c :: start, rest, by rw [found]; rfl, Nat.succ_le_succ first⟩

theorem cutAtTopWord_eq_none_iff :
    cutAtTopWord? op.symbol previous depth t = none ↔
      ∀ before behind, ¬ IsTopPlace op.symbol previous depth t before behind := by
  constructor
  · intro uncut before behind place
    obtain ⟨start, rest, found, -⟩ := exists_cutAtTopWord place
    rw [uncut] at found
    contradiction
  · intro free
    cases found : cutAtTopWord? op.symbol previous depth t with
    | none => rfl
    | some cut => exact absurd (isTopPlace_of_cutAtTopWord found) (free _ _)

theorem wordStandsOutside_iff :
    WordStandsOutside op.symbol t ↔ (cutAtTopWord? op.symbol none 0 t).isSome = true := by
  rw [← not_iff_not, Option.not_isSome_iff_eq_none, cutAtTopWord_eq_none_iff]
  simp only [isTopPlace_iff]
  exact ⟨fun none before behind here => none ⟨before, behind, here⟩,
    fun none ⟨before, behind, here⟩ => none before behind here⟩

theorem getLast?_behind_symbol (op : Connective) (start later : Text) (previous : Option Char) :
    (start ++ op.symbol ++ later).getLast?.or previous = later.getLast?.or op.symbol.getLast? := by
  have last := List.getLast?_eq_some_getLast (symbol_ne_nil op)
  rw [List.getLast?_append, List.getLast?_append, last]
  cases later.getLast? <;> rfl

theorem IsTopPlace.behind_iff {start rest later : Text}
    (here : IsTopPlace op.symbol previous 0 t start rest) :
    IsTopPlace op.symbol previous 0 t (start ++ op.symbol ++ later) behind ↔
      IsTopPlace op.symbol op.symbol.getLast? 0 rest later behind := by
  have depth : 0 + parenDepth (start ++ op.symbol ++ later) = 0 + parenDepth later := by
    rw [parenDepth_append, parenDepth_append, parenDepth_of_free (paren_of_mem_symbol op),
      Int.add_zero, ← Int.add_assoc, here.level]
  have last := getLast?_behind_symbol op start later previous
  constructor
  · rintro ⟨whole, level, begins, ends⟩
    refine ⟨?_, depth ▸ level, last ▸ begins, ends⟩
    rw [here.whole] at whole
    simpa only [List.append_assoc, List.append_cancel_left_eq] using whole
  · rintro ⟨whole, level, begins, ends⟩
    refine ⟨?_, depth ▸ level, last ▸ begins, ends⟩
    rw [here.whole, whole]
    simp only [List.append_assoc]

/-- Of two places the later one lies behind the word at the first: where the two words met, a letter
    would stand before the second. -/
theorem IsTopPlace.eq_or_behind {start rest : Text}
    (here : IsTopPlace op.symbol previous 0 t start rest)
    (place : IsTopPlace op.symbol previous 0 t before behind)
    (first : start.length ≤ before.length) :
    before = start ∧ behind = rest ∨ ∃ later, before = start ++ op.symbol ++ later := by
  have same : start ++ (op.symbol ++ rest) = before ++ (op.symbol ++ behind) := by
    rw [← List.append_assoc, ← here.whole, place.whole, List.append_assoc]
  have inside : before <+: start ++ (op.symbol ++ rest) := by
    rw [same]
    exact List.prefix_append _ _
  obtain ⟨between, rfl⟩ : start <+: before :=
    List.prefix_of_prefix_length_le (List.prefix_append _ _) inside first
  rw [List.append_assoc, List.append_cancel_left_eq] at same
  rcases List.append_eq_append_iff.mp same with ⟨later, rfl, -⟩ | ⟨more, symbol, behind_⟩
  · exact Or.inr ⟨later, by rw [List.append_assoc]⟩
  · rcases List.eq_nil_or_concat between with rfl | ⟨between, c, rfl⟩
    · rw [List.nil_append] at symbol
      rw [← symbol, List.append_cancel_left_eq] at behind_
      exact Or.inl ⟨List.append_nil _, behind_⟩
    · have letter : isWord c = true := isWord_of_mem_symbol op c (by rw [symbol]; simp)
      have begins := place.begins
      rw [List.concat_eq_append, ← List.append_assoc, List.getLast?_concat] at begins
      simp [atWordStart, letter] at begins

theorem isTopPlace_cut_iff {start rest : Text}
    (found : cutAtTopWord? op.symbol previous 0 t = some (start, rest)) :
    IsTopPlace op.symbol previous 0 t before behind ↔
      before = start ∧ behind = rest ∨ ∃ later, before = start ++ op.symbol ++ later ∧
        IsTopPlace op.symbol op.symbol.getLast? 0 rest later behind := by
  have here := isTopPlace_of_cutAtTopWord found
  constructor
  · intro place
    obtain ⟨start', rest', found', first⟩ := exists_cutAtTopWord place
    obtain ⟨rfl, rfl⟩ := Prod.mk.inj (Option.some.inj (found.symm.trans found'))
    rcases here.eq_or_behind place first with same | ⟨later, rfl⟩
    · exact Or.inl same
    · exact Or.inr ⟨later, rfl, here.behind_iff.mp place⟩
  · rintro (⟨rfl, rfl⟩ | ⟨later, rfl, place⟩)
    · exact here
    · exact here.behind_iff.mpr place

end Search

/-- How a text that comes after `previous` is cut: not at all where no place for the word is found,
    else at the first one, and on behind it. -/
inductive CutAtWords (word : Text) : Option Char → Text → List Text → Prop
  | last {previous : Option Char} {t : Text} (uncut : cutAtTopWord? word previous 0 t = none) :
    CutAtWords word previous t [t]
  | cut {previous : Option Char} {t start rest : Text} {slices : List Text}
    (found : cutAtTopWord? word previous 0 t = some (start, rest))
    (later : CutAtWords word word.getLast? rest slices) :
    CutAtWords word previous t (start :: slices)

theorem exists_cutAtWords (op : Connective) (previous : Option Char) (t : Text) :
    ∃ slices, CutAtWords op.symbol previous t slices := by
  induction size : t.length using Nat.strongRecOn generalizing previous t with
  | ind n ih =>
    cases found : cutAtTopWord? op.symbol previous 0 t with
    | none => exact ⟨_, .last found⟩
    | some cut =>
      obtain ⟨start, rest⟩ := cut
      have longer := List.length_pos_iff.mpr (symbol_ne_nil op)
      have shorter : rest.length < n := by
        rw [← size, append_of_cutAtTopWord? found, List.length_append, List.length_append]
        omega
      obtain ⟨slices, later⟩ := ih rest.length shorter _ rest rfl
      exact ⟨_, .cut found later⟩

namespace CutAtWords
variable {op : Connective} {previous : Option Char} {t : Text} {slices : List Text}

theorem ne_nil (cut : CutAtWords op.symbol previous t slices) : slices ≠ [] := by
  cases cut with
  | last uncut => exact List.cons_ne_nil _ _
  | cut found later => exact List.cons_ne_nil _ _

theorem joined (cut : CutAtWords op.symbol previous t slices) : op.symbol.intercalate slices = t := by
  induction cut with
  | last uncut => exact List.intercalate_singleton
  | cut found later ih =>
    rw [List.intercalate_cons_of_ne_nil later.ne_nil, ih, append_of_cutAtTopWord? found]

theorem place_iff (cut : CutAtWords op.symbol previous t slices) (before behind : Text) :
    IsTopPlace op.symbol previous 0 t before behind ↔
      ∃ left right, left ≠ [] ∧ right ≠ [] ∧ slices = left ++ right ∧
        before = op.symbol.intercalate left ∧ behind = op.symbol.intercalate right := by
  induction cut generalizing before with
  | last uncut =>
    refine iff_of_false (cutAtTopWord_eq_none_iff.mp uncut before behind) ?_
    rintro ⟨left, right, filled, filled', single, -⟩
    rcases List.append_eq_singleton_iff.mp single.symm with ⟨rfl, -⟩ | ⟨-, rfl⟩
    · exact filled rfl
    · exact filled' rfl
  | @cut previous t start rest slices found later ih =>
    rw [isTopPlace_cut_iff found]
    constructor
    · rintro (⟨rfl, rfl⟩ | ⟨between, rfl, place⟩)
      · exact ⟨[before], slices, List.cons_ne_nil _ _, later.ne_nil, rfl,
          List.intercalate_singleton.symm, later.joined.symm⟩
      · obtain ⟨left, right, filled, filled', rfl, rfl, behind_⟩ := (ih between).mp place
        exact ⟨start :: left, right, List.cons_ne_nil _ _, filled', rfl,
          (List.intercalate_cons_of_ne_nil filled).symm, behind_⟩
    · rintro ⟨left, right, filled, filled', same, rfl, rfl⟩
      obtain ⟨first, left, rfl⟩ := List.exists_cons_of_ne_nil filled
      obtain ⟨rfl, rfl⟩ := List.cons.inj same
      cases left with
      | nil => exact Or.inl ⟨List.intercalate_singleton, later.joined⟩
      | cons second left =>
        have more := List.cons_ne_nil second left
        exact Or.inr ⟨_, List.intercalate_cons_of_ne_nil more,
          (ih _).mpr ⟨second :: left, right, more, filled', rfl, rfl, rfl⟩⟩

theorem areSlices (cut : CutAtWords op.symbol none t slices) : AreSlices op.symbol t slices where
  nonempty := cut.ne_nil
  joined := cut.joined
  cuts before behind := by rw [← isTopPlace_iff, cut.place_iff]

end CutAtWords

/-- The slices that make parts: what lies behind the last cut makes none if it is empty. -/
def filledSlices (slices : List Text) : List Text :=
  if slices.getLast? = some [] then slices.dropLast else slices

theorem filledSlices_cons (slice : Text) {slices : List Text} (more : slices ≠ []) :
    filledSlices (slice :: slices) = slice :: filledSlices slices := by
  rw [filledSlices, filledSlices, List.getLast?_cons_of_ne_nil more, List.dropLast_cons_of_ne_nil more]
  split <;> rfl

section Parts
variable {op : Connective} {previous : Option Char} {t : Text} {slices : List Text}

theorem topWordParts_of_cutAtWords (cut : CutAtWords op.symbol previous t slices) {cuts : Nat}
    (enough : t.length ≤ cuts) :
    topWordParts op.symbol cuts previous t = (filledSlices slices).map trim := by
  induction cut generalizing cuts with
  | @last previous t uncut =>
    cases t with
    | nil => cases cuts <;> rfl
    | cons c t => rw [topWordParts_single (List.cons_ne_nil c t) uncut]; rfl
  | @cut previous t start rest slices found later ih =>
    have shorter : rest.length < t.length := by
      have longer := List.length_pos_iff.mpr (symbol_ne_nil op)
      rw [append_of_cutAtTopWord? found, List.length_append, List.length_append]
      omega
    obtain ⟨cuts, rfl⟩ : ∃ n, cuts = n + 1 := ⟨cuts - 1, by omega⟩
    rw [topWordParts_cut found, ih (by omega), filledSlices_cons start later.ne_nil, List.map_cons]

/-- A place in a trimmed slice is one in the text that goes on behind the slice, where no word reaches
    over the ends of the slice. -/
theorem IsTopPlace.untrimmed {slice before behind : Text}
    (place : IsTopPlace op.symbol none 0 (trim slice) before behind) (rest : Text)
    (begins : atWordStart previous = true ∨ atWordEnd (slice ++ rest) = true)
    (ends : atWordEnd rest = true ∨ atWordStart (slice.getLast?.or previous) = true) :
    ∃ a b, slice = a ++ before ++ op.symbol ++ (behind ++ b) ∧
      IsTopPlace op.symbol previous 0 (slice ++ rest) (a ++ before) (behind ++ b ++ rest) := by
  obtain ⟨inner, level, starts, stops⟩ := place
  obtain ⟨a, b, whole, left, right⟩ := exists_trim slice
  have shape : slice = a ++ before ++ op.symbol ++ (behind ++ b) := by
    rw [whole, inner]
    simp only [List.append_assoc]
  clear whole inner
  refine ⟨a, b, shape, by rw [shape]; simp only [List.append_assoc], ?_, ?_, ?_⟩
  · rw [parenDepth_append, parenDepth_of_free fun c mem => paren_of_isBlank (left c mem),
      Int.zero_add]
    exact level
  · rw [List.getLast?_append]
    cases last : before.getLast? with
    | some c =>
      rw [last] at starts
      exact starts
    | none =>
      cases blank : a.getLast? with
      | some c => simp [atWordStart, isWord_of_isBlank (left c (List.mem_of_getLast? blank))]
      | none =>
        -- the slice begins with the word, and the text with the slice
        obtain rfl := List.getLast?_eq_none_iff.mp last
        obtain rfl := List.getLast?_eq_none_iff.mp blank
        refine begins.resolve_right ?_
        rw [shape, List.nil_append, List.nil_append, List.append_assoc, atWordEnd_symbol]
        exact Bool.false_ne_true
  · cases behind with
    | cons c behind => exact stops
    | nil =>
      cases b with
      | cons c b => simp [atWordEnd, isWord_of_isBlank (right c List.mem_cons_self)]
      | nil =>
        refine ends.resolve_right ?_
        rw [shape, List.append_nil, List.append_nil, atWordStart_symbol]
        exact Bool.false_ne_true

/-- Trimming a slice makes no new place for the word. -/
theorem CutAtWords.not_wordStandsOutside (cut : CutAtWords op.symbol previous t slices)
    (begins : atWordStart previous = true ∨ atWordEnd t = true) {slice : Text}
    (mem : slice ∈ slices) : ¬ WordStandsOutside op.symbol (trim slice) := by
  rintro ⟨before, behind, here⟩
  have place := isTopPlace_iff.mpr here
  induction cut with
  | @last previous t uncut =>
    obtain rfl := List.mem_singleton.mp mem
    obtain ⟨a, b, -, inside⟩ := place.untrimmed [] (by rwa [List.append_nil]) (Or.inl rfl)
    rw [List.append_nil slice] at inside
    exact cutAtTopWord_eq_none_iff.mp uncut _ _ inside
  | @cut previous t start rest slices found later ih =>
    have stop := isTopPlace_of_cutAtTopWord found
    rcases List.mem_cons.mp mem with rfl | mem
    · -- the search would have stopped within the slice
      have whole : slice ++ (op.symbol ++ rest) = t := by rw [stop.whole, List.append_assoc]
      obtain ⟨a, b, shape, inside⟩ := place.untrimmed (op.symbol ++ rest) (by rwa [whole])
        (Or.inr stop.begins)
      rw [whole] at inside
      obtain ⟨start', rest', found', first⟩ := exists_cutAtTopWord inside
      obtain ⟨rfl, rfl⟩ := Prod.mk.inj (Option.some.inj (found.symm.trans found'))
      have longer := List.length_pos_iff.mpr (symbol_ne_nil op)
      have size := congrArg List.length shape
      simp only [List.length_append] at size first
      omega
    · exact ih (Or.inr stop.ends) mem

theorem splitAtTopWord_of_cutAtWords (cut : CutAtWords op.symbol none t slices) :
    splitAtTopWord op.symbol t =
      if (filledSlices slices).length > 1 then (filledSlices slices).map trim else [t] := by
  rw [splitAtTopWord, topWordParts_of_cutAtWords cut (Nat.le_refl _), List.length_map]

theorem splitAtTopWord_of_free (free : ¬ WordStandsOutside op.symbol t) :
    splitAtTopWord op.symbol t = [t] := by
  rw [wordStandsOutside_iff, Option.not_isSome_iff_eq_none] at free
  rw [splitAtTopWord_of_cutAtWords (.last free), if_neg]
  rw [filledSlices]
  split <;> simp

namespace AreSlices

theorem filledSlices_eq (between : AreSlices op.symbol t slices)
    (closed : ¬ EndsWithTopWord op.symbol t) (several : slices.length ≠ 1) :
    filledSlices slices = slices := by
  rw [filledSlices, if_neg]
  intro last
  obtain ⟨left, rfl⟩ := List.getLast?_eq_some_iff.mp last
  have filled : left ≠ [] := by
    rintro rfl
    exact several rfl
  exact closed ⟨_, (between.cuts _ _).mpr ⟨left, [[]], filled, List.cons_ne_nil _ _, rfl, rfl, rfl⟩⟩

theorem one_lt_length (between : AreSlices op.symbol t slices)
    (stands : WordStandsOutside op.symbol t) : 1 < slices.length := by
  obtain ⟨before, behind, here⟩ := stands
  obtain ⟨left, right, filled, filled', rfl, -⟩ := (between.cuts before behind).mp here
  have first := List.length_pos_iff.mpr filled
  have second := List.length_pos_iff.mpr filled'
  rw [List.length_append]
  omega

end AreSlices

theorem splitAtTopWord_of_closed (cut : CutAtWords op.symbol none t slices)
    (closed : ¬ EndsWithTopWord op.symbol t) :
    splitAtTopWord op.symbol t = if slices.length = 1 then [t] else slices.map trim := by
  rw [splitAtTopWord_of_cutAtWords cut]
  by_cases single : slices.length = 1
  · have few : ¬ (filledSlices slices).length > 1 := by
      rw [filledSlices]
      split <;> simp [single]
    rw [if_neg few, if_pos single]
  · have filled := List.length_pos_iff.mpr cut.ne_nil
    rw [cut.areSlices.filledSlices_eq closed single, if_pos (by omega), if_neg single]

theorem not_endsWithTopWord {c : Char} (last : t.getLast? = some c) (other : isWord c = false) :
    ¬ EndsWithTopWord op.symbol t := by
  rintro ⟨before, whole, -⟩
  have letter := atWordStart_symbol op before none
  rw [List.append_nil] at whole
  rw [Option.or_none, ← whole, last] at letter
  simp [atWordStart, other] at letter

theorem isSome_chain?_iff (closed : ¬ EndsWithTopWord op.symbol t) :
    (chain? op t).isSome = true ↔ WordStandsOutside op.symbol t := by
  by_cases stands : WordStandsOutside op.symbol t
  · obtain ⟨slices, cut⟩ := exists_cutAtWords op none t
    have several := cut.areSlices.one_lt_length stands
    have parts := splitAtTopWord_of_closed cut closed
    rw [if_neg (Nat.ne_of_gt several)] at parts
    match slices, several with
    | first :: second :: rest, _ =>
      rw [chain?, parts]
      exact iff_of_true rfl stands
  · rw [chain?, splitAtTopWord_of_free stands]
    exact iff_of_false Bool.false_ne_true stands

end Parts

/-- Unless it ends with AND or OR outside parentheses, a text is cut at every such word and nowhere
    else; the parts are what lies between, trimmed, and none of them can be cut any further. -/
theorem splitAtTopWord_slices (op : Connective) {t : Text} (closed : ¬ EndsWithTopWord op.symbol t) :
    ∃ slices, AreSlices op.symbol t slices ∧
      splitAtTopWord op.symbol t = (if slices.length = 1 then [t] else slices.map trim) ∧
      ∀ part ∈ splitAtTopWord op.symbol t,
        splitAtTopWord op.symbol part = [part] ∧ ¬ WordStandsOutside op.symbol part := by
  obtain ⟨slices, cut⟩ := exists_cutAtWords op none t
  have parts := splitAtTopWord_of_closed cut closed
  have free : ∀ part ∈ splitAtTopWord op.symbol t, ¬ WordStandsOutside op.symbol part := by
    intro part mem
    rw [parts] at mem
    split at mem
    · next single =>
      obtain rfl := List.mem_singleton.mp mem
      exact fun stands => absurd (cut.areSlices.one_lt_length stands) (by omega)
    · obtain ⟨slice, inside, rfl⟩ := List.mem_map.mp mem
      exact cut.not_wordStandsOutside (Or.inl rfl) inside
  exact ⟨slices, cut.areSlices, parts,
    fun part mem => ⟨splitAtTopWord_of_free (free part mem), free part mem⟩⟩

/-- Words inside a name and inside parentheses, below depth zero, and at the end of another word. -/
theorem splitAtTopWord_slices_unbalanced :
    let t := "a) AND (b AND ANDY  AND\tc(AND) AND xAND".toList
    let parts := ["a) AND (b".toList, "ANDY".toList, "c(AND)".toList, "xAND".toList]
    ¬ EndsWithTopWord "AND".toList t ∧ splitAtTopWord "AND".toList t = parts ∧
      (∃ slices, AreSlices "AND".toList t slices ∧ slices.map trim = parts) ∧
      ∀ part ∈ parts, splitAtTopWord "AND".toList part = [part] ∧
        ¬ WordStandsOutside "AND".toList part := by
  intro t parts
  have closed : ¬ EndsWithTopWord Connective.and.symbol t := by decide
  have split : splitAtTopWord Connective.and.symbol t = parts := by decide
  obtain ⟨slices, between, same, each⟩ := splitAtTopWord_slices .and closed
  rw [split] at same each
  have several : slices.length ≠ 1 := by
    intro single
    rw [if_pos single] at same
    exact absurd same (by decide)
  rw [if_neg several] at same
  exact ⟨closed, split, ⟨slices, between, same.symm⟩, each⟩

end StructuredText
