import StructuredText.Proofs.Expression.Text

/- The outermost construct that is found in the text of an expression is the one at its root. -/
namespace StructuredText

theorem chars_of_unsignedNumeral {negative : Bool} {t : Text} {n : Numeral}
    (found : unsignedNumeral? negative t = some n) :
    ∀ c ∈ t, isDecimal c = true ∨ c = '.' := by
  intro c mem
  rw [← List.takeWhile_append_dropWhile (p := isDecimal) (l := t)] at mem
  rcases List.mem_append.mp mem with mem | mem
  · exact Or.inl (List.mem_takeWhile_imp mem)
  · simp only [unsignedNumeral?] at found
    split at found
    · contradiction
    · split at found
      · next rest =>
        rw [rest] at mem
        contradiction
      · next d fraction rest =>
        split at found
        · next shape =>
          simp only [Bool.and_eq_true, decide_eq_true_eq, List.all_eq_true] at shape
          rw [rest] at mem
          rcases List.mem_cons.mp mem with rfl | mem
          · exact Or.inr shape.1.1
          · exact Or.inl (shape.2 c mem)
        · contradiction

theorem numeral?_eq_none {t : Text} {c : Char} (mem : c ∈ t)
    (other : isDecimal c = false ∧ c ≠ '-' ∧ c ≠ '.') : numeral? t = none := by
  cases found : numeral? t with
  | none => rfl
  | some n =>
    cases t with
    | nil => contradiction
    | cons d t =>
      have inside : isDecimal c = true ∨ c = '.' := by
        rw [numeral?] at found
        split at found
        · next sign =>
          rcases List.mem_cons.mp mem with rfl | mem
          · exact absurd sign other.2.1
          · exact chars_of_unsignedNumeral found c mem
        · exact chars_of_unsignedNumeral found c mem
      rcases inside with decimal | point
      · rw [other.1] at decimal
        contradiction
      · exact absurd point other.2.2

section Parts
variable {op : Connective} {t : Text}

theorem topWordParts_single (nonempty : t ≠ []) {previous : Option Char}
    (uncut : cutAtTopWord? op.symbol previous 0 t = none) (cuts : Nat) :
    topWordParts op.symbol cuts previous t = [trim t] := by
  cases t with
  | nil => contradiction
  | cons c t =>
    cases cuts with
    | zero => rfl
    | succ cuts => simp only [topWordParts, uncut]

theorem topWordParts_cut {previous : Option Char} {start rest : Text}
    (cut : cutAtTopWord? op.symbol previous 0 t = some (start, rest)) (cuts : Nat) :
    topWordParts op.symbol (cuts + 1) previous t =
      trim start :: topWordParts op.symbol cuts op.symbol.getLast? rest := by
  cases t with
  | nil => contradiction
  | cons c t => simp only [topWordParts, cut]

theorem chain?_eq_none (tighter : Tighter op.tightness t) : chain? op t = none := by
  have whole : splitAtTopWord op.symbol t = [t] := by
    cases t with
    | nil => rfl
    | cons c t =>
      rw [splitAtTopWord, topWordParts_single (List.cons_ne_nil c t)
        (cutAtTopWord_eq_none tighter (Nat.le_refl _) none)]
      rfl
  rw [chain?, whole]

theorem cutAtTopWord_operation (tighter : Tighter op.tightness t) (right : Text)
    (previous : Option Char) :
    cutAtTopWord? op.symbol previous 0 (t ++ operation op.symbol right) =
      some (t ++ [' '], ' ' :: right) := by
  have blank (rest : Text) : startsWithWord op.symbol (' ' :: rest) = false := by
    cases op <;> rfl
  have here : startsWithWord op.symbol (op.symbol ++ ' ' :: right) = true := by
    have starts : op.symbol.isPrefixOf (op.symbol ++ ' ' :: right) = true :=
      List.isPrefixOf_iff_prefix.mpr (List.prefix_append _ _)
    rw [startsWithWord, starts, List.drop_left]
    rfl
  have found : cutAtTopWord? op.symbol (some ' ') 0 (op.symbol ++ ' ' :: right) =
      some ([], ' ' :: right) := by
    have begins : atWordStart (some ' ') = true := by decide
    obtain ⟨c, s, eq, letter⟩ := op.symbol_cons
    obtain ⟨opens, closes⟩ := paren_of_isWord letter
    have cut : op.symbol ++ ' ' :: right = c :: (s ++ ' ' :: right) := by rw [eq, List.cons_append]
    rw [cut] at here ⊢
    rw [cutAtTopWord?, if_neg opens, if_neg closes, here, begins, if_pos (by decide), ← cut,
      List.drop_left]
  rw [cutAtTopWord_tighter tighter (Nat.le_refl _) _ (atWordEnd_operation _ _), operation,
    cutAtTopWord_pass _ _ _ _ (by decide) (by decide) (by rw [blank, Bool.and_false]), found]
  rfl

theorem isBlank_of_mem {a : Text} (blank : a = [] ∨ a = [' ']) : ∀ c ∈ a, isBlank c = true := by
  rcases blank with rfl | rfl
  · exact of_all rfl
  · exact of_all rfl

theorem tighter_behind {a u : Text} {k : Nat} (blank : a = [] ∨ a = [' ']) (tighter : Tighter k u) :
    Tighter k (a ++ u) := by
  rcases blank with rfl | rfl
  · exact tighter
  · exact Tighter.mark (by decide) (by decide) (by decide) (fun _ => rfl) tighter

theorem topWordParts_chain {a : Text} (blank : a = [] ∨ a = [' ']) {first : Text}
    {rest : List Text} (filled : ∀ u ∈ first :: rest, trim u ≠ [])
    (tighter : ∀ u ∈ first :: rest, Tighter op.tightness u) {cuts : Nat}
    (enough : rest.length ≤ cuts) (previous : Option Char) :
    topWordParts op.symbol cuts previous (a ++ first ++ rest.flatMap (operation op.symbol)) =
      (first :: rest).map trim := by
  induction rest generalizing a first cuts previous with
  | nil =>
    have alone : trim (a ++ first) = trim first := by
      have cut := trim_between (b := []) (filled first (by simp)) (isBlank_of_mem blank)
      simpa using cut (by simp)
    have nonempty : a ++ first ≠ [] := by
      intro none
      rw [(List.append_eq_nil_iff.mp none).2] at filled
      exact filled [] List.mem_cons_self rfl
    rw [List.flatMap_nil, List.append_nil, topWordParts_single nonempty
      (cutAtTopWord_eq_none (tighter_behind blank (tighter first (by simp))) (Nat.le_refl _)
        previous), alone]
    rfl
  | cons u rest ih =>
    cases cuts with
    | zero => simp at enough
    | succ cuts =>
      have cut : cutAtTopWord? op.symbol previous 0
          (a ++ first ++ (u :: rest).flatMap (operation op.symbol)) =
            some (a ++ first ++ [' '], [' '] ++ u ++ rest.flatMap (operation op.symbol)) := by
        have found := cutAtTopWord_operation (tighter_behind blank (tighter first (by simp)))
          (u ++ rest.flatMap (operation op.symbol)) previous
        simpa [operation] using found
      have alone : trim (a ++ first ++ [' ']) = trim first :=
        trim_between (filled first (by simp)) (isBlank_of_mem blank) (of_all rfl)
      have fewer : rest.length ≤ cuts := by simpa using enough
      rw [topWordParts_cut cut, alone,
        ih (Or.inr rfl) (fun v mem => filled v (by simp [List.mem_cons.mp mem]))
          (fun v mem => tighter v (by simp [List.mem_cons.mp mem])) fewer]
      rfl

theorem length_le_flatMap_operation (symbol : Text) (rest : List Text) :
    rest.length ≤ (rest.flatMap (operation symbol)).length := by
  induction rest with
  | nil => exact Nat.le_refl _
  | cons u rest ih =>
    simp only [List.flatMap_cons, List.length_append, List.length_cons, operation]
    omega

theorem chain?_parts {first : Text} {rest : List Text} (several : rest ≠ [])
    (filled : ∀ v ∈ first :: rest, trim v ≠ [])
    (tighter : ∀ v ∈ first :: rest, Tighter op.tightness v) :
    chain? op (first ++ rest.flatMap (operation op.symbol)) =
      some (.chain op (trim first) (rest.map trim)) := by
  obtain ⟨u, rest, rfl⟩ := List.exists_cons_of_ne_nil several
  have enough :
      (u :: rest).length ≤ (first ++ (u :: rest).flatMap (operation op.symbol)).length := by
    have := length_le_flatMap_operation op.symbol (u :: rest)
    rw [List.length_append]
    omega
  have parts := topWordParts_chain (a := []) (Or.inl rfl) filled tighter enough none
  rw [List.nil_append] at parts
  have split : splitAtTopWord op.symbol (first ++ (u :: rest).flatMap (operation op.symbol)) =
      (first :: u :: rest).map trim := by
    rw [splitAtTopWord, parts, if_pos (by simp)]
  rw [chain?, split]
  rfl

theorem chain?_chain {first u : Text} {rest : List Text}
    (trimmed : ∀ v ∈ first :: u :: rest, IsTrimmed v)
    (tighter : ∀ v ∈ first :: u :: rest, Tighter op.tightness v) :
    chain? op (first ++ (u :: rest).flatMap (operation op.symbol)) =
      some (.chain op first (u :: rest)) := by
  obtain ⟨here, others⟩ := List.forall_mem_cons.mp trimmed
  have kept : (u :: rest).map trim = u :: rest :=
    (List.map_congr_left fun v mem => trim_eq_self (others v mem)).trans (List.map_id' _)
  have filled : ∀ v ∈ first :: u :: rest, trim v ≠ [] := by
    intro v mem
    rw [trim_eq_self (trimmed v mem)]
    exact (trimmed v mem).ne_nil
  rw [chain?_parts (List.cons_ne_nil u rest) filled tighter, trim_eq_self here, kept]

end Parts

section Comparisons
variable {op : Comparison} {t : Text}

theorem topLevelFrom_eq_none (tighter : Tighter 3 t) : topLevelFrom op.symbol 0 t = none := by
  have passed := topLevelFrom_tighter tighter (Nat.le_refl 3) op []
  rwa [List.append_nil, topLevelFrom_nil, Option.map_none] at passed

theorem comparison?_eq_none (tighter : Tighter 3 t) : comparison? op t = none := by
  rw [comparison?, findTopLevel?, List.drop_zero, topLevelFrom_eq_none tighter]
  rfl

theorem topLevelFrom_before {other : Comparison}
    (before : other ∈ Comparison.all.takeWhile (· ≠ op)) {right : Text}
    (missing : topLevelFrom other.symbol 0 right = none) :
    topLevelFrom other.symbol 0 (op.symbol ++ ' ' :: right) = none := by
  cases op <;> cases other <;> first
    | exact absurd before (by decide)
    | simpa [Comparison.symbol, topLevelFrom] using missing

theorem topLevelFrom_here (op : Comparison) (right : Text) :
    topLevelFrom op.symbol 0 (op.symbol ++ right) = some 0 := by
  cases op <;> simp [Comparison.symbol, topLevelFrom]

theorem topLevelFrom_operation (left : Tighter 3 t) (other : Comparison) (right : Text) :
    topLevelFrom other.symbol 0 (t ++ operation op.symbol right) =
      (topLevelFrom other.symbol 0 (op.symbol ++ ' ' :: right)).map (· + (t.length + 1)) := by
  rw [topLevelFrom_tighter left (Nat.le_refl 3), operation,
    topLevelFrom_pass_char (by decide) (by decide) rfl, map_add_add, Nat.add_comm 1]

theorem comparison?_operation (left : Tighter 3 t) (right : Text) :
    comparison? op (t ++ operation op.symbol right) =
      some (.comparison op (t ++ [' ']) (' ' :: right)) := by
  have cut : t ++ operation op.symbol right = (t ++ [' ']) ++ (op.symbol ++ ' ' :: right) := by
    simp [operation]
  have size : t.length + 1 = (t ++ [' ']).length := by simp
  rw [comparison?, findTopLevel?, List.drop_zero, topLevelFrom_operation left, topLevelFrom_here]
  simp only [Option.map_some, Nat.zero_add]
  rw [cut, size, List.take_left, ← List.drop_drop, List.drop_left, List.drop_left]

theorem comparison?_before (left : Tighter 3 t) {right : Text} (tight : Tighter 3 right)
    {other : Comparison} (before : other ∈ Comparison.all.takeWhile (· ≠ op)) :
    comparison? other (t ++ operation op.symbol right) = none := by
  rw [comparison?, findTopLevel?, List.drop_zero, topLevelFrom_operation left,
    topLevelFrom_before before (topLevelFrom_eq_none tight)]
  rfl

theorem findSome_comparison (left : Tighter 3 t) {right : Text} (tight : Tighter 3 right) :
    Comparison.all.findSome? (comparison? · (t ++ operation op.symbol right)) =
      some (.comparison op (t ++ [' ']) (' ' :: right)) := by
  rw [List.findSome?_eq_some_iff]
  have split : ∃ after, Comparison.all = Comparison.all.takeWhile (· ≠ op) ++ op :: after := by
    cases op <;> exact ⟨_, rfl⟩
  obtain ⟨after, split⟩ := split
  exact ⟨_, op, after, split, comparison?_operation left right,
    fun other before => comparison?_before left tight before⟩

end Comparisons

theorem trim_ne_nil {t : Text} (first : ∃ c ∈ t.head?, isBlank c = false) : trim t ≠ [] := by
  obtain ⟨c, head, inner⟩ := first
  intro none
  rw [trim, trimLeft, dropWhile_eq_self ⟨c, head, inner⟩, trimRight, List.reverse_eq_nil_iff,
    List.dropWhile_eq_nil_iff] at none
  rw [none c (List.mem_reverse.mpr (List.mem_of_mem_head? head))] at inner
  contradiction

def BeginsUnnamed (t : Text) : Prop := ¬ ":=".toList <+: trimLeft (t.dropWhile isWord)

theorem argumentValue_eq_self {t : Text} (unnamed : BeginsUnnamed t) : argumentValue t = t := by
  rw [argumentValue]
  cases found : word? t with
  | none => rfl
  | some cut =>
    obtain ⟨word, rest⟩ := cut
    have behind : rest = t.dropWhile isWord := by
      rw [word?] at found
      split at found
      · contradiction
      · exact (Prod.mk.inj (Option.some.inj found)).2.symm
    have miss : after? ":=".toList (trimLeft rest) = none := by
      rw [after?, if_neg]
      rwa [behind, List.isPrefixOf_iff_prefix]
    simp only [miss]

/-- Behind words and blanks a `:=` holds the first comparison sign. -/
theorem findTopLevel?_assigns {a rest : Text}
    (free : ∀ c ∈ a, isWord c = true ∨ isBlank c = true) :
    findTopLevel? Comparison.eq.symbol (a ++ (":=".toList ++ rest)) 0 = some (a.length + 1) := by
  have front : ∀ c ∈ a ++ [':'], c ≠ '(' ∧ c ≠ ')' ∧ c ≠ '=' := by
    rw [List.forall_mem_append]
    refine ⟨?_, of_all rfl⟩
    intro c mem
    rcases free c mem with word | blank
    · refine ⟨(paren_of_isWord word).1, (paren_of_isWord word).2, ?_⟩
      rintro rfl
      contradiction
    · refine ⟨?_, ?_, ?_⟩ <;> rintro rfl <;> contradiction
  have here : topLevelFrom ['='] 0 ('=' :: rest) = some 0 := by simp [topLevelFrom]
  have found := @topLevelFrom_skip '=' [] _ front ('=' :: rest)
  have shape : a ++ (":=".toList ++ rest) = (a ++ [':']) ++ '=' :: rest := by simp
  have sign : Comparison.eq.symbol = ['='] := rfl
  rw [findTopLevel?, List.drop_zero, shape, sign, found, here]
  simp

theorem eq_words_append (t : Text) :
    t = (t.takeWhile isWord ++ (t.dropWhile isWord).takeWhile isBlank) ++
      trimLeft (t.dropWhile isWord) := by
  rw [trimLeft, List.append_assoc, List.takeWhile_append_dropWhile,
    List.takeWhile_append_dropWhile]

theorem beginsUnnamed_of_incomparable {t : Text} (incomparable : comparison? .eq t = none) :
    BeginsUnnamed t := by
  rintro ⟨rest, assigns⟩
  have free : ∀ c ∈ t.takeWhile isWord ++ (t.dropWhile isWord).takeWhile isBlank,
      isWord c = true ∨ isBlank c = true := by
    rw [List.forall_mem_append]
    exact ⟨fun c mem => Or.inl (List.mem_takeWhile_imp mem),
      fun c mem => Or.inr (List.mem_takeWhile_imp mem)⟩
  have found := @findTopLevel?_assigns _ rest free
  rw [assigns, ← eq_words_append] at found
  rw [comparison?, found] at incomparable
  contradiction

theorem beginsUnnamed_of_tighter {t : Text} (tighter : Tighter 3 t) : BeginsUnnamed t :=
  beginsUnnamed_of_incomparable (comparison?_eq_none tighter)

theorem BeginsUnnamed.before {t : Text} (unnamed : BeginsUnnamed t) (trimmed : IsTrimmed t)
    {rest : Text} (behind : ¬ ":=".toList <+: trimLeft rest) :
    BeginsUnnamed (t ++ ' ' :: rest) := by
  rw [BeginsUnnamed] at unnamed ⊢
  cases shape : t.dropWhile isWord with
  | nil =>
    have letters := List.dropWhile_eq_nil_iff.mp shape
    have stops : (' ' :: rest).dropWhile isWord = ' ' :: rest := rfl
    have blank : trimLeft (' ' :: rest) = trimLeft rest :=
      List.dropWhile_cons_of_pos (by decide)
    rw [List.dropWhile_append_of_pos letters, stops, blank]
    exact behind
  | cons c u =>
    have passed : (t ++ ' ' :: rest).dropWhile isWord = (c :: u) ++ ' ' :: rest := by
      rw [List.dropWhile_append, shape]
      rfl
    obtain ⟨d, last, inner⟩ := trimmed.last
    have inside : d ∈ c :: u := by
      rw [← shape]
      obtain ⟨start, whole⟩ := List.dropWhile_suffix isWord (l := t)
      rw [← whole, shape, List.getLast?_append_of_ne_nil _ (List.cons_ne_nil c u)] at last
      rw [shape]
      exact List.mem_of_getLast? last
    have filled : ((c :: u).dropWhile isBlank).isEmpty = false := by
      rw [List.isEmpty_eq_false_iff]
      intro none
      rw [List.dropWhile_eq_nil_iff.mp none d inside] at inner
      contradiction
    rw [shape] at unnamed
    have cut : trimLeft ((c :: u) ++ ' ' :: rest) = trimLeft (c :: u) ++ ' ' :: rest := by
      rw [trimLeft, List.dropWhile_append, filled]
      rfl
    rw [passed, cut, ← List.isPrefixOf_iff_prefix, isPrefixOf_append (by decide),
      List.isPrefixOf_iff_prefix]
    exact unnamed

theorem beginsUnnamed_parenthesized (g rest : Text) :
    BeginsUnnamed (parenthesized g ++ rest) := by
  have first : trimLeft ((parenthesized g ++ rest).dropWhile isWord) = parenthesized g ++ rest :=
    rfl
  rw [BeginsUnnamed, first, parenthesized_append]
  rintro ⟨u, same⟩
  have differ := (List.cons.inj same).1
  contradiction

namespace Expression

theorem beginsUnnamed_operation {place : Nat} (bound : place ≤ operandTightness)
    {left : Expression} (trimmed : IsTrimmed left.text) (unnamed : BeginsUnnamed left.text)
    {symbol : Text} (sign : ∃ c s, symbol = c :: s ∧ isBlank c = false ∧ c ≠ ':') (right : Text) :
    BeginsUnnamed (left.leftText place ++ operation symbol right) := by
  have behind : ¬ ":=".toList <+: trimLeft (symbol ++ ' ' :: right) := by
    obtain ⟨c, s, rfl, solid, other⟩ := sign
    rw [List.cons_append, trimLeft_cons solid]
    rintro ⟨u, same⟩
    exact other (List.cons.inj same).1.symm
  rw [leftText_eq bound]
  split
  · exact beginsUnnamed_parenthesized _ _
  · exact unnamed.before trimmed behind

theorem beginsUnnamed_text {e : Expression} {levels : Nat} (stable : e.Stable levels) :
    BeginsUnnamed e.text := by
  have tight {e : Expression} {levels : Nat} (stable : e.Stable levels)
      (above : 3 < e.tightness) : BeginsUnnamed e.text :=
    beginsUnnamed_of_tighter (tighter_text stable 3 above)
  have operand : 3 < operandTightness := by decide
  induction stable with
  | literal leaf => exact tight (@Stable.literal _ 0 leaf) operand
  | reference leaf => exact tight (@Stable.reference _ 0 leaf) operand
  | cut trimmed tighter => exact tight (.cut trimmed tighter) operand
  | negation inner ih => exact tight (.negation inner) operand
  | @connective op left right levels first begins second ihl ihr =>
    have bound : op.tightness ≤ operandTightness := by cases op <;> decide
    rw [text_connective]
    apply beginsUnnamed_operation bound (isTrimmed_text first) ihl
    cases op <;> exact ⟨_, _, rfl, by decide, by decide⟩
  | @comparison op left right levels first begins second ihl ihr =>
    rw [text_comparison]
    apply beginsUnnamed_operation (by decide) (isTrimmed_text first) ihl
    cases op <;> exact ⟨_, _, rfl, by decide, by decide⟩
  | call word apart inner ih => exact tight (.call word apart inner) operand

end Expression

/-- What the outermost construct of a text tells about the text. -/
inductive Shape.Of (t : Text) : Shape → Prop
  | truth (value : Bool) (same : t = (Literal.bool value).text) :
    Of t (.leaf (.literal (.bool value)))
  | numeral {n : Numeral} (found : numeral? t = some n) :
    Of t (.leaf (n.literal?.elim (.variable t) .literal))
  | negation {operand : Text} (found : negated? t = some operand) : Of t (.negation operand)
  | chain {op : Connective} {first second : Text} {rest : List Text}
    (found : splitAtTopWord op.symbol t = first :: second :: rest) :
    Of t (.chain op first (second :: rest))
  | comparison {op : Comparison} {n : Nat} (found : findTopLevel? op.symbol t 0 = some (n + 1)) :
    Of t (.comparison op (t.take (n + 1)) (t.drop (n + 1 + op.symbol.length)))
  | call {name : Text} {arguments : List Text} (positive : negated? t = none)
    (unchained : ∀ op, chain? op t = none) (found : callParts? t = some (name, arguments)) :
    Of t (.call name arguments)
  | word (positive : negated? t = none) (unchained : ∀ op, chain? op t = none)
    (incomparable : ∀ op, comparison? op t = none) (noCall : callParts? t = none) :
    Of t (.leaf (.variable t))

theorem Shape.of_chain? {op : Connective} {t : Text} {shape : Shape}
    (found : chain? op t = some shape) : Shape.Of t shape := by
  rw [chain?] at found
  split at found
  · next first second rest parts =>
    obtain rfl := Option.some.inj found
    exact .chain parts
  · contradiction

theorem Shape.of_comparison? {op : Comparison} {t : Text} {shape : Shape}
    (found : comparison? op t = some shape) : Shape.Of t shape := by
  rw [comparison?] at found
  split at found
  · next n place =>
    obtain rfl := Option.some.inj found
    exact .comparison place
  · contradiction

theorem Shape.of_ofStripped (t : Text) : Shape.Of t (Shape.ofStripped t) := by
  rw [Shape.ofStripped]
  split
  · next same => exact .truth true same
  split
  · next same => exact .truth false same
  split
  · next n found => exact .numeral found
  split
  · next operand found => exact .negation found
  next positive =>
  split
  · next shape found =>
    obtain ⟨op, -, found⟩ := List.exists_of_findSome?_eq_some found
    exact of_chain? found
  next unchained =>
  have unchained (op : Connective) : chain? op t = none :=
    List.findSome?_eq_none_iff.mp unchained op (by cases op <;> decide)
  split
  · next shape found =>
    obtain ⟨op, -, found⟩ := List.exists_of_findSome?_eq_some found
    exact of_comparison? found
  next incomparable =>
  have incomparable (op : Comparison) : comparison? op t = none :=
    List.findSome?_eq_none_iff.mp incomparable op op.mem_all
  split
  · next name arguments found => exact .call positive unchained found
  · next noCall => exact .word positive unchained incomparable noCall

theorem IsSoleText.beginsUnnamed {t : Text} (sole : IsSoleText t) :
    BeginsUnnamed t := by
  have found := Shape.of_ofStripped t
  rw [sole.shape] at found
  generalize same : Shape.leaf (Expression.variable t) = shape at found
  cases found with
  | truth value _ => exact absurd (Shape.leaf.inj same) Expression.noConfusion
  | numeral found =>
    rintro assigns
    have colon : ':' ∈ t := by
      rw [eq_words_append t]
      exact List.mem_append_right _ (assigns.subset List.mem_cons_self)
    rw [numeral?_eq_none colon (by decide)] at found
    contradiction
  | negation found => contradiction
  | chain found => contradiction
  | comparison found => contradiction
  | call positive unchained found => contradiction
  | word positive unchained incomparable noCall =>
    exact beginsUnnamed_of_incomparable (incomparable .eq)

theorem argumentValue_named {w t : Text} (nonempty : w ≠ []) (letters : ∀ c ∈ w, isWord c = true)
    (trimmed : IsTrimmed t) : argumentValue (w ++ " := ".toList ++ t) = t := by
  have sign : after? ":=".toList (trimLeft (" := ".toList ++ t)) = some (' ' :: t) :=
    after?_eq_some_iff.mpr rfl
  have behind : trimLeft (' ' :: t) = t := dropWhile_eq_self trimmed.first
  rw [argumentValue, List.append_assoc, word?_append nonempty letters rfl]
  simp only [sign, behind]

theorem argumentTexts_intercalate {texts : List Text} (trimmed : ∀ t ∈ texts, IsTrimmed t)
    (comma : ∀ t ∈ texts, ',' ∉ t) :
    argumentTexts (", ".toList.intercalate texts) = texts.map argumentValue := by
  cases texts with
  | nil => rfl
  | cons t rest =>
    have commas : ", ".toList.intercalate (t :: rest) =
        [','].intercalate (t :: rest.map (' ' :: ·)) := by
      rw [intercalate_cons, intercalate_cons, List.flatMap_map]
      rfl
    have filled : (trim (", ".toList.intercalate (t :: rest))).isEmpty = false := by
      obtain ⟨c, head, inner⟩ := (trimmed t (by simp)).first
      rw [List.isEmpty_eq_false_iff]
      apply trim_ne_nil
      refine ⟨c, ?_, inner⟩
      rw [intercalate_cons, List.head?_append, Option.mem_def.mp head]
      rfl
    have parts : (", ".toList.intercalate (t :: rest)).splitOn ',' = t :: rest.map (' ' :: ·) := by
      rw [commas]
      apply List.splitOn_intercalate
      · intro u mem
        rcases List.mem_cons.mp mem with rfl | mem
        · exact comma u (by simp)
        · obtain ⟨v, inside, rfl⟩ := List.mem_map.mp mem
          have free := comma v (by simp [inside])
          simp [free]
      · exact List.cons_ne_nil _ _
    have back : ∀ u ∈ rest, argumentValue (trim (' ' :: u)) = argumentValue u := by
      intro u mem
      have alone : trim (' ' :: u) = u := by
        have cut := trim_surrounded (a := [' ']) (b := []) (trimmed u (by simp [mem])) (of_all rfl)
          (of_all rfl)
        rwa [List.append_nil] at cut
      rw [alone]
    rw [argumentTexts, filled, if_neg (by decide), parts, List.map_cons, List.map_map,
      trim_eq_self (trimmed t (by simp)), List.map_cons]
    exact congrArg (argumentValue t :: ·) (List.map_congr_left back)

end StructuredText
