import Mathlib.Data.List.Basic
import StructuredText.Proofs.Expression.Tightness
import StructuredText.Proofs.Number.Numeral

/- What the text of an expression looks like: its ends, its first word and the operators outside its
   parentheses, as long as its leaves can be told from what stands around them. -/
namespace StructuredText

def Expression.tightness : Expression → Nat
  | .connective op _ _ => op.tightness
  | .comparison op _ _ => op.tightness
  | _ => operandTightness

theorem Expression.textAt_eq {place : Nat} (bound : place ≤ operandTightness) (e : Expression) :
    e.textAt place = if e.tightness < place then parenthesized e.text else e.text := by
  have tight : ¬ operandTightness < place := by omega
  cases e with
  | literal value => exact (if_neg tight).symm
  | «variable» name => exact (if_neg tight).symm
  | negation operand => exact (if_neg tight).symm
  | call name arguments => exact (if_neg tight).symm
  | connective op left right =>
    simp only [tightness, text, textAt, binaryText, if_neg (Nat.not_lt_zero _)]
  | comparison op left right =>
    simp only [tightness, text, textAt, binaryText, if_neg (Nat.not_lt_zero _)]

def Expression.leftText (place : Nat) (e : Expression) : Text :=
  if e.isNegation then parenthesized (e.textAt place) else e.textAt place

def operation (symbol right : Text) : Text := ' ' :: (symbol ++ ' ' :: right)

theorem atWordEnd_operation (symbol right : Text) : atWordEnd (operation symbol right) = true := rfl

theorem binaryText_zero (tightness : Nat) (symbol : Text) (negated : Bool) (left right : Text) :
    binaryText 0 tightness symbol negated left right =
      (if negated then parenthesized left else left) ++ operation symbol right := by
  rw [binaryText, if_neg (Nat.not_lt_zero _)]
  simp [operation]

theorem Expression.text_connective (op : Connective) (left right : Expression) :
    (Expression.connective op left right).text =
      left.leftText op.tightness ++ operation op.symbol (right.textAt (op.tightness + 1)) := by
  rw [text, textAt, binaryText_zero]
  rfl

theorem Expression.text_comparison (op : Comparison) (left right : Expression) :
    (Expression.comparison op left right).text =
      left.leftText 4 ++ operation op.symbol (right.textAt 4) := by
  rw [text, textAt, binaryText_zero]
  rfl

theorem Expression.text_negation (operand : Expression) :
    (Expression.negation operand).text = "NOT ".toList ++ operand.textAt operandTightness := by
  rw [text, textAt]

theorem Expression.text_call (name : Text) (arguments : List Expression) :
    (Expression.call name arguments).text =
      name ++ parenthesized (", ".toList.intercalate (arguments.map Expression.text)) := by
  rw [text, textAt, texts_eq_map]

theorem intercalate_cons (separator t : Text) (rest : List Text) :
    separator.intercalate (t :: rest) = t ++ rest.flatMap (separator ++ ·) := by
  induction rest generalizing t with
  | nil => simp
  | cons u rest ih => rw [List.intercalate_cons_cons, ih, List.flatMap_cons, List.append_assoc,
      List.append_assoc]

theorem balanced_intercalate {separator : Text} (separates : Balanced separator)
    {texts : List Text} (balanced : ∀ t ∈ texts, Balanced t) :
    Balanced (separator.intercalate texts) := by
  cases texts with
  | nil => exact Balanced.nil
  | cons t rest =>
    rw [intercalate_cons]
    apply (balanced t (by simp)).append
    have more : ∀ u ∈ rest, Balanced u := fun u mem => balanced u (by simp [mem])
    clear balanced
    induction rest with
    | nil => exact Balanced.nil
    | cons u rest ih =>
      rw [List.flatMap_cons]
      exact (separates.append (more u (by simp))).append (ih fun v mem => more v (by simp [mem]))

structure Identifier (w : Text) : Prop where
  first : ∃ c t, w = c :: t ∧ (c.isAlpha = true ∨ c = '_')
  letters : ∀ c ∈ w, isAsciiWord c = true

theorem identifier_of_isIdentifier {w : Text} (identifier : isIdentifier w = true) :
    Identifier w := by
  cases w with
  | nil => contradiction
  | cons c t =>
    simp only [isIdentifier, Bool.and_eq_true, Bool.or_eq_true, decide_eq_true_eq,
      List.all_eq_true] at identifier
    obtain ⟨first, more⟩ := identifier
    refine ⟨⟨c, t, rfl, first⟩, ?_⟩
    intro d mem
    rcases List.mem_cons.mp mem with rfl | mem
    · rcases first with letter | rfl
      · simp [isAsciiWord, Char.isAlphanum, letter]
      · rfl
    · exact more d mem

namespace Identifier
variable {w : Text} (word : Identifier w)
include word

theorem ne_nil : w ≠ [] := by
  obtain ⟨c, t, rfl, -⟩ := word.first
  exact List.cons_ne_nil c t

theorem isWord : ∀ c ∈ w, isWord c = true := fun c mem => isWord_of_isAsciiWord (word.letters c mem)

theorem isTrimmed : IsTrimmed w :=
  isTrimmed_of_solid word.ne_nil fun c mem => isBlank_of_isAsciiWord (word.letters c mem)

end Identifier

structure FreeWord (w : Text) : Prop extends Identifier w where
  free : w ∉ operatorWords

theorem freeWord_of_isFreeWord {w : Text} (free : isFreeWord w = true) : FreeWord w := by
  simp only [isFreeWord, Bool.and_eq_true, Bool.not_eq_true', List.contains_eq_mem,
    decide_eq_false_iff_not] at free
  exact ⟨identifier_of_isIdentifier free.1, free.2⟩

theorem FreeWord.ne_symbol {w : Text} (word : FreeWord w) (op : Connective) : w ≠ op.symbol := by
  rintro rfl
  apply word.free
  cases op <;> decide

theorem FreeWord.ne_not {w : Text} (word : FreeWord w) : w ≠ "NOT".toList := by
  rintro rfl
  exact word.free (by decide)

theorem FreeWord.tighter {w : Text} (word : FreeWord w) (k : Nat) : Tighter k w :=
  tighter_word word.ne_nil word.isWord fun op _ => word.ne_symbol op

structure PlainName (name : Text) : Prop where
  parts : ∃ (w : Text) (rest : List Text),
    name = w ++ rest.flatMap ('.' :: ·) ∧ FreeWord w ∧ ∀ v ∈ rest, FreeWord v
  isNotTrue : name ≠ "TRUE".toList
  isNotFalse : name ≠ "FALSE".toList

theorem plainName_of_isPlainName {name : Text} (plain : isPlainName name = true) :
    PlainName name := by
  simp only [isPlainName, Bool.and_eq_true, decide_eq_true_eq, List.all_eq_true] at plain
  obtain ⟨⟨words, isNotTrue⟩, isNotFalse⟩ := plain
  refine ⟨?_, isNotTrue, isNotFalse⟩
  cases split : name.splitOn '.' with
  | nil => exact absurd split (List.splitOn_ne_nil '.' name)
  | cons w rest =>
    rw [split] at words
    refine ⟨w, rest, ?_, freeWord_of_isFreeWord (words w (by simp)),
      fun v mem => freeWord_of_isFreeWord (words v (by simp [mem]))⟩
    have joined := intercalate_cons ['.'] w rest
    rw [← split, List.intercalate_splitOn] at joined
    exact joined

theorem atWordEnd_members (rest : List Text) : atWordEnd (rest.flatMap ('.' :: ·)) = true := by
  cases rest with
  | nil => rfl
  | cons v rest => rfl

theorem tighter_members {k : Nat} {rest : List Text} (words : ∀ v ∈ rest, FreeWord v) :
    Tighter k (rest.flatMap ('.' :: ·)) := by
  induction rest with
  | nil => exact Tighter.nil
  | cons v rest ih =>
    have word := words v (by simp)
    rw [List.flatMap_cons]
    exact Tighter.mark (by decide) (by decide) (by decide) (fun _ => rfl)
      ((word.tighter k).append (atWordEnd_members rest) (ih fun u mem => words u (by simp [mem])))

theorem PlainName.tighter {name : Text} (plain : PlainName name) (k : Nat) : Tighter k name := by
  obtain ⟨w, rest, rfl, word, words⟩ := plain.parts
  exact (word.tighter k).append (atWordEnd_members rest) (tighter_members words)

theorem PlainName.chars {name : Text} (plain : PlainName name) :
    ∀ c ∈ name, isAsciiWord c = true ∨ c = '.' := by
  obtain ⟨w, rest, rfl, word, words⟩ := plain.parts
  intro c mem
  rcases List.mem_append.mp mem with mem | mem
  · exact Or.inl (word.letters c mem)
  · obtain ⟨v, inside, mem⟩ := List.mem_flatMap.mp mem
    rcases List.mem_cons.mp mem with rfl | mem
    · exact Or.inr rfl
    · exact Or.inl ((words v inside).letters c mem)

theorem PlainName.first {name : Text} (plain : PlainName name) :
    ∃ c t, name = c :: t ∧ (c.isAlpha = true ∨ c = '_') := by
  obtain ⟨w, rest, rfl, word, -⟩ := plain.parts
  obtain ⟨c, t, rfl, letter⟩ := word.first
  exact ⟨c, _, rfl, letter⟩

theorem PlainName.isTrimmed {name : Text} (plain : PlainName name) : IsTrimmed name := by
  obtain ⟨c, t, eq, -⟩ := plain.first
  apply isTrimmed_of_solid (by simp [eq])
  intro d mem
  rcases plain.chars d mem with letter | rfl
  · exact isBlank_of_isAsciiWord letter
  · decide

theorem tighter_integerText (value : Int) (k : Nat) : Tighter k (integerText value) := by
  have digits (n : Nat) : Tighter k (naturalText n) := by
    apply tighter_word (naturalText_ne_nil n)
    · intro c mem
      exact isWord_of_isAsciiWord (digit_facts (isDigit_of_mem_naturalText mem)).1
    · intro op _ same
      obtain ⟨c, t, eq, -⟩ := op.symbol_cons
      have digit := isDigit_of_mem_naturalText (n := n) (c := c) (by simp [same, eq])
      cases op <;> obtain ⟨rfl, -⟩ := List.cons.inj eq <;> contradiction
  cases value with
  | ofNat n => exact digits n
  | negSucc n =>
    exact Tighter.mark (by decide) (by decide) (by decide) (fun _ => rfl) (digits (n + 1))

theorem tighter_bool (value : Bool) (k : Nat) : Tighter k (Literal.bool value).text := by
  have word (w : Text) (nonempty : w ≠ []) (letters : ∀ c ∈ w, isWord c = true)
      (free : ∀ op : Connective, w ≠ op.symbol) : Tighter k w :=
    tighter_word nonempty letters fun op _ => free op
  cases value
  · exact word "FALSE".toList (by decide) (of_all rfl) (fun op => by cases op <;> decide)
  · exact word "TRUE".toList (by decide) (of_all rfl) (fun op => by cases op <;> decide)

theorem isTrimmed_bool (value : Bool) : IsTrimmed (Literal.bool value).text := by
  cases value
  · exact isTrimmed_of_solid (by decide) (of_all rfl)
  · exact isTrimmed_of_solid (by decide) (of_all rfl)

theorem isEnclosed_bool (value : Bool) : isEnclosed (Literal.bool value).text = false := by
  cases value <;> decide

theorem isTrimmed_integerText (value : Int) : IsTrimmed (integerText value) := by
  have digits (n : Nat) : IsTrimmed (naturalText n) :=
    isTrimmed_of_solid (naturalText_ne_nil n) fun c mem =>
      isBlank_of_isAsciiWord (digit_facts (isDigit_of_mem_naturalText mem)).1
  cases value with
  | ofNat n => exact digits n
  | negSucc n =>
    have sign : IsTrimmed ['-'] := ⟨⟨'-', rfl, by decide⟩, ⟨'-', rfl, by decide⟩⟩
    exact sign.append (digits (n + 1))

theorem isEnclosed_integerText (value : Int) : isEnclosed (integerText value) = false := by
  apply isEnclosed_of_head
  cases value with
  | ofNat n =>
    rw [integerText]
    intro head
    have digit := isDigit_of_mem_naturalText (List.mem_of_mem_head? head)
    contradiction
  | negSucc n => exact fun head => absurd (Option.some.inj head) (by decide)

theorem PlainName.isEnclosed {name : Text} (plain : PlainName name) :
    StructuredText.isEnclosed name = false := by
  obtain ⟨c, t, rfl, letter⟩ := plain.first
  apply isEnclosed_of_head
  intro head
  obtain rfl := Option.some.inj head
  rcases letter with letter | letter <;> contradiction

theorem negated?_eq_none {w rest : Text} (letters : ∀ c ∈ w, isWord c = true)
    (ends : atWordEnd rest = true) (other : w ≠ "NOT".toList) : negated? (w ++ rest) = none := by
  rw [negated?]
  cases found : after? "NOT".toList (w ++ rest) with
  | none => rfl
  | some behind =>
    have eq := after?_eq_some_iff.mp found
    have not_end : atWordEnd behind = false := by
      cases stops : atWordEnd behind with
      | false => rfl
      | true =>
        have same : w = "NOT".toList := by
          rw [← takeWhile_word letters ends, eq, takeWhile_word (of_all rfl) stops]
        exact absurd same other
    cases behind with
    | nil => rfl
    | cons c operand =>
      have word : isWord c = true := by simpa [atWordEnd] using not_end
      have opens := (paren_of_isWord word).1
      have inner : isBlank c = false := by
        cases blank : isBlank c with
        | false => rfl
        | true =>
          rw [isWord_of_isBlank blank] at word
          contradiction
      simp [opens, afterBlanks?, inner]

def IsPositive (t : Text) : Prop := negated? t = none ∧ t ≠ "NOT".toList

theorem isPositive_of_word {w rest : Text} (letters : ∀ c ∈ w, isWord c = true)
    (ends : atWordEnd rest = true) (other : w ≠ "NOT".toList) : IsPositive (w ++ rest) := by
  refine ⟨negated?_eq_none letters ends other, ?_⟩
  intro same
  apply other
  rw [← takeWhile_word letters ends, same]
  rfl

/-- The text is the word NOT or begins with it as an operator, with a blank or a parenthesis
    behind it. -/
def opensNegation (t : Text) : Bool :=
  (after? "NOT".toList t).any (·.head?.all fun c => isBlank c || c = '(')

theorem isPositive_of_opensNegation {t : Text} (other : opensNegation t = false) :
    IsPositive t := by
  constructor
  · rw [negated?]
    cases behind : after? "NOT".toList t with
    | none => rfl
    | some rest =>
      cases rest with
      | nil => rfl
      | cons c rest =>
        rw [opensNegation, behind] at other
        obtain ⟨solid, opens⟩ : isBlank c = false ∧ c ≠ '(' := by simpa using other
        simp only
        rw [if_neg opens, afterBlanks?, if_neg (by simp [solid])]
  · rintro rfl
    contradiction

theorem IsPositive.opensNegation {t : Text} (positive : IsPositive t) (trimmed : IsTrimmed t) :
    StructuredText.opensNegation t = false := by
  rw [StructuredText.opensNegation]
  cases behind : after? "NOT".toList t with
  | none => rfl
  | some u =>
    obtain ⟨noNegation, isNotNot⟩ := positive
    rw [negated?, behind] at noNegation
    obtain rfl := after?_eq_some_iff.mp behind
    cases u with
    | nil => exact absurd (List.append_nil _) isNotNot
    | cons c u =>
      simp only at noNegation
      have opens : c ≠ '(' := by
        rintro rfl
        rw [if_pos rfl] at noNegation
        contradiction
      have solid : isBlank c = false := by
        cases blank : isBlank c with
        | false => rfl
        | true =>
          rw [if_neg opens, afterBlanks?, if_pos blank] at noNegation
          have hidden : trimLeft u = [] := by
            cases rest : trimLeft u with
            | nil => rfl
            | cons d operand =>
              rw [rest] at noNegation
              contradiction
          have blanks : ∀ d ∈ c :: u, isBlank d = true :=
            List.forall_mem_cons.mpr ⟨blank, List.dropWhile_eq_nil_iff.mp hidden⟩
          obtain ⟨d, last, inner⟩ := trimmed.last
          rw [List.getLast?_append_of_ne_nil _ (List.cons_ne_nil c u)] at last
          rw [blanks d (List.mem_of_getLast? last)] at inner
          contradiction
      simp [solid, opens]

theorem opensNegation_append {c : Char} (blank : isBlank c = true) (t rest : Text) :
    opensNegation (t ++ c :: rest) = opensNegation t := by
  have free : c ∉ "NOT".toList := by
    intro mem
    have solid : ∀ d ∈ "NOT".toList, isBlank d = false := of_all rfl
    rw [solid c mem] at blank
    contradiction
  rw [opensNegation, opensNegation, after?, after?, isPrefixOf_append free]
  split
  · next starts =>
    obtain ⟨u, rfl⟩ := List.isPrefixOf_iff_prefix.mp starts
    rw [List.append_assoc, List.drop_left, List.drop_left]
    cases u with
    | nil => simp [blank]
    | cons d u => rfl
  · rfl

theorem IsPositive.before {t : Text} (positive : IsPositive t) (trimmed : IsTrimmed t)
    (rest : Text) : IsPositive (t ++ ' ' :: rest) := by
  apply isPositive_of_opensNegation
  rw [opensNegation_append (by decide)]
  exact positive.opensNegation trimmed

theorem isPositive_bool (value : Bool) : IsPositive (Literal.bool value).text := by
  cases value <;> exact ⟨by decide, by decide⟩

theorem isPositive_integerText (value : Int) : IsPositive (integerText value) := by
  have digits (n : Nat) (c : Char) (mem : c ∈ naturalText n) : isWord c = true :=
    isWord_of_isAsciiWord (digit_facts (isDigit_of_mem_naturalText mem)).1
  cases value with
  | ofNat n =>
    rw [integerText, ← List.append_nil (naturalText n)]
    apply isPositive_of_word (digits n) rfl
    intro same
    have digit := isDigit_of_mem_naturalText (n := n) (c := 'N') (by rw [same]; decide)
    contradiction
  | negSucc n =>
    rw [← List.nil_append (integerText _)]
    exact isPositive_of_word (of_all rfl) rfl (by decide)

theorem PlainName.isPositive {name : Text} (plain : PlainName name) : IsPositive name := by
  obtain ⟨w, rest, rfl, word, -⟩ := plain.parts
  exact isPositive_of_word word.isWord (atWordEnd_members rest) word.ne_not

structure IsLeafText (t : Text) (e : Expression) : Prop where
  trimmed : IsTrimmed t
  bare : isEnclosed t = false
  tighter : ∀ k, Tighter k t
  positive : IsPositive t
  shape : Shape.ofStripped t = .leaf e

structure IsSoleText (t : Text) : Prop where
  trimmed : IsTrimmed t
  bare : isEnclosed t = false
  shape : Shape.ofStripped t = .leaf (.variable t)

/-- A text that is read as it is only because it lies too deep: it need not be broken down, but it
    must not be taken for a named argument. -/
structure IsCutText (t : Text) : Prop where
  trimmed : IsTrimmed t
  unnamed : argumentValue t = t

structure IsCallName (w : Text) : Prop where
  nonempty : w ≠ []
  letters : ∀ c ∈ w, isWord c = true
  noOperator : ∀ op : Connective, w ≠ op.symbol
  noNegation : w ≠ "NOT".toList

theorem FreeWord.isCallName {w : Text} (word : FreeWord w) : IsCallName w :=
  ⟨word.ne_nil, word.isWord, word.ne_symbol, word.ne_not⟩

theorem IsCallName.tighter {w : Text} (name : IsCallName w) (k : Nat) : Tighter k w :=
  tighter_word name.nonempty name.letters fun op _ => name.noOperator op

theorem IsCallName.isTrimmed {w : Text} (name : IsCallName w) : IsTrimmed w :=
  isTrimmed_of_solid name.nonempty fun c mem => isBlank_of_isWord (name.letters c mem)

structure AreArguments (texts : List Text) : Prop where
  comma : ∀ t ∈ texts, ',' ∉ t
  balanced : Balanced (", ".toList.intercalate texts)

namespace Expression

def Shown (e : Expression) (t : Text) : Prop :=
  t = e.text ∨ (∀ u, e ≠ .variable u) ∧ t = parenthesized e.text

theorem ne_variable_of_loose {place : Nat} (bound : place ≤ operandTightness) {e : Expression}
    (loose : e.isNegation = true ∨ e.tightness < place) (u : Text) : e ≠ .variable u := by
  rintro rfl
  rcases loose with negated | loose
  · contradiction
  · exact Nat.not_lt.mpr bound loose

theorem shown_textAt {place : Nat} (bound : place ≤ operandTightness) (e : Expression) :
    e.Shown (e.textAt place) := by
  rw [textAt_eq bound]
  by_cases loose : e.tightness < place
  · rw [if_pos loose]
    exact Or.inr ⟨ne_variable_of_loose bound (Or.inr loose), rfl⟩
  · rw [if_neg loose]
    exact Or.inl rfl

theorem leftText_eq {place : Nat} (bound : place ≤ operandTightness) (e : Expression) :
    e.leftText place =
      if e.isNegation = true ∨ e.tightness < place then parenthesized e.text else e.text := by
  rw [leftText, textAt_eq bound]
  by_cases negated : e.isNegation = true
  · have tight : ¬ e.tightness < place := by
      cases e <;> simp_all [isNegation, tightness]
    rw [if_pos negated, if_neg tight, if_pos (Or.inl negated)]
  · simp [negated]

theorem shown_leftText {place : Nat} (bound : place ≤ operandTightness) (e : Expression) :
    e.Shown (e.leftText place) := by
  rw [leftText_eq bound]
  split
  · next loose => exact Or.inr ⟨ne_variable_of_loose bound loose, rfl⟩
  · exact Or.inl rfl

theorem tightness_pos (e : Expression) : 0 < e.tightness := by
  cases e with
  | connective op left right => cases op <;> exact Nat.succ_pos _
  | _ => exact Nat.succ_pos _

theorem tighter_textAt {e : Expression} (tighter : ∀ k < e.tightness, Tighter k e.text)
    {place k : Nat} (bound : place ≤ operandTightness)
    (tight : e.tightness < place ∨ k < e.tightness) : Tighter k (e.textAt place) := by
  rw [textAt_eq bound]
  by_cases loose : e.tightness < place
  · rw [if_pos loose]
    exact tighter_parenthesized k (tighter 0 e.tightness_pos).balanced
  · rw [if_neg loose]
    exact tighter k (tight.resolve_left loose)

theorem tighter_leftText {e : Expression} (tighter : ∀ k < e.tightness, Tighter k e.text)
    {place k : Nat} (bound : place ≤ operandTightness)
    (tight : e.tightness < place ∨ k < e.tightness) : Tighter k (e.leftText place) := by
  rw [leftText]
  split
  · have inner : Tighter 0 (e.textAt place) := tighter_textAt tighter bound (Or.inr e.tightness_pos)
    exact tighter_parenthesized k inner.balanced
  · exact tighter_textAt tighter bound tight

theorem tighter_operation {k : Nat} {symbol right : Text} (operator : Tighter k symbol)
    (operand : Tighter k right) : Tighter k (operation symbol right) := by
  have blank {t : Text} (rest : Tighter k t) : Tighter k (' ' :: t) :=
    Tighter.mark (by decide) (by decide) (by decide) (fun _ => rfl) rest
  exact blank (operator.append rfl (blank operand))

theorem tighter_connective {k : Nat} {op : Connective} (loose : k < op.tightness) :
    Tighter k op.symbol := by
  apply tighter_word (by cases op <;> decide) (isWord_of_mem_symbol op)
  intro op' tight same
  have differ : op' ≠ op := by
    rintro rfl
    omega
  cases op <;> cases op' <;> contradiction

theorem tighter_comparison {k : Nat} (loose : k < 3) (op : Comparison) : Tighter k op.symbol := by
  have sign {c : Char} {t : Text} (sign : isComparisonChar c = true) (rest : Tighter k t) :
      Tighter k (c :: t) := by
    refine Tighter.mark (isWord_of_isComparisonChar sign) ?_ ?_ (by omega) rest
    · rintro rfl
      contradiction
    · rintro rfl
      contradiction
  cases op
  · exact sign rfl (sign rfl Tighter.nil)
  · exact sign rfl (sign rfl Tighter.nil)
  · exact sign rfl (sign rfl Tighter.nil)
  · exact sign rfl Tighter.nil
  · exact sign rfl Tighter.nil
  · exact sign rfl Tighter.nil

def IsSole (e : Expression) (levels : Nat) : Prop :=
  ∃ t, e = .variable t ∧ (IsSoleText t ∨ levels = 0 ∧ IsCutText t)

/-- The expressions whose text is read with the same structure if it may be broken down to so many
    levels, also where operators stand around it.  An argument of a call stands alone between its
    commas, and a chain is one level however long it is. -/
inductive Stable : Expression → Nat → Prop
  | literal {value : Literal} {levels : Nat} (leaf : IsLeafText value.text (.literal value)) :
    Stable (.literal value) (levels + 1)
  | reference {name : Text} {levels : Nat} (leaf : IsLeafText name (.variable name)) :
    Stable (.variable name) levels
  | cut {t : Text} (trimmed : IsTrimmed t) (tighter : ∀ k, Tighter k t) : Stable (.variable t) 0
  | negation {operand : Expression} {levels : Nat} (inner : Stable operand levels) :
    Stable (.negation operand) (levels + 1)
  | connective {op : Connective} {left right : Expression} {levels : Nat}
    (first : Stable left (if left.isChain op then levels + 1 else levels))
    (begins : ∀ t, left = .variable t → IsPositive t) (second : Stable right levels) :
    Stable (.connective op left right) (levels + 1)
  | comparison {op : Comparison} {left right : Expression} {levels : Nat}
    (first : Stable left levels) (begins : ∀ t, left = .variable t → IsPositive t)
    (second : Stable right levels) : Stable (.comparison op left right) (levels + 1)
  | call {name : Text} {arguments : List Expression} {levels : Nat} (word : IsCallName name)
    (apart : AreArguments (arguments.map text))
    (inner : ∀ e ∈ arguments, ¬ e.IsSole levels → Stable e levels) :
    Stable (.call name arguments) (levels + 1)

def IsReread (e : Expression) (levels : Nat) : Prop := e.IsSole levels ∨ e.Stable levels

theorem isReread_of_inner {arguments : List Expression} {levels : Nat}
    (inner : ∀ e ∈ arguments, ¬ e.IsSole levels → e.Stable levels) :
    ∀ e ∈ arguments, e.IsReread levels :=
  fun e mem => or_iff_not_imp_left.mpr (inner e mem)

variable {levels : Nat}

theorem tighter_text {e : Expression} (stable : e.Stable levels) :
    ∀ k < e.tightness, Tighter k e.text := by
  induction stable with
  | literal leaf =>
    intro k _
    rw [text, textAt]
    exact leaf.tighter k
  | reference leaf =>
    intro k _
    rw [text, textAt]
    exact leaf.tighter k
  | cut trimmed tighter =>
    intro k _
    rw [text, textAt]
    exact tighter k
  | @negation operand levels inner ih =>
    intro k tight
    rw [text_negation]
    have word : Tighter k "NOT".toList :=
      tighter_word (by decide) (of_all rfl) fun op _ => by cases op <;> decide
    have inner := tighter_textAt ih (Nat.le_refl operandTightness) (k := k)
      (by have : k < operandTightness := tight; omega)
    exact word.append rfl (Tighter.mark (by decide) (by decide) (by decide) (fun _ => rfl) inner)
  | @connective op left right levels first begins second ihl ihr =>
    intro k tight
    have below : k < op.tightness := tight
    have bound : op.tightness + 1 ≤ operandTightness := by cases op <;> decide
    rw [text_connective]
    exact (tighter_leftText ihl (by omega) (by omega)).append
      (atWordEnd_operation _ _) (tighter_operation (tighter_connective below)
        (tighter_textAt ihr bound (by omega)))
  | @comparison op left right levels first begins second ihl ihr =>
    intro k tight
    have below : k < 3 := tight
    rw [text_comparison]
    exact (tighter_leftText ihl (by decide) (by omega)).append
      (atWordEnd_operation _ _) (tighter_operation (tighter_comparison below op)
        (tighter_textAt ihr (by decide) (by omega)))
  | call word apart inner ih =>
    intro k _
    rw [text_call]
    exact (word.tighter k).append rfl (tighter_parenthesized k apart.balanced)

theorem balanced_text {e : Expression} (stable : e.Stable levels) : Balanced e.text :=
  (tighter_text stable 0 e.tightness_pos).balanced

theorem isTrimmed_of_shown {e : Expression} (trimmed : IsTrimmed e.text) {t : Text}
    (shown : e.Shown t) : IsTrimmed t := by
  rcases shown with rfl | ⟨-, rfl⟩
  · exact trimmed
  · exact isTrimmed_parenthesized e.text

theorem isTrimmed_operation {left symbol right : Text} (first : IsTrimmed left)
    (last : IsTrimmed right) : IsTrimmed (left ++ operation symbol right) := by
  have joined := first.between last (' ' :: (symbol ++ [' ']))
  simpa [operation] using joined

theorem isTrimmed_text {e : Expression} (stable : e.Stable levels) : IsTrimmed e.text := by
  induction stable with
  | literal leaf =>
    rw [text, textAt]
    exact leaf.trimmed
  | reference leaf =>
    rw [text, textAt]
    exact leaf.trimmed
  | cut trimmed tighter =>
    rw [text, textAt]
    exact trimmed
  | @negation operand levels inner ih =>
    have word : IsTrimmed "NOT".toList := isTrimmed_of_solid (by decide) (of_all rfl)
    have inner := isTrimmed_of_shown ih (operand.shown_textAt (Nat.le_refl _))
    rw [text_negation]
    exact word.between inner [' ']
  | @connective op left right levels first begins second ihl ihr =>
    have bound : op.tightness + 1 ≤ operandTightness := by cases op <;> decide
    have first := isTrimmed_of_shown ihl
      (left.shown_leftText (Nat.le_trans (Nat.le_succ _) bound))
    have last := isTrimmed_of_shown ihr (right.shown_textAt bound)
    rw [text_connective]
    exact isTrimmed_operation first last
  | @comparison op left right levels first begins second ihl ihr =>
    have first := isTrimmed_of_shown ihl (left.shown_leftText (by decide : 4 ≤ _))
    have last := isTrimmed_of_shown ihr (right.shown_textAt (by decide : 4 ≤ _))
    rw [text_comparison]
    exact isTrimmed_operation first last
  | call word apart inner ih =>
    rw [text_call]
    exact word.isTrimmed.append (isTrimmed_parenthesized _)

theorem balanced_of_shown {e : Expression} (stable : e.Stable levels) {t : Text}
    (shown : e.Shown t) : Balanced t := by
  rcases shown with rfl | ⟨-, rfl⟩
  · exact balanced_text stable
  · exact balanced_parenthesized (balanced_text stable)

theorem isEnclosed_text {e : Expression} (stable : e.Stable (levels + 1)) :
    isEnclosed e.text = false := by
  have operates {e : Expression} {levels : Nat} (stable : e.Stable levels) {t : Text}
      (shown : e.Shown t) (symbol right : Text) : isEnclosed (t ++ operation symbol right) = false :=
    isEnclosed_append (balanced_of_shown stable shown)
      (isTrimmed_of_shown (isTrimmed_text stable) shown).ne_nil (List.cons_ne_nil _ _)
  cases stable with
  | literal leaf =>
    rw [text, textAt]
    exact leaf.bare
  | reference leaf =>
    rw [text, textAt]
    exact leaf.bare
  | @negation operand levels inner =>
    have inner := isTrimmed_of_shown (isTrimmed_text inner) (operand.shown_textAt (Nat.le_refl _))
    rw [text_negation]
    exact isEnclosed_append (balanced_of_free (of_all rfl)) (by decide) inner.ne_nil
  | @connective op left right levels first begins second =>
    have bound : op.tightness ≤ operandTightness := by cases op <;> decide
    rw [text_connective]
    exact operates first (left.shown_leftText bound) _ _
  | @comparison op left right levels first begins second =>
    rw [text_comparison]
    exact operates first (left.shown_leftText (by decide)) _ _
  | call word apart inner =>
    rw [text_call]
    exact isEnclosed_append (word.tighter 0).balanced word.nonempty (List.cons_ne_nil _ _)

theorem stripParens_shown {e : Expression} (stable : e.Stable (levels + 1)) {t : Text}
    (shown : e.Shown t) {a b : Text} (left : ∀ c ∈ a, isBlank c = true)
    (right : ∀ c ∈ b, isBlank c = true) : stripParens (a ++ t ++ b) = e.text := by
  have trimmed := isTrimmed_text stable
  have bare := isEnclosed_text stable
  rcases shown with rfl | ⟨-, rfl⟩
  · exact stripParens_bare trimmed bare left right
  · exact stripParens_parenthesized trimmed bare left right (balanced_text stable)

def isTextChar (c : Char) : Bool := isAsciiWord c || ".-()<>= ".toList.contains c

theorem isTextChar_of_isAsciiWord {c : Char} (word : isAsciiWord c = true) :
    isTextChar c = true := by
  rw [isTextChar, word, Bool.true_or]

theorem mem_of_shown {e : Expression} {t : Text} (shown : e.Shown t) {c : Char} (mem : c ∈ t) :
    c ∈ e.text ∨ isTextChar c = true := by
  rcases shown with rfl | ⟨-, rfl⟩
  · exact Or.inl mem
  · simp only [parenthesized, List.mem_cons, List.mem_append, List.not_mem_nil, or_false] at mem
    rcases mem with rfl | mem | rfl
    · exact Or.inr rfl
    · exact Or.inl mem
    · exact Or.inr rfl

theorem mem_operation {symbol right : Text} (signs : ∀ c ∈ symbol, isTextChar c = true) {c : Char}
    (mem : c ∈ operation symbol right) : c ∈ right ∨ isTextChar c = true := by
  simp only [operation, List.mem_cons, List.mem_append] at mem
  rcases mem with rfl | mem | rfl | mem
  · exact Or.inr rfl
  · exact Or.inr (signs c mem)
  · exact Or.inr rfl
  · exact Or.inl mem

theorem mem_intercalate {separator : Text} {texts : List Text} {c : Char}
    (mem : c ∈ separator.intercalate texts) :
    (∃ t ∈ texts, c ∈ t) ∨ (c ∈ separator ∧ 2 ≤ texts.length) := by
  cases texts with
  | nil => contradiction
  | cons t rest =>
    rw [intercalate_cons] at mem
    rcases List.mem_append.mp mem with mem | mem
    · exact Or.inl ⟨t, by simp, mem⟩
    · obtain ⟨u, inside, mem⟩ := List.mem_flatMap.mp mem
      rcases List.mem_append.mp mem with mem | mem
      · have := List.length_pos_of_mem inside
        exact Or.inr ⟨mem, by rw [List.length_cons]; omega⟩
      · exact Or.inl ⟨u, by simp [inside], mem⟩

theorem chars_integerText (value : Int) : ∀ c ∈ integerText value, isTextChar c = true := by
  have digits (n : Nat) : ∀ c ∈ naturalText n, isTextChar c = true := fun c mem =>
    isTextChar_of_isAsciiWord (digit_facts (isDigit_of_mem_naturalText mem)).1
  intro c mem
  cases value with
  | ofNat n => exact digits n c mem
  | negSucc n =>
    rcases List.mem_cons.mp mem with rfl | mem
    · rfl
    · exact digits (n + 1) c mem

theorem chars_operation {left right : Expression} {l r symbol : Text} (first : left.Shown l)
    (second : right.Shown r) (signs : ∀ c ∈ symbol, isTextChar c = true)
    (ihl : ∀ c ∈ left.text, isTextChar c = true ∨ (c = ',' ∧ left.hasLongCall = true))
    (ihr : ∀ c ∈ right.text, isTextChar c = true ∨ (c = ',' ∧ right.hasLongCall = true)) :
    ∀ c ∈ l ++ operation symbol r,
      isTextChar c = true ∨ (c = ',' ∧ (left.hasLongCall || right.hasLongCall) = true) := by
  intro c mem
  rw [Bool.or_eq_true]
  rcases List.mem_append.mp mem with mem | mem
  · rcases mem_of_shown first mem with mem | char
    · exact (ihl c mem).imp_right fun comma => ⟨comma.1, Or.inl comma.2⟩
    · exact Or.inl char
  · rcases mem_operation signs mem with mem | char
    · rcases mem_of_shown second mem with mem | char
      · exact (ihr c mem).imp_right fun comma => ⟨comma.1, Or.inr comma.2⟩
      · exact Or.inl char
    · exact Or.inl char

theorem chars_arguments {texts : List Text} (each : ∀ t ∈ texts, ∀ c ∈ t, isTextChar c = true) :
    ∀ c ∈ parenthesized (", ".toList.intercalate texts),
      isTextChar c = true ∨ (c = ',' ∧ 2 ≤ texts.length) := by
  intro c mem
  simp only [parenthesized, List.mem_cons, List.mem_append, List.not_mem_nil, or_false] at mem
  rcases mem with rfl | mem | rfl
  · exact Or.inl rfl
  · rcases mem_intercalate mem with ⟨t, inside, mem⟩ | ⟨separates, more⟩
    · exact Or.inl (each t inside c mem)
    · simp only [show ", ".toList = [',', ' '] from rfl, List.mem_cons, List.not_mem_nil,
        or_false] at separates
      rcases separates with rfl | rfl
      · exact Or.inr ⟨rfl, more⟩
      · exact Or.inl rfl
  · exact Or.inl rfl

theorem chars_text {e : Expression} (plain : e.isPlain = true) :
    ∀ c ∈ e.text, isTextChar c = true ∨ (c = ',' ∧ e.hasLongCall = true) := by
  induction e with
  | literal value =>
    intro c mem
    rw [text, textAt] at mem
    cases value with
    | bool value =>
      have capitals : ∀ c ∈ (Literal.bool value).text, isTextChar c = true := by
        cases value <;> exact of_all rfl
      exact Or.inl (capitals c mem)
    | int value => exact Or.inl (chars_integerText value c mem)
    | real value => contradiction
    | string value => contradiction
  | reference name =>
    intro c mem
    rw [text, textAt] at mem
    rcases (plainName_of_isPlainName plain).chars c mem with word | rfl
    · exact Or.inl (isTextChar_of_isAsciiWord word)
    · exact Or.inl rfl
  | negation operand ih =>
    have word : ∀ c ∈ "NOT ".toList, isTextChar c = true := of_all rfl
    intro c mem
    rw [text_negation] at mem
    rcases List.mem_append.mp mem with mem | mem
    · exact Or.inl (word c mem)
    · rcases mem_of_shown (operand.shown_textAt (Nat.le_refl _)) mem with mem | char
      · exact ih plain c mem
      · exact Or.inl char
  | connective op left right ihl ihr =>
    have bound : op.tightness + 1 ≤ operandTightness := by cases op <;> decide
    have signs : ∀ c ∈ op.symbol, isTextChar c = true := by cases op <;> exact of_all rfl
    simp only [isPlain, Bool.and_eq_true] at plain
    rw [text_connective, hasLongCall]
    exact chars_operation (left.shown_leftText (by omega)) (right.shown_textAt bound) signs
      (ihl plain.1) (ihr plain.2)
  | comparison op left right ihl ihr =>
    have signs : ∀ c ∈ op.symbol, isTextChar c = true := by cases op <;> exact of_all rfl
    simp only [isPlain, Bool.and_eq_true] at plain
    rw [text_comparison, hasLongCall]
    exact chars_operation (left.shown_leftText (by decide)) (right.shown_textAt (by decide)) signs
      (ihl plain.1) (ihr plain.2)
  | call name arguments ih =>
    simp only [isPlain, Bool.and_eq_true, arePlain_iff] at plain
    have each : ∀ t ∈ arguments.map text, ∀ c ∈ t, isTextChar c = true := by
      intro t shown c mem
      obtain ⟨e, inside, rfl⟩ := List.mem_map.mp shown
      obtain ⟨plain', short⟩ := plain.2 e inside
      rcases ih e inside plain' c mem with char | ⟨-, long⟩
      · exact char
      · rw [short] at long
        contradiction
    intro c mem
    rw [text_call] at mem
    rcases List.mem_append.mp mem with mem | mem
    · exact Or.inl (isTextChar_of_isAsciiWord ((freeWord_of_isFreeWord plain.1).letters c mem))
    · rcases chars_arguments each c mem with char | ⟨comma, more⟩
      · exact Or.inl char
      · rw [List.length_map] at more
        exact Or.inr ⟨comma, by rw [hasLongCall, decide_eq_true more, Bool.true_or]⟩

theorem isPositive_operation {place : Nat} (bound : place ≤ operandTightness)
    {left : Expression} (trimmed : IsTrimmed left.text)
    (positive : left.isNegation = false → IsPositive left.text) (symbol right : Text) :
    IsPositive (left.leftText place ++ operation symbol right) := by
  rw [leftText_eq bound]
  split
  · exact isPositive_of_word (w := []) (of_all rfl) rfl (by decide)
  · next bare =>
    exact (positive (by simpa using fun negated => bare (Or.inl negated))).before trimmed _

/-- A negation is the only expression whose text begins with the word NOT, unless the expression
    itself is a text that was not broken down. -/
theorem isPositive_text {e : Expression} (stable : e.Stable levels)
    (positive : e.isNegation = false) (begins : ∀ t, e = .variable t → IsPositive t) :
    IsPositive e.text := by
  induction stable with
  | literal leaf =>
    rw [text, textAt]
    exact leaf.positive
  | reference leaf =>
    rw [text, textAt]
    exact leaf.positive
  | cut trimmed tighter => exact begins _ rfl
  | negation inner ih => contradiction
  | @connective op left right levels first beginsLeft second ihl ihr =>
    have bound : op.tightness ≤ operandTightness := by cases op <;> decide
    rw [text_connective]
    exact isPositive_operation bound (isTrimmed_text first) (ihl · beginsLeft) _ _
  | comparison first beginsLeft second ihl ihr =>
    rw [text_comparison]
    exact isPositive_operation (by decide) (isTrimmed_text first) (ihl · beginsLeft) _ _
  | call word apart inner ih =>
    rw [text_call]
    exact isPositive_of_word word.letters rfl word.noNegation

end Expression
end StructuredText
