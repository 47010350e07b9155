import Mathlib.Data.List.Basic
import StructuredText.Expression.Reading
import StructuredText.Proofs.Expression.Shape

/- Reading the text of a plain expression gives the expression back, if it is not too deep. -/
namespace StructuredText
open Expression

section Stripped
variable {t : Text} (marked : ∃ c ∈ t, c = ' ' ∨ c = '(') (positive : negated? t = none)
include marked

theorem ne_truth : t ≠ "TRUE".toList ∧ t ≠ "FALSE".toList := by
  obtain ⟨c, mem, mark⟩ := marked
  constructor
  · rintro rfl
    rcases mark with rfl | rfl <;> exact absurd mem (by decide)
  · rintro rfl
    rcases mark with rfl | rfl <;> exact absurd mem (by decide)

theorem numeral?_of_marked : numeral? t = none := by
  obtain ⟨c, mem, mark⟩ := marked
  apply numeral?_eq_none mem
  rcases mark with rfl | rfl <;> decide

include positive

theorem ofStripped_of_chain {op : Connective} {shape : Shape} (found : chain? op t = some shape)
    (before : ∀ other ∈ Connective.all.takeWhile (· ≠ op), chain? other t = none) :
    Shape.ofStripped t = shape := by
  obtain ⟨isNotTrue, isNotFalse⟩ := ne_truth marked
  have first : Connective.all.findSome? (chain? · t) = some shape := by
    rw [List.findSome?_eq_some_iff]
    have split : ∃ after, Connective.all = Connective.all.takeWhile (· ≠ op) ++ op :: after := by
      cases op <;> exact ⟨_, rfl⟩
    obtain ⟨after, split⟩ := split
    exact ⟨_, op, after, split, found, before⟩
  rw [Shape.ofStripped, if_neg isNotTrue, if_neg isNotFalse, numeral?_of_marked marked,
    positive, first]

section NoChain
variable (noChain : ∀ op, chain? op t = none)
include noChain

theorem ofStripped_of_comparison {shape : Shape}
    (found : Comparison.all.findSome? (comparison? · t) = some shape) :
    Shape.ofStripped t = shape := by
  have unchained : Connective.all.findSome? (chain? · t) = none :=
    List.findSome?_eq_none_iff.mpr fun op _ => noChain op
  obtain ⟨isNotTrue, isNotFalse⟩ := ne_truth marked
  rw [Shape.ofStripped, if_neg isNotTrue, if_neg isNotFalse, numeral?_of_marked marked,
    positive, unchained, found]

theorem ofStripped_of_call (incomparable : Comparison.all.findSome? (comparison? · t) = none)
    {name : Text} {arguments : List Text} (found : callParts? t = some (name, arguments)) :
    Shape.ofStripped t = .call name arguments := by
  have unchained : Connective.all.findSome? (chain? · t) = none :=
    List.findSome?_eq_none_iff.mpr fun op _ => noChain op
  obtain ⟨isNotTrue, isNotFalse⟩ := ne_truth marked
  rw [Shape.ofStripped, if_neg isNotTrue, if_neg isNotFalse, numeral?_of_marked marked,
    positive, unchained, incomparable, found]

end NoChain

end Stripped

namespace Expression

def operands (op : Connective) : Expression → List Expression
  | .connective op' left right =>
    if op' = op then left.operands op ++ [right] else [.connective op' left right]
  | e => [e]

theorem operands_connective (op : Connective) (left right : Expression) :
    (connective op left right).operands op = left.operands op ++ [right] := by
  rw [operands, if_pos rfl]

theorem operands_of_not_chain {op : Connective} {e : Expression} (other : e.isChain op = false) :
    e.operands op = [e] := by
  cases e with
  | connective op' left right =>
    have differ : op' ≠ op := by simpa [isChain] using other
    rw [operands, if_neg differ]
  | _ => rfl

theorem leftText_connective (op : Connective) (left right : Expression) :
    (connective op left right).leftText op.tightness = (connective op left right).text := by
  have bound : op.tightness ≤ operandTightness := by cases op <;> decide
  rw [leftText_eq bound, if_neg]
  simp [isNegation, tightness]

theorem operands_cons (op : Connective) (e : Expression) :
    ∃ first rest, e.operands op = first :: rest ∧ rest.foldl (connective op) first = e ∧
      first.isChain op = false ∧
      e.leftText op.tightness = first.leftText op.tightness ++
        rest.flatMap fun x => operation op.symbol (x.textAt (op.tightness + 1)) := by
  have alone {e : Expression} (other : e.isChain op = false) :
      ∃ first rest, e.operands op = first :: rest ∧ rest.foldl (connective op) first = e ∧
        first.isChain op = false ∧
        e.leftText op.tightness = first.leftText op.tightness ++
          rest.flatMap fun x => operation op.symbol (x.textAt (op.tightness + 1)) :=
    ⟨e, [], operands_of_not_chain other, rfl, other, (List.append_nil _).symm⟩
  induction e with
  | connective op' left right ihl ihr =>
    by_cases same : op' = op
    · subst same
      obtain ⟨first, rest, split, joined, bare, text⟩ := ihl
      refine ⟨first, rest ++ [right], ?_, ?_, bare, ?_⟩
      · rw [operands_connective, split]
        rfl
      · rw [List.foldl_append, joined]
        rfl
      · rw [leftText_connective, text_connective, text, List.flatMap_append, List.append_assoc]
        simp
    · exact alone (by simpa [isChain] using same)
  | literal value => exact alone rfl
  | reference name => exact alone rfl
  | negation operand ih => exact alone rfl
  | comparison op' left right ihl ihr => exact alone rfl
  | call name arguments ih => exact alone rfl

theorem stable_of_mem_operands {op : Connective} {e x : Expression} {levels : Nat}
    (mem : x ∈ e.operands op) (stable : e.Stable (if e.isChain op then levels + 1 else levels)) :
    x.Stable levels := by
  have alone {e : Expression} (other : e.isChain op = false) (mem : x ∈ e.operands op)
      (stable : e.Stable (if e.isChain op then levels + 1 else levels)) : x.Stable levels := by
    rw [operands_of_not_chain other] at mem
    rw [other] at stable
    rwa [List.mem_singleton.mp mem]
  induction e with
  | connective op' left right ihl ihr =>
    by_cases same : op' = op
    · subst same
      rw [isChain, decide_eq_true rfl, if_pos rfl] at stable
      rw [operands_connective] at mem
      cases stable with
      | connective first begins second =>
        rcases List.mem_append.mp mem with mem | mem
        · exact ihl mem first
        · rwa [List.mem_singleton.mp mem]
    · exact alone (by simpa [isChain] using same) mem stable
  | literal value => exact alone rfl mem stable
  | reference name => exact alone rfl mem stable
  | negation operand ih => exact alone rfl mem stable
  | comparison op' left right ihl ihr => exact alone rfl mem stable
  | call name arguments ih => exact alone rfl mem stable

theorem letter_facts {c : Char} (letter : c.isAlpha = true ∨ c = '_') :
    isDecimal c = false ∧ c ≠ '-' ∧ c ≠ '.' := by
  have word : isAsciiWord c = true := by
    rcases letter with letter | rfl
    · simp [isAsciiWord, Char.isAlphanum, letter]
    · rfl
  exact of_ascii
    (fun c => c.isAlpha = true ∨ c = '_' → isDecimal c = false ∧ c ≠ '-' ∧ c ≠ '.')
    (by decide) (toNat_lt_of_isAsciiWord word) letter

theorem shape_literal {value : Literal} (plain : value.isPlain = true) :
    Shape.ofStripped (literal value).text = .leaf (.literal value) := by
  rw [text, textAt]
  cases value with
  | bool value => cases value <;> rfl
  | int value =>
    obtain ⟨n, found, back⟩ := numeral_integerText plain
    have noWord (t : Text) (missing : numeral? t = none) : integerText value ≠ t := by
      intro same
      rw [same, missing] at found
      contradiction
    rw [Literal.text, Shape.ofStripped, if_neg (noWord _ rfl), if_neg (noWord _ rfl), found]
    simp only [back]
    rfl
  | real value => contradiction
  | string value => contradiction

theorem callParts?_name {name : Text} (plain : PlainName name) : callParts? name = none := by
  obtain ⟨w, rest, rfl, word, -⟩ := plain.parts
  rw [callParts?, word?_append word.ne_nil word.isWord (atWordEnd_members rest)]
  have bare : isEnclosed (trimLeft (rest.flatMap ('.' :: ·))) = false := by
    apply isEnclosed_of_head
    cases rest with
    | nil => exact fun head => absurd head (by decide)
    | cons v rest =>
      rw [List.flatMap_cons, List.cons_append, trimLeft_cons (by decide)]
      exact fun head => absurd (Option.some.inj head) (by decide)
  simp only [bare]
  rfl

theorem findSome_comparison_eq_none {t : Text} (tighter : Tighter 3 t) :
    Comparison.all.findSome? (comparison? · t) = none :=
  List.findSome?_eq_none_iff.mpr fun _ _ => comparison?_eq_none tighter

theorem shape_variable {name : Text} (plain : isPlainName name = true) :
    Shape.ofStripped («variable» name).text = .leaf (.variable name) := by
  have named := plainName_of_isPlainName plain
  have whole : («variable» name).text = name := rfl
  have noNumber : numeral? name = none := by
    obtain ⟨c, t, eq, letter⟩ := named.first
    exact numeral?_eq_none (c := c) (by simp [eq]) (letter_facts letter)
  have noChain : Connective.all.findSome? (chain? · name) = none :=
    List.findSome?_eq_none_iff.mpr fun op _ => chain?_eq_none (named.tighter _)
  rw [whole, Shape.ofStripped, if_neg named.isNotTrue, if_neg named.isNotFalse, noNumber,
    named.isPositive.1, noChain, findSome_comparison_eq_none (named.tighter 3), callParts?_name named]

theorem negated?_negation {t : Text} (trimmed : IsTrimmed t) :
    negated? ("NOT".toList ++ ' ' :: t) = some t := by
  have cut : after? "NOT".toList ("NOT".toList ++ ' ' :: t) = some (' ' :: t) :=
    after?_eq_some_iff.mpr rfl
  have inner : afterBlanks? (' ' :: t) = some t := by
    rw [afterBlanks?, if_pos (by decide), trimLeft, dropWhile_eq_self trimmed.first]
  rw [negated?, cut]
  simp only
  rw [if_neg (by decide), inner]
  cases t with
  | nil => exact absurd rfl trimmed.ne_nil
  | cons c t => rfl

section Shape
variable {levels : Nat}

theorem shape_negation {operand : Expression} (stable : operand.Stable levels) :
    Shape.ofStripped (negation operand).text = .negation (operand.textAt operandTightness) := by
  have trimmed := isTrimmed_of_shown (isTrimmed_text stable) (operand.shown_textAt (Nat.le_refl _))
  have whole : (negation operand).text =
      "NOT".toList ++ ' ' :: operand.textAt operandTightness := text_negation operand
  have marked : ∃ c ∈ (negation operand).text, c = ' ' ∨ c = '(' :=
    ⟨' ', by simp [whole], Or.inl rfl⟩
  obtain ⟨isNotTrue, isNotFalse⟩ := ne_truth marked
  rw [Shape.ofStripped, if_neg isNotTrue, if_neg isNotFalse, numeral?_of_marked marked, whole,
    negated?_negation trimmed]

theorem shape_comparison {op : Comparison} {left right : Expression}
    (stable : (comparison op left right).Stable levels) :
    Shape.ofStripped (comparison op left right).text =
      .comparison op (left.leftText 4 ++ [' ']) (' ' :: right.textAt 4) := by
  have marked : ∃ c ∈ (comparison op left right).text, c = ' ' ∨ c = '(' :=
    ⟨' ', by simp [text_comparison, operation], Or.inl rfl⟩
  have noChain (op' : Connective) : chain? op' (comparison op left right).text = none := by
    exact chain?_eq_none (tighter_text stable _ op'.tightness_lt)
  have positive := (isPositive_text stable rfl fun _ same => Expression.noConfusion same).1
  apply ofStripped_of_comparison marked positive noChain
  cases stable with
  | comparison first begins second =>
    have left : Tighter 3 (left.leftText 4) :=
      tighter_leftText (tighter_text first) (by decide) (by omega)
    have right : Tighter 3 (right.textAt 4) :=
      tighter_textAt (tighter_text second) (by decide) (by omega)
    rw [text_comparison, findSome_comparison left right]

theorem isTrimmed_of_isReread {e : Expression} (reread : e.IsReread levels) :
    IsTrimmed e.text := by
  obtain ⟨t, rfl, sole | ⟨-, cut⟩⟩ | stable := reread
  · exact sole.trimmed
  · exact cut.trimmed
  · exact isTrimmed_text stable

theorem argumentValue_of_isReread {e : Expression} (reread : e.IsReread levels) :
    argumentValue e.text = e.text := by
  obtain ⟨t, rfl, sole | ⟨-, cut⟩⟩ | stable := reread
  · exact argumentValue_eq_self sole.beginsUnnamed
  · exact cut.unnamed
  · exact argumentValue_eq_self (beginsUnnamed_text stable)

theorem callParts?_parenthesized {name inner : Text} (nonempty : name ≠ [])
    (letters : ∀ c ∈ name, isWord c = true) (balanced : Balanced inner) :
    callParts? (name ++ parenthesized inner) = some (name, argumentTexts inner) := by
  have within : ((parenthesized inner).drop 1).dropLast = inner := by simp [parenthesized]
  rw [callParts?, word?_append nonempty letters rfl]
  simp only
  rw [trimLeft, dropWhile_eq_self (isTrimmed_parenthesized _).first,
    isEnclosed_parenthesized balanced, if_pos rfl, within]

theorem callParts?_call {name : Text} {arguments : List Expression} (nonempty : name ≠ [])
    (letters : ∀ c ∈ name, isWord c = true) (apart : AreArguments (arguments.map text))
    (reread : ∀ e ∈ arguments, e.IsReread levels) :
    callParts? (name ++ parenthesized (", ".toList.intercalate (arguments.map text))) =
      some (name, arguments.map text) := by
  have ofText {P : Text → Prop} (holds : ∀ e ∈ arguments, P e.text) :
      ∀ t ∈ arguments.map text, P t := by
    intro t mem
    obtain ⟨e, inside, rfl⟩ := List.mem_map.mp mem
    exact holds e inside
  have values : ∀ t ∈ arguments.map text, argumentValue t = t :=
    ofText fun e mem => argumentValue_of_isReread (reread e mem)
  have parts : argumentTexts (", ".toList.intercalate (arguments.map text)) =
      arguments.map text := by
    rw [argumentTexts_intercalate (ofText fun e mem => isTrimmed_of_isReread (reread e mem))
      apart.comma]
    exact (List.map_congr_left values).trans (List.map_id' _)
  rw [callParts?_parenthesized nonempty letters apart.balanced, parts]

theorem shape_call {name : Text} {arguments : List Expression}
    (stable : (call name arguments).Stable levels) :
    Shape.ofStripped (call name arguments).text = .call name (arguments.map text) := by
  have marked : ∃ c ∈ (call name arguments).text, c = ' ' ∨ c = '(' :=
    ⟨'(', by simp [text_call, parenthesized], Or.inr rfl⟩
  have tighter := tighter_text stable
  have noChain (op : Connective) : chain? op (call name arguments).text = none := by
    exact chain?_eq_none
      (tighter _ (Nat.lt_trans op.tightness_lt (by decide : 3 < operandTightness)))
  have positive := (isPositive_text stable rfl fun _ same => Expression.noConfusion same).1
  apply ofStripped_of_call marked positive noChain
    (findSome_comparison_eq_none (tighter 3 (by decide : 3 < operandTightness)))
  cases stable with
  | call word apart inner =>
    rw [text_call, callParts?_call word.nonempty word.letters apart (isReread_of_inner inner)]

theorem tightness_ne {op : Connective} {e : Expression} (other : e.isChain op = false) :
    e.tightness < op.tightness ∨ op.tightness < e.tightness := by
  have beyond : op.tightness < operandTightness :=
    Nat.lt_trans op.tightness_lt (by decide : 3 < operandTightness)
  cases e with
  | connective op' left right =>
    cases op <;> cases op' <;> first
      | exact Or.inl (by decide : 1 < 2)
      | exact Or.inr (by decide : 1 < 2)
      | simp [isChain] at other
  | comparison op' left right => exact Or.inr op.tightness_lt
  | literal value => exact Or.inr beyond
  | «variable» name => exact Or.inr beyond
  | negation operand => exact Or.inr beyond
  | call name arguments => exact Or.inr beyond

theorem shape_connective {op : Connective} {left right : Expression}
    (stable : (connective op left right).Stable (levels + 1)) :
    ∃ first rest, (∀ x ∈ first :: rest, x.Stable levels) ∧
      rest.foldl (connective op) first = connective op left right ∧
      Shape.ofStripped (connective op left right).text =
        .chain op (first.leftText op.tightness) (rest.map (textAt (op.tightness + 1))) := by
  obtain ⟨first, rest, split, joined, bare, text⟩ := operands_cons op (connective op left right)
  have below : op.tightness + 1 ≤ operandTightness := by cases op <;> decide
  have stables : ∀ x ∈ first :: rest, x.Stable levels := by
    intro x mem
    rw [← split] at mem
    apply stable_of_mem_operands mem
    rwa [isChain, decide_eq_true rfl, if_pos rfl]
  refine ⟨first, rest, stables, joined, ?_⟩
  have marked : ∃ c ∈ (connective op left right).text, c = ' ' ∨ c = '(' :=
    ⟨' ', by simp [text_connective, operation], Or.inl rfl⟩
  rw [leftText_connective, ← List.flatMap_map] at text
  cases rest with
  | nil =>
    rw [List.foldl_nil] at joined
    simp [joined, isChain] at bare
  | cons u rest =>
    have parts {P : Text → Prop} (head : P (first.leftText op.tightness))
        (tail : ∀ x ∈ u :: rest, P (x.textAt (op.tightness + 1))) :
        ∀ t ∈ first.leftText op.tightness :: (u :: rest).map (textAt (op.tightness + 1)), P t := by
      intro t mem
      rcases List.mem_cons.mp mem with rfl | mem
      · exact head
      · obtain ⟨x, inside, rfl⟩ := List.mem_map.mp mem
        exact tail x inside
    have found := @chain?_chain op _ _ _
      (parts (isTrimmed_of_shown (isTrimmed_text (stables first (by simp)))
          (first.shown_leftText (by omega)))
        fun x mem => isTrimmed_of_shown (isTrimmed_text (stables x (List.mem_cons_of_mem _ mem)))
          (x.shown_textAt below))
      (parts (tighter_leftText (tighter_text (stables first (by simp))) (by omega)
          (tightness_ne bare))
        fun x mem => tighter_textAt (tighter_text (stables x (List.mem_cons_of_mem _ mem))) below
          (by omega))
    rw [← List.map_cons, ← text] at found
    have positive := (isPositive_text stable rfl fun _ same => Expression.noConfusion same).1
    apply ofStripped_of_chain marked positive found
    intro other before
    apply chain?_eq_none
    apply tighter_text stable
    cases op <;> cases other <;> first
      | exact absurd before (by decide)
      | exact (by decide : 1 < 2)

end Shape

/-- Wherever the text of the expression stands between blanks, perhaps in parentheses, it is read as
    the expression. -/
def ReadsBack (e : Expression) (levels : Nat) : Prop :=
  ∀ t a b, e.Shown t → (∀ c ∈ a, isBlank c = true) → (∀ c ∈ b, isBlank c = true) →
    read levels (a ++ t ++ b) = e

theorem ReadsBack.bare {e : Expression} {levels : Nat} (back : e.ReadsBack levels) {t : Text}
    (shown : e.Shown t) : read levels t = e := by
  have here := back t [] [] shown (of_all rfl) (of_all rfl)
  rwa [List.nil_append, List.append_nil] at here

section Level
variable {levels : Nat}

theorem readsBack_of_shape {e : Expression} (stable : e.Stable (levels + 1))
    (shape : ∀ t, Shape.ofText t = Shape.ofStripped e.text → read (levels + 1) t = e) :
    e.ReadsBack (levels + 1) := by
  intro t a b shown left right
  apply shape
  rw [Shape.ofText, stripParens_shown stable shown left right]

theorem readsBack_leaf {e : Expression} (stable : e.Stable (levels + 1))
    (shape : Shape.ofStripped e.text = .leaf e) : e.ReadsBack (levels + 1) := by
  apply readsBack_of_shape stable
  intro t same
  rw [read, same, shape]

/-- A text that lies too deep is read as it is, whatever it is. -/
theorem readsBack_variable {u : Text} (trimmed : IsTrimmed u) : («variable» u).ReadsBack 0 := by
  rintro t a b (rfl | ⟨inner, -⟩) left right
  · exact congrArg _ (trim_surrounded trimmed left right)
  · exact absurd rfl (inner u)

theorem read_of_isSoleText {t : Text} (sole : IsSoleText t) {a b : Text}
    (left : ∀ c ∈ a, isBlank c = true) (right : ∀ c ∈ b, isBlank c = true) (levels : Nat) :
    Expression.read (levels + 1) (a ++ t ++ b) = .variable t := by
  rw [Expression.read, Shape.ofText, stripParens_bare sole.trimmed sole.bare left right, sole.shape]

section Below
variable (back : ∀ {e : Expression}, e.Stable levels → e.ReadsBack levels)
include back

theorem readsBack_connective {op : Connective} {left right : Expression}
    (stable : (connective op left right).Stable (levels + 1)) :
    (connective op left right).ReadsBack (levels + 1) := by
  apply readsBack_of_shape stable
  intro t same
  obtain ⟨first, rest, stables, joined, shape⟩ := shape_connective stable
  have below : op.tightness + 1 ≤ operandTightness := by cases op <;> decide
  have head : read levels (first.leftText op.tightness) = first :=
    (back (stables first (by simp))).bare (first.shown_leftText (Nat.le_of_succ_le below))
  have tail : ∀ x ∈ rest, read levels (x.textAt (op.tightness + 1)) = x := fun x mem =>
    (back (stables x (by simp [mem]))).bare (x.shown_textAt below)
  have folded (start : Expression) :
      (rest.map (textAt (op.tightness + 1))).foldl
        (fun left part => connective op left (read levels part)) start =
          rest.foldl (connective op) start := by
    rw [List.foldl_map]
    exact List.foldl_ext _ _ _ fun left x mem => congrArg (connective op left) (tail x mem)
  rw [read, same, shape]
  simp only
  rw [head, folded, joined]

theorem readsBack_comparison {op : Comparison} {left right : Expression}
    (stable : (comparison op left right).Stable (levels + 1)) :
    (comparison op left right).ReadsBack (levels + 1) := by
  apply readsBack_of_shape stable
  intro t same
  have shape := shape_comparison stable
  cases stable with
  | comparison first begins second =>
    have head := back first _ [] [' '] (left.shown_leftText (by decide : 4 ≤ _)) (of_all rfl)
      (of_all rfl)
    have tail := back second _ [' '] [] (right.shown_textAt (by decide : 4 ≤ _)) (of_all rfl)
      (of_all rfl)
    rw [List.append_nil] at tail
    rw [read, same, shape]
    simp only
    rw [← List.nil_append (left.leftText 4), head]
    exact congrArg _ tail

theorem readsBack_negation {operand : Expression}
    (stable : (negation operand).Stable (levels + 1)) :
    (negation operand).ReadsBack (levels + 1) := by
  apply readsBack_of_shape stable
  intro t same
  cases stable with
  | negation inner =>
    rw [read, same, shape_negation inner]
    simp only
    rw [(back inner).bare (operand.shown_textAt (Nat.le_refl _))]

theorem read_of_isReread {e : Expression} (reread : e.IsReread levels) {a b : Text}
    (left : ∀ c ∈ a, isBlank c = true) (right : ∀ c ∈ b, isBlank c = true) :
    read levels (a ++ e.text ++ b) = e := by
  obtain ⟨t, rfl, sole | ⟨rfl, cut⟩⟩ | stable := reread
  · cases levels with
    | zero => exact readsBack_variable sole.trimmed _ _ _ (Or.inl rfl) left right
    | succ levels => exact read_of_isSoleText sole left right levels
  · exact readsBack_variable cut.trimmed _ _ _ (Or.inl rfl) left right
  · exact back stable _ _ _ (Or.inl rfl) left right

theorem arguments_of_isReread {arguments : List Expression}
    (reread : ∀ e ∈ arguments, e.IsReread levels) :
    (arguments.map text).map (read levels) = arguments := by
  have each : ∀ e ∈ arguments, read levels e.text = e := by
    intro e mem
    have alone := read_of_isReread back (reread e mem) (a := []) (b := []) (of_all rfl) (of_all rfl)
    rwa [List.nil_append, List.append_nil] at alone
  rw [List.map_map]
  exact (List.map_congr_left each).trans (List.map_id' arguments)

theorem readsBack_call {name : Text} {arguments : List Expression}
    (stable : (call name arguments).Stable (levels + 1)) :
    (call name arguments).ReadsBack (levels + 1) := by
  apply readsBack_of_shape stable
  intro t same
  rw [read, same, shape_call stable]
  cases stable with
  | call word apart inner =>
    exact congrArg _ (arguments_of_isReread back (isReread_of_inner inner))

end Below

end Level

/-- The induction is on the levels, one of which a whole chain takes. -/
theorem readsBack {e : Expression} {levels : Nat} (stable : e.Stable levels) :
    e.ReadsBack levels := by
  induction levels generalizing e with
  | zero =>
    cases stable with
    | reference leaf => exact readsBack_variable leaf.trimmed
    | cut trimmed tighter => exact readsBack_variable trimmed
  | succ levels ih =>
    have whole := stable
    cases stable with
    | literal leaf => exact readsBack_leaf whole leaf.shape
    | reference leaf => exact readsBack_leaf whole leaf.shape
    | negation inner => exact readsBack_negation ih whole
    | connective first begins second => exact readsBack_connective ih whole
    | comparison first begins second => exact readsBack_comparison ih whole
    | call word apart inner => exact readsBack_call ih whole

theorem IsReread.read {e : Expression} {levels : Nat} (reread : e.IsReread levels) {a b : Text}
    (left : ∀ c ∈ a, isBlank c = true) (right : ∀ c ∈ b, isBlank c = true) :
    Expression.read levels (a ++ e.text ++ b) = e :=
  read_of_isReread readsBack reread left right

theorem read_arguments {arguments : List Expression} {levels : Nat}
    (reread : ∀ e ∈ arguments, e.IsReread levels) :
    (arguments.map text).map (read levels) = arguments :=
  arguments_of_isReread readsBack reread

section Plain
variable {levels : Nat}

theorem stable_literal {value : Literal} (plain : value.isPlain = true) :
    (literal value).Stable (levels + 1) := by
  have shape := shape_literal plain
  cases value with
  | bool value =>
    exact .literal ⟨isTrimmed_bool value, isEnclosed_bool value, tighter_bool value,
      isPositive_bool value, shape⟩
  | int value =>
    exact .literal ⟨isTrimmed_integerText value, isEnclosed_integerText value,
      tighter_integerText value, isPositive_integerText value, shape⟩
  | real value => contradiction
  | string value => contradiction

theorem stable_variable {name : Text} (plain : isPlainName name = true) :
    («variable» name).Stable levels := by
  have named := plainName_of_isPlainName plain
  exact .reference ⟨named.isTrimmed, named.isEnclosed, named.tighter, named.isPositive,
    shape_variable plain⟩

theorem areArguments_of_arePlain {arguments : List Expression}
    (plain : arePlain arguments = true) (stable : ∀ e ∈ arguments, e.Stable levels) :
    AreArguments (arguments.map text) := by
  have plains := (arePlain_iff arguments).mp plain
  constructor
  · intro t mem comma
    obtain ⟨e, inside, rfl⟩ := List.mem_map.mp mem
    rcases chars_text (plains e inside).1 _ comma with char | ⟨-, long⟩
    · contradiction
    · rw [(plains e inside).2] at long
      contradiction
  · apply balanced_intercalate (balanced_of_free (of_all rfl))
    intro t mem
    obtain ⟨e, inside, rfl⟩ := List.mem_map.mp mem
    exact balanced_text (stable e inside)

theorem isPositive_of_isPlain {left : Expression} (plain : left.isPlain = true) :
    ∀ t, left = .variable t → IsPositive t := by
  rintro t rfl
  exact (plainName_of_isPlainName plain).isPositive

theorem stable_of_isPlain {e : Expression} (plain : e.isPlain = true) (shallow : e.depth < levels) :
    e.Stable levels := by
  induction e generalizing levels with
  | reference name => exact stable_variable plain
  | literal value =>
    obtain ⟨levels, rfl⟩ := Nat.exists_eq_add_one_of_ne_zero (Nat.ne_zero_of_lt shallow)
    exact stable_literal plain
  | negation operand ih =>
    obtain ⟨levels, rfl⟩ := Nat.exists_eq_add_one_of_ne_zero (Nat.ne_zero_of_lt shallow)
    exact .negation (ih plain (Nat.lt_of_succ_lt_succ shallow))
  | connective op left right ihl ihr =>
    obtain ⟨levels, rfl⟩ := Nat.exists_eq_add_one_of_ne_zero (Nat.ne_zero_of_lt shallow)
    simp only [isPlain, Bool.and_eq_true] at plain
    rw [depth] at shallow
    refine .connective (ihl plain.1 ?_) (isPositive_of_isPlain plain.1) (ihr plain.2 (by omega))
    cases chain : left.isChain op <;> simp [chain] at shallow ⊢ <;> omega
  | comparison op left right ihl ihr =>
    obtain ⟨levels, rfl⟩ := Nat.exists_eq_add_one_of_ne_zero (Nat.ne_zero_of_lt shallow)
    simp only [isPlain, Bool.and_eq_true] at plain
    rw [depth] at shallow
    exact .comparison (ihl plain.1 (by omega)) (isPositive_of_isPlain plain.1)
      (ihr plain.2 (by omega))
  | call name arguments ih =>
    obtain ⟨levels, rfl⟩ := Nat.exists_eq_add_one_of_ne_zero (Nat.ne_zero_of_lt shallow)
    simp only [isPlain, Bool.and_eq_true] at plain
    obtain ⟨word, plain⟩ := plain
    rw [depth] at shallow
    have stable : ∀ e ∈ arguments, e.Stable levels := fun e mem =>
      ih e mem ((arePlain_iff arguments).mp plain e mem).1
        (Nat.lt_of_lt_of_le (depth_lt_argumentDepth mem) (Nat.le_of_lt_succ shallow))
    exact .call (freeWord_of_isFreeWord word).isCallName (areArguments_of_arePlain plain stable)
      fun e mem _ => stable e mem

end Plain

/-- A plain expression can be written, and reading its text gives it back. -/
theorem ofText_text {e : Expression} (plain : e.isPlain = true)
    (shallow : e.depth ≤ expressionLimit) : e.text?.map ofText = some e := by
  have writable : e.text? = some e.text := by
    rw [text?, if_pos (isWritable_of_isPlain plain)]
  rw [writable, Option.map_some, ofText]
  have stable := stable_of_isPlain plain (Nat.lt_succ_of_le shallow)
  exact congrArg some ((readsBack stable).bare (Or.inl rfl))

def mixedChain : Expression :=
  .connective .and
    (.connective .and (.negation (.variable "pump.on".toList))
      (.connective .or (.variable "a".toList)
        (.connective .and (.literal (.bool true)) (.variable "b".toList))))
    (.comparison .le
      (.negation (.call "f".toList
        [.variable "x".toList, .call "g".toList [.literal (.int (-5))]]))
      (.literal (.int 7)))

theorem ofText_text_mixedChain :
    mixedChain.isPlain = true ∧ mixedChain.depth ≤ expressionLimit ∧
      mixedChain.text?.map ofText = some mixedChain :=
  ⟨by decide, by decide, ofText_text (by decide) (by decide)⟩

end Expression

end StructuredText
