import StructuredText.Proofs.Expression.Reading
import StructuredText.Proofs.Expression.TopWords

/- Which of the expressions that a text is read as come back from their own text. -/
namespace StructuredText
open Expression

/-- Only a real number can have an exponent part, which no reader understands. -/
def Literal.isPositional : Literal → Bool
  | .real value => !value.text.contains 'e'
  | _ => true

theorem stable_of_isReadLiteral {value : Literal} (read : IsReadLiteral value)
    (positional : value.isPositional = true) (levels : Nat) :
    (Expression.literal value).Stable (levels + 1) := by
  cases read with
  | bool value => exact Expression.stable_literal rfl
  | int writable => exact Expression.stable_literal writable
  | real canonical =>
    simp only [Literal.isPositional, Bool.not_eq_true', List.contains_eq_mem,
      decide_eq_false_iff_not] at positional
    exact .literal (isLeafText_real canonical positional)

/-- The text is read as itself when it may be broken down to so many levels: it cannot be broken
    down at all, or it lies too deep for that and does not look like a named argument. -/
def staysText (levels : Nat) (t : Text) : Bool :=
  (match Shape.ofText t with
    | .leaf (.variable u) => u = t
    | _ => false) || levels = 0 && argumentValue t = t

def Expression.isText (levels : Nat) : Expression → Bool
  | .variable t => !t.isEmpty && staysText levels t
  | _ => false

mutual
/-- An expression that an operator can take: what was not broken down in it can be told from what
    stands around it, and is not broken down when it is read again.  The levels are those that are
    left then; a chain takes one of them, as it is written without parentheses. -/
def Expression.isFirm : (levels : Nat) → Expression → Bool
  | _, .literal value => value.isPositional
  | levels, .variable t => isOperandText t && staysText levels t
  | levels, .negation operand => operand.isFirm (levels - 1)
  | levels, .connective op left right =>
    left.isFirm (if left.isChain op then levels else levels - 1) && right.isFirm (levels - 1)
  | levels, .comparison _ left right => left.isFirm (levels - 1) && right.isFirm (levels - 1)
  | levels, .call _ arguments => Expression.areKept (levels - 1) arguments

/-- Nothing but commas stands around an argument, so that any text will do. -/
def Expression.areKept : (levels : Nat) → List Expression → Bool
  | _, [] => true
  | levels, e :: rest => (e.isText levels || e.isFirm levels) && Expression.areKept levels rest
end

def Expression.isKept (levels : Nat) (e : Expression) : Bool := e.isText levels || e.isFirm levels

theorem Expression.areKept_eq_all (levels : Nat) (arguments : List Expression) :
    areKept levels arguments = arguments.all (isKept levels) := by
  induction arguments with
  | nil => rfl
  | cons e rest ih => simp [areKept, isKept, ih]

theorem Shape.eq_of_leaf {t u : Text} (leaf : Shape.ofStripped t = .leaf (.variable u)) :
    u = t ∧ negated? t = none := by
  have shape := Shape.of_ofStripped t
  rw [leaf] at shape
  generalize same : Shape.leaf (.variable u) = found at shape
  cases shape with
  | truth => exact absurd (Shape.leaf.inj same) Expression.noConfusion
  | @numeral n found =>
    cases literal : n.literal? with
    | none =>
      rw [literal] at same
      exact ⟨Expression.variable.inj (Shape.leaf.inj same), (isPositive_of_numeral found).1⟩
    | some value =>
      rw [literal] at same
      exact absurd (Shape.leaf.inj same) Expression.noConfusion
  | negation => contradiction
  | chain => contradiction
  | comparison => contradiction
  | call => contradiction
  | word positive => exact ⟨Expression.variable.inj (Shape.leaf.inj same), positive⟩

theorem leaf_or_cut_of_staysText {levels : Nat} {t : Text} (stays : staysText levels t = true) :
    Shape.ofText t = .leaf (.variable t) ∨ levels = 0 ∧ argumentValue t = t := by
  rw [staysText, Bool.or_eq_true] at stays
  rcases stays with leaf | cut
  · left
    split at leaf
    · next u found => rw [found, of_decide_eq_true leaf]
    · contradiction
  · exact Or.inr (by simpa using cut)

theorem isSoleText_of_leaf {t : Text} (trimmed : IsTrimmed t)
    (leaf : Shape.ofText t = .leaf (.variable t)) : IsSoleText t ∧ negated? t = none := by
  obtain ⟨same, positive⟩ := Shape.eq_of_leaf leaf
  have bare := isEnclosed_stripParens t
  rw [Shape.ofText] at leaf
  rw [← same] at bare leaf positive
  exact ⟨⟨trimmed, bare, leaf⟩, positive⟩

section Chain
variable {op : Connective} {e x : Expression} {rest : List Expression} {levels : Nat}

theorem isFirm_chain : ((x :: rest).foldl (.connective op) e).isFirm (levels + 1) =
    (e.isFirm (if e.isChain op then levels + 1 else levels) &&
      (x :: rest).all (Expression.isFirm levels)) := by
  induction rest generalizing e x with
  | nil => simp [isFirm]
  | cons y rest ih =>
    rw [List.foldl_cons, ih, isChain, if_pos (decide_eq_true rfl), isFirm, List.all_cons,
      List.all_cons, List.all_cons, Bool.and_assoc]
    rfl

theorem stable_chain (first : e.Stable (if e.isChain op then levels + 1 else levels))
    (begins : ∀ u, e = .variable u → IsPositive u) (each : ∀ y ∈ x :: rest, y.Stable levels) :
    ((x :: rest).foldl (.connective op) e).Stable (levels + 1) := by
  induction rest generalizing e x with
  | nil => exact .connective first begins (each x List.mem_cons_self)
  | cons y rest ih =>
    obtain ⟨here, later⟩ := List.forall_mem_cons.mp each
    rw [List.foldl_cons]
    refine ih ?_ (fun _ same => Expression.noConfusion same) later
    rw [isChain, if_pos (decide_eq_true rfl)]
    exact .connective first begins here

theorem chain_ne_variable (u : Text) : (x :: rest).foldl (.connective op) e ≠ .variable u := by
  induction rest generalizing e x with
  | nil => exact fun same => Expression.noConfusion same
  | cons y rest ih => exact ih

end Chain

namespace IsCallText
variable {t name blanks inner : Text} (call : IsCallText t name blanks inner)
include call

theorem atWordEnd_rest : atWordEnd (blanks ++ parenthesized inner) = true := by
  cases blanks with
  | nil => rfl
  | cons c blanks =>
    have blank := isWord_of_isBlank (call.blank c List.mem_cons_self)
    simp [atWordEnd, blank]

theorem ne_symbol {op : Connective} (unchained : chain? op t = none) : name ≠ op.symbol := by
  rintro rfl
  have last : t.getLast? = some ')' := by
    rw [call.whole, parenthesized, ← List.cons_append, ← List.append_assoc, List.getLast?_concat]
  have closed : ¬ EndsWithTopWord op.symbol t := not_endsWithTopWord last (by decide)
  have stands : WordStandsOutside op.symbol t :=
    ⟨[], blanks ++ parenthesized inner, by rw [call.whole, List.append_assoc]; rfl, rfl, rfl,
      call.atWordEnd_rest⟩
  rw [← isSome_chain?_iff closed, unchained] at stands
  contradiction

theorem ne_not (positive : negated? t = none) : name ≠ "NOT".toList := by
  rintro rfl
  have found : after? "NOT".toList t = some (blanks ++ parenthesized inner) := by
    rw [after?_eq_some_iff, call.whole, List.append_assoc]
  rw [negated?, found] at positive
  cases blanks with
  | nil => exact absurd positive (by simp [parenthesized])
  | cons c blanks =>
    have blank := call.blank c List.mem_cons_self
    have rest : trimLeft (blanks ++ parenthesized inner) = parenthesized inner := by
      rw [trimLeft, List.dropWhile_append_of_pos fun d mem => call.blank d (by simp [mem])]
      rfl
    have opens : c ≠ '(' := (paren_of_isBlank blank).1
    simp only [List.cons_append, if_neg opens, afterBlanks?, if_pos blank, rest] at positive
    exact absurd positive (by simp [parenthesized])

end IsCallText

theorem areArguments_read {inner : Text} {levels : Nat} (balanced : Balanced inner)
    (same : ∀ u ∈ argumentTexts inner, SameParens (Expression.read levels u).text u) :
    AreArguments (((argumentTexts inner).map (Expression.read levels)).map text) := by
  rw [List.map_map]
  refine ⟨?_, balanced_arguments balanced same⟩
  intro t shown comma
  obtain ⟨u, mem, rfl⟩ := List.mem_map.mp shown
  rcases (isDrawnFrom_read levels u).chars ',' comma with char | plus | inside
  · contradiction
  · contradiction
  · exact comma_not_mem_argument mem inside

/-- A text that is left as it is negates nothing, unless it was cut off. -/
theorem negated?_of_read {levels : Nat} {t u : Text}
    (read : Expression.read levels t = .variable u) : u = trim t ∨ negated? u = none := by
  cases levels with
  | zero => exact Or.inl (Expression.variable.inj read).symm
  | succ levels =>
    right
    rw [Expression.read] at read
    cases shape : Shape.ofText t with
    | leaf expression =>
      rw [shape] at read
      rw [Shape.ofText, show expression = .variable u from read] at shape
      obtain ⟨rfl, positive⟩ := Shape.eq_of_leaf shape
      exact positive
    | chain op first rest =>
      have several := Shape.of_ofStripped (stripParens t)
      rw [← Shape.ofText, shape] at several
      cases several
      rw [shape] at read
      dsimp only at read
      rw [← List.foldl_map (f := Expression.read levels)] at read
      exact absurd read (chain_ne_variable u)
    | negation operand =>
      rw [shape] at read
      contradiction
    | comparison op left right =>
      rw [shape] at read
      contradiction
    | call name arguments =>
      rw [shape] at read
      contradiction

theorem negated?_append {t operand : Text} (found : negated? t = some operand) (w : Text) :
    negated? (t ++ w) = some (operand ++ w) := by
  rw [negated?] at found
  split at found
  · contradiction
  · contradiction
  · next c rest behind =>
    have whole : after? "NOT".toList (t ++ w) = some (c :: (rest ++ w)) := by
      rw [after?_eq_some_iff] at behind ⊢
      rw [behind, List.append_assoc, List.cons_append]
    rw [negated?, whole]
    dsimp only
    split at found
    · next opens =>
      obtain rfl := Option.some.inj found
      rw [if_pos opens, List.cons_append]
    · next other =>
      rw [if_neg other, afterBlanks?]
      split at found
      · next d operand blanks =>
        obtain rfl := Option.some.inj found
        rw [afterBlanks?] at blanks
        split at blanks
        · next blank =>
          have cut : trimLeft (rest ++ w) = d :: (operand ++ w) := by
            rw [trimLeft, List.dropWhile_append, ← trimLeft, Option.some.inj blanks]
            rfl
          rw [if_pos blank, cut, List.cons_append]
        · contradiction
      · contradiction

theorem negated?_of_isPrefix {u t : Text} (start : u <+: t) (positive : negated? t = none) :
    negated? u = none := by
  obtain ⟨w, rfl⟩ := start
  cases found : negated? u with
  | none => rfl
  | some operand =>
    rw [negated?_append found w] at positive
    contradiction

theorem negated?_of_ofStripped {t : Text} {shape : Shape} (read : Shape.ofStripped t = shape)
    (other : ∀ operand, shape ≠ .negation operand) : negated? t = none := by
  cases found : negated? t with
  | none => rfl
  | some operand =>
    have noWord (s : Text) (positive : negated? s = none) : t ≠ s := by
      rintro rfl
      rw [found] at positive
      contradiction
    have noNumeral : numeral? t = none := by
      cases numeral : numeral? t with
      | none => rfl
      | some n =>
        rw [(isPositive_of_numeral numeral).1] at found
        contradiction
    rw [Shape.ofStripped, if_neg (noWord _ rfl), if_neg (noWord _ rfl), noNumeral, found] at read
    exact absurd read.symm (other operand)

theorem negated?_of_begins {levels : Nat} {s first u : Text} (trimmed : s ≠ [] → IsTrimmed s)
    (positive : negated? s = none) (start : first <+: s)
    (read : Expression.read levels first = .variable u) : negated? u = none := by
  rcases negated?_of_read read with rfl | none
  · exact negated?_of_isPrefix (isPrefix_trim trimmed start) positive
  · exact none

theorem isPositive_of_isFirm {e : Expression} {levels : Nat} (firm : e.isFirm levels = true)
    (begins : ∀ u, e = .variable u → negated? u = none) :
    ∀ u, e = .variable u → IsPositive u := by
  rintro u rfl
  rw [isFirm, Bool.and_eq_true] at firm
  exact ⟨begins u rfl, (isUnbroken_of_isOperandText firm.1).2.1⟩

theorem exists_succ_of_le {levels more : Nat} (enough : levels + 1 ≤ more) :
    ∃ m, more = m + 1 ∧ levels ≤ m :=
  ⟨more - 1, by omega, by omega⟩

/-- The text between blanks that an expression was read from says as much about it as its own, if
    the expression may be broken down to as many levels as the text or to more. -/
structure IsFaithful (e : Expression) (t : Text) (levels : Nat) : Prop where
  firm : ∀ more, levels ≤ more → e.isFirm more = true → e.Stable more ∧ Balanced t
  sole : ∀ more, levels ≤ more → e.isText more = true → e.IsSole more ∧ SameParens e.text t

namespace IsFaithful
variable {e left right : Expression} {s t : Text} {levels more : Nat}

theorem kept (faithful : IsFaithful e t levels) (enough : levels ≤ more)
    (kept : e.isKept more = true) : e.IsReread more ∧ SameParens e.text t := by
  rw [isKept, Bool.or_eq_true] at kept
  rcases kept with sole | firm
  · obtain ⟨sole, same⟩ := faithful.sole more enough sole
    exact ⟨Or.inl sole, same⟩
  · obtain ⟨stable, balanced⟩ := faithful.firm more enough firm
    exact ⟨Or.inr stable,
      (sameParens_of_balanced (balanced_text stable)).trans (sameParens_of_balanced balanced).symm⟩

theorem behind (faithful : IsFaithful e s levels) (core : IsCore s t) : IsFaithful e t levels where
  firm more enough firm := (faithful.firm more enough firm).imp_right core.same.symm.balanced
  sole more enough sole := (faithful.sole more enough sole).imp_right (·.trans core.same)

theorem reference (trimmed : t ≠ [] → IsTrimmed t) : IsFaithful (.variable t) t levels where
  firm more _ firm := by
    rw [isFirm, Bool.and_eq_true] at firm
    obtain ⟨nonempty, other, unbroken⟩ := isUnbroken_of_isOperandText firm.1
    have tighter := unbroken.tighter (Or.inl rfl)
    refine ⟨?_, unbroken.balanced⟩
    obtain leaf | ⟨rfl, -⟩ := leaf_or_cut_of_staysText firm.2
    · obtain ⟨sole, positive⟩ := isSoleText_of_leaf (trimmed nonempty) leaf
      exact .reference ⟨sole.trimmed, sole.bare, tighter, ⟨positive, other⟩, sole.shape⟩
    · exact .cut (trimmed nonempty) tighter
  sole more _ sole := by
    simp only [isText, Bool.and_eq_true, Bool.not_eq_true', List.isEmpty_eq_false_iff] at sole
    refine ⟨⟨t, rfl, ?_⟩, SameParens.refl t⟩
    obtain leaf | ⟨rfl, unnamed⟩ := leaf_or_cut_of_staysText sole.2
    · exact Or.inl (isSoleText_of_leaf (trimmed sole.1) leaf).1
    · exact Or.inr ⟨rfl, trimmed sole.1, unnamed⟩

theorem literal {value : Literal} (read : IsReadLiteral value) (balanced : Balanced t) :
    IsFaithful (.literal value) t (levels + 1) where
  firm more enough firm := by
    obtain ⟨more, rfl, -⟩ := exists_succ_of_le enough
    exact ⟨stable_of_isReadLiteral read (by simpa [isFirm] using firm) more, balanced⟩
  sole _ _ := Bool.noConfusion

theorem negation (faithful : IsFaithful e s levels) (joins : Joins [s] t) :
    IsFaithful (.negation e) t (levels + 1) where
  firm more enough firm := by
    obtain ⟨more, rfl, below⟩ := exists_succ_of_le enough
    rw [isFirm] at firm
    obtain ⟨stable, balanced⟩ := faithful.firm more below firm
    exact ⟨.negation stable, joins.balanced (by simpa using balanced)⟩
  sole _ _ := Bool.noConfusion

theorem comparison {op : Comparison} {l r : Text} (first : IsFaithful left l levels)
    (begins : ∀ u, left = .variable u → negated? u = none) (second : IsFaithful right r levels)
    (joins : Joins [l, r] t) : IsFaithful (.comparison op left right) t (levels + 1) where
  firm more enough firm := by
    obtain ⟨more, rfl, below⟩ := exists_succ_of_le enough
    rw [isFirm, Bool.and_eq_true] at firm
    have leftFirm := first.firm more below firm.1
    have rightFirm := second.firm more below firm.2
    exact ⟨.comparison leftFirm.1 (isPositive_of_isFirm firm.1 begins) rightFirm.1,
      joins.balanced (by simp [leftFirm.2, rightFirm.2])⟩
  sole _ _ := Bool.noConfusion

theorem chain {op : Connective} {first second : Text} {rest : List Text}
    (each : ∀ u ∈ first :: second :: rest, IsFaithful (Expression.read levels u) u levels)
    (begins : ∀ u, Expression.read levels first = .variable u → negated? u = none)
    (joins : Joins (first :: second :: rest) t) :
    IsFaithful
      ((second :: rest).foldl (fun left part => .connective op left (Expression.read levels part))
        (Expression.read levels first)) t (levels + 1) where
  firm more enough firm := by
    obtain ⟨more, rfl, below⟩ := exists_succ_of_le enough
    rw [← List.foldl_map (f := Expression.read levels), List.map_cons] at firm ⊢
    rw [isFirm_chain, Bool.and_eq_true, ← List.map_cons, List.all_map, List.all_eq_true] at firm
    have above : levels ≤ if (Expression.read levels first).isChain op then more + 1 else more := by
      split <;> omega
    obtain ⟨stable, balanced⟩ := (each first (by simp)).firm _ above firm.1
    have later (u : Text) (mem : u ∈ second :: rest) :=
      (each u (List.mem_cons_of_mem first mem)).firm more below (firm.2 u mem)
    constructor
    · apply stable_chain stable (isPositive_of_isFirm firm.1 begins)
      intro x read
      rw [← List.map_cons] at read
      obtain ⟨u, mem, rfl⟩ := List.mem_map.mp read
      exact (later u mem).1
    · apply joins.balanced
      exact List.forall_mem_cons.mpr ⟨balanced, fun u mem => (later u mem).2⟩
  sole more _ sole := by
    rw [← List.foldl_map (f := Expression.read levels), List.map_cons] at sole
    cases found : (Expression.read levels second :: rest.map (Expression.read levels)).foldl
        (Expression.connective op) (Expression.read levels first) with
    | «variable» u => exact absurd found (chain_ne_variable u)
    | _ =>
      rw [found] at sole
      contradiction

theorem call {name blanks inner : Text} (positive : negated? t = none)
    (unchained : ∀ op, chain? op t = none) (call : IsCallText t name blanks inner)
    (each : ∀ u ∈ argumentTexts inner, IsFaithful (Expression.read levels u) u levels) :
    IsFaithful (.call name ((argumentTexts inner).map (Expression.read levels))) t
      (levels + 1) where
  firm more enough firm := by
    obtain ⟨more, rfl, below⟩ := exists_succ_of_le enough
    rw [isFirm, areKept_eq_all, List.all_map, List.all_eq_true] at firm
    have word : IsCallName name :=
      ⟨call.nonempty, call.letters, fun op => call.ne_symbol (unchained op), call.ne_not positive⟩
    have apart : AreArguments (((argumentTexts inner).map (Expression.read levels)).map text) :=
      areArguments_read call.balanced fun u mem => ((each u mem).kept below (firm u mem)).2
    have reread : ∀ e ∈ (argumentTexts inner).map (Expression.read levels), e.IsReread more := by
      intro e read
      obtain ⟨u, mem, rfl⟩ := List.mem_map.mp read
      exact ((each u mem).kept below (firm u mem)).1
    refine ⟨.call word apart fun e mem other => (reread e mem).resolve_left other, ?_⟩
    rw [call.whole]
    exact (balanced_of_free (List.forall_mem_append.mpr
      ⟨fun c mem => paren_of_isWord (call.letters c mem),
        fun c mem => paren_of_isBlank (call.blank c mem)⟩)).append
          (balanced_parenthesized call.balanced)
  sole _ _ := Bool.noConfusion

end IsFaithful

/-- Reading is faithful at every depth, also to what lies too deep. -/
theorem isFaithful_read (levels : Nat) (t : Text) :
    IsFaithful (Expression.read levels t) t levels := by
  induction levels generalizing t with
  | zero => exact (IsFaithful.reference isTrimmed_trim).behind (isCore_trim t)
  | succ levels ih =>
    have core := isCore_stripParens t
    rw [Expression.read, Shape.ofText]
    generalize stripParens t = s at core ⊢
    suffices faithful : IsFaithful _ s _ from faithful.behind core
    have shape := Shape.of_ofStripped s
    generalize same : Shape.ofStripped s = read at shape ⊢
    cases shape with
    | truth value text =>
      apply IsFaithful.literal (.bool value)
      rw [text]
      cases value <;> decide
    | @numeral n found =>
      cases literal : n.literal? with
      | none => exact .reference core.trimmed
      | some value =>
        exact .literal (isReadLiteral_of_numeral literal) (balanced_of_numeral found)
    | negation found => exact (ih _).negation (joins_negation found)
    | @chain op first second rest found =>
      have positive := negated?_of_ofStripped same fun _ other => Shape.noConfusion other
      exact .chain (fun u _ => ih u)
        (fun u => negated?_of_begins core.trimmed positive (isPrefix_chain core.trimmed found))
        (joins_chain found)
    | @comparison op n found =>
      have positive := negated?_of_ofStripped same fun _ other => Shape.noConfusion other
      exact (ih _).comparison
        (fun u => negated?_of_begins core.trimmed positive (List.take_prefix _ s)) (ih _)
        (joins_comparison found)
    | @call name arguments positive unchained found =>
      obtain ⟨blanks, inner, call, rfl⟩ := exists_call found
      exact .call positive unchained call fun u _ => ih u
    | word => exact .reference core.trimmed

end StructuredText
