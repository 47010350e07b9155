import StructuredText.Proofs.Expression.Parentheses
import StructuredText.Proofs.Expression.RoundTrip

/- Chains of texts with AND or OR between them.  Whatever the texts are, as long as no operator of
   the chain and no looser one stands in them outside parentheses, the chain is cut between them and
   nowhere else, and is read as the chain of what they are read as. -/
namespace StructuredText

def HasTopWord (word t : Text) : Prop :=
  ∃ before behind, t = before ++ word ++ behind ∧ Balanced before ∧
    atWordStart before.getLast? = true ∧ atWordEnd behind = true

theorem hasTopWord_iff {word t : Text} : HasTopWord word t ↔
    ∃ n ≤ t.length, word <+: t.drop n ∧ Balanced (t.take n) ∧
      atWordStart (t.take n).getLast? = true ∧ atWordEnd (t.drop (n + word.length)) = true := by
  constructor
  · rintro ⟨before, behind, rfl, balanced, begins, ends⟩
    refine ⟨before.length, by simp, ?_⟩
    rw [List.append_assoc, List.drop_left, List.take_left, ← List.drop_drop, List.drop_left,
      List.drop_left]
    exact ⟨List.prefix_append _ _, balanced, begins, ends⟩
  · rintro ⟨n, -, ⟨behind, here⟩, balanced, begins, ends⟩
    rw [← List.drop_drop, ← here, List.drop_left] at ends
    refine ⟨t.take n, behind, ?_, balanced, begins, ends⟩
    rw [List.append_assoc, here, List.take_append_drop]

instance (word t : Text) : Decidable (HasTopWord word t) :=
  decidable_of_iff _ hasTopWord_iff.symm

/-- A text that can stand in a chain of `op`. -/
structure IsLink (op : Connective) (t : Text) : Prop where
  filled : trim t ≠ []
  balanced : Balanced t
  noAnd : ¬ HasTopWord Connective.and.symbol t
  noOwn : ¬ HasTopWord op.symbol t

instance (op : Connective) (t : Text) : Decidable (IsLink op t) :=
  decidable_of_iff (trim t ≠ [] ∧ Balanced t ∧ ¬ HasTopWord Connective.and.symbol t ∧
      ¬ HasTopWord op.symbol t)
    ⟨fun ⟨filled, balanced, noAnd, noOwn⟩ => ⟨filled, balanced, noAnd, noOwn⟩,
      fun link => ⟨link.filled, link.balanced, link.noAnd, link.noOwn⟩⟩

theorem exists_firstWord (t : Text) {c : Char} (first : t.head? = some c) (word : isWord c = true) :
    ∃ w u, t = w ++ u ∧ w ≠ [] ∧ (∀ d ∈ w, isWord d = true) ∧ atWordEnd u = true := by
  obtain ⟨rest, rfl⟩ := List.head?_eq_some_iff.mp first
  refine ⟨_, _, (List.takeWhile_append_dropWhile (p := isWord)).symm, ?_,
    fun d mem => List.mem_takeWhile_imp mem, ?_⟩
  · rw [List.takeWhile_cons_of_pos word]
    exact List.cons_ne_nil _ _
  · have stops := List.head?_dropWhile_not isWord (c :: rest)
    rw [atWordEnd]
    cases behind : ((c :: rest).dropWhile isWord).head? with
    | none => rfl
    | some d => simpa [behind] using stops

theorem atWordStart_getLast?_blank {a : Text} (blank : ∀ c ∈ a, isBlank c = true) :
    atWordStart a.getLast? = true := by
  cases last : a.getLast? with
  | none => rfl
  | some c => simp [atWordStart, isWord_of_isBlank (blank c (List.mem_of_getLast? last))]

theorem atWordEnd_blank {b : Text} (blank : ∀ c ∈ b, isBlank c = true) : atWordEnd b = true := by
  cases b with
  | nil => rfl
  | cons c b => simp [atWordEnd, isWord_of_isBlank (blank c List.mem_cons_self)]

theorem balanced_of_blank {a : Text} (blank : ∀ c ∈ a, isBlank c = true) : Balanced a :=
  balanced_of_free fun c mem => paren_of_isBlank (blank c mem)

theorem HasTopWord.surrounded {word a t b : Text} (has : HasTopWord word t)
    (left : ∀ c ∈ a, isBlank c = true) (right : ∀ c ∈ b, isBlank c = true) :
    HasTopWord word (a ++ t ++ b) := by
  obtain ⟨before, behind, rfl, balanced, begins, ends⟩ := has
  refine ⟨a ++ before, behind ++ b, by simp, (balanced_of_blank left).append balanced, ?_,
    atWordEnd_append ends (atWordEnd_blank right)⟩
  rw [List.getLast?_append]
  cases last : before.getLast? with
  | none => exact atWordStart_getLast?_blank left
  | some c =>
    rw [last] at begins
    exact begins

theorem Balanced.behind_letters {w t : Text} (letters : ∀ c ∈ w, isWord c = true)
    (balanced : Balanced (w ++ t)) : Balanced t := by
  have same := (sameParens_of_free fun c mem => paren_of_isWord (letters c mem)).symm.append
    (SameParens.refl t)
  exact same.balanced balanced

/-- Without these words outside its parentheses a text binds tighter than the operators.  The text
    comes behind `before`, and no word reaches from there into it. -/
theorem tighter_of_free {k : Nat} (connectives : k < 3) {before t : Text} (outer : Balanced before)
    (balanced : Balanced t)
    (apart : atWordStart before.getLast? = true ∨ atWordEnd t = true)
    (free : ∀ op : Connective, op.tightness ≤ k → ¬ HasTopWord op.symbol (before ++ t)) :
    Tighter k t := by
  induction size : t.length using Nat.strongRecOn generalizing before t with
  | ind n ih =>
    subst size
    have further {s u : Text} (whole : t = s ++ u) (nonempty : s ≠ []) (passed : Balanced s)
        (later : Balanced u) (apart : atWordStart s.getLast? = true ∨ atWordEnd u = true) :
        Tighter k u := by
      have longer := List.length_pos_iff.mpr nonempty
      have shorter : u.length < t.length := by
        rw [whole, List.length_append]
        omega
      have last : (before ++ s).getLast? = s.getLast? := by
        rw [List.getLast?_append, List.getLast?_eq_some_getLast nonempty]
        rfl
      refine ih u.length shorter (outer.append passed) later ?_ ?_ rfl
      · rwa [last]
      · rwa [List.append_assoc, ← whole]
    cases balanced with
    | nil => exact .nil
    | @group g rest inner later =>
      have closed : (parenthesized g).getLast? = some ')' := by
        rw [parenthesized, ← List.cons_append, List.getLast?_concat]
      exact .group inner (further rfl (List.cons_ne_nil _ _) (balanced_parenthesized inner) later
        (Or.inl (by rw [closed]; decide)))
    | @char c rest opens closes later =>
      cases word : isWord c with
      | false =>
        exact .mark word opens closes (fun three => absurd connectives (Nat.not_lt.mpr three))
          (further (s := [c]) rfl (List.cons_ne_nil _ _)
            (.char opens closes .nil) later (Or.inl (by simp [atWordStart, word])))
      | true =>
        have begins : atWordStart before.getLast? = true :=
          apart.resolve_right (by simp [atWordEnd, word])
        obtain ⟨w, u, whole, nonempty, letters, ends⟩ := exists_firstWord (c :: rest) rfl word
        have passed := balanced_of_free fun d mem => paren_of_isWord (letters d mem)
        have behind := (whole ▸ later.char opens closes).behind_letters letters
        rw [whole]
        refine .word nonempty letters ?_ ends (further whole nonempty passed behind (Or.inr ends))
        rintro op loose rfl
        exact free op loose ⟨before, u, by rw [whole, List.append_assoc], outer, begins, ends⟩

namespace IsLink
variable {op : Connective} {t : Text}

theorem tighter (link : IsLink op t) {a s b : Text} (whole : t = a ++ s ++ b)
    (left : ∀ c ∈ a, isBlank c = true) (right : ∀ c ∈ b, isBlank c = true) {k : Nat}
    (bound : k ≤ op.tightness) : Tighter k s := by
  have core : Balanced s := by
    have same := ((sameParens_of_balanced (balanced_of_blank left)).append (.refl s)).append
      (sameParens_of_balanced (balanced_of_blank right))
    rw [List.nil_append, List.append_nil, ← whole] at same
    exact same.symm.balanced link.balanced
  apply tighter_of_free (Nat.lt_of_le_of_lt bound op.tightness_lt) .nil core (Or.inl rfl)
  intro other loose has
  have inside : HasTopWord other.symbol t := whole ▸ has.surrounded left right
  have among : other = .and ∨ other = op := by
    have := Nat.le_trans loose bound
    cases other <;> cases op <;> first
      | exact Or.inl rfl
      | exact Or.inr rfl
      | exact absurd this (by decide)
  rcases among with rfl | rfl
  · exact link.noAnd inside
  · exact link.noOwn inside

end IsLink

theorem atWordEnd_operations (symbol : Text) (rest : List Text) :
    atWordEnd (rest.flatMap (operation symbol)) = true := by
  cases rest with
  | nil => rfl
  | cons t rest => rfl

theorem tighter_operations {k : Nat} {symbol : Text} (operator : Tighter k symbol)
    {rest : List Text} (each : ∀ t ∈ rest, Tighter k t) :
    Tighter k (rest.flatMap (operation symbol)) := by
  induction rest with
  | nil => exact .nil
  | cons t rest ih =>
    obtain ⟨here, later⟩ := List.forall_mem_cons.mp each
    rw [List.flatMap_cons]
    exact (Expression.tighter_operation operator here).append (atWordEnd_operations symbol rest)
      (ih later)

/-- A chain is found as such, between blanks, if its operator and looser ones stand only between its
    parts. -/
theorem shape_links {op : Connective} {first : Text} {rest : List Text} (several : rest ≠ [])
    (filled : ∀ t ∈ first :: rest, trim t ≠ [])
    (tighter : ∀ k ≤ op.tightness, ∀ t ∈ first :: rest, Tighter k t)
    (positive : IsPositive (first ++ rest.flatMap (operation op.symbol)))
    (trimmed : IsTrimmed (first ++ rest.flatMap (operation op.symbol))) {a b : Text}
    (left : ∀ c ∈ a, isBlank c = true) (right : ∀ c ∈ b, isBlank c = true) :
    Shape.ofText (a ++ (first ++ rest.flatMap (operation op.symbol)) ++ b) =
      .chain op (trim first) (rest.map trim) := by
  have more : rest.flatMap (operation op.symbol) ≠ [] := by
    obtain ⟨u, rest, rfl⟩ := List.exists_cons_of_ne_nil several
    exact List.cons_ne_nil _ _
  have nonempty : first ≠ [] := by
    rintro rfl
    exact filled [] List.mem_cons_self rfl
  have balanced := (tighter 0 (Nat.zero_le _) first List.mem_cons_self).balanced
  have marked : ∃ c ∈ first ++ rest.flatMap (operation op.symbol), c = ' ' ∨ c = '(' := by
    obtain ⟨u, rest, rfl⟩ := List.exists_cons_of_ne_nil several
    exact ⟨' ', by simp [operation], Or.inl rfl⟩
  rw [Shape.ofText, stripParens_bare trimmed (isEnclosed_append balanced nonempty more) left right]
  apply ofStripped_of_chain marked positive.1
    (chain?_parts several filled (tighter op.tightness (Nat.le_refl _)))
  intro other before
  have looser : other.tightness < op.tightness := by
    cases op <;> cases other <;> first
      | exact absurd before (by decide)
      | exact (by decide : 1 < 2)
  obtain ⟨here, later⟩ := List.forall_mem_cons.mp (tighter other.tightness (Nat.le_of_lt looser))
  exact chain?_eq_none (here.append (atWordEnd_operations op.symbol rest)
    (tighter_operations (Expression.tighter_connective looser) later))

theorem stripParensWithin_enough {n m : Nat} {t : Text} (first : t.length ≤ n)
    (second : t.length ≤ m) : stripParensWithin n t = stripParensWithin m t := by
  induction n generalizing m t with
  | zero =>
    obtain rfl := List.length_eq_zero_iff.mp (Nat.le_zero.mp first)
    rw [stripParensWithin_bare rfl, stripParensWithin_bare rfl]
  | succ n ih =>
    cases bare : isEnclosed t with
    | false => rw [stripParensWithin_bare bare, stripParensWithin_bare bare]
    | true =>
      obtain ⟨g, rfl, -⟩ := exists_of_isEnclosed bare
      cases m with
      | zero => contradiction
      | succ m =>
        have inner : ((parenthesized g).drop 1).dropLast = g := by simp [parenthesized]
        have shorter := (isCore_trim g).inside.length_le
        rw [length_parenthesized] at first second
        rw [stripParensWithin, stripParensWithin, if_pos bare, if_pos bare, inner]
        exact ih (by omega) (by omega)

theorem stripParens_trim (t : Text) : stripParens (trim t) = stripParens t := by
  have again : trim (trim t) = trim t := by
    by_cases empty : trim t = []
    · rw [empty]
      rfl
    · exact trim_eq_self (isTrimmed_trim empty)
  rw [stripParens, stripParens, again]
  exact stripParensWithin_enough (Nat.le_refl _) (isCore_trim t).inside.length_le

namespace Expression

theorem read_trim (levels : Nat) (t : Text) : read (levels + 1) (trim t) = read (levels + 1) t := by
  rw [read, read, Shape.ofText, Shape.ofText, stripParens_trim]

/-- Where nothing lies too deep, more levels change nothing. -/
theorem read_of_uncut {levels more : Nat} {t : Text} (enough : levels ≤ more)
    (uncut : cutOffs levels t = []) : read more t = read levels t := by
  induction levels generalizing more t with
  | zero => contradiction
  | succ levels ih =>
    obtain ⟨more, rfl⟩ : ∃ n, more = n + 1 := ⟨more - 1, by omega⟩
    have deeper {u : Text} : cutOffs levels u = [] → read more u = read levels u :=
      ih (Nat.le_of_succ_le_succ enough)
    rw [cutOffs] at uncut
    rw [read, read]
    cases shape : Shape.ofText t with
    | leaf e => rfl
    | negation operand =>
      rw [shape] at uncut
      exact congrArg _ (deeper uncut)
    | chain op first rest =>
      simp only [shape, List.flatMap_eq_nil_iff, List.forall_mem_cons] at uncut
      obtain ⟨here, later⟩ := uncut
      dsimp only
      rw [deeper here]
      exact List.foldl_ext _ _ _ fun left u mem =>
        congrArg (connective op left) (deeper (later u mem))
    | comparison op left right =>
      simp only [shape, List.append_eq_nil_iff] at uncut
      dsimp only
      rw [deeper uncut.1, deeper uncut.2]
    | call name arguments =>
      simp only [shape, List.flatMap_eq_nil_iff] at uncut
      exact congrArg _ (List.map_congr_left fun u mem => deeper (uncut u mem))

end Expression

def Connective.join (op : Connective) (texts : List Text) : Text :=
  (' ' :: (op.symbol ++ [' '])).intercalate texts

theorem Connective.join_cons (op : Connective) (first : Text) (rest : List Text) :
    op.join (first :: rest) = first ++ rest.flatMap (operation op.symbol) := by
  have between : (' ' :: (op.symbol ++ [' ']) ++ ·) = operation op.symbol := by
    funext t
    simp [operation]
  rw [join, intercalate_cons, between]

theorem exists_core {t : Text} (filled : trim t ≠ []) :
    ∃ a s b, t = a ++ s ++ b ∧ trim t = s ∧ IsTrimmed s ∧ (∀ c ∈ a, isBlank c = true) ∧
      ∀ c ∈ b, isBlank c = true := by
  obtain ⟨a, b, whole, left, right⟩ := exists_trim t
  exact ⟨a, trim t, b, whole, rfl, isTrimmed_trim filled, left, right⟩

section Join
variable {op : Connective} {first : Text} {rest : List Text} (several : rest ≠ [])
  (links : ∀ t ∈ first :: rest, IsLink op t) (positive : opensNegation (trim first) = false)
include several links positive

theorem shape_join :
    Shape.ofText (op.join (first :: rest)) = .chain op (trim first) (rest.map trim) := by
  obtain ⟨mid, last, rfl⟩ : ∃ mid last, rest = mid ++ [last] :=
    ⟨_, _, (List.dropLast_concat_getLast several).symm⟩
  have linkFirst := links first (by simp)
  have linkLast := links last (by simp)
  have linkMid : ∀ t ∈ mid, IsLink op t := fun t mem => links t (by simp [mem])
  obtain ⟨a, s, b, whole, core, trimmed, left, right⟩ := exists_core linkFirst.filled
  obtain ⟨c, u, d, whole', core', trimmed', left', right'⟩ := exists_core linkLast.filled
  -- The blanks at the two ends go, those inside stay with their parts.
  have between : op.join (first :: (mid ++ [last])) =
      a ++ (s ++ b ++ (mid ++ [c ++ u]).flatMap (operation op.symbol)) ++ d := by
    rw [op.join_cons, whole, whole']
    simp [operation]
  have alone : trim (s ++ b) = s := by
    simpa using trim_surrounded (a := []) trimmed (of_all rfl) right
  have alone' : trim (c ++ u) = u := by
    simpa using trim_surrounded (b := []) trimmed' left' (of_all rfl)
  have parts {P : Text → Prop} (atFirst : P (s ++ b)) (atLast : P (c ++ u))
      (others : ∀ t ∈ mid, P t) : ∀ t ∈ (s ++ b) :: (mid ++ [c ++ u]), P t := by
    intro t mem
    simp only [List.mem_cons, List.mem_append, List.not_mem_nil, or_false] at mem
    rcases mem with rfl | mem | rfl
    · exact atFirst
    · exact others t mem
    · exact atLast
  have filled : ∀ t ∈ (s ++ b) :: (mid ++ [c ++ u]), trim t ≠ [] :=
    parts (by rw [alone]; exact trimmed.ne_nil) (by rw [alone']; exact trimmed'.ne_nil)
      fun t mem => (linkMid t mem).filled
  have tighter (k : Nat) (bound : k ≤ op.tightness) :
      ∀ t ∈ (s ++ b) :: (mid ++ [c ++ u]), Tighter k t :=
    parts (linkFirst.tighter (b := []) (by simp [whole]) left (of_all rfl) bound)
      (linkLast.tighter (a := []) (by simp [whole']) (of_all rfl) right' bound)
      fun t mem => (linkMid t mem).tighter (a := []) (b := []) (by simp) (of_all rfl)
        (of_all rfl) bound
  have positive : IsPositive (s ++ b ++ (mid ++ [c ++ u]).flatMap (operation op.symbol)) := by
    obtain ⟨e, more, behind, blank⟩ : ∃ e more,
        b ++ (mid ++ [c ++ u]).flatMap (operation op.symbol) = e :: more ∧ isBlank e = true := by
      cases b with
      | nil => cases mid <;> exact ⟨_, _, rfl, by decide⟩
      | cons e b => exact ⟨_, _, rfl, right e (by simp)⟩
    rw [List.append_assoc, behind]
    apply isPositive_of_opensNegation
    rw [opensNegation_append blank, ← core, positive]
  have ends : IsTrimmed (s ++ b ++ (mid ++ [c ++ u]).flatMap (operation op.symbol)) := by
    have joined := trimmed.between trimmed'
      (b ++ (mid.flatMap (operation op.symbol) ++ operation op.symbol c))
    simpa [operation] using joined
  rw [between, shape_links (by simp) filled tighter positive ends left right', alone, core,
    List.map_append, List.map_append, List.map_singleton, List.map_singleton, alone', core']

/-- A chain of texts that are not too deep is read as the chain, from the left, of what each of them
    is read as. -/
theorem Expression.ofText_join (shallow : ∀ t ∈ first :: rest, cutOffs expressionLimit t = []) :
    ofText (op.join (first :: rest)) =
      rest.foldl (fun left t => .connective op left (ofText t)) (ofText first) := by
  have part : ∀ t ∈ first :: rest, read expressionLimit (trim t) = ofText t := by
    intro t mem
    calc read expressionLimit (trim t)
        = read expressionLimit t := read_trim (expressionLimit - 1) t
      _ = ofText t := (read_of_uncut (Nat.le_succ _) (shallow t mem)).symm
  rw [ofText, read, shape_join several links positive]
  dsimp only
  rw [part first List.mem_cons_self, List.foldl_map]
  exact List.foldl_ext _ _ _ fun left t mem =>
    congrArg (connective op left) (part t (List.mem_cons_of_mem first mem))

end Join

/-- Parentheses at both ends, and words that hold the operator's letters. -/
theorem Expression.ofText_join_parenthesizedEnds :
    let first := "(a AND b)".toList
    let rest := [" f(x, y OR z) ", "NOT MORE", "(ORDER)"].map String.toList
    (∀ t ∈ first :: rest, IsLink .or t) ∧ opensNegation (trim first) = false ∧
      (∀ t ∈ first :: rest, cutOffs expressionLimit t = []) ∧
      ofText "(a AND b) OR  f(x, y OR z)  OR NOT MORE OR (ORDER)".toList =
        rest.foldl (fun left t => .connective .or left (ofText t)) (ofText first) := by
  intro first rest
  have links : ∀ t ∈ first :: rest, IsLink .or t := by decide
  have positive : opensNegation (trim first) = false := by decide
  have shallow : ∀ t ∈ first :: rest, cutOffs expressionLimit t = [] := by decide
  exact ⟨links, positive, shallow,
    ofText_join (List.cons_ne_nil _ _) links positive shallow⟩

end StructuredText
