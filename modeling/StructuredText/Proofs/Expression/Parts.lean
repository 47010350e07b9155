import Mathlib.Data.List.Basic
import StructuredText.Proofs.Expression.Parentheses
import StructuredText.Proofs.Source.Depth

/- The texts into which a text is broken down: they stand in it as they are, one behind the other. -/
namespace StructuredText

theorem append_of_cutAtTopWord? {word : Text} {previous : Option Char} {depth : Int}
    {t start rest : Text} (cut : cutAtTopWord? word previous depth t = some (start, rest)) :
    t = start ++ word ++ rest := by
  induction t generalizing previous depth start with
  | nil => contradiction
  | cons c t ih =>
    have further {depth : Int}
        (cut : (cutAtTopWord? word (some c) depth t).map (prepend [c]) = some (start, rest)) :
        c :: t = start ++ word ++ rest := by
      obtain ⟨⟨before, behind⟩, found, same⟩ := Option.map_eq_some_iff.mp cut
      obtain ⟨rfl, rfl⟩ := Prod.mk.inj same
      rw [ih found]
      simp
    rw [cutAtTopWord?] at cut
    split at cut
    · exact further cut
    · split at cut
      · exact further cut
      · split at cut
        · next here =>
          obtain ⟨rfl, rfl⟩ := Prod.mk.inj (Option.some.inj cut)
          simp only [Bool.and_eq_true, startsWithWord] at here
          obtain ⟨tail, eq⟩ := List.isPrefixOf_iff_prefix.mp here.2.1
          rw [← eq, List.drop_left, List.nil_append]
        · exact further cut

theorem joins_trim (t : Text) : Joins [trim t] t := by
  obtain ⟨a, b, whole, left, right⟩ := exists_trim t
  have joins : Joins [trim t] (a ++ trim t ++ b) :=
    .cons (fun c mem => paren_of_isBlank (left c mem))
      (.nil fun c mem => paren_of_isBlank (right c mem))
  rwa [← whole] at joins

theorem joins_topWordParts {word : Text} (free : ∀ c ∈ word, c ≠ '(' ∧ c ≠ ')') (cuts : Nat)
    (previous : Option Char) (t : Text) : Joins (topWordParts word cuts previous t) t := by
  induction cuts generalizing previous t with
  | zero =>
    cases t with
    | nil => exact .nil (of_all rfl)
    | cons c t => exact joins_trim (c :: t)
  | succ cuts ih =>
    cases t with
    | nil => exact .nil (of_all rfl)
    | cons c t =>
      simp only [topWordParts]
      split
      · exact joins_trim (c :: t)
      · next start rest cut =>
        obtain ⟨a, b, whole, left, right⟩ := exists_trim start
        have between : ∀ c ∈ b ++ word, c ≠ '(' ∧ c ≠ ')' :=
          List.forall_mem_append.mpr ⟨fun c mem => paren_of_isBlank (right c mem), free⟩
        have joins : Joins (trim start :: topWordParts word cuts word.getLast? rest)
            (a ++ trim start ++ (b ++ word ++ rest)) :=
          .cons (fun c mem => paren_of_isBlank (left c mem))
            ((ih word.getLast? rest).behind between)
        rw [append_of_cutAtTopWord? cut]
        rw [← List.append_assoc, ← List.append_assoc, ← whole] at joins
        exact joins

theorem paren_of_mem_symbol (op : Connective) : ∀ c ∈ op.symbol, c ≠ '(' ∧ c ≠ ')' :=
  fun c mem => paren_of_isWord (isWord_of_mem_symbol op c mem)

theorem joins_chain {op : Connective} {t first second : Text} {rest : List Text}
    (found : splitAtTopWord op.symbol t = first :: second :: rest) :
    Joins (first :: second :: rest) t := by
  have joins := joins_topWordParts (paren_of_mem_symbol op) t.length none t
  rw [splitAtTopWord] at found
  split at found
  · rwa [found] at joins
  · have alone := (List.cons.inj found).2
    contradiction

section First
variable {t : Text} (trimmed : t ≠ [] → IsTrimmed t)
include trimmed

theorem isPrefix_trim {start : Text} (inside : start <+: t) : trim start <+: t := by
  obtain ⟨a, b, whole, left, -⟩ := exists_trim start
  cases a with
  | nil =>
    rw [List.nil_append] at whole
    exact List.IsPrefix.trans ⟨b, whole.symm⟩ inside
  | cons d a =>
    obtain ⟨rest, rfl⟩ := inside
    obtain ⟨c, first, solid⟩ := (trimmed (by rw [whole]; exact List.cons_ne_nil _ _)).first
    rw [whole] at first
    obtain rfl : d = c := Option.some.inj first
    rw [left d List.mem_cons_self] at solid
    contradiction

theorem isPrefix_chain {word first second : Text} {rest : List Text}
    (found : splitAtTopWord word t = first :: second :: rest) : first <+: t := by
  rw [splitAtTopWord] at found
  split at found
  · cases t with
    | nil => contradiction
    | cons c t =>
      simp only [List.length_cons, topWordParts] at found
      split at found
      · exact absurd (List.cons.inj found).2 (by simp)
      · next start behind cut =>
        obtain rfl := (List.cons.inj found).1
        have whole := append_of_cutAtTopWord? cut
        rw [List.append_assoc] at whole
        exact isPrefix_trim trimmed ⟨_, whole.symm⟩
  · exact absurd (List.cons.inj found).2 (by simp)

end First

theorem joins_negation {t operand : Text} (found : negated? t = some operand) :
    Joins [operand] t := by
  have whole {a : Text} (free : ∀ c ∈ a, c ≠ '(' ∧ c ≠ ')') : Joins [operand] (a ++ operand) := by
    have joins : Joins [operand] (a ++ operand ++ []) := .cons free (.nil (of_all rfl))
    rwa [List.append_nil] at joins
  rw [negated?] at found
  split at found
  · contradiction
  · contradiction
  · next c rest behind =>
    have shape := after?_eq_some_iff.mp behind
    split at found
    · obtain rfl := Option.some.inj found
      rw [shape]
      exact whole (of_all rfl)
    · split at found
      · next d operand blanks =>
        obtain rfl := Option.some.inj found
        rw [afterBlanks?] at blanks
        split at blanks
        · next blank =>
          have cut : rest = rest.takeWhile isBlank ++ d :: operand := by
            rw [← Option.some.inj blanks, trimLeft, List.takeWhile_append_dropWhile]
          rw [shape, cut, ← List.cons_append, ← List.append_assoc]
          apply whole
          rw [List.forall_mem_append, List.forall_mem_cons]
          exact ⟨of_all rfl, paren_of_isBlank blank,
            fun e mem => paren_of_isBlank (List.mem_takeWhile_imp mem)⟩
        · contradiction
      · contradiction

theorem joins_comparison {op : Comparison} {t : Text} {n : Nat}
    (found : findTopLevel? op.symbol t 0 = some n) :
    Joins [t.take n, t.drop (n + op.symbol.length)] t := by
  have free : ∀ c ∈ op.symbol, c ≠ '(' ∧ c ≠ ')' := by cases op <;> exact of_all rfl
  rw [findTopLevel?, List.drop_zero] at found
  obtain ⟨m, place, same⟩ := Option.map_eq_some_iff.mp found
  obtain rfl : m = n := by omega
  have joins : Joins [t.take m, t.drop (m + op.symbol.length)]
      ([] ++ t.take m ++ (op.symbol ++ t.drop (m + op.symbol.length) ++ [])) :=
    .cons (of_all rfl) (.cons free (.nil (of_all rfl)))
  rwa [List.append_nil, List.nil_append, ← List.append_assoc, append_of_topLevelFrom place] at joins

structure IsCallText (t name blanks inner : Text) : Prop where
  whole : t = name ++ blanks ++ parenthesized inner
  nonempty : name ≠ []
  letters : ∀ c ∈ name, isWord c = true
  blank : ∀ c ∈ blanks, isBlank c = true
  balanced : Balanced inner

theorem exists_call {t name : Text} {arguments : List Text}
    (found : callParts? t = some (name, arguments)) :
    ∃ blanks inner, IsCallText t name blanks inner ∧ arguments = argumentTexts inner := by
  rw [callParts?] at found
  split at found
  · contradiction
  · next word rest parts =>
    dsimp only at found
    split at found
    · next enclosed =>
      obtain ⟨rfl, rfl⟩ := Prod.mk.inj (Option.some.inj found)
      obtain ⟨g, shape, balanced⟩ := exists_of_isEnclosed enclosed
      have inner : ((trimLeft rest).drop 1).dropLast = g := by simp [shape, parenthesized]
      refine ⟨rest.takeWhile isBlank, g, ?_, by rw [inner]⟩
      have whole := append_of_word? parts
      rw [word?] at parts
      split at parts
      · contradiction
      · next filled =>
        obtain ⟨rfl, -⟩ := Prod.mk.inj (Option.some.inj parts)
        refine ⟨?_, by simpa using filled, fun c mem => List.mem_takeWhile_imp mem,
          fun c mem => List.mem_takeWhile_imp mem, balanced⟩
        rw [List.append_assoc, ← shape, trimLeft, List.takeWhile_append_dropWhile]
        exact whole
    · contradiction

theorem isCore_argumentValue {t : Text} (trimmed : t ≠ [] → IsTrimmed t) :
    IsCore (argumentValue t) t := by
  rw [argumentValue]
  split
  · exact ⟨trimmed, List.infix_refl t, .refl t⟩
  · next word rest parts =>
    split
    · next c value found =>
      have assigned := after?_eq_some_iff.mp found
      have behind := eq_words_append t
      have same : rest = t.dropWhile isWord := by
        rw [word?] at parts
        split at parts
        · contradiction
        · exact (Prod.mk.inj (Option.some.inj parts)).2.symm
      rw [← same, assigned] at behind
      have cut : c :: value = (c :: value).takeWhile isBlank ++ trimLeft (c :: value) := by
        rw [trimLeft, List.takeWhile_append_dropWhile]
      obtain ⟨a, whole, free⟩ : ∃ a, t = a ++ trimLeft (c :: value) ∧
          ∀ d ∈ a, d ≠ '(' ∧ d ≠ ')' := by
        refine ⟨t.takeWhile isWord ++ rest.takeWhile isBlank ++ ":=".toList ++
          (c :: value).takeWhile isBlank, ?_, ?_⟩
        · rw [List.append_assoc, ← cut, List.append_assoc]
          exact behind
        · simp only [List.forall_mem_append]
          exact ⟨⟨⟨fun d mem => paren_of_isWord (List.mem_takeWhile_imp mem),
            fun d mem => paren_of_isBlank (List.mem_takeWhile_imp mem)⟩, of_all rfl⟩,
            fun d mem => paren_of_isBlank (List.mem_takeWhile_imp mem)⟩
      refine ⟨?_, ⟨a, [], by rw [List.append_nil, ← whole]⟩, ?_⟩
      · intro filled
        have outer := trimmed (by rw [whole]; simp [filled])
        refine ⟨first_trimLeft filled, ?_⟩
        obtain ⟨d, last, inner⟩ := outer.last
        rw [whole, List.getLast?_append_of_ne_nil _ filled] at last
        exact ⟨d, last, inner⟩
      · have same := (sameParens_of_free free).symm.append (.refl (trimLeft (c :: value)))
        rwa [List.nil_append, ← whole] at same
    · exact ⟨trimmed, List.infix_refl t, .refl t⟩

theorem sameParens_intercalate {s₁ s₂ : Text} (separator : SameParens s₁ s₂) {parts : List Text}
    {written : Text → Text} (same : ∀ part ∈ parts, SameParens (written part) part) :
    SameParens (s₁.intercalate (parts.map written)) (s₂.intercalate parts) := by
  cases parts with
  | nil => exact .refl []
  | cons part rest =>
    obtain ⟨first, more⟩ := List.forall_mem_cons.mp same
    rw [List.map_cons, intercalate_cons, intercalate_cons]
    apply first.append
    clear first same
    induction rest with
    | nil => exact .refl []
    | cons part rest ih =>
      obtain ⟨first, more⟩ := List.forall_mem_cons.mp more
      rw [List.map_cons, List.flatMap_cons, List.flatMap_cons]
      exact (separator.append first).append (ih more)

theorem mem_splitOn_facts {x : Char} {t part : Text} (mem : part ∈ t.splitOn x) :
    x ∉ part ∧ ∀ c ∈ part, c ∈ t := by
  induction t generalizing part with
  | nil =>
    rw [List.splitOn_nil, List.mem_singleton] at mem
    rw [mem]
    exact ⟨List.not_mem_nil, fun c inside => inside⟩
  | cons d t ih =>
    have later {part : Text} (mem : part ∈ t.splitOn x) : x ∉ part ∧ ∀ c ∈ part, c ∈ d :: t :=
      ⟨(ih mem).1, fun c inside => List.mem_cons_of_mem d ((ih mem).2 c inside)⟩
    rw [List.splitOn_cons_eq_if_modifyHead] at mem
    split at mem
    · rcases List.mem_cons.mp mem with rfl | mem
      · exact ⟨List.not_mem_nil, fun c inside => absurd inside List.not_mem_nil⟩
      · exact later mem
    · next other =>
      cases parts : t.splitOn x with
      | nil => exact absurd parts (List.splitOn_ne_nil x t)
      | cons first rest =>
        rw [parts, List.modifyHead_cons] at mem
        rcases List.mem_cons.mp mem with rfl | mem
        · have head : first ∈ t.splitOn x := by
            rw [parts]
            exact List.mem_cons_self
          obtain ⟨free, inside⟩ := later head
          refine ⟨?_, List.forall_mem_cons.mpr ⟨List.mem_cons_self, inside⟩⟩
          rw [List.mem_cons, not_or]
          exact ⟨fun same => other (beq_iff_eq.mpr same.symm), free⟩
        · exact later (by rw [parts]; exact List.mem_cons_of_mem first mem)

theorem isCore_argument (raw : Text) : IsCore (argumentValue (trim raw)) raw :=
  (isCore_argumentValue isTrimmed_trim).trans (isCore_trim raw)

theorem exists_argument {inner part : Text} (mem : part ∈ argumentTexts inner) :
    ∃ raw ∈ inner.splitOn ',', part = argumentValue (trim raw) := by
  rw [argumentTexts] at mem
  split at mem
  · contradiction
  · obtain ⟨raw, inside, rfl⟩ := List.mem_map.mp mem
    exact ⟨raw, inside, rfl⟩

theorem comma_not_mem_argument {inner part : Text} (mem : part ∈ argumentTexts inner) :
    ',' ∉ part := by
  obtain ⟨raw, inside, rfl⟩ := exists_argument mem
  exact fun comma => (mem_splitOn_facts inside).1 ((isCore_argument raw).inside.mem comma)

theorem mem_of_mem_argument {inner part : Text} (mem : part ∈ argumentTexts inner) {c : Char}
    (char : c ∈ part) : c ∈ inner := by
  obtain ⟨raw, inside, rfl⟩ := exists_argument mem
  exact (mem_splitOn_facts inside).2 c ((isCore_argument raw).inside.mem char)

theorem comma_mem_of_arguments {inner : Text} (several : 2 ≤ (argumentTexts inner).length) :
    ',' ∈ inner := by
  by_contra free
  rw [argumentTexts] at several
  split at several
  · contradiction
  · rw [List.splitOn_eq_singleton free] at several
    contradiction

theorem balanced_arguments {inner : Text} (balanced : Balanced inner) {written : Text → Text}
    (same : ∀ part ∈ argumentTexts inner, SameParens (written part) part) :
    Balanced (", ".toList.intercalate ((argumentTexts inner).map written)) := by
  rw [argumentTexts] at same ⊢
  split
  · exact .nil
  · next filled =>
    rw [if_neg filled] at same
    have commas : SameParens ", ".toList [','] :=
      (sameParens_of_free (of_all rfl)).trans (sameParens_of_free (of_all rfl)).symm
    have each : ∀ raw ∈ inner.splitOn ',',
        SameParens (written (argumentValue (trim raw))) raw := fun raw mem =>
      (same _ (List.mem_map_of_mem mem)).trans (isCore_argument raw).same
    have whole := @sameParens_intercalate _ _ commas _
      (fun raw => written (argumentValue (trim raw))) each
    rw [List.intercalate_splitOn] at whole
    rw [List.map_map]
    exact whole.balanced balanced

end StructuredText
