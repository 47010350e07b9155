import StructuredText.Proofs.Expression.Parts
import StructuredText.Proofs.Source.Literal
import StructuredText.Proofs.Text.Signs
import StructuredText.Proofs.Validation.Imbalance
import StructuredText.Proofs.Validation.Marked

/- What the contents of a literal mean to the checks.  None of them knows of literals.  But most look
   at the beginning of a line alone; what is searched for in all of it are the signs of assignments,
   calls and conditions and the end of a construct, and as far as two contents agree on these, the
   same is found. -/
namespace StructuredText

section Slice
variable {mark : Char}

theorem slice_marked {left rest : Text} {start n : Nat} (before : start ≤ left.length)
    (behind : left.length < n) : ((left ++ mark :: rest).take n).drop start =
      left.drop start ++ mark :: rest.take (n - left.length - 1) := by
  obtain ⟨k, rfl⟩ := Nat.exists_eq_add_of_lt behind
  have size : left.length + k + 1 - left.length = k + 1 := by omega
  rw [List.take_append, List.take_of_length_le (by omega), size, List.take_succ_cons,
    List.drop_append_of_le_length before, Nat.add_sub_cancel]

theorem slice_before {left : Text} (rest : Text) {n : Nat} (within : n ≤ left.length) (start : Nat) :
    ((left ++ mark :: rest).take n).drop start = (left.take n).drop start := by
  rw [List.take_append_of_le_length within]

theorem slice_behind (left contents right : Text) {start : Nat} (n : Nat)
    (behind : left.length + contents.length + 2 ≤ start) :
    ((withLiteral left mark contents right).take n).drop start =
      (right.drop (start - (left.length + contents.length + 2))).take (n - start) := by
  have whole : withLiteral left mark contents right =
      (left ++ mark :: (contents ++ [mark])) ++ right := by simp [withLiteral]
  have size : (left ++ mark :: (contents ++ [mark])).length = left.length + contents.length + 2 := by
    simp
    omega
  have none : (left ++ mark :: (contents ++ [mark])).drop start = [] :=
    List.drop_eq_nil_of_le (by omega)
  rw [List.drop_take, whole, List.drop_append, none, size, List.nil_append]

end Slice

section Start
variable {mark : Char} (quote : IsQuote mark)
include quote

theorem isTarget_marked (left rest : Text) : isTarget (trim (left ++ mark :: rest)) = false := by
  have other : (isWord mark || mark = '[' || mark = ']' || mark = '.') = false := by
    rcases quote with rfl | rfl <;> decide
  rw [trim_marked _ _ quote, isTarget, List.all_append, List.all_cons, other, Bool.false_and,
    Bool.and_false, Bool.and_false]

theorem not_mem_inlineOpenings {opening closing : Text}
    (listed : (opening, closing) ∈ inlineOpenings) :
    mark ∉ opening ∧ mark ∉ closing ∧ closing ≠ [] := by
  have words : ∀ p ∈ inlineOpenings, p.1.all isWord = true ∧ p.2.all isWord = true ∧ p.2 ≠ [] := by
    decide
  obtain ⟨opens, closes, filled⟩ := words _ listed
  exact ⟨quote.not_mem (List.all_eq_true.mp opens), quote.not_mem (List.all_eq_true.mp closes),
    filled⟩

section Opening
variable {opening closing : Text} (listed : (opening, closing) ∈ inlineOpenings)
include listed

theorem behindOpening?_marked (left rest : Text) :
    behindOpening? opening closing (left ++ mark :: rest) =
      (behindOpening? opening closing left).or
        (if startsFoldedWord opening left then
          (behindWord? closing none rest).map (· + (left.length + 1))
        else none) := by
  obtain ⟨free, free', filled⟩ := not_mem_inlineOpenings quote listed
  rw [behindOpening?, behindOpening?, startsFoldedWord_marked left _ quote free]
  cases starts : startsFoldedWord opening left with
  | false => rfl
  | true =>
    have within := length_le_of_startsFolded left ((Bool.and_eq_true _ _).mp starts).1
    have place : opening.length + (left.drop opening.length).length = left.length := by
      rw [List.length_drop]
      omega
    rw [if_pos rfl, if_pos rfl, if_pos rfl, List.drop_append_of_le_length within,
      behindWord?_marked quote filled free']
    cases behindWord? closing opening.getLast? (left.drop opening.length) with
    | some n => rfl
    | none =>
      cases behindWord? closing none rest with
      | none => rfl
      | some m =>
        simp only [Option.map_some, Option.none_or, Option.map_none, Option.some.injEq]
        omega

theorem behindOpening?_withLiteral {left contents : Text} (right : Text)
    (silent : startsFoldedWord opening left = true → behindOpening? opening closing left = none →
      behindWord? closing none contents = none) :
    behindOpening? opening closing (withLiteral left mark contents right) =
      (behindOpening? opening closing left).or
        (if startsFoldedWord opening left then
          (behindWord? closing none right).map (· + (left.length + contents.length + 2))
        else none) := by
  obtain ⟨-, free, filled⟩ := not_mem_inlineOpenings quote listed
  rw [withLiteral, behindOpening?_marked quote listed, behindWord?_marked quote filled free]
  cases before : behindOpening? opening closing left with
  | some n => rfl
  | none =>
    cases starts : startsFoldedWord opening left with
    | false => rfl
    | true =>
      rw [silent starts before]
      cases behindWord? closing none right with
      | none => rfl
      | some m =>
        simp only [if_true, Option.map_some, Option.none_or, Option.some.injEq]
        omega

end Opening

omit quote in
theorem behindOpening?_le {opening closing t : Text} {n : Nat}
    (found : behindOpening? opening closing t = some n) : n ≤ t.length := by
  rw [behindOpening?] at found
  split at found
  · next starts =>
    obtain ⟨m, inner, rfl⟩ := Option.map_eq_some_iff.mp found
    have within := length_le_of_startsFolded t ((Bool.and_eq_true _ _).mp starts).1
    have fits := behindWord?_le inner
    rw [List.length_drop] at fits
    omega
  · contradiction

omit quote in
theorem behindElse?_le {t : Text} {n : Nat} (found : behindElse? t = some n) : n ≤ t.length := by
  rw [behindElse?] at found
  split at found
  · next here =>
    obtain rfl := Option.some.inj found
    have within : 4 ≤ t.length := length_le_of_startsFolded t ((Bool.and_eq_true _ _).mp here).1
    have blanks := leadingBlanks_add_length (t.drop 4)
    rw [List.length_drop] at blanks
    omega
  · contradiction

omit quote in
theorem behindLabel?_le {t : Text} {n : Nat} (found : behindLabel? t = some n) : n ≤ t.length := by
  rw [behindLabel?] at found
  split at found
  · split at found
    · contradiction
    · obtain rfl := Option.some.inj found
      exact Nat.sub_le ..
  · contradiction

variable {left contents contents' : Text} (right : Text)
  (length : contents.length = contents'.length)
  (silent : ∀ p ∈ inlineOpenings, startsFoldedWord p.1 left = true →
    behindOpening? p.1 p.2 left = none →
      behindWord? p.2 none contents = none ∧ behindWord? p.2 none contents' = none)
include length silent

/-- Where no contents end a condition, a statement begins at the same place, and not inside. -/
theorem behindControl?_withLiteral :
    behindControl? (withLiteral left mark contents right) =
        behindControl? (withLiteral left mark contents' right) ∧
      ∀ n, behindControl? (withLiteral left mark contents right) = some n →
        n ≤ left.length ∨ left.length + contents.length + 2 ≤ n := by
  have each (p : Text × Text) (listed : p ∈ inlineOpenings) :=
    behindOpening?_withLiteral quote listed right fun starts before =>
      (silent p listed starts before).1
  have each' (p : Text × Text) (listed : p ∈ inlineOpenings) :=
    behindOpening?_withLiteral quote listed right fun starts before =>
      (silent p listed starts before).2
  have otherwise (s : Text) : behindElse? (withLiteral left mark s right) = behindElse? left :=
    behindElse?_marked quote left _
  have search : inlineOpenings.findSome? (fun p =>
        behindOpening? p.1 p.2 (withLiteral left mark contents right)) =
      inlineOpenings.findSome? fun p =>
        behindOpening? p.1 p.2 (withLiteral left mark contents' right) := by
    rw [← List.head?_filterMap, ← List.head?_filterMap]
    congr 1
    apply List.filterMap_congr
    intro p listed
    rw [each p listed, each' p listed, length]
  refine ⟨by simp only [behindControl?, search, otherwise], ?_⟩
  intro n found
  rw [behindControl?] at found
  split at found
  · next m control =>
    obtain rfl := Option.some.inj found
    obtain ⟨p, listed, opening⟩ := List.exists_of_findSome?_eq_some control
    dsimp only at opening
    rw [each p listed, Option.or_eq_some_iff] at opening
    rcases opening with before | ⟨-, behind⟩
    · exact Or.inl (behindOpening?_le before)
    · split at behind
      · obtain ⟨k, -, rfl⟩ := Option.map_eq_some_iff.mp behind
        exact Or.inr (Nat.le_add_left ..)
      · contradiction
  · rw [otherwise] at found
    exact Or.inl (behindElse?_le found)

theorem statementStart_withLiteral (inCase : Bool) :
    statementStart inCase (withLiteral left mark contents right) =
        statementStart inCase (withLiteral left mark contents' right) ∧
      (statementStart inCase (withLiteral left mark contents right) ≤ left.length ∨
        left.length + contents.length + 2 ≤
          statementStart inCase (withLiteral left mark contents right)) := by
  obtain ⟨same, place⟩ := behindControl?_withLiteral quote right length silent
  have label (s : Text) : behindLabel? (withLiteral left mark s right) = behindLabel? left :=
    behindLabel?_marked quote left _
  rw [statementStart, statementStart, same, label, label]
  rw [same] at place
  cases control : behindControl? (withLiteral left mark contents' right) with
  | some n => exact ⟨rfl, place n control⟩
  | none =>
    refine ⟨rfl, Or.inl ?_⟩
    dsimp only
    split
    · cases found : behindLabel? left with
      | none => exact Nat.zero_le _
      | some n => exact behindLabel?_le found
    · exact Nat.zero_le _

end Start

theorem SameSigns.withLiteral {signs : List Text} {mark : Char}
    (free : ∀ sign ∈ signs, mark ∉ sign) {contents contents' : Text}
    (same : SameSigns signs contents contents') (left right : Text) :
    SameSigns signs (StructuredText.withLiteral left mark contents right)
      (StructuredText.withLiteral left mark contents' right) :=
  (SameSigns.refl signs left).append free (same.append free (.refl signs right))

section Checks
variable {mark : Char} (quote : IsQuote mark) {left contents contents' right : Text}
  {number indent : Nat}
include quote

theorem opened?_withLiteral (ends : ∀ c, opener? (left ++ [mark]) = some c →
      containsWord c.terminator contents = containsWord c.terminator contents') :
    opened? (withLiteral left mark contents right) =
      opened? (withLiteral left mark contents' right) := by
  have opener (s : Text) : opener? (withLiteral left mark s right) = opener? (left ++ [mark]) :=
    opener?_marked quote left _
  rw [opened?, opened?, opener, opener]
  cases found : opener? (left ++ [mark]) with
  | none => rfl
  | some c =>
    have free := quote.not_mem_terminator c
    have filled : c.terminator ≠ [] := by simp [Construct.terminator]
    have contains (s : Text) : containsWord c.terminator (withLiteral left mark s right) =
        (containsWord c.terminator left ||
          (containsWord c.terminator s || containsWord c.terminator right)) := by
      rw [withLiteral, containsWord_marked filled free quote, containsWord_marked filled free quote]
    simp only [Option.filter_some, contains, ends c found]

theorem checkNesting_withLiteral (ends : ∀ c, opener? (left ++ [mark]) = some c →
      containsWord c.terminator contents = containsWord c.terminator contents')
    (stack : List OpenConstruct) :
    checkNesting ⟨number, withLiteral left mark contents right, indent⟩ stack =
      checkNesting ⟨number, withLiteral left mark contents' right, indent⟩ stack := by
  have closed (s : Text) : closed? (withLiteral left mark s right) = closed? left :=
    closed?_marked quote left _
  simp only [checkNesting, opened?_withLiteral quote ends, closed]

theorem checkSemicolon_withLiteral (length : contents.length = contents'.length)
    (assigns : containsText ":=".toList (withLiteral left mark contents right) =
      containsText ":=".toList (withLiteral left mark contents' right)) :
    checkSemicolon ⟨number, withLiteral left mark contents right, indent⟩ =
      checkSemicolon ⟨number, withLiteral left mark contents' right, indent⟩ := by
  have exempt (s : Text) : isExempt (withLiteral left mark s right) = isExempt left :=
    isExempt_marked quote left _
  have call (s : Text) : callHead? (withLiteral left mark s right) = callHead? left :=
    callHead?_marked quote left _
  have jump (s : Text) : isJump (withLiteral left mark s right) = isJump left :=
    isJump_marked quote left _
  have last (s : Text) :
      (withLiteral left mark s right).getLast? = (mark :: right).getLast? := by
    rw [withLiteral, ← List.cons_append, ← List.append_assoc,
      List.getLast?_append_of_ne_nil _ (List.cons_ne_nil mark right)]
  have size : (withLiteral left mark contents right).length =
      (withLiteral left mark contents' right).length := by simp [withLiteral, length]
  simp only [checkSemicolon, needsSemicolon, exempt, call, jump, last, assigns, size]
  rfl

theorem checkDeclaration_withLiteral (extra : List Text) :
    checkDeclaration extra ⟨number, withLiteral left mark contents right, indent⟩ =
      checkDeclaration extra ⟨number, withLiteral left mark contents' right, indent⟩ := by
  have declared (s : Text) : declaration? (withLiteral left mark s right) =
      (declaration? left).map fun d => { d with rest := d.rest ++ mark :: (s ++ mark :: right) } :=
    declaration?_marked quote left _
  simp only [checkDeclaration, declared]
  cases declaration? left <;> rfl

variable (right) in
theorem isTarget_withLiteral (length : contents.length = contents'.length) {start : Nat}
    (place : start ≤ left.length ∨ left.length + contents.length + 2 ≤ start) (n : Nat) :
    isTarget (trim (((withLiteral left mark contents right).take n).drop start)) =
      isTarget (trim (((withLiteral left mark contents' right).take n).drop start)) := by
  rcases place with before | behind
  · rcases Nat.lt_or_ge left.length n with across | within
    · rw [withLiteral, withLiteral, slice_marked before across, slice_marked before across,
        isTarget_marked quote, isTarget_marked quote]
    · rw [withLiteral, withLiteral, slice_before _ within, slice_before _ within]
  · rw [slice_behind _ _ _ _ behind, slice_behind _ _ _ _ (length ▸ behind), length]

theorem checkAssignment_withLiteral (inCase : Bool)
    (signs : SameSigns (":=".toList :: parenSigns) contents contents')
    (silent : ∀ p ∈ inlineOpenings, startsFoldedWord p.1 left = true →
      behindOpening? p.1 p.2 left = none →
        behindWord? p.2 none contents = none ∧ behindWord? p.2 none contents' = none) :
    checkAssignment inCase ⟨number, withLiteral left mark contents right, indent⟩ =
      checkAssignment inCase ⟨number, withLiteral left mark contents' right, indent⟩ := by
  have free : ∀ sign ∈ ":=".toList :: parenSigns, mark ∉ sign := fun sign mem =>
    quote.not_mem_listed (of_all_words (by decide)) mem
  have loop : mark ∉ "FOR".toList := quote.not_mem (of_all (by decide))
  have same := signs.withLiteral free left right
  have parens : SameSigns parenSigns (withLiteral left mark contents right)
      (withLiteral left mark contents' right) := same.mono (List.subset_cons_self _ _)
  have loops (s : Text) : startsFoldedWord "FOR".toList (withLiteral left mark s right) =
      startsFoldedWord "FOR".toList left := startsFoldedWord_marked left _ quote loop
  obtain ⟨start, place⟩ := statementStart_withLiteral quote right signs.length_eq silent inCase
  have target := isTarget_withLiteral quote right signs.length_eq place
  have behind (n : Nat) := hasEqualParens_eq (parens.drop n)
  simp only [checkAssignment, loops, ← start, findTopLevel?_eq same, target, behind]
  rfl

end Checks

theorem IsQuote.not_mem_parameterSigns {mark : Char} (quote : IsQuote mark) :
    ∀ sign ∈ [','] :: parenSigns, mark ∉ sign :=
  fun _ mem => quote.not_mem_listed (of_all_words (by decide)) mem

/-- What is seen of a parameter: where it begins, whether it is in order, and its blanks. -/
def seenOf (part : Nat × Text) : Nat × Bool × Nat :=
  (part.1, (trim part.2).isEmpty || isNamedParameter (trim part.2), leadingBlanks part.2)

theorem checkParameters_eq_seenOf (line : Line) (start : Nat) (parameters : Text) :
    checkParameters line start parameters =
      (((splitTopLevel [','] parameters).map seenOf).zipIdx 1).filterMap
        fun ((offset, fine, blanks), number) =>
          if fine then none else some (line.finding (start + offset + blanks) (.positional number)) := by
  rw [checkParameters, List.zipIdx_map, List.filterMap_map]
  rfl

section Parameters
variable {mark : Char} (quote : IsQuote mark)
include quote

theorem isNamedParameter_marked (left rest : Text) :
    isNamedParameter (left ++ mark :: rest) =
      (!(left.takeWhile isWord).isEmpty &&
        (":=".toList.isPrefixOf (trimLeft (left.dropWhile isWord)) ||
          "=>".toList.isPrefixOf (trimLeft (left.dropWhile isWord)))) := by
  have free : ∀ sign ∈ [":=".toList, "=>".toList], mark ∉ sign := fun sign mem =>
    quote.not_mem_listed (of_all_words (by decide)) mem
  have assigns := free ":=".toList (by decide)
  have returns := free "=>".toList (by decide)
  simp only [isNamedParameter, takeWhile_marked _ _ quote.isWord, dropWhile_marked _ _ quote.isWord,
    trimLeft_marked _ _ quote, isPrefixOf_append assigns, isPrefixOf_append returns]
  generalize trimLeft (left.dropWhile isWord) = behind
  cases sign : ":=".toList.isPrefixOf behind || "=>".toList.isPrefixOf behind with
  | false => rw [Bool.and_false, Bool.and_false]
  | true =>
    have two : 2 ≤ behind.length := by
      rcases (Bool.or_eq_true _ _).mp sign with assigned | returned
      · exact (List.isPrefixOf_iff_prefix.mp assigned).length_le
      · exact (List.isPrefixOf_iff_prefix.mp returned).length_le
    have long : 2 < (behind ++ mark :: rest).length := by
      rw [List.length_append, List.length_cons]
      omega
    rw [decide_eq_true long, Bool.and_true]

theorem seenOf_marked (start : Nat) (left rest rest' : Text) :
    seenOf (start, left ++ mark :: rest) = seenOf (start, left ++ mark :: rest') := by
  have filled (s : Text) : (trimLeft left ++ mark :: s).isEmpty = false := by simp
  simp only [seenOf, trim_marked _ _ quote, leadingBlanks_marked _ _ quote,
    isNamedParameter_marked quote, filled]

omit quote in
theorem splitTopLevelWithin_cut {first rest : Text}
    (found : topLevelFrom [','] 0 (first ++ ',' :: rest) = some first.length) (cuts start : Nat) :
    splitTopLevelWithin [','] (cuts + 1) start (first ++ ',' :: rest) =
      (start, first) :: splitTopLevelWithin [','] cuts (start + first.length + 1) rest := by
  have behind : (first ++ ',' :: rest).drop (first.length + 1) = rest := by
    rw [← List.drop_drop, List.drop_left]
    rfl
  rw [splitTopLevelWithin, found]
  simp only [List.take_left, List.length_singleton, behind]

omit quote in
theorem exists_cut {t : Text} {n : Nat} (found : topLevelFrom [','] 0 t = some n) :
    ∃ first rest, t = first ++ ',' :: rest ∧ first.length = n := by
  have whole := append_of_topLevelFrom found
  rw [List.append_assoc] at whole
  exact ⟨_, _, whole.symm, List.length_take_of_le (Nat.le_of_lt (topLevelFrom_lt found))⟩

theorem cut_cases {first rest left contents right : Text} (free : ',' ∉ contents)
    (same : first ++ ',' :: rest = left ++ mark :: (contents ++ right)) :
    (∃ between, left = first ++ ',' :: between ∧ rest = between ++ mark :: (contents ++ right)) ∨
      ∃ between, first = left ++ mark :: (contents ++ between) ∧ right = between ++ ',' :: rest := by
  have other : mark ≠ ',' := quote.ne (by decide)
  rcases List.append_eq_append_iff.mp same with ⟨between, before, behind⟩ | ⟨between, before, behind⟩
  · left
    cases between with
    | nil => exact absurd (List.cons.inj behind).1 (Ne.symm other)
    | cons c between =>
      obtain ⟨rfl, rest_⟩ := List.cons.inj behind
      exact ⟨between, before, rest_⟩
  · right
    cases between with
    | nil => exact absurd (List.cons.inj behind).1 other
    | cons c between =>
      obtain ⟨rfl, inner⟩ := List.cons.inj behind
      rcases List.append_eq_append_iff.mp inner with ⟨more, across, right_⟩ | ⟨more, inside, rest_⟩
      · exact ⟨more, by rw [before, across], right_⟩
      · cases more with
        | nil => exact ⟨[], by rw [before, inside, List.append_nil, List.append_nil], rest_.symm⟩
        | cons d more =>
          obtain ⟨rfl, -⟩ := List.cons.inj rest_
          exact absurd (inside ▸ List.mem_append_right _ List.mem_cons_self) free

theorem map_seenOf_splitTopLevelWithin {contents contents' : Text}
    (length : contents.length = contents'.length) (free : ',' ∉ contents) {right : Text}
    (same : SameSigns ([','] :: parenSigns) (contents ++ right) (contents' ++ right))
    (cuts start : Nat) (left : Text) :
    (splitTopLevelWithin [','] cuts start (left ++ mark :: (contents ++ right))).map seenOf =
      (splitTopLevelWithin [','] cuts start (left ++ mark :: (contents' ++ right))).map seenOf := by
  have apart := quote.not_mem_parameterSigns
  induction cuts generalizing start left with
  | zero =>
    rw [splitTopLevelWithin, splitTopLevelWithin, List.map_singleton, List.map_singleton,
      seenOf_marked quote]
  | succ cuts ih =>
    have search := topLevelFrom_eq ((SameSigns.refl _ left).append apart same) 0
    cases found : topLevelFrom [','] 0 (left ++ mark :: (contents ++ right)) with
    | none =>
      rw [found] at search
      rw [splitTopLevelWithin, splitTopLevelWithin, found, ← search]
      simp only [List.map_singleton, seenOf_marked quote start left (contents ++ right)
        (contents' ++ right)]
    | some n =>
      rw [found] at search
      obtain ⟨first, rest, whole, rfl⟩ := exists_cut found
      rcases cut_cases quote free whole.symm with ⟨between, rfl, rfl⟩ | ⟨between, rfl, rfl⟩
      · have whole' : (first ++ ',' :: between) ++ mark :: (contents' ++ right) =
            first ++ ',' :: (between ++ mark :: (contents' ++ right)) := by simp
        rw [whole] at found
        rw [whole'] at search
        rw [whole, whole', splitTopLevelWithin_cut found, splitTopLevelWithin_cut search.symm,
          List.map_cons, List.map_cons, ih]
      · have whole' : left ++ mark :: (contents' ++ (between ++ ',' :: rest)) =
            (left ++ mark :: (contents' ++ between)) ++ ',' :: rest := by simp
        have size : (left ++ mark :: (contents ++ between)).length =
            (left ++ mark :: (contents' ++ between)).length := by simp [length]
        rw [whole] at found
        rw [whole', size] at search
        rw [whole, whole', splitTopLevelWithin_cut found, splitTopLevelWithin_cut search.symm,
          List.map_cons, List.map_cons, size, seenOf_marked quote]

end Parameters

section Call
variable {mark : Char} (quote : IsQuote mark) {left contents contents' right : Text}
  {number indent : Nat}

theorem checkCall_eq_nil {line : Line} (other : beginsCall line.text = false) :
    checkCall line = [] := by
  rw [beginsCall] at other
  rw [checkCall]
  cases head : callHead? line.text with
  | none => rfl
  | some cut =>
    obtain ⟨name, opening⟩ := cut
    rw [head] at other
    have reserved : isReserved name = true := by simpa using other
    exact if_pos reserved

include quote

variable (right) in
theorem checkParameters_withLiteral (length : contents.length = contents'.length)
    (free : ',' ∉ contents) (free' : ',' ∉ contents')
    (parens : SameSigns parenSigns contents contents') {start : Nat} (within : start ≤ left.length)
    (closing : Nat) (line : Line) :
    let parameters := ((withLiteral left mark contents right).take closing).drop start
    let parameters' := ((withLiteral left mark contents' right).take closing).drop start
    (trim parameters).isEmpty = (trim parameters').isEmpty ∧
      checkParameters line start parameters = checkParameters line start parameters' := by
  intro parameters parameters'
  rcases Nat.lt_or_ge left.length closing with across | before
  · -- the slice may end inside the literal
    have apart := quote.not_mem_parameterSigns
    obtain ⟨size, sizeEq⟩ : ∃ size, closing - left.length - 1 = size := ⟨_, rfl⟩
    have slice (s : Text) : ((withLiteral left mark s right).take closing).drop start =
        left.drop start ++
          mark :: (s.take size ++ (mark :: right).take (size - s.length)) := by
      rw [withLiteral, slice_marked within across, sizeEq, List.take_append]
    have filled (s : Text) : (trim (left.drop start ++ mark :: s)).isEmpty = false := by
      rw [trim_marked _ _ quote]
      simp
    have same : SameSigns ([','] :: parenSigns)
        (contents.take size ++ (mark :: right).take (size - contents.length))
        (contents'.take size ++ (mark :: right).take (size - contents.length)) := by
      have whole := (parens.withFree free free').append apart (SameSigns.refl _ right)
      have part := whole.take size
      rwa [List.take_append, List.take_append, ← length] at part
    have commas : ',' ∉ contents.take size := fun mem => free (List.mem_of_mem_take mem)
    have shortened : (contents.take size).length = (contents'.take size).length := by
      rw [List.length_take, List.length_take, length]
    simp only [parameters, parameters', slice, ← length, filled, checkParameters_eq_seenOf,
      splitTopLevel, true_and]
    have cuts : (left.drop start ++
        mark :: (contents.take size ++ (mark :: right).take (size - contents.length))).length =
      (left.drop start ++
        mark :: (contents'.take size ++ (mark :: right).take (size - contents.length))).length := by
      simp [length]
    rw [cuts, map_seenOf_splitTopLevelWithin quote shortened commas same]
  · have slice (s : Text) : ((withLiteral left mark s right).take closing).drop start =
        (left.take closing).drop start := slice_before _ before start
    simp only [parameters, parameters', slice, true_and]

theorem checkCall_withLiteral (length : contents.length = contents'.length)
    (free : ',' ∉ contents) (free' : ',' ∉ contents')
    (parens : SameSigns parenSigns contents contents') :
    checkCall ⟨number, withLiteral left mark contents right, indent⟩ =
      checkCall ⟨number, withLiteral left mark contents' right, indent⟩ := by
  have apart : ∀ sign ∈ parenSigns, mark ∉ sign := fun sign mem =>
    quote.not_mem_parameterSigns sign (List.mem_cons_of_mem _ mem)
  have same := parens.withLiteral apart left right
  have head (s : Text) : callHead? (withLiteral left mark s right) = callHead? left :=
    callHead?_marked quote left _
  simp only [checkCall, head, hasEqualParens_eq same, matchingParen?_eq same]
  cases found : callHead? left with
  | none => rfl
  | some cut =>
    obtain ⟨name, opening⟩ := cut
    have within : opening + 1 ≤ left.length := callHead?_lt found
    dsimp only
    cases matchingParen? (withLiteral left mark contents' right) opening with
    | none => rfl
    | some closing =>
      obtain ⟨empty, seen⟩ := checkParameters_withLiteral quote right length free free' parens
        within closing ⟨number, withLiteral left mark contents right, indent⟩
      simp only [empty, seen]
      rfl

end Call

end StructuredText
