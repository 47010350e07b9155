import StructuredText.Proofs.Pou.StatementLine
import StructuredText.Proofs.Validation.Contents
import StructuredText.Proofs.Validation.Imbalance

/- The parameters of a call that have no name.  On a line that is a call and nothing else each of them
   is found at its place, whatever calls and signs stand inside the parameters, and nothing else is
   found; the lines around it make no difference. -/
namespace StructuredText

def IsNamed (t : Text) : Prop :=
  ∃ word blanks sign value, t = word ++ blanks ++ sign ++ value ∧ word ≠ [] ∧
    (∀ c ∈ word, isWord c = true) ∧ (∀ c ∈ blanks, isBlank c = true) ∧
    (sign = ":=".toList ∨ sign = "=>".toList) ∧ value ≠ []

theorem isNamedParameter_iff (t : Text) : isNamedParameter t = true ↔ IsNamed t := by
  constructor
  · intro named
    simp only [isNamedParameter, Bool.and_eq_true, Bool.not_eq_true', decide_eq_true_eq,
      Bool.or_eq_true, List.isEmpty_eq_false_iff, List.isPrefixOf_iff_prefix] at named
    obtain ⟨⟨filled, long⟩, signed⟩ := named
    have split {sign : Text} (size : sign.length = 2)
        (start : sign <+: trimLeft (t.dropWhile isWord)) :
        ∃ value, t = t.takeWhile isWord ++ (t.dropWhile isWord).takeWhile isBlank ++ sign ++ value ∧
          value ≠ [] := by
      obtain ⟨value, rest⟩ := start
      refine ⟨value, ?_, ?_⟩
      · rw [List.append_assoc _ sign, rest]
        exact eq_words_append t
      · rintro rfl
        rw [← rest, List.append_nil, size] at long
        exact absurd long (Nat.lt_irrefl 2)
    have words : ∀ c ∈ t.takeWhile isWord, isWord c = true := fun c mem =>
      List.mem_takeWhile_imp mem
    have blanks : ∀ c ∈ (t.dropWhile isWord).takeWhile isBlank, isBlank c = true := fun c mem =>
      List.mem_takeWhile_imp mem
    rcases signed with start | start
    · obtain ⟨value, whole, more⟩ := split rfl start
      exact ⟨_, _, _, value, whole, filled, words, blanks, Or.inl rfl, more⟩
    · obtain ⟨value, whole, more⟩ := split rfl start
      exact ⟨_, _, _, value, whole, filled, words, blanks, Or.inr rfl, more⟩
  · rintro ⟨word, blanks, sign, value, rfl, filled, words, blank, signed, more⟩
    obtain ⟨d, s, same, sole⟩ : ∃ d s, sign = [d, s] ∧ isBlank d = false ∧ isWord d = false := by
      rcases signed with rfl | rfl
      · exact ⟨':', '=', rfl, by decide⟩
      · exact ⟨'=', '>', rfl, by decide⟩
    have ends : atWordEnd (blanks ++ sign ++ value) = true := by
      cases blanks with
      | nil => simp [same, atWordEnd, sole.2]
      | cons c blanks => simp [atWordEnd, isWord_of_isBlank (blank c List.mem_cons_self)]
    have behind : trimLeft (blanks ++ sign ++ value) = sign ++ value := by
      rw [trimLeft, List.append_assoc, List.dropWhile_append_of_pos blank, same]
      exact List.dropWhile_cons_of_neg (by simp [sole.1])
    have long : 2 < (sign ++ value).length := by
      have := List.length_pos_iff.mpr more
      rw [same, List.length_append]
      exact Nat.lt_add_of_pos_right this
    have start : ":=".toList <+: sign ++ value ∨ "=>".toList <+: sign ++ value := by
      rcases signed with rfl | rfl
      · exact Or.inl (List.prefix_append _ _)
      · exact Or.inr (List.prefix_append _ _)
    have shape : word ++ blanks ++ sign ++ value = word ++ (blanks ++ sign ++ value) := by simp
    rw [shape]
    simp only [isNamedParameter, takeWhile_word words ends, List.dropWhile_append_of_pos words,
      dropWhile_isWord ends, behind, Bool.and_eq_true, Bool.not_eq_true', decide_eq_true_eq,
      Bool.or_eq_true, List.isEmpty_eq_false_iff, List.isPrefixOf_iff_prefix]
    exact ⟨⟨filled, long⟩, start⟩

instance (t : Text) : Decidable (IsNamed t) := decidable_of_iff _ (isNamedParameter_iff t)

/-- A line that is a call: how far it is indented, the name, and what stands between the commas,
    the blanks there included. -/
structure CallLine where
  indent : Text
  name : Text
  parameters : List Text

namespace CallLine

def inner (c : CallLine) : Text := [','].intercalate c.parameters

def body (c : CallLine) : Text := c.name ++ parenthesized c.inner ++ [';']

def text (c : CallLine) : Text := c.indent ++ c.body

theorem body_eq (c : CallLine) : c.body = c.name ++ '(' :: (c.inner ++ ");".toList) := by
  simp [body, parenthesized]

def before (c : CallLine) (i : Nat) : Text :=
  c.indent ++ c.name ++ '(' :: (c.parameters.take i).flatMap (· ++ [','])

def findings (c : CallLine) (number : Nat) : List Finding :=
  c.parameters.zipIdx.filterMap fun (p, i) =>
    if IsNamed (trim p) then none
    else some ⟨number, (c.before i).length + leadingBlanks p + 1, .positional (i + 1)⟩

end CallLine

structure IsPlainParameter (p : Text) : Prop where
  filled : trim p ≠ []
  free : IsCommentFree p
  balanced : Balanced p
  undivided : ¬ StandsOutside [','] p

/-- The name stands for no operator or keyword, and the first parameter makes no comment of the
    parenthesis before it.  The search for a condition takes some letters beyond ASCII for capitals;
    where it finds one on the line all the same, no assignment follows. -/
structure CallLine.IsPlain (c : CallLine) : Prop where
  indented : ∀ d ∈ c.indent, isBlank d = true ∧ d ≠ '\n'
  named : c.name ≠ []
  letters : ∀ d ∈ c.name, isWord d = true
  unreserved : isReserved c.name = false
  noCondition : ∀ p ∈ inlineOpenings, ∀ n ∈ behindOpening? p.1 p.2 c.body,
    findTopLevel? ":=".toList c.body n = none
  called : c.parameters ≠ []
  each : ∀ p ∈ c.parameters, IsPlainParameter p
  noComment : ∀ p ∈ c.parameters.head?, p.head? ≠ some '*'

theorem undivided_iff {t : Text} : ¬ StandsOutside [','] t ↔ topLevelFrom [','] 0 t = none := by
  rw [standsOutside_iff (by decide), Option.not_isSome_iff_eq_none]

instance (t : Text) : Decidable (IsCommentFree t) :=
  decidable_of_iff ('\n' ∉ t ∧ (t.all fun c => decide (c ≠ '\'' ∧ c ≠ '"')) = true ∧
      ¬ "//".toList <:+: t ∧ ¬ "(*".toList <:+: t)
    ⟨fun ⟨oneLine, unquoted, line, block⟩ => ⟨oneLine, of_all unquoted, line, block⟩,
      fun free => ⟨free.oneLine, by simpa using free.unquoted, free.noLineComment,
        free.noBlockComment⟩⟩

instance (p : Text) : Decidable (IsPlainParameter p) :=
  decidable_of_iff (trim p ≠ [] ∧ IsCommentFree p ∧ Balanced p ∧ topLevelFrom [','] 0 p = none)
    ⟨fun ⟨filled, free, balanced, undivided⟩ =>
        ⟨filled, free, balanced, undivided_iff.mpr undivided⟩,
      fun plain => ⟨plain.filled, plain.free, plain.balanced, undivided_iff.mp plain.undivided⟩⟩

section Undotted

theorem toNat_lt_of_toUpper {c : Char} (ascii : c.toUpper.toNat < 128) : c.toNat < 128 := by
  by_contra far
  have same : c.toUpper = c := dif_neg fun small =>
    far (Nat.lt_of_le_of_lt (UInt32.le_iff_toNat_le.mp small.2) (by decide))
  rw [same] at ascii
  exact far ascii

/-- Of the letters that count as an ASCII letter, the dotted capital and the kelvin sign alone have
    another capital. -/
theorem capitals_eq_fold {c : Char} (undotted : c ≠ 'İ') (ascii : (fold c).toNat < 128)
    (noKelvin : fold c ≠ 'K') : capitals c = [fold c] := by
  unfold fold at ascii noKelvin ⊢
  split
  · next long =>
    obtain rfl : c = 'ſ' := Char.toNat_inj.mp long
    decide
  · next dotted => exact absurd (Char.toNat_inj.mp dotted) undotted
  · next dotless =>
    obtain rfl : c = 'ı' := Char.toNat_inj.mp dotless
    decide
  · next kelvin => simp [kelvin] at noKelvin
  · have upper : c.toUpper.toNat < 128 := by
      split at ascii <;> first | contradiction | exact ascii
    rw [capitals, if_pos (toNat_lt_of_toUpper upper)]

theorem upper_eq_map_fold {t : Text} (undotted : 'İ' ∉ t)
    (plain : ∀ c ∈ t.map fold, c.toNat < 128 ∧ c ≠ 'K') : upper t = t.map fold := by
  rw [upper, List.map_eq_flatMap]
  refine List.flatMap_congr fun c mem => ?_
  obtain ⟨ascii, noKelvin⟩ := plain (fold c) (List.mem_map_of_mem mem)
  refine capitals_eq_fold ?_ ascii noKelvin
  rintro rfl
  exact undotted mem

variable {c : CallLine} (letters : ∀ d ∈ c.name, isWord d = true)
  (unreserved : isReserved c.name = false) (undotted : 'İ' ∉ c.name)
include letters unreserved undotted

theorem CallLine.behindOpening?_body :
    ∀ p ∈ inlineOpenings, behindOpening? p.1 p.2 c.body = none := by
  have keyword : ∀ p ∈ inlineOpenings, p.1 ∈ keywords := by decide
  have word : ∀ w ∈ inlineOpenings.map Prod.fst, ∀ d ∈ w, isWord d = true := of_all_words rfl
  have plain : ∀ w ∈ inlineOpenings.map Prod.fst, ∀ d ∈ w, d.toNat < 128 ∧ d ≠ 'K' :=
    of_all_words rfl
  intro p listed
  have opening : p.1 ∈ inlineOpenings.map Prod.fst := List.mem_map_of_mem listed
  rw [behindOpening?, if_neg]
  intro starts
  rw [body_eq] at starts
  have same := eq_of_startsFoldedWord (word _ opening) letters (by decide) starts
  have reserved : isReserved c.name = true := by
    rw [isReserved, upper_eq_map_fold undotted (same ▸ plain _ opening), same,
      List.contains_iff_mem.mpr (keyword p listed), Bool.true_or]
  exact Bool.false_ne_true (unreserved.symm.trans reserved)

/-- Without a dotted capital in the name no condition is found. -/
theorem CallLine.IsPlain.of_undotted (indented : ∀ d ∈ c.indent, isBlank d = true ∧ d ≠ '\n')
    (named : c.name ≠ []) (called : c.parameters ≠ [])
    (each : ∀ p ∈ c.parameters, IsPlainParameter p)
    (noComment : ∀ p ∈ c.parameters.head?, p.head? ≠ some '*') : c.IsPlain where
  indented := indented
  named := named
  letters := letters
  unreserved := unreserved
  noCondition := by
    intro p listed n found
    rw [CallLine.behindOpening?_body letters unreserved undotted p listed] at found
    contradiction
  called := called
  each := each
  noComment := noComment

end Undotted

section Split

theorem topLevelFrom_undivided {t : Text} (balanced : Balanced t)
    (undivided : topLevelFrom [','] 0 t = none) (rest : Text) :
    topLevelFrom [','] 0 (t ++ rest) = (topLevelFrom [','] 0 rest).map (· + t.length) := by
  induction balanced with
  | nil => simp
  | @char c t opens closes _ ih =>
    have pass : ¬ ((0 : Int) = 0 ∧ [','].isPrefixOf (c :: t) = true) := by
      intro here
      rw [topLevelFrom, if_neg opens, if_neg closes, if_pos here] at undivided
      contradiction
    have pass' : ¬ ((0 : Int) = 0 ∧ [','].isPrefixOf (c :: (t ++ rest)) = true) := by
      simpa using pass
    rw [topLevelFrom_pass _ _ opens closes pass, Option.map_eq_none_iff] at undivided
    rw [List.cons_append, topLevelFrom_pass _ _ opens closes pass', ih undivided, map_add_add]
    rfl
  | @group g t inner _ _ ih =>
    rw [topLevelFrom_group inner, Option.map_eq_none_iff] at undivided
    rw [List.append_assoc, topLevelFrom_group inner, ih undivided, map_add_add, List.length_append,
      Nat.add_comm]

def placed (start : Nat) : List Text → List (Nat × Text)
  | [] => []
  | p :: rest => (start, p) :: placed (start + p.length + 1) rest

theorem splitTopLevelWithin_parameters {first : Text} {rest : List Text}
    (each : ∀ p ∈ first :: rest, IsPlainParameter p) {cuts : Nat} (enough : rest.length ≤ cuts)
    (start : Nat) :
    splitTopLevelWithin [','] cuts start (first ++ rest.flatMap ([','] ++ ·)) =
      placed start (first :: rest) := by
  obtain ⟨here, later⟩ := List.forall_mem_cons.mp each
  have search := topLevelFrom_undivided here.balanced (undivided_iff.mp here.undivided)
  induction rest generalizing first cuts start with
  | nil =>
    have uncut := search []
    rw [List.flatMap_nil]
    rw [List.append_nil] at uncut ⊢
    cases cuts with
    | zero => rfl
    | succ cuts =>
      rw [splitTopLevelWithin, uncut]
      rfl
  | cons p rest ih =>
    obtain ⟨cuts, rfl⟩ : ∃ n, cuts = n + 1 := ⟨cuts - 1, by simp at enough; omega⟩
    obtain ⟨next, others⟩ := List.forall_mem_cons.mp later
    have found : topLevelFrom [','] 0 (first ++ ',' :: (p ++ rest.flatMap ([','] ++ ·))) =
        some first.length := by
      rw [search]
      simp [topLevelFrom]
    rw [List.flatMap_cons, List.append_assoc, List.singleton_append, splitTopLevelWithin_cut found,
      ih later (Nat.le_of_succ_le_succ enough) _ next others
        (topLevelFrom_undivided next.balanced (undivided_iff.mp next.undivided))]
    rfl

theorem mem_placed {start : Nat} {parameters : List Text} {part : Nat × Text}
    (mem : part ∈ placed start parameters) : part.2 ∈ parameters := by
  induction parameters generalizing start with
  | nil => contradiction
  | cons p rest ih =>
    rcases List.mem_cons.mp mem with rfl | later
    · exact List.mem_cons_self
    · exact List.mem_cons_of_mem p (ih later)

theorem length_le_flatMap_comma (parts : List Text) :
    parts.length ≤ (parts.flatMap ([','] ++ ·)).length := by
  induction parts with
  | nil => exact Nat.le_refl 0
  | cons p rest ih =>
    rw [List.flatMap_cons, List.length_append, List.length_cons, List.length_append,
      List.length_singleton]
    omega

theorem filterMap_placed (line : Line) (base : Nat) (front parameters : List Text) :
    ((placed (front.flatMap (· ++ [','])).length parameters).zipIdx (front.length + 1)).filterMap
        (fun ((offset, p), number) =>
          if IsNamed (trim p) then none
          else some (line.finding (base + offset + leadingBlanks p) (.positional number))) =
      (parameters.zipIdx front.length).filterMap fun (p, i) =>
        if IsNamed (trim p) then none
        else some (line.finding (base + (((front ++ parameters).take i).flatMap
          (· ++ [','])).length + leadingBlanks p) (.positional (i + 1))) := by
  induction parameters generalizing front with
  | nil => rfl
  | cons p rest ih =>
    have later := ih (front ++ [p])
    have place : (front.flatMap (· ++ [','])).length + p.length + 1 =
        ((front ++ [p]).flatMap (· ++ [','])).length := by
      simp [Nat.add_assoc]
    have size : front.length + 1 = (front ++ [p]).length := by simp
    rw [placed, List.zipIdx_cons, List.filterMap_cons, List.zipIdx_cons, List.filterMap_cons, place,
      size, later, List.append_assoc, List.singleton_append]
    simp only [List.take_left, ← size]

end Split

theorem CallLine.checkSemicolon_body (c : CallLine) {line : Line} (text : line.text = c.body) :
    checkSemicolon line = [] :=
  checkSemicolon_eq_nil (Or.inr (by rw [text, body, List.getLast?_concat]))

namespace CallLine.IsPlain
variable {c : CallLine} (plain : c.IsPlain)
include plain

theorem exists_parameters : ∃ first rest, c.parameters = first :: rest ∧
    c.inner = first ++ rest.flatMap ([','] ++ ·) ∧ IsPlainParameter first ∧
      (∀ p ∈ rest, IsPlainParameter p) ∧ first.head? ≠ some '*' := by
  obtain ⟨first, rest, same⟩ := List.exists_cons_of_ne_nil plain.called
  obtain ⟨here, later⟩ := List.forall_mem_cons.mp (same ▸ plain.each)
  refine ⟨first, rest, same, ?_, here, later, plain.noComment first ?_⟩
  · rw [inner, same, intercalate_cons]
  · rw [same]
    rfl

theorem balanced_inner : Balanced c.inner := by
  obtain ⟨first, rest, -, inner, here, later, -⟩ := plain.exists_parameters
  rw [inner]
  refine here.balanced.append ?_
  clear inner here
  induction rest with
  | nil => exact .nil
  | cons p rest ih =>
    obtain ⟨here, later⟩ := List.forall_mem_cons.mp later
    rw [List.flatMap_cons]
    exact (Balanced.char (by decide) (by decide) here.balanced).append (ih later)

theorem filled_inner : (trim c.inner).isEmpty = false := by
  obtain ⟨first, rest, -, inner, here, -, -⟩ := plain.exists_parameters
  rw [List.isEmpty_eq_false_iff]
  intro empty
  have blank := blank_of_trim empty
  rw [inner] at blank
  exact here.filled (trim_of_blank fun d mem => blank d (List.mem_append_left _ mem))

theorem isCommentFree_inner : IsCommentFree c.inner := by
  obtain ⟨first, rest, -, inner, here, later, -⟩ := plain.exists_parameters
  rw [inner]
  clear inner
  induction rest generalizing first with
  | nil =>
    rw [List.flatMap_nil, List.append_nil]
    exact here.free
  | cons p rest ih =>
    obtain ⟨next, others⟩ := List.forall_mem_cons.mp later
    have comma : IsCommentFree [','] := isCommentFree_of_chars (of_all (by decide))
    rw [List.flatMap_cons, List.append_assoc]
    refine here.free.append (comma.append (ih p next others) ?_ ?_) (by simp) (by simp)
    · exact fun last => absurd last (by decide)
    · exact fun last => absurd last (by decide)

theorem isCommentFree_text : IsCommentFree c.text := by
  obtain ⟨first, rest, -, inner, here, -, noComment⟩ := plain.exists_parameters
  have front : IsCommentFree (c.indent ++ c.name ++ ['(']) := by
    have signs : ∀ d ∈ "\n'\"/*".toList, isWord d = false ∧ (d = '\n' ∨ isBlank d = false) :=
      of_all (by decide)
    refine isCommentFree_of_chars (List.forall_mem_append.mpr
      ⟨List.forall_mem_append.mpr ⟨fun d mem sign => ?_, fun d mem sign => ?_⟩,
        of_all (by decide)⟩)
    · obtain ⟨blank, inLine⟩ := plain.indented d mem
      rcases (signs d sign).2 with lineEnd | solid
      · exact inLine lineEnd
      · exact Bool.noConfusion (blank.symm.trans solid)
    · exact Bool.noConfusion ((plain.letters d mem).symm.trans (signs d sign).1)
  have last : (c.indent ++ c.name ++ ['(']).getLast? = some '(' := List.getLast?_concat
  have starts : c.inner.head? ≠ some '*' := by
    have filled : first ≠ [] := by
      rintro rfl
      exact here.filled rfl
    rwa [inner, List.head?_append_of_ne_nil _ filled]
  have whole : c.text = c.indent ++ c.name ++ ['('] ++ c.inner ++ ");".toList := by
    simp [text, body, parenthesized]
  rw [whole]
  refine (front.append plain.isCommentFree_inner ?_ fun _ => starts).append
    (isCommentFree_of_chars (of_all (by decide))) (fun _ => by decide) fun _ => by decide
  rw [last]
  exact fun slash => absurd slash (by decide)

theorem isTrimmed_body : IsTrimmed c.body := by
  have word := isTrimmed_of_solid plain.named fun d mem => isBlank_of_isWord (plain.letters d mem)
  exact (word.append (isTrimmed_parenthesized _)).append (isTrimmed_of_solid (by simp) (of_all rfl))

theorem line_eq (number : Nat) :
    Line.ofCleaned number (cleanLine .code c.text) = ⟨number, c.body, c.indent.length⟩ := by
  have made := Line.ofCleaned_of_trimmed (b := []) (fun d mem => (plain.indented d mem).1)
    (of_all rfl) number plain.isTrimmed_body
  rw [plain.isCommentFree_text.clean.1, text]
  rwa [List.append_nil] at made

theorem name_not_mem : c.name ∉ keywords := by
  intro listed
  have capital : ∀ k ∈ keywords, upper k = k := by decide
  have reserved : isReserved c.name = true := by
    rw [isReserved, capital _ listed, List.contains_iff_mem.mpr listed, Bool.true_or]
  rw [plain.unreserved] at reserved
  exact Bool.false_ne_true reserved

theorem bracket?_body : bracket? c.body = none := by
  have solid : ∀ d ∈ c.name, isBlank d = false ∧ d ≠ ';' := by
    intro d mem
    refine ⟨isBlank_of_isWord (plain.letters d mem), ?_⟩
    rintro rfl
    exact absurd (plain.letters _ mem) (by decide)
  have noKeyword (k : Construct) : c.name ≠ k.keyword :=
    fun same => plain.name_not_mem (same ▸ k.mem_keywords.1)
  have noTerminator (k : Construct) : c.name ≠ k.terminator :=
    fun same => plain.name_not_mem (same ▸ k.mem_keywords.2)
  rw [body_eq]
  refine bracket?_of_word plain.named plain.letters noKeyword noTerminator rfl ?_
  obtain ⟨u, first⟩ := firstWord_paren solid plain.named (c.inner ++ ");".toList)
  have free : ∀ keyword ∈ sectionKeywords, '(' ∉ keyword := by decide
  rw [first]
  exact fun listed => free _ listed (by simp)

theorem behind_body : behindElse? c.body = none ∧ behindLabel? c.body = none := by
  constructor
  · rw [behindElse?, if_neg]
    rw [Bool.and_eq_true, startsFolded_eq_isPrefixOf, body_eq, List.map_append, List.map_cons,
      isPrefixOf_append (by decide), List.isPrefixOf_iff_prefix]
    rintro ⟨start, blank⟩
    have long : 4 ≤ c.name.length := by simpa using start.length_le
    rw [List.drop_append_of_le_length long] at blank
    cases behind : c.name.drop 4 with
    | nil =>
      rw [behind] at blank
      exact absurd (show isBlank '(' = true from blank) (by decide)
    | cons d u =>
      have letter := plain.letters d (List.mem_of_mem_drop (behind ▸ List.mem_cons_self))
      rw [behind] at blank
      exact Bool.noConfusion ((isBlank_of_isWord letter).symm.trans blank)
  · have labels : ∀ d ∈ c.name, isLabelChar d = true := fun d mem => by
      simp [isLabelChar, plain.letters d mem]
    rw [behindLabel?, body_eq, List.dropWhile_append_of_pos labels]
    rfl

theorem findTopLevel?_body (inCase : Bool) :
    findTopLevel? ":=".toList c.body (statementStart inCase c.body) = none := by
  obtain ⟨noElse, noLabel⟩ := plain.behind_body
  rw [statementStart]
  cases control : behindControl? c.body with
  | some n =>
    rw [behindControl?, noElse] at control
    split at control
    · next condition =>
      obtain rfl := Option.some.inj control
      obtain ⟨p, listed, found⟩ := List.exists_of_findSome?_eq_some condition
      exact plain.noCondition p listed _ found
    · contradiction
  | none =>
    have free : ∀ d ∈ c.name, d ≠ '(' ∧ d ≠ ')' ∧ d ≠ ':' := by
      intro d mem
      have word := plain.letters d mem
      refine ⟨(paren_of_isWord word).1, (paren_of_isWord word).2, ?_⟩
      rintro rfl
      exact absurd word (by decide)
    have start : (if inCase then (behindLabel? c.body).getD 0 else 0) = 0 := by
      rw [noLabel]
      exact ite_self 0
    have skipped := @topLevelFrom_skip ':' ['='] _ free (parenthesized c.inner ++ [';'])
    rw [topLevelFrom_group plain.balanced_inner] at skipped
    dsimp only
    rw [start, findTopLevel?, List.drop_zero, body, List.append_assoc]
    exact congrArg _ skipped

theorem checkAssignment_body {line : Line} (text : line.text = c.body) (inCase : Bool) :
    checkAssignment inCase line = [] := by
  rw [checkAssignment, text, plain.findTopLevel?_body]
  exact ite_self []

theorem checkCall_body {line : Line} (text : line.text = c.body) :
    checkCall line = checkParameters line (c.name.length + 1) c.inner := by
  have head : callHead? c.body = some (c.name, c.name.length) := by
    have size : c.body.length - ('(' :: (c.inner ++ ");".toList)).length = c.name.length := by
      rw [body_eq, List.length_append, Nat.add_sub_cancel]
    rw [callHead?, body_eq, word?_append plain.named plain.letters rfl, ← body_eq]
    simp only [trimLeft_cons (by decide : isBlank '(' = false), size]
    rfl
  have equal : hasEqualParens c.body = true := by
    apply hasEqualParens_of_balanced
    have word := balanced_of_free fun d mem => paren_of_isWord (plain.letters d mem)
    exact (word.append (balanced_parenthesized plain.balanced_inner)).append
      (balanced_of_free (of_all rfl))
  have closing : matchingParen? c.body c.name.length =
      some (c.name.length + (c.inner.length + 1)) := by
    rw [matchingParen?, body, List.append_assoc, List.drop_left,
      closingFrom_group plain.balanced_inner]
    rfl
  have slice : (c.body.take (c.name.length + (c.inner.length + 1))).drop (c.name.length + 1) =
      c.inner := by
    have whole : c.body = c.name ++ ('(' :: c.inner) ++ ");".toList := by simp [body_eq]
    have front : c.name.length + (c.inner.length + 1) = (c.name ++ '(' :: c.inner).length := by
      simp
    rw [whole, front, List.take_left, ← List.drop_drop, List.drop_left]
    rfl
  rw [checkCall, text]
  simp only [head, plain.unreserved, equal, closing, slice, plain.filled_inner, Bool.false_eq_true,
    if_false, if_true, List.nil_append]

theorem checkParameters_inner (number : Nat) :
    checkParameters ⟨number, c.body, c.indent.length⟩ (c.name.length + 1) c.inner =
      c.findings number := by
  obtain ⟨first, rest, same, inner, here, later, -⟩ := plain.exists_parameters
  have enough : rest.length ≤ c.inner.length := by
    have commas := length_le_flatMap_comma rest
    rw [inner, List.length_append]
    omega
  have parts := splitTopLevelWithin_parameters (List.forall_mem_cons.mpr ⟨here, later⟩) enough 0
  rw [← inner, ← same] at parts
  have found := filterMap_placed ⟨number, c.body, c.indent.length⟩ (c.name.length + 1) []
    c.parameters
  have place (i : Nat) (p : Text) :
      c.indent.length + (c.name.length + 1 + ((c.parameters.take i).flatMap (· ++ [','])).length +
        leadingBlanks p) + 1 = (c.before i).length + leadingBlanks p + 1 := by
    rw [before, List.length_append, List.length_append, List.length_cons]
    ac_rfl
  simp only [List.nil_append, Line.finding, Line.column, place] at found
  rw [findings, ← List.length_nil, ← found, checkParameters, splitTopLevel, parts]
  apply List.filterMap_congr
  rintro ⟨⟨offset, p⟩, i⟩ mem
  have filled := (plain.each p (mem_placed (List.fst_mem_of_mem_zipIdx mem))).filled
  simp only [List.isEmpty_eq_false_iff.mpr filled, Bool.false_or, isNamedParameter_iff]
  rfl

theorem checkLine_body (extra : List Text) (number : Nat) {stack : List OpenConstruct}
    (outside : topOf stack ≠ some .declarations) :
    (checkLine extra ⟨number, c.body, c.indent.length⟩ stack).1 = c.findings number := by
  have filled : c.body.isEmpty = false := by simp [body]
  obtain ⟨found, stays⟩ :=
    @nestingStep_plain ⟨number, c.body, c.indent.length⟩ stack plain.bracket?_body
  have statement : checksDeclaration stack ⟨number, c.body, c.indent.length⟩ = false := by
    rw [checksDeclaration, stays]
    exact decide_eq_false outside
  rw [checkLine_eq extra filled, found, c.checkSemicolon_body rfl, statement,
    plain.checkAssignment_body rfl, plain.checkCall_body rfl, plain.checkParameters_inner]
  rfl

end CallLine.IsPlain

section Place
variable {first second : List Line} {line : Line} (order : InOrder (first ++ line :: second))
include order

theorem before_and_behind :
    (∀ l ∈ first, l.number < line.number) ∧ ∀ l ∈ second, line.number < l.number := by
  obtain ⟨-, behind, before⟩ := List.pairwise_append.mp order
  exact ⟨fun l mem => before l mem line List.mem_cons_self, (List.pairwise_cons.mp behind).1⟩

/-- A line that opens nothing has no finding but those made when it is read. -/
theorem filter_findingsOn (extra : List Text) (filled : line.text.isEmpty = false)
    (token : bracket? line.text = none) :
    (findingsOn extra (first ++ line :: second)).filter (·.line = line.number) =
      (checkLine extra line (openBehind [] first)).1 := by
  obtain ⟨before, behind⟩ := before_and_behind order
  have apart {lines : List Line} {stack : List OpenConstruct}
      (other : ∀ l ∈ lines, l.number ≠ line.number) :
      (checkLines extra lines stack).1.filter (·.line = line.number) = [] := by
    apply List.filter_eq_nil_iff.mpr
    intro f mem
    obtain ⟨l, inside, -, found⟩ := isFoundOn_of_mem_checkLines mem
    simpa [found.line_eq] using other l inside
  have here : (checkLine extra line (openBehind [] first)).1.filter (·.line = line.number) =
      (checkLine extra line (openBehind [] first)).1 := by
    apply List.filter_eq_self.mpr
    intro f mem
    simpa using (isFoundOn_of_mem_checkLine mem).line_eq
  have atEnd : (unclosedFindings (openBehind [] (first ++ line :: second))).filter
      (·.line = line.number) = [] := by
    apply List.filter_eq_nil_iff.mpr
    intro f mem
    obtain ⟨o, inside, rfl⟩ := List.mem_map.mp mem
    rcases mem_openBehind (List.mem_reverse.mp inside) with none | ⟨l, opener, opens, number⟩
    · contradiction
    · have other : l.number ≠ line.number := by
        intro same
        rcases List.mem_append.mp opener with early | late
        · exact Nat.ne_of_lt (before l early) same
        rcases List.mem_cons.mp late with rfl | late
        · rw [(bracket?_eq_none.mp token).1] at opens
          contradiction
        · exact Nat.ne_of_gt (behind l late) same
      simpa [number] using other
  rw [findingsOn, (checkLines_nesting extra _ []).1, checkLines_append, checkLines_cons, filled,
    if_neg Bool.false_ne_true, List.filter_append, List.filter_append, List.filter_append, here,
    apart fun l mem => Nat.ne_of_lt (before l mem), apart fun l mem => Nat.ne_of_gt (behind l mem),
    atEnd, List.nil_append, List.append_nil, List.append_nil]

end Place

/-- In a program a line that is a call has a finding for each parameter without a name, and no other;
    and so it has wherever in a source it is read as a statement. -/
theorem validate_callLine {c : CallLine} (plain : c.IsPlain) (extraTypes : List Text) :
    validate extraTypes (programAround c.text) = c.findings 2 ∧
      ∀ source front back, physicalLines source = front ++ c.text :: back →
        regionBehind .code front = .code →
        topOf (openBehind [] (linesFrom 1 .code front)) ≠ some .declarations →
        (validate extraTypes source).filter (·.line = front.length + 1) =
          c.findings (front.length + 1) := by
  have free := plain.isCommentFree_text
  constructor
  · have line := plain.line_eq 2
    rw [free.clean.1] at line
    have token : bracket? (trim c.text) = none := by
      have text : trim c.text = c.body := congrArg Line.text line
      rw [text]
      exact plain.bracket?_body
    rw [validate_programAround extraTypes free token, line, c.checkSemicolon_body rfl,
      plain.checkAssignment_body rfl, plain.checkCall_body rfl, plain.checkParameters_inner]
    rfl
  · intro source front back lines code outside
    have read : sourceLines source = linesFrom 1 .code front ++
        ⟨front.length + 1, c.body, c.indent.length⟩ ::
          linesFrom (front.length + 2) (regionAfter .code 0 c.text).nextLine back := by
      rw [sourceLines, lines, linesFrom_append, code, linesFrom, Nat.add_comm 1, plain.line_eq]
    have order : InOrder (sourceLines source) := inOrder_linesFrom 1 .code _
    have filled : c.body.isEmpty = false := by simp [CallLine.body]
    rw [read] at order
    rw [validate_eq_findingsOn, read]
    exact (filter_findingsOn order _ filled plain.bracket?_body).trans
      (plain.checkLine_body _ _ outside)

def nestedCall : CallLine :=
  ⟨"  ".toList, "F".toList,
    ["G(a := 1, b)".toList, " b := H(c, d)".toList, "  max(x, 2) => 3".toList]⟩

/-- The commas in the parameters and the names in the calls there are passed over. -/
theorem validate_callLine_nested :
    nestedCall.IsPlain ∧
      validate [] "PROGRAM P\n  F(G(a := 1, b), b := H(c, d),  max(x, 2) => 3);\nEND_PROGRAM".toList =
        [⟨2, 5, .positional 1⟩, ⟨2, 34, .positional 3⟩] ∧
      (validate [] "IF a THEN\n  F(G(a := 1, b), b := H(c, d),  max(x, 2) => 3);\nx := ".toList).filter
        (·.line = 2) = [⟨2, 5, .positional 1⟩, ⟨2, 34, .positional 3⟩] := by
  have plain : nestedCall.IsPlain := .of_undotted (of_all rfl) (by decide) (by decide)
    (of_all rfl) (by decide) (by decide) (by decide) (by decide)
  have found : nestedCall.findings 2 = [⟨2, 5, .positional 1⟩, ⟨2, 34, .positional 3⟩] := by
    decide
  obtain ⟨inProgram, anywhere⟩ := validate_callLine plain []
  rw [found] at inProgram
  refine ⟨plain, inProgram, ?_⟩
  exact (anywhere _ ["IF a THEN".toList] ["x := ".toList] (by decide) (by decide)
    (by decide)).trans found

/-- Without `noComment` and without `noCondition` something else is found: an asterisk makes a comment
    of the parenthesis, and a dotted capital is a letter of its own where keywords are compared, but
    not where a condition is searched for. -/
theorem validate_callLine_misread :
    (validate [] (programAround "f(*x);".toList) = [⟨1, 0, .unclosed (.unit .program)⟩] ∧
        (CallLine.mk [] "f".toList ["*x".toList]).findings 2 = [⟨2, 3, .positional 1⟩]) ∧
      validate [] (programAround "İF(a THEN x := 1);".toList) =
          [⟨2, 15, .unbalanced⟩, ⟨2, 4, .positional 1⟩] ∧
        (CallLine.mk [] "İF".toList ["a THEN x := 1".toList]).findings 2 = [⟨2, 4, .positional 1⟩] ∧
      isReserved "f".toList = false ∧ isReserved "İF".toList = false ∧
      IsPlainParameter "*x".toList ∧ IsPlainParameter "a THEN x := 1".toList := by
  decide

end StructuredText
