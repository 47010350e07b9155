import StructuredText.Proofs.Expression.Written
import StructuredText.Proofs.Validation.Quiet

/- What the checks see of lines whose words are known: which of them open or close something, and
   where a sign stands outside parentheses. -/
namespace StructuredText

structure IsSilentWord (w : Text) : Prop where
  nonempty : w ≠ []
  letters : ∀ c ∈ w, isWord c = true
  noKeyword : ∀ c : Construct, w ≠ c.keyword
  noTerminator : ∀ c : Construct, w ≠ c.terminator
  noSection : w ∉ sectionKeywords

theorem Construct.mem_keywords (c : Construct) : c.keyword ∈ keywords ∧ c.terminator ∈ keywords := by
  have all : ∀ c ∈ Construct.all, c.keyword ∈ keywords ∧ c.terminator ∈ keywords := by
    decide
  exact all c (Construct.mem_all c)

theorem Construct.isWord_keyword (c : Construct) : ∀ d ∈ c.keyword, isWord d = true :=
  fun d mem => c.isWord_terminator d (List.mem_append_right _ mem)

theorem NonKeyword.isSilent {w : Text} (word : NonKeyword w) : IsSilentWord w where
  nonempty := word.ne_nil
  letters := word.isWord
  noKeyword := fun c same => word.not_mem_keywords (same ▸ c.mem_keywords.1)
  noTerminator := fun c same => word.not_mem_keywords (same ▸ c.mem_keywords.2)
  noSection := word.not_mem_sectionKeywords

theorem isSilentWord_return : IsSilentWord "RETURN".toList where
  nonempty := by decide
  letters := of_all rfl
  noKeyword := by
    have all : ∀ c ∈ Construct.all, "RETURN".toList ≠ c.keyword := by decide
    exact fun c => all c c.mem_all
  noTerminator := by
    have all : ∀ c ∈ Construct.all, "RETURN".toList ≠ c.terminator := by decide
    exact fun c => all c c.mem_all
  noSection := by decide

theorem startsWithWord_of_opensUnit {kind : PouKind} {t : Text} (opens : opensUnit kind t = true) :
    startsWithWord kind.keyword t = true := by
  rw [opensUnit] at opens
  cases behind : after? kind.keyword t with
  | none =>
    rw [behind] at opens
    contradiction
  | some rest =>
    rw [behind, Option.bind_some] at opens
    obtain rfl := after?_eq_some_iff.mp behind
    have ends : atWordEnd rest = true := by
      cases rest with
      | nil => rfl
      | cons c rest =>
        cases blank : isBlank c with
        | false => simp [afterBlanks?, blank] at opens
        | true => simp [atWordEnd, isWord_of_isBlank blank]
    rw [startsWithWord, List.drop_left, ends, Bool.and_true, List.isPrefixOf_iff_prefix]
    exact List.prefix_append _ _

theorem bracket?_of_word {w rest : Text} (nonempty : w ≠ []) (letters : ∀ c ∈ w, isWord c = true)
    (noKeyword : ∀ c : Construct, w ≠ c.keyword) (noTerminator : ∀ c : Construct, w ≠ c.terminator)
    (ends : atWordEnd rest = true) (noSection : firstWord (w ++ rest) ∉ sectionKeywords) :
    bracket? (w ++ rest) = none := by
  have trimmed : trimLeft (w ++ rest) = w ++ rest :=
    trimLeft_append (isTrimmed_of_solid nonempty
      fun c mem => isBlank_of_isWord (letters c mem)).first rest
  have other {v : Text} (lettersV : ∀ c ∈ v, isWord c = true) (differ : w ≠ v) :
      startsWithWord v (w ++ rest) = false :=
    startsWithWord_eq_false lettersV letters differ ends
  have noUnit : PouKind.all.find? (opensUnit · (w ++ rest)) = none := by
    rw [List.find?_eq_none]
    intro kind _ opens
    have absent : startsWithWord kind.keyword (w ++ rest) = false :=
      other (Construct.isWord_keyword (.unit kind)) (noKeyword (.unit kind))
    rw [startsWithWord_of_opensUnit opens] at absent
    contradiction
  have noControl : Construct.controls.find? (fun c => startsWithWord c.keyword (w ++ rest)) =
      none := by
    rw [List.find?_eq_none]
    intro c _
    rw [other c.isWord_keyword (noKeyword c)]
    exact Bool.false_ne_true
  have plain : sectionKeywords.contains
      (withoutTrailing ';' ((w ++ rest).takeWhile (! isBlank ·))) = false := by
    rw [firstWord, trimmed] at noSection
    simpa using noSection
  rw [bracket?_eq_none, opened?, opener?, noUnit, noControl]
  simp only [plain]
  refine ⟨rfl, ?_⟩
  rw [closed?, List.find?_eq_none]
  intro c _
  rw [other c.isWord_terminator (noTerminator c)]
  exact Bool.false_ne_true

theorem bracket?_of_silent {w rest : Text} (word : IsSilentWord w) (ends : atWordEnd rest = true) :
    bracket? (w ++ rest) = none := by
  apply bracket?_of_word word.nonempty word.letters word.noKeyword word.noTerminator ends
  intro listed
  have starts : startsWithWord w (w ++ rest) = true := by
    rw [startsWithWord, List.drop_left, ends, Bool.and_true, List.isPrefixOf_iff_prefix]
    exact List.prefix_append _ _
  have trimmed : trimLeft (w ++ rest) = w ++ rest :=
    trimLeft_append (isTrimmed_of_solid word.nonempty
      fun c mem => isBlank_of_isWord (word.letters c mem)).first rest
  have sections_ : ∀ v ∈ sectionKeywords, ∀ c ∈ v, isWord c = true := of_all_words (by decide)
  have same := eq_of_startsWithWord (sections_ _ listed) word.letters
    (startsWithWord_firstWord trimmed) starts
  rw [same] at listed
  exact word.noSection listed

section Terminator

theorem isOpenWord_terminator (c : Construct) : isOpenWord c.terminator = false := by
  have start : "END_".toList.isPrefixOf c.terminator = true :=
    List.isPrefixOf_iff_prefix.mpr (List.prefix_append _ _)
  rw [isOpenWord, start, Bool.not_true]

theorem containsWord_terminator {t : Text} (open_ : ∀ w ∈ wordsOf t, isOpenWord w = true)
    (c : Construct) : containsWord c.terminator t = false := by
  apply containsWord_eq_false c.isWord_terminator
  intro mem
  have opens := open_ _ mem
  rw [isOpenWord_terminator] at opens
  contradiction

theorem bracket?_of_opener {t : Text} {c : Construct} (opens : opener? t = some c)
    (missing : containsWord c.terminator t = false) : bracket? t = some (.opens c) := by
  rw [bracket?_eq_opens, opened?, opens]
  simp [missing]

theorem opener?_unit (kind : PouKind) {name : Text} (begins : name.head?.any isWord = true) :
    opener? (kind.keyword ++ ' ' :: name) = some (.unit kind) := by
  have blank : trimLeft name = name := by
    apply dropWhile_eq_self
    obtain ⟨c, first, word⟩ := (Option.any_eq_true _ _).mp begins
    exact ⟨c, first, isBlank_of_isWord word⟩
  have opens : opensUnit kind (kind.keyword ++ ' ' :: name) = true := by
    have behind : afterBlanks? (' ' :: name) = some name := by
      rw [afterBlanks?, if_pos (by decide), blank]
    rw [opensUnit, after?_eq_some_iff.mpr rfl, Option.bind_some, behind]
    exact begins
  have found : PouKind.all.find? (opensUnit · (kind.keyword ++ ' ' :: name)) = some kind := by
    cases kind with
    | program => exact List.find?_cons_of_pos opens
    | functionBlock =>
      rw [PouKind.all, List.find?_cons_of_neg (by exact Bool.false_ne_true)]
      exact List.find?_cons_of_pos opens
    | function =>
      rw [PouKind.all, List.find?_cons_of_neg (by exact Bool.false_ne_true),
        List.find?_cons_of_neg (by exact Bool.false_ne_true)]
      exact List.find?_cons_of_pos opens
  rw [opener?, found]

end Terminator

theorem topLevelFrom_of_not_infix {symbol t : Text} (missing : ¬ symbol <:+: t) (depth : Int) :
    topLevelFrom symbol depth t = none := by
  induction t generalizing depth with
  | nil => rfl
  | cons c t ih =>
    rw [List.infix_cons_iff, not_or] at missing
    have here : ¬ (depth = 0 ∧ symbol.isPrefixOf (c :: t) = true) :=
      fun found => missing.1 (List.isPrefixOf_iff_prefix.mp found.2)
    rw [topLevelFrom, ih missing.2, ih missing.2, ih missing.2, if_neg here]
    simp

theorem hasEqualParens_of_balanced {t : Text} (balanced : Balanced t) : hasEqualParens t = true := by
  rw [hasEqualParens, decide_eq_true_eq]
  induction balanced with
  | nil => rfl
  | char opens closes rest ih =>
    rw [List.count_cons_of_ne opens, List.count_cons_of_ne closes, ih]
  | group inner rest ihg ih =>
    simp only [parenthesized_append, List.count_cons, List.count_append, ihg, ih]
    simp
    omega

theorem eq_of_startsFoldedWord {v w rest : Text} {d : Char} (lettersV : ∀ c ∈ v, isWord c = true)
    (lettersW : ∀ c ∈ w, isWord c = true) (ends : isWord d = false ∧ isWord (fold d) = false)
    (starts : startsFoldedWord v (w ++ d :: rest) = true) : w.map fold = v := by
  induction v generalizing w with
  | nil =>
    cases w with
    | nil => rfl
    | cons c w =>
      have letter := lettersW c List.mem_cons_self
      simp [startsFoldedWord, startsFolded, atWordEnd, letter] at starts
  | cons a v ih =>
    rw [startsFoldedWord, startsFolded, Bool.and_eq_true, beq_iff_eq] at starts
    obtain ⟨same, wordEnd⟩ := starts
    cases w with
    | nil =>
      obtain ⟨rfl, -⟩ := List.cons.inj same
      rw [lettersV _ List.mem_cons_self] at ends
      exact absurd ends.2 (by decide)
    | cons c w =>
      obtain ⟨rfl, later⟩ := List.cons.inj same
      rw [List.map_cons, ih (fun c mem => lettersV c (List.mem_cons_of_mem _ mem))
        (fun c mem => lettersW c (List.mem_cons_of_mem _ mem))]
      rw [startsFoldedWord, startsFolded, Bool.and_eq_true, beq_iff_eq]
      exact ⟨later, wordEnd⟩

end StructuredText
