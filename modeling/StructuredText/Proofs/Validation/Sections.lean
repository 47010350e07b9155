import StructuredText.Proofs.Pou.SingleLines
import StructuredText.Proofs.Validation.Agreement
import StructuredText.Proofs.Validation.WellNested

/- The reader keeps in mind whether a variable section is open, the validator holds it on its stack.
   In a unit with nothing but sections they agree on the lines inside, as long as no section opens
   within another or ends where only one of them sees it. -/
namespace StructuredText

theorem trimLeft_trim (t : Text) : trimLeft (trim t) = trim t := by
  rcases List.eq_nil_or_concat' (trim t) with none | ⟨u, d, filled⟩
  · rw [none]
    rfl
  · apply dropWhile_eq_self
    have start : trim t <+: trimLeft t := by
      rw [trim, trimRight, ← List.reverse_suffix, List.reverse_reverse]
      exact List.dropWhile_suffix _
    obtain ⟨rest, whole⟩ := start
    cases shape : trim t with
    | nil => simp [shape] at filled
    | cons c s =>
      rw [shape] at whole
      have stops := List.head?_dropWhile_not isBlank t
      rw [trimLeft] at whole
      rw [← whole] at stops
      exact ⟨c, rfl, by simpa using stops⟩

theorem trimLeft_text {number : Nat} {start : Region} {raw : List Text} {line : Line}
    (mem : line ∈ linesFrom number start raw) : trimLeft line.text = line.text := by
  induction raw generalizing number start with
  | nil => contradiction
  | cons first rest ih =>
    rcases List.mem_cons.mp mem with rfl | mem
    · exact trimLeft_trim _
    · exact ih mem

theorem withoutTrailing_split (c : Char) (t : Text) :
    ∃ tail, t = withoutTrailing c t ++ tail ∧ ∀ d ∈ tail, d = c := by
  refine ⟨(t.reverse.takeWhile (· == c)).reverse, ?_, ?_⟩
  · rw [withoutTrailing, ← List.reverse_append, List.takeWhile_append_dropWhile,
      List.reverse_reverse]
  · intro d mem
    simpa using List.mem_takeWhile_imp (List.mem_reverse.mp mem)

theorem startsWithWord_firstWord {t : Text} (trimmed : trimLeft t = t) :
    startsWithWord (firstWord t) t = true := by
  obtain ⟨tail, word, semicolons⟩ := withoutTrailing_split ';' (t.takeWhile (! isBlank ·))
  have first : firstWord t = withoutTrailing ';' (t.takeWhile (! isBlank ·)) := by
    rw [firstWord, trimmed]
  rw [← first] at word
  have whole : t = firstWord t ++ (tail ++ t.dropWhile (! isBlank ·)) := by
    rw [← List.append_assoc, ← word, List.takeWhile_append_dropWhile]
  have ends : atWordEnd (tail ++ t.dropWhile (! isBlank ·)) = true := by
    cases tail with
    | cons c tail =>
      rw [semicolons c List.mem_cons_self]
      rfl
    | nil =>
      have stops := List.head?_dropWhile_not (! isBlank ·) t
      rw [List.nil_append]
      cases rest : t.dropWhile (! isBlank ·) with
      | nil => rfl
      | cons c rest =>
        rw [rest] at stops
        have blank : isBlank c = true := by simpa using stops
        simp [atWordEnd, isWord_of_isBlank blank]
  rw [startsWithWord, Bool.and_eq_true, List.isPrefixOf_iff_prefix]
  refine ⟨⟨_, whole.symm⟩, ?_⟩
  have behind : t.drop (firstWord t).length = tail ++ t.dropWhile (! isBlank ·) := by
    conv_lhs => arg 2; rw [whole]
    rw [List.drop_left]
  rw [behind, ends]

theorem eq_of_startsWithWord {v w t : Text} (lettersV : ∀ c ∈ v, isWord c = true)
    (lettersW : ∀ c ∈ w, isWord c = true) (startsV : startsWithWord v t = true)
    (startsW : startsWithWord w t = true) : v = w := by
  obtain ⟨rest, rfl, ends⟩ := eq_append_of_startsWithWord startsV
  obtain ⟨rest', same, ends'⟩ := eq_append_of_startsWithWord startsW
  rw [← takeWhile_word lettersV ends, same, takeWhile_word lettersW ends']

theorem Construct.isWord_terminator (c : Construct) : ∀ d ∈ c.terminator, isWord d = true :=
  of_all_words (by decide : ((Construct.all.map Construct.terminator).all fun w =>
    w.all fun c => decide (isWord c = true)) = true) _ (List.mem_map_of_mem (Construct.mem_all c))

theorem Construct.terminator_injective {a b : Construct} (same : a.terminator = b.terminator) :
    a = b := by
  have all : ∀ a ∈ Construct.all, ∀ b ∈ Construct.all, a.terminator = b.terminator → a = b := by
    decide
  exact all a (Construct.mem_all a) b (Construct.mem_all b) same

theorem closed?_eq_some_iff {t : Text} {c : Construct} :
    closed? t = some c ↔ startsWithWord c.terminator t = true := by
  constructor
  · intro closes
    exact List.find?_some (p := fun c : Construct => startsWithWord c.terminator t) closes
  · intro starts
    cases closes : closed? t with
    | none => exact absurd starts (List.find?_eq_none.mp closes c (Construct.mem_all c))
    | some d =>
      have starts' : startsWithWord d.terminator t = true :=
        List.find?_some (p := fun c : Construct => startsWithWord c.terminator t) closes
      rw [Construct.terminator_injective
        (eq_of_startsWithWord d.isWord_terminator c.isWord_terminator starts' starts)]

theorem eq_cons_of_opensSection {t : Text} (trimmed : trimLeft t = t)
    (opens : opensSection t = true) : ∃ u, t = 'V' :: u := by
  have initial : ∀ word ∈ sectionKeywords, word.head? = some 'V' := by decide
  have first := initial _ (List.contains_iff_mem.mp opens)
  obtain ⟨rest, whole, -⟩ := eq_append_of_startsWithWord (startsWithWord_firstWord trimmed)
  cases word : firstWord t with
  | nil => simp [word] at first
  | cons c w =>
    obtain rfl : c = 'V' := by simpa [word] using first
    exact ⟨w ++ rest, by rw [whole, word]; rfl⟩

theorem opener?_eq_declarations {t : Text} (trimmed : trimLeft t = t) :
    opener? t = some .declarations ↔ opensSection t = true := by
  have word : withoutTrailing ';' (t.takeWhile (! isBlank ·)) = firstWord t := by
    rw [firstWord, trimmed]
  constructor
  · intro opens
    rw [opener?] at opens
    split at opens
    · simp at opens
    · split at opens
      · next c found =>
        obtain rfl := Option.some.inj opens
        exact absurd (List.mem_of_find?_eq_some found) (by decide)
      · rw [word] at opens
        dsimp only at opens
        split at opens
        · assumption
        · contradiction
  · intro opens
    obtain ⟨u, text⟩ := eq_cons_of_opensSection trimmed opens
    have noUnit : PouKind.all.find? (opensUnit · t) = none := by rw [text]; rfl
    have noControl : Construct.controls.find? (fun c => startsWithWord c.keyword t) = none := by
      rw [text]; rfl
    rw [opener?, noUnit, noControl, word]
    exact if_pos opens

def checksDeclaration (stack : List OpenConstruct) (line : Line) : Bool :=
  (openAfter stack line).head?.map (·.construct) = some .declarations

theorem checkLine_eq (extra : List Text) {line : Line} (filled : line.text.isEmpty = false)
    (stack : List OpenConstruct) :
    (checkLine extra line stack).1 = nestingFound stack line ++ checkSemicolon line ++
      if checksDeclaration stack line then checkDeclaration extra line
      else checkAssignment ((openAfter stack line).head?.map (·.construct) = some .caseBlock) line ++
        checkCall line := by
  rw [nestingFound, checksDeclaration, openAfter, filled]
  simp only [Bool.false_eq_true, if_false, decide_eq_true_eq]
  rfl

def OpensOnlySections (lines : List Text) : Prop :=
  ∀ line ∈ lines, opener? line = none ∨ opener? line = some .declarations

instance (lines : List Text) : Decidable (OpensOnlySections lines) :=
  inferInstanceAs (Decidable (∀ line ∈ lines, _))

/-- A section opens outside the others and on a line that has no END_VAR, and a line that begins
    with END_VAR has no other first word. -/
def HasFlatSections : UnitPlace → List Text → Prop
  | _, [] => True
  | place, line :: rest =>
    (opensSection line = true →
      place.inSection = false ∧ containsWord "END_VAR".toList line = false) ∧
    (startsWithWord "END_VAR".toList line = true → closesSection line = true) ∧
    HasFlatSections (place.after line) rest

instance decidableHasFlatSections : ∀ place lines, Decidable (HasFlatSections place lines)
  | _, [] => isTrue trivial
  | place, line :: rest =>
    have := decidableHasFlatSections (place.after line) rest
    inferInstanceAs (Decidable (_ ∧ _))

/-- What the reader has in mind is what the validator holds. -/
inductive SectionsAgree : UnitPlace → List OpenConstruct → Prop
  | outside {stack : List OpenConstruct} (free : ∀ o ∈ stack, o.construct ≠ .declarations) :
    SectionsAgree .body stack
  | inside {role : Option VariableRole} {number : Nat} {stack : List OpenConstruct}
    (free : ∀ o ∈ stack, o.construct ≠ .declarations) :
    SectionsAgree (.declarations role) (⟨.declarations, number⟩ :: stack)

theorem SectionsAgree.iff {place : UnitPlace} {stack : List OpenConstruct}
    (agree : SectionsAgree place stack) :
    place.inSection = true ↔ stack.head?.map (·.construct) = some .declarations := by
  cases agree with
  | outside free =>
    refine iff_of_false Bool.false_ne_true ?_
    intro top
    obtain ⟨o, head, section_⟩ := Option.map_eq_some_iff.mp top
    exact free o (List.mem_of_mem_head? head) section_
  | inside free => exact iff_of_true rfl rfl

section Step
variable {line : Line} {place : UnitPlace} {stack : List OpenConstruct}

theorem after_eq_self (opens : opensSection line.text = false)
    (closes : closesSection line.text = false) : place.after line.text = place := by
  rw [UnitPlace.after, opens, closes]
  rfl

theorem closed?_of_closesSection (trimmed : trimLeft line.text = line.text)
    (closes : closesSection line.text = true) : closed? line.text = some .declarations := by
  have word : firstWord line.text = Construct.declarations.terminator := of_decide_eq_true closes
  rw [closed?_eq_some_iff, ← word]
  exact startsWithWord_firstWord trimmed

theorem opensSection_of_opener?_ne (trimmed : trimLeft line.text = line.text)
    (other : opener? line.text ≠ some .declarations) : opensSection line.text = false :=
  Bool.eq_false_iff.mpr fun opens => other ((opener?_eq_declarations trimmed).mpr opens)

theorem closesSection_of_closed?_ne (trimmed : trimLeft line.text = line.text)
    (other : closed? line.text ≠ some .declarations) : closesSection line.text = false :=
  Bool.eq_false_iff.mpr fun closes => other (closed?_of_closesSection trimmed closes)

theorem SectionsAgree.step (agree : SectionsAgree place stack)
    (trimmed : trimLeft line.text = line.text) (clean : nestingFound stack line = [])
    (only : opener? line.text = none ∨ opener? line.text = some .declarations)
    (flat : HasFlatSections place [line.text]) :
    SectionsAgree (place.after line.text) (openAfter stack line) := by
  obtain ⟨outside, whole, -⟩ := flat
  have step := nestingStep stack line
  generalize nestingFound stack line = found, openAfter stack line = behind at step clean ⊢
  cases step with
  | plain token =>
    obtain ⟨notOpened, notClosed⟩ := bracket?_eq_none.mp token
    have opens : opensSection line.text = false := by
      apply opensSection_of_opener?_ne trimmed
      intro opener
      have free : containsWord Construct.declarations.terminator line.text = false :=
        (outside ((opener?_eq_declarations trimmed).mp opener)).2
      rw [opened?, opener] at notOpened
      simp [free] at notOpened
    have closes : closesSection line.text = false := by
      apply closesSection_of_closed?_ne trimmed
      rw [notClosed]
      exact (Option.some_ne_none _).symm
    rw [after_eq_self opens closes]
    exact agree
  | @opens _ c token =>
    have opener : opener? line.text = some c :=
      (Option.filter_eq_some_iff.mp (bracket?_eq_opens.mp token)).1
    obtain rfl : c = .declarations := by
      rcases only with none | declares
      · rw [none] at opener
        contradiction
      · exact Option.some.inj (opener.symm.trans declares)
    have opens := (opener?_eq_declarations trimmed).mp opener
    obtain rfl := UnitPlace.eq_body (outside opens).1
    cases agree with
    | outside free =>
      rw [UnitPlace.after, if_pos opens]
      exact .inside free
  | closes token =>
    have closed := bracket?_eq_closes.mp token
    have opens : opensSection line.text = false := by
      apply opensSection_of_opener?_ne trimmed
      rw [opener?_of_closed? closed]
      exact (Option.some_ne_none _).symm
    cases agree with
    | outside free =>
      obtain ⟨other, free⟩ := List.forall_mem_cons.mp free
      have closes : closesSection line.text = false := by
        apply closesSection_of_closed?_ne trimmed
        rw [closed]
        exact fun same => other (Option.some.inj same)
      rw [after_eq_self opens closes]
      exact .outside free
    | inside free =>
      have closes := whole (closed?_eq_some_iff.mp closed)
      rw [UnitPlace.after, if_neg (by simp [opens]), if_pos closes]
      exact .outside free
  | astray => contradiction

end Step

theorem SectionsAgree.run {lines : List Line} {place : UnitPlace} {stack : List OpenConstruct}
    (agree : SectionsAgree place stack) (trimmed : ∀ line ∈ lines, trimLeft line.text = line.text)
    (clean : nestingFindings stack lines = []) (only : OpensOnlySections (lines.map (·.text)))
    (flat : HasFlatSections place (lines.map (·.text))) :
    SectionsAgree ((lines.map (·.text)).foldl UnitPlace.after place) (openBehind stack lines) := by
  induction lines generalizing place stack with
  | nil => exact agree
  | cons line rest ih =>
    obtain ⟨opens, closes, flat⟩ := flat
    rw [nestingFindings_cons] at clean
    obtain ⟨here, later⟩ := List.append_eq_nil_iff.mp clean
    obtain ⟨only, others⟩ := List.forall_mem_cons.mp only
    obtain ⟨trimmed, restTrimmed⟩ := List.forall_mem_cons.mp trimmed
    exact ih (agree.step trimmed here only ⟨opens, closes, trivial⟩) restTrimmed later others flat

theorem sectionsAgree_header {header : Line} (trimmed : trimLeft header.text = header.text)
    {kind : PouKind} (isHeader : headerKind? header.text = some kind)
    (clean : nestingFound [] header = []) :
    SectionsAgree .body (openAfter [] header) := by
  have step := nestingStep [] header
  generalize nestingFound [] header = found, openAfter [] header = behind at step clean ⊢
  cases step with
  | plain => exact .outside (by simp)
  | @opens _ c token =>
    refine .outside ?_
    intro o mem
    obtain rfl := List.mem_singleton.mp mem
    rintro rfl
    have opener := (Option.filter_eq_some_iff.mp (bracket?_eq_opens.mp token)).1
    obtain ⟨u, text⟩ :=
      eq_cons_of_opensSection trimmed ((opener?_eq_declarations trimmed).mp opener)
    have starts : startsWithWord kind.keyword header.text = true :=
      List.find?_some (p := fun kind : PouKind => startsWithWord kind.keyword header.text) isHeader
    rw [text] at starts
    cases kind <;> contradiction
  | astray => contradiction

theorem opensBlock_of_onlySections {lines : List Text} (only : OpensOnlySections lines) :
    ∀ line ∈ lines, opensBlock line = false := by
  intro line mem
  cases opens : opensBlock line with
  | false => rfl
  | true =>
    have opener := opener?_eq_ifBlock.mpr (opensConditional_of_opensBlock opens)
    rcases only line mem with none | declares
    · rw [none] at opener
      contradiction
    · rw [declares] at opener
      contradiction

theorem nestingFindings_of_accepted {extraTypes : List Text} {source : Text}
    (accepted : ∀ f ∈ validate extraTypes source, f.problem.isNesting = false) :
    nestingFindings [] (sourceLines source) = [] := by
  have none : (validate extraTypes source).filter (·.problem.isNesting) = [] := by
    simpa [List.filter_eq_nil_iff] using accepted
  rw [filter_validate] at none
  exact (List.append_eq_nil_iff.mp none).1

theorem lines_at {source : Text} {kind : PouKind} {before : Nat} {rest : List Text}
    {lead : List Line} {header : Line} {body : List Line}
    (unit : UnitLines source kind before rest lead header body) {used more : List Text}
    {line : Text} (here : rest = used ++ line :: more) :
    ∃ front l behind, sourceLines source = lead ++ header :: (front ++ l :: behind) ∧
      front.map (·.text) = used ∧ l.text = line ∧
      (sourceLines source)[before + 1 + used.length]? = some l ∧
      (sourceLines source).take (before + 1 + used.length) = lead ++ header :: front := by
  have texts := unit.texts
  rw [here] at texts
  obtain ⟨front, tail, rfl, rfl, tailTexts⟩ := List.map_eq_append_iff.mp texts
  obtain ⟨l, behind, rfl, rfl, rfl⟩ := List.map_eq_cons_iff.mp tailTexts
  have split : sourceLines source = (lead ++ header :: front) ++ l :: behind := by
    rw [unit.split, List.append_assoc, List.cons_append]
  have length : before + 1 + (front.map (·.text)).length = (lead ++ header :: front).length := by
    rw [List.length_map, List.length_append, List.length_cons, unit.length]
    omega
  refine ⟨front, l, behind, unit.split, rfl, rfl, ?_, ?_⟩
  · rw [length, split, List.getElem?_append_right (Nat.le_refl _), Nat.sub_self]
    rfl
  · rw [length, split, List.take_left]

def AgreeAt (source : Text) (before : Nat) (used : List Text) (line : Text) : Prop :=
  ∃ l, (sourceLines source)[before + 1 + used.length]? = some l ∧ l.text = line ∧
    ((used.foldl UnitPlace.after .body).inSection = true ↔
      checksDeclaration (openBehind [] ((sourceLines source).take (before + 1 + used.length))) l =
        true)

instance (source : Text) (before : Nat) (used : List Text) (line : Text) :
    Decidable (AgreeAt source before used line) :=
  decidable_of_iff
    ((sourceLines source)[before + 1 + used.length]?.any fun l => l.text = line &&
      ((used.foldl UnitPlace.after .body).inSection ==
        checksDeclaration (openBehind [] ((sourceLines source).take (before + 1 + used.length))) l))
    (by simp [AgreeAt, Option.any_eq_true])

/-- In a unit with nothing but sections, and with no finding of the nesting, reader and validator
    take the same lines for declarations, up to where a section is not flat. -/
theorem sections_agree {extraTypes : List Text} {source : Text} {kind : PouKind}
    {before : Nat} {header : Text} {rest : List Text}
    (first : findHeader? (lineTexts source) = some (kind, before, header, rest))
    (headerFirst : ∀ line ∈ (lineTexts source).take before, line = [])
    (accepted : ∀ f ∈ validate extraTypes source, f.problem.isNesting = false)
    (only : OpensOnlySections (linesBeforeTerminator kind rest)) :
    ∃ pou, Pou.ofSource? source = some pou ∧
      contentFrom .body (linesBeforeTerminator kind rest) = ⟨pou.declared, pou.statements⟩ ∧
      ∀ used line more, linesBeforeTerminator kind rest = used ++ line :: more →
        HasFlatSections .body used → line ≠ [] → opensSection line = false →
        startsWithWord "END_VAR".toList line = false → AgreeAt source before used line := by
  obtain ⟨pou, read, content⟩ := content_of_alone first (opensBlock_of_onlySections only)
  refine ⟨pou, read, content, ?_⟩
  intro used line more here flat filled opens ends
  obtain ⟨lead, head, body, unit⟩ := exists_unitLines first
  have whole : rest = used ++ line :: (more ++ linesFromTerminator kind rest) :=
    calc rest
        = linesBeforeTerminator kind rest ++ linesFromTerminator kind rest :=
          List.takeWhile_append_dropWhile.symm
      _ = used ++ line :: (more ++ linesFromTerminator kind rest) := by
          rw [here, List.append_assoc, List.cons_append]
  obtain ⟨front, l, behind, split, rfl, rfl, place, taken⟩ := lines_at unit whole
  refine ⟨l, place, rfl, ?_⟩
  rw [taken]
  have trimmed : ∀ line ∈ sourceLines source, trimLeft line.text = line.text :=
    fun line mem => trimLeft_text mem
  have blank : ∀ line ∈ lead, line.text = [] := by
    intro line mem
    apply headerFirst
    rw [lineTexts, unit.split, List.map_append, ← unit.length, ← List.length_map (·.text),
      List.take_left]
    exact List.mem_map_of_mem mem
  have clean := nestingFindings_of_accepted accepted
  rw [split] at clean trimmed
  rw [nestingFindings_append, openBehind_blank blank, nestingFindings_cons,
    nestingFindings_append, nestingFindings_cons] at clean
  simp only [List.append_eq_nil_iff] at clean
  obtain ⟨-, cleanHeader, cleanFront, cleanHere, -⟩ := clean
  simp only [List.forall_mem_append, List.forall_mem_cons] at trimmed
  obtain ⟨-, trimmedHeader, trimmedFront, trimmedHere, -⟩ := trimmed
  rw [here] at only
  have onlyFront : OpensOnlySections (front.map (·.text)) :=
    fun t mem => only t (List.mem_append_left _ mem)
  have onlyHere := only l.text (List.mem_append_right _ List.mem_cons_self)
  have agree := (sectionsAgree_header trimmedHeader unit.isHeader cleanHeader).run trimmedFront
    cleanFront onlyFront flat
  have stays : closesSection l.text = false := by
    cases closes : closesSection l.text with
    | false => rfl
    | true =>
      have starts := closed?_eq_some_iff.mp (closed?_of_closesSection trimmedHere closes)
      exact absurd (ends.symm.trans starts) Bool.false_ne_true
  have flatHere : HasFlatSections ((front.map (·.text)).foldl UnitPlace.after .body) [l.text] :=
    ⟨fun starts => absurd (opens.symm.trans starts) Bool.false_ne_true,
      fun starts => absurd (ends.symm.trans starts) Bool.false_ne_true, trivial⟩
  have agreeHere := agree.step trimmedHere cleanHere onlyHere flatHere
  rw [after_eq_self opens stays] at agreeHere
  rw [openBehind_append, openBehind_blank blank, openBehind_cons, agreeHere.iff, checksDeclaration,
    decide_eq_true_iff]

def programOf (rest : List Text) : Text := "PROGRAM P".toList ++ rest.flatMap ('\n' :: ·)

def twoSections : List Text :=
  ["VAR_INPUT", "a : BOOL;", "END_VAR", "x := a;", "VAR", "y : INT;", "END_VAR;",
    "END_PROGRAM"].map String.toList

theorem sections_agree_twoSections :
    findHeader? (lineTexts (programOf twoSections)) =
        some (.program, 0, "PROGRAM P".toList, twoSections) ∧
      (∀ f ∈ validate [] (programOf twoSections), f.problem.isNesting = false) ∧
      OpensOnlySections (linesBeforeTerminator .program twoSections) ∧
      AgreeAt (programOf twoSections) 0 (twoSections.take 3) "x := a;".toList ∧
      AgreeAt (programOf twoSections) 0 (twoSections.take 5) "y : INT;".toList := by
  have first : findHeader? (lineTexts (programOf twoSections)) =
      some (.program, 0, "PROGRAM P".toList, twoSections) := by decide
  have accepted : ∀ f ∈ validate [] (programOf twoSections), f.problem.isNesting = false := by
    decide
  have only : OpensOnlySections (linesBeforeTerminator .program twoSections) := by decide
  obtain ⟨pou, -, -, agree⟩ := sections_agree first (by simp) accepted only
  refine ⟨first, accepted, only, ?_, ?_⟩
  · exact agree _ _ ((twoSections.drop 4).take 3) (by decide) (by decide)
      (by decide) (by decide) (by decide)
  · exact agree _ _ ((twoSections.drop 6).take 1) (by decide) (by decide)
      (by decide) (by decide) (by decide)

/-- The reader leaves both sections at the first END_VAR. -/
def nestedSections : List Text :=
  ["VAR", "VAR", "END_VAR", "x : INT;", "END_VAR", "END_PROGRAM"].map String.toList

/-- The reader does not see the section end on the line that it begins on. -/
def oneLineSection : List Text :=
  ["VAR x : INT; END_VAR", "y := 1;", "END_PROGRAM"].map String.toList

def commaBehindEnd : List Text := ["VAR", "END_VAR,", "y := 1;", "END_PROGRAM"].map String.toList

theorem sections_disagree :
    (∀ rest ∈ [nestedSections, oneLineSection, commaBehindEnd],
      findHeader? (lineTexts (programOf rest)) = some (.program, 0, "PROGRAM P".toList, rest) ∧
        (∀ f ∈ validate [] (programOf rest), f.problem.isNesting = false) ∧
        OpensOnlySections (linesBeforeTerminator .program rest)) ∧
    ¬ AgreeAt (programOf nestedSections) 0 (nestedSections.take 3) "x : INT;".toList ∧
    ¬ AgreeAt (programOf oneLineSection) 0 (oneLineSection.take 1) "y := 1;".toList ∧
    ¬ AgreeAt (programOf commaBehindEnd) 0 (commaBehindEnd.take 2) "y := 1;".toList := by
  refine ⟨?_, ?_, ?_, ?_⟩
  · simp only [List.forall_mem_cons]
    exact ⟨by decide, by decide, by decide, by simp⟩
  · decide
  · decide
  · decide

end StructuredText
