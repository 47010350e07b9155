import StructuredText.Proofs.Validation.WrittenLine

/- The text of an ordinary unit passes the checks: what is written of a statement leaves open what
   was open before it, a section and the unit are closed by their own ends. -/
namespace StructuredText

def isFrameLine (t : Text) : Bool :=
  !t.isEmpty && t.all (fun c => !isBlank c && !"\n'\"/*():".toList.contains c) && isExempt t

theorem isBareLine_of_isFrameLine {t : Text} (frame : isFrameLine t = true) : IsBareLine t := by
  simp only [isFrameLine, Bool.and_eq_true, Bool.not_eq_true', List.isEmpty_eq_false_iff,
    List.all_eq_true] at frame
  obtain ⟨⟨nonempty, chars⟩, -⟩ := frame
  apply (isCommentFree_of_chars _).isBareLine
    (isTrimmed_of_solid nonempty fun c mem => (chars c mem).1)
  intro c mem sign
  have free := (chars c mem).2
  have wider : "\n'\"/*".toList ⊆ "\n'\"/*():".toList := by decide
  rw [List.contains_iff_mem.mpr (wider sign)] at free
  contradiction

theorem isFine_of_isFrameLine {extra : List Text} {top : Option Construct} {t : Text}
    (place : IsCodePlace top) (frame : isFrameLine t = true) : IsFine extra top t := by
  simp only [isFrameLine, Bool.and_eq_true, Bool.not_eq_true', List.all_eq_true] at frame
  obtain ⟨⟨-, chars⟩, exempt⟩ := frame
  apply isFine_frame place exempt
  intro c mem
  have free := (chars c mem).2
  refine ⟨?_, ?_, ?_⟩ <;> rintro rfl <;> contradiction

section Statements
variable {extra : List Text}

theorem isPassed_controlled {c : Construct} (inside : IsCodePlace (some c)) {before behind : Text}
    (header : ∀ t : Text, opener? (before ++ ' ' :: (t ++ ' ' :: behind)) = some c)
    (exempt : before ∈ exemptWords) (first : IsWrittenCode before) (last : IsWrittenCode behind)
    {final : Text} (closes : bracket? final = some (.closes c)) (frame : isFrameLine final = true)
    {condition : Option Expression} (ordinary : ∀ e ∈ condition, e.isOrdinary = true)
    {inner : List Written} (passed : IsPassed extra IsCodePlace inner) (depth : Nat) :
    IsPassed extra IsCodePlace (.around depth (before ++ [' '])
      (condition.getD (.literal (.bool true))) (' ' :: behind) ::
        inner ++ [.fixed depth final]) := by
  have shown : (condition.getD (.literal (.bool true))).isOrdinary = true := by
    cases condition with
    | none => rfl
    | some e => exact ordinary e rfl
  generalize condition.getD (.literal (.bool true)) = e at shown ⊢
  have code := Expression.isWrittenCode_text shown
  have whole : IsWrittenCode (before ++ ' ' :: (e.text ++ ' ' :: behind)) :=
    first.append (code.append last rfl (by decide) (by decide) (by decide)) rfl (by decide)
      (by decide) (by decide)
  have line : Written.around depth (before ++ [' ']) e (' ' :: behind) =
      .fixed depth (before ++ ' ' :: (e.text ++ ' ' :: behind)) := by
    rw [Written.around, Expression.text?_of_isOrdinary shown, Option.map_some,
      List.append_assoc, List.append_assoc]
    rfl
  have bare : IsBareLine (before ++ ' ' :: (e.text ++ ' ' :: behind)) :=
    isBareLine_of_written (fun c mem => Or.inl (whole.chars c mem)) whole.trimmed
  rw [line]
  apply passed.bracketed inside bare (isBareLine_of_isFrameLine frame) _ closes _
    fun top place => isFine_of_isFrameLine place frame
  · exact bracket?_of_opener (header e.text) (containsWord_terminator whole.open_ c)
  · apply isFine_of_missing inside (Or.inl (isExempt_word exempt rfl)) whole.balanced
    exact fun inside => whole.not_mem_colon (inside.subset List.mem_cons_self)

theorem isPassed_conditional {condition : Option Expression}
    (ordinary : ∀ e ∈ condition, e.isOrdinary = true) {inner : List Written}
    (passed : IsPassed extra IsCodePlace inner) (depth : Nat) :
    IsPassed extra IsCodePlace
      (.around depth "IF ".toList (condition.getD (.literal (.bool true))) " THEN".toList ::
        inner ++ [.fixed depth "END_IF;".toList]) := by
  have first : IsWrittenCode "IF".toList := isWrittenCode_of_free (by decide) (of_all rfl)
  have last : IsWrittenCode "THEN".toList := isWrittenCode_of_free (by decide) (of_all rfl)
  exact isPassed_controlled ⟨by decide, by decide⟩ (fun t => opener?_eq_ifBlock.mpr rfl)
    (by decide) first last (by decide) (by decide) ordinary passed depth

theorem isPassed_whileLoop {condition : Option Expression}
    (ordinary : ∀ e ∈ condition, e.isOrdinary = true) {inner : List Written}
    (passed : IsPassed extra IsCodePlace inner) (depth : Nat) :
    IsPassed extra IsCodePlace
      (.around depth "WHILE ".toList (condition.getD (.literal (.bool true))) " DO".toList ::
        inner ++ [.fixed depth "END_WHILE;".toList]) := by
  have first : IsWrittenCode "WHILE".toList := isWrittenCode_of_free (by decide) (of_all rfl)
  have last : IsWrittenCode "DO".toList := isWrittenCode_of_free (by decide) (of_all rfl)
  have header (t : Text) :
      opener? ("WHILE".toList ++ ' ' :: (t ++ ' ' :: "DO".toList)) = some .whileLoop := rfl
  exact isPassed_controlled ⟨by decide, by decide⟩ header (by decide) first last
    (by decide) (by decide) ordinary passed depth

theorem isPassed_forLoop {inner : List Written} (passed : IsPassed extra IsCodePlace inner)
    (depth : Nat) : IsPassed extra IsCodePlace
      (.fixed depth "FOR".toList :: inner ++ [.fixed depth "END_FOR;".toList]) := by
  have inside : IsCodePlace (some .forLoop) := ⟨by decide, by decide⟩
  have first : isFrameLine "FOR".toList = true := by decide
  have last : isFrameLine "END_FOR;".toList = true := by decide
  exact passed.bracketed inside (isBareLine_of_isFrameLine first) (isBareLine_of_isFrameLine last)
    (by decide) (by decide) (isFine_of_isFrameLine inside first)
    fun top place => isFine_of_isFrameLine place last

theorem isPassed_allLines {body : List Statement} {depth : Nat}
    (each : ∀ s ∈ body, IsPassed extra IsCodePlace (s.lines depth)) :
    IsPassed extra IsCodePlace (Statement.allLines depth body) := by
  induction body with
  | nil => exact .nil
  | cons s rest ih =>
    rw [Statement.allLines]
    exact (each s List.mem_cons_self).append (ih fun t mem => each t (List.mem_cons_of_mem s mem))

theorem isPassed_branchLines {branch : Option (List Statement)} {depth : Nat}
    (each : ∀ s ∈ branch.getD [], IsPassed extra IsCodePlace (s.lines depth)) :
    IsPassed extra IsCodePlace (Statement.branchLines depth branch) := by
  cases branch with
  | none => exact .nil
  | some body => exact isPassed_allLines each

theorem isPassed_elseLines {branch : Option (List Statement)} {depth : Nat}
    (each : ∀ s ∈ branch.getD [], IsPassed extra IsCodePlace (s.lines (depth + 1))) :
    IsPassed extra IsCodePlace (Statement.elseLines depth branch) := by
  have frame : isFrameLine "ELSE".toList = true := by decide
  have line : IsPassed extra IsCodePlace [.fixed depth "ELSE".toList] :=
    .plain (isBareLine_of_isFrameLine frame) (by decide)
      fun top place => isFine_of_isFrameLine place frame
  cases branch with
  | none => exact .nil
  | some body =>
    cases body with
    | nil => exact .nil
    | cons s rest => exact line.append (isPassed_allLines each)

theorem isPassed_assignment {target : Text} (place : isOrdinaryName target = true)
    {value : Expression} (ordinary : value.isOrdinary = true) (depth : Nat) :
    IsPassed extra IsCodePlace [.around depth (target ++ " := ".toList) value [';']] := by
  have name := Expression.isWrittenCode_name place
  have code := Expression.isWrittenCode_text ordinary
  have shape : target ++ " := ".toList ++ value.text ++ [';'] =
      target ++ ' ' :: (":= ".toList ++ value.text ++ [';']) := by simp
  obtain ⟨w, d, rest, first, word, ends⟩ :=
    firstPart_of_isOrdinaryName place (":= ".toList ++ value.text ++ [';'])
  rw [Written.around, Expression.text?_of_isOrdinary ordinary, Option.map_some]
  apply IsPassed.plain
  · have joined := name.trimmed.between isTrimmed_semicolon (" := ".toList ++ value.text)
    apply isBareLine_of_written _ (by simpa using joined)
    simp only [List.forall_mem_append]
    exact ⟨⟨⟨fun c mem => Or.inl (name.chars c mem), of_all rfl⟩,
      fun c mem => Or.inl (code.chars c mem)⟩, of_all rfl⟩
  · have stops : atWordEnd (d :: rest) = true := by simp [atWordEnd, ends.1]
    rw [shape, first]
    exact bracket?_of_silent word.isSilent stops
  · intro top here
    apply isFine_code here (Or.inr List.getLast?_concat)
    · have sign : Balanced " := ".toList := balanced_of_free (of_all rfl)
      have final : Balanced [';'] := balanced_of_free (of_all rfl)
      exact ((name.balanced.append sign).append code.balanced).append final
    · exact fun line text => checkAssignment_written place code text

theorem isPassed_call {target name : Text} {arguments : List Expression}
    (ordinary : (Statement.call target name arguments).isOrdinary = true) (depth : Nat) :
    IsPassed extra IsCodePlace [.around depth [] (.call name arguments) [';']] := by
  have shown : (Expression.call name arguments).isOrdinary = true := ordinary
  have code := Expression.isWrittenCode_text shown
  rw [Statement.isOrdinary, Bool.and_eq_true] at ordinary
  rw [Written.around, Expression.text?_of_isOrdinary shown]
  exact code.isPassed_concat (Expression.text_call name arguments)
    (ordinaryWord_of_isOrdinaryWord ordinary.1).isSilent rfl

theorem isPassed_ret {value : Option Expression} (ordinary : ∀ e ∈ value, e.isOrdinary = true)
    (depth : Nat) : IsPassed extra IsCodePlace ((Statement.ret value).lines depth) := by
  have word : IsWrittenCode "RETURN".toList :=
    isWrittenCode_of_free (by decide) (of_all (by decide))
  cases value with
  | none => exact word.isPassed_concat (List.append_nil _).symm isSilentWord_return rfl
  | some e =>
    have code := Expression.isWrittenCode_text (ordinary e rfl)
    have whole : IsWrittenCode ("RETURN".toList ++ ' ' :: e.text) :=
      word.append code rfl (by decide) (by decide) (by decide)
    rw [Statement.lines, Written.around, Expression.text?_of_isOrdinary (ordinary e rfl)]
    exact whole.isPassed_concat rfl isSilentWord_return rfl

end Statements

theorem Statement.isOrdinaryBranch_iff (branch : Option (List Statement)) :
    isOrdinaryBranch branch = true ↔ ∀ s ∈ branch.getD [], s.isOrdinary = true := by
  cases branch with
  | none => simp [isOrdinaryBranch]
  | some body => exact areOrdinary_iff body

/-- What is written of an ordinary statement is passed over where statements stand. -/
theorem isPassed_lines {extra : List Text} {s : Statement} (ordinary : s.isOrdinary = true) :
    ∀ depth, IsPassed extra IsCodePlace (s.lines depth) := by
  induction s with
  | assignment target value =>
    intro depth
    rw [Statement.isOrdinary, Bool.and_eq_true] at ordinary
    exact isPassed_assignment ordinary.1 ordinary.2 depth
  | conditional condition thenBranch elseBranch ihThen ihElse =>
    intro depth
    simp only [Statement.isOrdinary, Bool.and_eq_true, Option.all_eq_true,
      Statement.isOrdinaryBranch_iff] at ordinary
    obtain ⟨⟨shown, first⟩, second⟩ := ordinary
    have left : IsPassed extra IsCodePlace (Statement.branchLines (depth + 1) thenBranch) :=
      isPassed_branchLines fun s mem => ihThen s mem (first s mem) (depth + 1)
    have right : IsPassed extra IsCodePlace (Statement.elseLines depth elseBranch) :=
      isPassed_elseLines fun s mem => ihElse s mem (second s mem) (depth + 1)
    rw [Statement.lines]
    exact isPassed_conditional shown (left.append right) depth
  | call target name arguments =>
    intro depth
    exact isPassed_call ordinary depth
  | forLoop body ih =>
    intro depth
    rw [Statement.isOrdinary, Statement.areOrdinary_iff] at ordinary
    rw [Statement.lines]
    exact isPassed_forLoop (isPassed_allLines fun s mem => ih s mem (ordinary s mem) (depth + 1))
      depth
  | whileLoop condition body ih =>
    intro depth
    simp only [Statement.isOrdinary, Bool.and_eq_true, Option.all_eq_true,
      Statement.areOrdinary_iff] at ordinary
    rw [Statement.lines]
    exact isPassed_whileLoop ordinary.1
      (isPassed_allLines fun s mem => ih s mem (ordinary.2 s mem) (depth + 1)) depth
  | ret value =>
    intro depth
    simp only [Statement.isOrdinary, Option.all_eq_true] at ordinary
    exact isPassed_ret ordinary depth

section Frame
variable {extra : List Text}

theorem isCommentFree_of_isOneLineCode {t : Text} (code : isOneLineCode t = true) :
    IsCommentFree t := by
  simp only [isOneLineCode, Bool.and_eq_true, Bool.not_eq_true'] at code
  obtain ⟨⟨chars, noLineComment⟩, noBlockComment⟩ := code
  exact isCommentFree_of_checks chars noLineComment noBlockComment

theorem OrdinaryWord.notDigitFirst {w : Text} (word : OrdinaryWord w) :
    w.head?.any isDigitLike = false := by
  obtain ⟨c, t, rfl, first⟩ := word.first
  have ascii : c.toNat < 128 := toNat_lt_of_isAsciiWord (word.letters c List.mem_cons_self)
  exact of_ascii (fun c => (c.isAlpha = true ∨ c = '_') → isDigitLike c = false)
    (by decide) ascii first

theorem isPassed_variable {v : Variable} (ordinary : v.isOrdinary = true) :
    IsPassed extra (· = some .declarations) [v.line] := by
  simp only [Variable.isOrdinary, Bool.and_eq_true, Option.all_eq_true] at ordinary
  obtain ⟨⟨named, typed⟩, initial⟩ := ordinary
  have word := ordinaryWord_of_isOrdinaryWord named
  have type := name_of_isName typed
  obtain ⟨offset, declared⟩ := Variable.declaration_text word.name type
  have shape : v.text = v.name ++ (" : ".toList ++ v.type ++ v.ending) := by
    rw [Variable.text, List.append_assoc, List.append_assoc, List.append_assoc]
  have ends : v.text.getLast? = some ';' := by
    rw [Variable.text, Variable.ending, ← List.append_assoc]
    exact List.getLast?_concat
  rw [v.line_eq]
  apply IsPassed.plain
  · exact Variable.isBareLine_text word.name type
      fun t mem => isCommentFree_of_isOneLineCode (initial t mem)
  · rw [shape]
    exact bracket?_of_silent word.isSilent rfl
  · rintro top rfl
    refine ⟨?_, ?_, fun outside => absurd rfl outside, fun outside => absurd rfl outside⟩
    · intro line text f mem
      rw [checkSemicolon_eq_nil (Or.inr (text ▸ ends))] at mem
      contradiction
    · intro _ line text f mem
      cases mem_checkDeclaration.mp mem with
      | name found digit =>
        rw [text, declared] at found
        obtain rfl := Option.some.inj found
        simp [word.notDigitFirst] at digit
      | type => exact ⟨Severity.noConfusion, Problem.noConfusion⟩

theorem isPassed_sectionLines {role : VariableRole} {keyword : Text}
    (listed : (role, keyword) ∈ sections) {declared : List Variable}
    (ordinary : ∀ v ∈ declared, v.isOrdinary = true) :
    IsPassed extra IsCodePlace (sectionLines keyword declared) := by
  have passed : IsPassed extra (· = some .declarations) (declared.map Variable.line) := by
    rw [List.map_eq_flatMap]
    exact .flatMap fun v mem => isPassed_variable (ordinary v mem)
  have frames : ∀ entry ∈ sections, bracket? entry.2 = some (.opens .declarations) ∧
      isExempt entry.2 = true ∧ declaration? entry.2 = none ∧ isFrameLine entry.2 = true := by
    decide
  have closing : isFrameLine "END_VAR".toList = true := by decide
  obtain ⟨opens, exempt, other, frame⟩ := frames _ listed
  rw [sectionLines]
  split
  · exact .nil
  · apply passed.bracketed rfl (isBareLine_of_isFrameLine frame)
      (isBareLine_of_isFrameLine closing) opens (by decide) _
      fun top place => isFine_of_isFrameLine place closing
    refine ⟨?_, ?_, fun outside => absurd rfl outside, fun outside => absurd rfl outside⟩
    · rintro line rfl f mem
      rw [checkSemicolon_eq_nil (Or.inl exempt)] at mem
      contradiction
    · rintro - line rfl f mem
      rw [checkDeclaration, other] at mem
      contradiction

end Frame

section Header
variable {pou : Pou} (name : OrdinaryWord pou.name) (type : ∀ t ∈ pou.returnType, Name t)
include name type

theorem containsWord_header (other : pou.returnType ≠ some pou.kind.terminator) :
    containsWord pou.kind.terminator pou.header = false := by
  have keyword : ∀ c ∈ pou.kind.keyword, isWord c = true :=
    Construct.isWord_keyword (.unit pou.kind)
  have differs : pou.kind.keyword ≠ pou.kind.terminator := by cases pou.kind <;> decide
  have words : pou.kind.terminator ∉ wordsOf (pou.name ++ headerTail pou.returnType) := by
    have isName : pou.kind.terminator ≠ pou.name := by
      intro same
      have opens := name.isOpenWord
      have ends : isOpenWord pou.kind.terminator = false :=
        isOpenWord_terminator (.unit pou.kind)
      rw [← same, ends] at opens
      contradiction
    cases found : pou.returnType with
    | none =>
      rw [headerTail, Option.elim_none, List.append_nil, wordsOf_letters name.isWord,
        List.mem_singleton]
      exact isName
    | some t =>
      have shape : pou.name ++ headerTail (some t) = pou.name ++ ' ' :: ':' :: ' ' :: t := rfl
      have isType : pou.kind.terminator ≠ t := by
        rintro same
        exact other (by rw [found, same])
      have filled : pou.kind.terminator ≠ [] := by cases pou.kind <;> decide
      rw [shape, wordsOf_append (by decide), wordsOf_cons (by decide), wordsOf_cons (by decide),
        wordsOf_letters name.isWord, wordsOf_letters (type t found).letters]
      simp [isName, isType, filled]
  have letters : ∀ c ∈ pou.kind.terminator, isWord c = true :=
    Construct.isWord_terminator (.unit pou.kind)
  apply containsWord_eq_false letters
  rw [header_eq name.name type, wordsOf_append (by decide), wordsOf_letters keyword]
  simp [differs.symm, words]

theorem bracket?_header (other : pou.returnType ≠ some pou.kind.terminator) :
    bracket? pou.header = some (.opens (.unit pou.kind)) := by
  refine @bracket?_of_opener pou.header (.unit pou.kind) ?_ (containsWord_header name type other)
  rw [header_eq name.name type]
  apply opener?_unit
  cases text : pou.name with
  | nil => exact absurd text name.ne_nil
  | cons c t =>
    have letter := name.isWord c (by rw [text]; exact List.mem_cons_self)
    rw [List.cons_append, List.head?_cons, Option.any_some, letter]

theorem isFine_header {extra : List Text} :
    IsFine extra (some (.unit pou.kind)) pou.header := by
  have chars : ∀ c ∈ pou.header, c ≠ '(' ∧ c ≠ ')' ∧ c ≠ '=' := by
    have letter {t : Text} (letters : ∀ c ∈ t, isWord c = true) :
        ∀ c ∈ t, c ≠ '(' ∧ c ≠ ')' ∧ c ≠ '=' := by
      intro c mem
      have word := letters c mem
      refine ⟨(paren_of_isWord word).1, (paren_of_isWord word).2, ?_⟩
      rintro rfl
      contradiction
    have tail : ∀ c ∈ headerTail pou.returnType, c ≠ '(' ∧ c ≠ ')' ∧ c ≠ '=' := by
      cases found : pou.returnType with
      | none => exact of_all rfl
      | some t =>
        rw [headerTail, Option.elim_some, List.forall_mem_append]
        exact ⟨of_all rfl, letter (type t found).letters⟩
    rw [header_eq name.name type, List.forall_mem_append, List.forall_mem_cons,
      List.forall_mem_append]
    exact ⟨letter (Construct.isWord_keyword (.unit pou.kind)), by decide, letter name.isWord, tail⟩
  have exempt : isExempt pou.header = true := by
    have listed : pou.kind.keyword ∈ exemptWords := by cases pou.kind <;> decide
    rw [header_eq name.name type]
    exact isExempt_word listed rfl
  have place : IsCodePlace (some (.unit pou.kind)) := ⟨by simp, by simp⟩
  apply isFine_of_missing place (Or.inl exempt)
  · exact balanced_of_free fun c mem => ⟨(chars c mem).1, (chars c mem).2.1⟩
  · exact fun inside => (chars '=' (inside.subset (by decide))).2.2 rfl

end Header

theorem isPassed_sections {extra : List Text} {pou : Pou}
    (declared : ∀ v ∈ pou.declared, v.isOrdinary = true) :
    IsPassed extra IsCodePlace
      (sections.flatMap fun (role, keyword) => sectionLines keyword (pou.ofRole role)) := by
  apply IsPassed.flatMap
  rintro ⟨role, keyword⟩ listed
  exact isPassed_sectionLines listed fun v mem => declared v (List.mem_of_mem_filter mem)

theorem isPassed_unit {extra : List Text} {pou : Pou} (ordinary : pou.isOrdinary = true)
    (other : pou.returnType ≠ some pou.kind.terminator) :
    IsPassed extra (· = none) pou.lines := by
  simp only [Pou.isOrdinary, Bool.and_eq_true, Option.all_eq_true, List.all_eq_true,
    Statement.areOrdinary_iff] at ordinary
  obtain ⟨⟨⟨named, typed⟩, declared⟩, statements⟩ := ordinary
  have name := ordinaryWord_of_isOrdinaryWord named
  have type : ∀ t ∈ pou.returnType, Name t := fun t mem => name_of_isName (typed t mem)
  have first := @isPassed_sections extra pou declared
  have second : IsPassed extra IsCodePlace (Statement.allLines 0 pou.statements) :=
    isPassed_allLines fun s mem => isPassed_lines (statements s mem) 0
  have closes : bracket? pou.kind.terminator = some (.closes (.unit pou.kind)) := by
    cases pou.kind <;> decide
  have final : ∀ top, top = none → IsFine extra top pou.kind.terminator := by
    rintro top rfl
    have place : IsCodePlace none := ⟨by simp, by simp⟩
    cases pou.kind <;> exact isFine_of_isFrameLine place (by decide)
  have inside : IsCodePlace (some (.unit pou.kind)) := ⟨by simp, by simp⟩
  exact (first.append second).bracketed inside (isBareLine_header name.name type)
    (isBareLine_terminator pou.kind) (bracket?_header name type other) closes
    (isFine_header name type) final

/-- The text of an ordinary unit, whose result type is not the word that ends it, has neither an
    error nor a line without its semicolon. -/
theorem validate_ordinary {pou : Pou} (ordinary : pou.isOrdinary = true)
    (other : pou.returnType ≠ some pou.kind.terminator) :
    ∃ text, pou.text? = some text ∧ ∀ extraTypes, ∀ f ∈ validate extraTypes text,
      f.problem.severity ≠ .error ∧ f.problem ≠ .missingSemicolon := by
  have bare := (@isPassed_unit [] pou ordinary other).bare
  refine ⟨pou.text, Pou.text?_of_bare bare, ?_⟩
  intro extraTypes f mem
  have passed := @isPassed_unit (extraTypes.map upper) pou ordinary other
  have quiet := passed.quiet.append .blank
  rw [← lineTexts_text bare] at quiet
  obtain ⟨closed, harmless⟩ := quiet (sourceLines pou.text) [] rfl rfl
  rw [validate] at mem
  dsimp only at mem
  rw [(checkLines_nesting _ _ _).1, closed] at mem
  rcases List.mem_append.mp mem with mem | mem
  · exact harmless f mem
  · exact absurd mem List.not_mem_nil

def ordinaryUnit : Pou where
  kind := .functionBlock
  name := "Mixer".toList
  returnType := some "END_FUNCTION".toList
  declared := [⟨"level".toList, "REAL".toList, .internal, some "2 * (a".toList⟩,
    ⟨"Run".toList, "BOOL".toList, .input, some []⟩, ⟨"t1".toList, "TON".toList, .internal, none⟩]
  statements := [
    .whileLoop none [.forLoop [.conditional none none (some [])], .ret none],
    .conditional (some (.comparison .gt (.variable "level".toList)
        (.literal (.real (.finite true 5902958103587057 (-69)))))) (some [
      .assignment "t1.PT".toList (.negation (.connective .or (.variable "t1.Q".toList)
        (.call "Limit".toList [.literal (.int (-5)), .variable "level".toList])))])
      (some [.call [] "t1".toList [.literal (.bool true)], .ret (some (.literal (.int 7)))])]

theorem validate_ordinary_mixer :
    ordinaryUnit.isOrdinary = true ∧ ordinaryUnit.returnType ≠ some ordinaryUnit.kind.terminator ∧
      ∃ text, ordinaryUnit.text? = some text ∧ ∀ f ∈ validate [] text,
        f.problem.severity ≠ .error ∧ f.problem ≠ .missingSemicolon := by
  have ordinary : ordinaryUnit.isOrdinary = true := by decide
  have other : ordinaryUnit.returnType ≠ some ordinaryUnit.kind.terminator := by decide
  obtain ⟨text, written, harmless⟩ := validate_ordinary ordinary other
  exact ⟨ordinary, other, text, written, harmless []⟩

/-- Its header holds the end of the unit as the result type, so it opens nothing. -/
def endTypedUnit : Pou := ⟨.program, "P".toList, some "END_PROGRAM".toList, [], []⟩

theorem validate_endTyped :
    endTypedUnit.isOrdinary = true ∧ ∃ text, endTypedUnit.text? = some text ∧
      ∃ f ∈ validate [] text, f.problem.severity = .error := by
  refine ⟨by decide, endTypedUnit.text, by decide, ?_⟩
  exact ⟨⟨2, 0, .unexpectedEnd (.unit .program)⟩, by decide, rfl⟩

end StructuredText
