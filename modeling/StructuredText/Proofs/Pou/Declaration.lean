import StructuredText.Proofs.Pou.StatementLine

/- The header of a unit and its variable sections: they are read as they are written. -/
namespace StructuredText

theorem isCommentFree_of_checks {t : Text} (chars : (t.all (! "\n'\"".toList.contains ·)) = true)
    (noLineComment : containsText "//".toList t = false)
    (noBlockComment : containsText "(*".toList t = false) : IsCommentFree t := by
  rw [List.all_eq_true] at chars
  have free {c : Char} (other : "\n'\"".toList.contains c = true) : c ∉ t := by
    intro mem
    have absent := chars c mem
    rw [other] at absent
    contradiction
  have absent {word : Text} (missing : containsText word t = false) : ¬ word <:+: t :=
    fun inside => Bool.noConfusion (missing.symm.trans (containsText_iff.mpr inside))
  refine ⟨free (by decide), ?_, absent noLineComment, absent noBlockComment⟩
  intro c mem
  constructor
  · rintro rfl
    exact free (by decide) mem
  · rintro rfl
    exact free (by decide) mem

theorem isPlainInitialValue_facts {t : Text} (plain : isPlainInitialValue t = true) :
    IsCommentFree t ∧ IsTrimmed t := by
  simp only [isPlainInitialValue, Bool.and_eq_true, Bool.not_eq_true'] at plain
  obtain ⟨⟨⟨⟨first, last⟩, chars⟩, noLineComment⟩, noBlockComment⟩ := plain
  refine ⟨isCommentFree_of_checks chars noLineComment noBlockComment, ?_⟩
  simp only [Option.any_eq_true, Bool.not_eq_true'] at first last
  exact ⟨first, last⟩

def isDeclarationChar (c : Char) : Bool := isWord c || " :=;".toList.contains c

theorem isDeclarationChar_of_isWord {c : Char} (word : isWord c = true) :
    isDeclarationChar c = true := by
  rw [isDeclarationChar, word, Bool.true_or]

theorem isCodeChar_of_isDeclarationChar {c : Char} (char : isDeclarationChar c = true) :
    isCodeChar c = true := by
  rw [isDeclarationChar, Bool.or_eq_true] at char
  rcases char with word | sign
  · exact isCodeChar_of_isWord word
  · have signs : ∀ d ∈ " :=;".toList, isCodeChar d = true := of_all rfl
    exact signs c (by simpa using sign)

theorem not_mem_of_isDeclarationChar {t : Text} (chars : ∀ c ∈ t, isDeclarationChar c = true)
    {c : Char} (other : isDeclarationChar c = false) : c ∉ t := by
  intro mem
  rw [chars c mem] at other
  contradiction

theorem isBareLine_surrounded {a t b : Text} (bare : IsCommentFree t)
    (left : ∀ c ∈ a, isDeclarationChar c = true) (right : ∀ c ∈ b, isDeclarationChar c = true)
    (trimmed : IsTrimmed (a ++ t ++ b)) : IsBareLine (a ++ t ++ b) := by
  have outside {c : Char} (other : isDeclarationChar c = false) (mem : c ∈ a ++ t ++ b) :
      c ∈ t := by
    simp only [List.mem_append] at mem
    rcases mem with (mem | mem) | mem
    · exact absurd mem (not_mem_of_isDeclarationChar left other)
    · exact mem
    · exact absurd mem (not_mem_of_isDeclarationChar right other)
  have inside {word : Text} (signs : ∀ c ∈ word, isDeclarationChar c = false)
      (found : word <:+: a ++ t ++ b) : word <:+: t := by
    apply infix_of_append_left (a := a)
    · intro c mem inWord
      exact not_mem_of_isDeclarationChar left (signs c inWord) mem
    · apply infix_of_append_right _ found
      intro c mem inWord
      exact not_mem_of_isDeclarationChar right (signs c inWord) mem
  refine ⟨?_, ?_, ?_, ?_, trimmed⟩
  · exact fun mem => bare.oneLine (outside (by decide) mem)
  · intro c mem
    constructor
    · rintro rfl
      exact (bare.unquoted _ (outside (by decide) mem)).1 rfl
    · rintro rfl
      exact (bare.unquoted _ (outside (by decide) mem)).2 rfl
  · exact fun found => bare.noLineComment (inside (of_all rfl) found)
  · exact fun found => bare.noBlockComment (inside (of_all rfl) found)

def Variable.ending (v : Variable) : Text :=
  v.initialValue.elim [] (" := ".toList ++ ·) ++ [';']

def Variable.text (v : Variable) : Text := v.name ++ " : ".toList ++ v.type ++ v.ending

theorem Variable.line_eq (v : Variable) : v.line = ⟨1, some v.text⟩ := by
  rw [line, Written.fixed, text, ending, List.append_assoc (v.name ++ " : ".toList ++ v.type)]

theorem atWordEnd_ending (v : Variable) : atWordEnd v.ending = true := by
  rw [Variable.ending]
  cases v.initialValue with
  | none => rfl
  | some value => rfl

theorem declaredValue_concat {t : Text} (trimmed : IsTrimmed t) :
    declaredValue (t ++ [';']) = t := by
  have long : (t ++ [';']).length > 1 := by
    have := List.length_pos_iff.mpr trimmed.ne_nil
    simp only [List.length_append, List.length_cons, List.length_nil]
    omega
  have solid : trimRight t = t := trimRight_append [] trimmed.last
  have ends : (decide ((t ++ [';']).length > 1) && decide ((t ++ [';']).getLast? = some ';')) =
      true := by
    rw [decide_eq_true long, List.getLast?_concat]
    rfl
  rw [declaredValue, if_pos ends, List.dropLast_concat, solid]

section Text
variable {v : Variable} (name : Name v.name) (type : Name v.type)
include name type

theorem Variable.isBareLine_text (initial : ∀ t ∈ v.initialValue, IsCommentFree t) :
    IsBareLine v.text := by
  have semicolon : IsTrimmed [';'] := isTrimmed_of_solid (by simp) (of_all rfl)
  have front : ∀ c ∈ v.name ++ " : ".toList ++ v.type, isDeclarationChar c = true := by
    rw [List.forall_mem_append, List.forall_mem_append]
    refine ⟨⟨?_, of_all rfl⟩, ?_⟩
    · exact fun c mem => isDeclarationChar_of_isWord (name.letters c mem)
    · exact fun c mem => isDeclarationChar_of_isWord (type.letters c mem)
  have trimmed : IsTrimmed v.text := by
    have joined := name.isTrimmed.between semicolon
      (" : ".toList ++ v.type ++ v.initialValue.elim [] (" := ".toList ++ ·))
    simpa [text, ending] using joined
  cases given : v.initialValue with
  | none =>
    have shape : v.text = v.name ++ " : ".toList ++ v.type ++ [';'] := by
      rw [text, ending, given]
      rfl
    rw [shape] at trimmed ⊢
    apply isBareLine_of_code _ trimmed
    rw [List.forall_mem_append]
    exact ⟨fun c mem => isCodeChar_of_isDeclarationChar (front c mem), of_all rfl⟩
  | some value =>
    have shape : v.text = v.name ++ " : ".toList ++ v.type ++ " := ".toList ++ value ++ [';'] := by
      rw [text, ending, given]
      simp
    rw [shape] at trimmed ⊢
    apply isBareLine_surrounded (initial value given) _ (of_all rfl) trimmed
    rw [List.forall_mem_append]
    exact ⟨front, of_all rfl⟩

theorem Variable.declaration_text :
    ∃ offset, declaration? v.text = some ⟨v.name, v.type, offset, v.ending⟩ := by
  have named : word? v.text = some (v.name, " : ".toList ++ v.type ++ v.ending) := by
    rw [text, List.append_assoc, List.append_assoc, ← List.append_assoc " : ".toList,
      word?_append name.nonempty name.letters rfl]
  have colon : after? [':'] (trimLeft (" : ".toList ++ v.type ++ v.ending)) =
      some (' ' :: (v.type ++ v.ending)) := by
    apply after?_eq_some_iff.mpr
    rw [List.append_assoc]
    rfl
  have typed : trimLeft (' ' :: (v.type ++ v.ending)) = v.type ++ v.ending :=
    trimLeft_append type.isTrimmed.first v.ending
  refine ⟨v.text.length - (v.type ++ v.ending).length, ?_⟩
  rw [declaration?, named]
  simp only [colon, typed, word?_append type.nonempty type.letters (atWordEnd_ending v)]
  rfl

end Text

/-- The declaration of a variable is taken for itself in a unit of this kind, and its initial value
    is told from the blanks around it. -/
structure Variable.IsDeclared (kind : PouKind) (v : Variable) : Prop where
  name : Name v.name
  type : Name v.type
  noSection : v.name ∉ sectionKeywords
  noSectionEnd : v.name ≠ "END_VAR".toList
  noEnd : v.name ≠ kind.terminator
  trimmed : ∀ t ∈ v.initialValue, IsTrimmed t

namespace Variable.Plain
variable {kind : PouKind} {v : Variable} (plain : v.Plain kind)
include plain

theorem isBareLine : IsBareLine v.text :=
  isBareLine_text plain.name plain.type
    fun t mem => (isPlainInitialValue_facts (plain.initial t mem)).1

theorem isDeclared : v.IsDeclared kind :=
  ⟨plain.name, plain.type, plain.noSection, plain.noSectionEnd, plain.noEnd,
    fun t mem => (isPlainInitialValue_facts (plain.initial t mem)).2⟩

end Variable.Plain

namespace Variable.IsDeclared
variable {kind : PouKind} {v : Variable} (declared : v.IsDeclared kind)
include declared

theorem unitLine :
    UnitLine.of kind v.text = .strayTerminator ∨ UnitLine.of kind v.text = .other := by
  have shape : v.text = v.name ++ ' ' :: (": ".toList ++ v.type ++ v.ending) := by simp [text]
  have word : firstWord v.text = v.name := by
    rw [shape, firstWord_blank declared.name.solid declared.name.nonempty]
  have nonempty : v.text.isEmpty = false := by simp [shape]
  have stays : endsUnit kind v.text = false := by simpa [endsUnit, word] using declared.noEnd
  have opens : opensSection v.text = false := by simpa [opensSection, word] using declared.noSection
  have closes : closesSection v.text = false := by
    simpa only [closesSection, word, decide_eq_false_iff_not] using declared.noSectionEnd
  rw [unitLine_outside stays opens closes, nonempty]
  cases isTerminator v.text with
  | true => exact Or.inl rfl
  | false => exact Or.inr rfl

theorem ofLine?_text : Variable.ofLine? v.role v.text = some v := by
  obtain ⟨offset, found⟩ := declaration_text declared.name declared.type
  rw [ofLine?, found]
  obtain ⟨name, type, role, initialValue⟩ := v
  cases initialValue with
  | none => rfl
  | some value =>
    have trimmed := declared.trimmed value rfl
    have sign : after? ":=".toList (trimLeft (ending ⟨name, type, role, some value⟩)) =
        some (' ' :: (value ++ [';'])) := after?_eq_some_iff.mpr rfl
    have behind : trimLeft (' ' :: (value ++ [';'])) = value ++ [';'] :=
      trimLeft_append trimmed.first [';']
    have filled : (value ++ [';']).isEmpty = false := by simp
    simp only [sign, behind, filled, declaredValue_concat trimmed]
    rfl

end Variable.IsDeclared

def declaring (declared : List Variable) (read : UnitContent × Progress) : UnitContent × Progress :=
  (⟨declared ++ read.1.declared, read.1.statements⟩, read.2)

theorem declaring_declaring (first second : List Variable) (read : UnitContent × Progress) :
    declaring first (declaring second read) = declaring (first ++ second) read := by
  simp [declaring]

section Sections
variable (block : BlockReader) {kind : PouKind} (rest : List Text) (p : Progress)

theorem readUnitLines_declarations {role : VariableRole} {declared : List Variable}
    (each : ∀ v ∈ declared, v.IsDeclared kind) (same : ∀ v ∈ declared, v.role = role) :
    readUnitLines block kind (.declarations (some role)) 0
        (textsOf (declared.map Variable.line) ++ rest) p =
      declaring declared (readUnitLines block kind (.declarations (some role)) 0 rest p) := by
  induction declared with
  | nil => rfl
  | cons v declared ih =>
    have here := each v List.mem_cons_self
    obtain rfl := same v List.mem_cons_self
    have first : textsOf ((v :: declared).map Variable.line) ++ rest =
        v.text :: (textsOf (declared.map Variable.line) ++ rest) := by
      rw [List.map_cons, v.line_eq]
      rfl
    rw [first, readUnitLines_declaration _ _ _ here.unitLine, Option.bind_some, here.ofLine?_text,
      ih (fun u mem => each u (List.mem_cons_of_mem v mem))
        (fun u mem => same u (List.mem_cons_of_mem v mem))]
    rfl

theorem unitLine_of_mem_sections {role : VariableRole} {keyword : Text}
    (mem : (role, keyword) ∈ sections) : UnitLine.of kind keyword = .opensSection (some role) := by
  simp only [sections, List.mem_cons, Prod.mk.injEq, List.not_mem_nil, or_false] at mem
  rcases mem with ⟨rfl, rfl⟩ | ⟨rfl, rfl⟩ | ⟨rfl, rfl⟩ | ⟨rfl, rfl⟩ <;> cases kind <;> rfl

theorem unitLine_endVar (kind : PouKind) :
    UnitLine.of kind "END_VAR".toList = .closesSection := by cases kind <;> rfl

theorem readUnitLines_section {role : VariableRole} {keyword : Text}
    (listed : (role, keyword) ∈ sections) {declared : List Variable}
    (each : ∀ v ∈ declared, v.IsDeclared kind) (same : ∀ v ∈ declared, v.role = role) :
    readUnitLines block kind .body 0 (textsOf (sectionLines keyword declared) ++ rest) p =
      declaring declared (readUnitLines block kind .body 0 rest p) := by
  cases declared with
  | nil => rfl
  | cons v declared =>
    have filled : (v :: declared).isEmpty = false := rfl
    have lines : textsOf (sectionLines keyword (v :: declared)) ++ rest =
        keyword :: (textsOf ((v :: declared).map Variable.line) ++ ("END_VAR".toList :: rest)) := by
      rw [sectionLines, filled, if_neg Bool.false_ne_true, textsOf_append, List.append_assoc]
      rfl
    rw [lines, readUnitLines_opensSection _ _ _ (unitLine_of_mem_sections listed),
      readUnitLines_declarations block _ p each same,
      readUnitLines_closesSection _ _ _ (unitLine_endVar kind)]

theorem readUnitLines_sections {pou : Pou} (each : ∀ v ∈ pou.declared, v.IsDeclared kind)
    {listed : List (VariableRole × Text)} (within : listed ⊆ sections) :
    readUnitLines block kind .body 0
        (textsOf (listed.flatMap fun (role, keyword) => sectionLines keyword (pou.ofRole role)) ++
          rest) p =
      declaring (listed.flatMap fun (role, _) => pou.ofRole role)
        (readUnitLines block kind .body 0 rest p) := by
  induction listed with
  | nil => rfl
  | cons entry listed ih =>
    obtain ⟨role, keyword⟩ := entry
    obtain ⟨here, later⟩ := List.cons_subset.mp within
    have inRole {v : Variable} (mem : v ∈ pou.ofRole role) : v ∈ pou.declared ∧ v.role = role := by
      simpa [Pou.ofRole] using mem
    rw [List.flatMap_cons, List.flatMap_cons, textsOf_append, List.append_assoc,
      readUnitLines_section block _ p here (fun v mem => each v (inRole mem).1)
        (fun v mem => (inRole mem).2),
      ih later, declaring_declaring]

end Sections

theorem areBare_sectionLines {role : VariableRole} {keyword : Text}
    (listed : (role, keyword) ∈ sections) {declared : List Variable}
    (bare : ∀ v ∈ declared, IsBareLine v.text) : AreBare (sectionLines keyword declared) := by
  have word : IsBareLine keyword := by
    simp only [sections, List.mem_cons, Prod.mk.injEq, List.not_mem_nil, or_false] at listed
    rcases listed with ⟨-, rfl⟩ | ⟨-, rfl⟩ | ⟨-, rfl⟩ | ⟨-, rfl⟩ <;>
      exact isBareLine_of_code (of_all rfl) (isTrimmed_of_solid (by decide) (of_all rfl))
  have closing : IsBareLine "END_VAR".toList :=
    isBareLine_of_code (of_all rfl) (isTrimmed_of_solid (by decide) (of_all rfl))
  have inner : AreBare (declared.map Variable.line) := by
    rw [List.map_eq_flatMap]
    apply AreBare.flatMap
    intro v mem
    rw [v.line_eq]
    exact .singleton (bare v mem)
  rw [sectionLines]
  split
  · exact .nil
  · exact AreBare.append (.cons word inner) (.singleton closing)

theorem areBare_sections {pou : Pou} (bare : ∀ v ∈ pou.declared, IsBareLine v.text) :
    AreBare (sections.flatMap fun (role, keyword) => sectionLines keyword (pou.ofRole role)) :=
  AreBare.flatMap fun _ listed => areBare_sectionLines listed
    fun v mem => bare v (List.mem_of_mem_filter mem)

def headerTail (returnType : Option Text) : Text := returnType.elim [] (" : ".toList ++ ·)

theorem typeBehindColon?_headerTail {returnType : Option Text}
    (type : ∀ t ∈ returnType, Name t) : typeBehindColon? (headerTail returnType) = returnType := by
  cases returnType with
  | none => rfl
  | some t =>
    have named := type t rfl
    have colon : after? [':'] (trimLeft (headerTail (some t))) = some (' ' :: t) :=
      after?_eq_some_iff.mpr rfl
    have typed : trimLeft (' ' :: t) = t := dropWhile_eq_self named.isTrimmed.first
    have word : word? (t ++ []) = some (t, []) := word?_append named.nonempty named.letters rfl
    rw [List.append_nil] at word
    rw [typeBehindColon?, colon, Option.bind_some, typed, word]
    rfl

section Header
variable {pou : Pou} (name : Name pou.name) (type : ∀ t ∈ pou.returnType, Name t)
include name type

theorem header_eq :
    pou.header = pou.kind.keyword ++ ' ' :: (pou.name ++ headerTail pou.returnType) := by
  have ends : pou.kind.keyword ++ ' ' :: pou.name = pou.kind.keyword ++ [' '] ++ pou.name := by
    simp
  rw [Pou.header, ends, trimRight_append _ name.isTrimmed.last]
  cases found : pou.returnType with
  | none => simp [headerTail]
  | some t =>
    have nonempty := (type t found).nonempty
    cases t with
    | nil => contradiction
    | cons c t => simp [headerTail]

theorem headerKind?_header : headerKind? pou.header = some pou.kind := by
  rw [header_eq name type]
  cases pou.kind <;> rfl

theorem headerNames_header :
    headerNames pou.kind pou.header = (pou.name, pou.returnType) := by
  have ends : atWordEnd (headerTail pou.returnType) = true := by
    cases pou.returnType <;> rfl
  have behind : afterBlanks? (' ' :: (pou.name ++ headerTail pou.returnType)) =
      some (pou.name ++ headerTail pou.returnType) := by
    rw [afterBlanks?, if_pos (by decide), trimLeft_append name.isTrimmed.first]
  rw [headerNames, header_eq name type, List.drop_left, behind, Option.bind_some,
    word?_append name.nonempty name.letters ends]
  exact congrArg (pou.name, ·) (typeBehindColon?_headerTail type)

theorem isBareLine_header : IsBareLine pou.header := by
  rw [header_eq name type]
  have keyword : ∀ c ∈ pou.kind.keyword, isCodeChar c = true := by
    cases pou.kind <;> exact of_all rfl
  have word : IsTrimmed pou.kind.keyword := by
    cases pou.kind <;> exact isTrimmed_of_solid (by decide) (of_all rfl)
  have tail : ∀ c ∈ headerTail pou.returnType, isCodeChar c = true := by
    cases found : pou.returnType with
    | none => exact of_all rfl
    | some t =>
      rw [headerTail, Option.elim_some, List.forall_mem_append]
      exact ⟨of_all rfl, fun c mem => isCodeChar_of_isWord ((type t found).letters c mem)⟩
  apply isBareLine_of_code
  · rw [List.forall_mem_append, List.forall_mem_cons, List.forall_mem_append]
    refine ⟨keyword, by decide, ?_, tail⟩
    exact fun c mem => isCodeChar_of_isWord (name.letters c mem)
  · cases found : pou.returnType with
    | none =>
      have joined := word.between name.isTrimmed [' ']
      simpa [headerTail] using joined
    | some t =>
      have joined := word.between (type t found).isTrimmed (' ' :: (pou.name ++ " : ".toList))
      simpa [headerTail] using joined

end Header

theorem isBareLine_terminator (kind : PouKind) : IsBareLine kind.terminator := by
  cases kind <;> exact isBareLine_of_code (of_all rfl) (isTrimmed_of_solid (by decide) (of_all rfl))

end StructuredText
