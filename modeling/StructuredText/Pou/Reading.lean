import StructuredText.Pou.Conditional
import StructuredText.Remark
import StructuredText.Source.Declaration
import StructuredText.Source.Line
import StructuredText.Vocabulary

/- Reading the first unit of a source.  Nothing in a source is an error: lines that say nothing
   known are passed over. -/
namespace StructuredText

def headerKind? (line : Text) : Option PouKind :=
  PouKind.all.find? fun kind => startsWithWord kind.keyword line

def findHeader? : List Text → Option (PouKind × Nat × Text × List Text)
  | [] => none
  | line :: rest =>
    match headerKind? line with
    | some kind => some (kind, 0, line, rest)
    | none => (findHeader? rest).map fun (kind, before, header, rest) =>
      (kind, before + 1, header, rest)

def typeBehindColon? (t : Text) : Option Text :=
  ((after? [':'] (trimLeft t)).bind fun rest => word? (trimLeft rest)).map (·.1)

/-- The name and the result type of a header; a header that gives no name gives no type. -/
def headerNames (kind : PouKind) (header : Text) : Text × Option Text :=
  match (afterBlanks? (header.drop kind.keyword.length)).bind word? with
  | none => ([], none)
  | some (name, rest) => (name, typeBehindColon? rest)

/-- The first word of a line, without semicolons at its end. -/
def firstWord (line : Text) : Text :=
  withoutTrailing ';' ((trimLeft line).takeWhile (! isBlank ·))

/-- The initial value of a declaration, from the text behind `:=`.  A semicolon at its end is left
    out unless there is nothing else. -/
def declaredValue (t : Text) : Text :=
  if t.length > 1 && t.getLast? = some ';' then trimRight t.dropLast else t

/-- `name : type`, and behind it nothing, a semicolon, or an initial value. -/
def Variable.ofLine? (role : VariableRole) (line : Text) : Option Variable :=
  match declaration? line with
  | none => none
  | some d =>
    let behind := trimLeft d.rest
    match after? ":=".toList behind with
    | some value =>
      if (trimLeft value).isEmpty then none
      else some ⟨d.name, d.type, role, some (declaredValue (trimLeft value))⟩
    | none => if behind = [] ∨ behind = [';'] then some ⟨d.name, d.type, role, none⟩ else none

def sectionRole? (word : Text) : Option VariableRole :=
  [("VAR".toList, VariableRole.internal), ("VAR_INPUT".toList, .input),
    ("VAR_OUTPUT".toList, .output), ("VAR_IN_OUT".toList, .inout),
    ("VAR_TEMP".toList, .internal)].lookup word

/-- Where in a unit a line stands: among the statements, or in a section whose variables have a
    role, if they are kept. -/
inductive UnitPlace
  | body
  | declarations (role : Option VariableRole)

structure UnitContent where
  declared : List Variable
  statements : List Statement

inductive UnitLine
  | empty
  | terminator
  | opensSection (role : Option VariableRole)
  | closesSection
  | strayTerminator
  | other

def UnitLine.of (kind : PouKind) (line : Text) : UnitLine :=
  let word := firstWord line
  if line.isEmpty then .empty
  else if word = kind.terminator then .terminator
  else if sectionKeywords.contains word then .opensSection (sectionRole? word)
  else if word = "END_VAR".toList then .closesSection
  else if "END_".toList.isPrefixOf word then .strayTerminator
  else .other

/-- Reads the lines behind a header up to the terminator, leaving out the next `skip` lines. -/
def readUnitLines (block : BlockReader) (kind : PouKind) :
    UnitPlace → (skip : Nat) → List Text → Progress → UnitContent × Progress
  | _, _, [], p => (⟨[], []⟩, p)
  | place, skip + 1, _ :: rest, p => readUnitLines block kind place skip rest p
  | place, 0, line :: rest, p =>
    match UnitLine.of kind line, place with
    | .empty, place => readUnitLines block kind place 0 rest p
    | .terminator, _ => (⟨[], []⟩, p)
    | .opensSection role, _ => readUnitLines block kind (.declarations role) 0 rest p
    | .closesSection, _ => readUnitLines block kind .body 0 rest p
    | _, .declarations role =>
      let (content, p) := readUnitLines block kind (.declarations role) 0 rest p
      let declaration := role.bind (Variable.ofLine? · line)
      ({ content with declared := declaration.toList ++ content.declared }, p)
    | .strayTerminator, .body => readUnitLines block kind .body 0 rest p
    | .other, .body =>
      let (statement, skip, p) := readAt block line rest p
      let (content, p) := readUnitLines block kind .body skip rest p
      ({ content with statements := statement.toList ++ content.statements }, p)

theorem readUnitLines_skip (block : BlockReader) (kind : PouKind) (place : UnitPlace) (n : Nat)
    (lines : List Text) (p : Progress) :
    readUnitLines block kind place n lines p =
      readUnitLines block kind place 0 (lines.drop n) p := by
  induction lines generalizing n with
  | nil => simp [readUnitLines]
  | cons line rest ih =>
    cases n with
    | zero => rfl
    | succ n => simp [readUnitLines, ih n]

structure Reading where
  pou : Option Pou
  remarks : List Remark

def readPouBy (block : BlockReader) (kind : PouKind) (header : Text) (rest : List Text) :
    Pou × Progress :=
  let (name, returnType) := headerNames kind header
  let (content, p) := readUnitLines block kind .body 0 rest Progress.start
  (⟨kind, name, returnType, content.declared, content.statements⟩, p)

def readPou (kind : PouKind) (header : Text) (rest : List Text) : Pou × Progress :=
  readPouBy (readBlock blockLimit) kind header rest

def readLines (lines : List Text) : Reading :=
  match findHeader? lines with
  | none => ⟨none, [.noUnit]⟩
  | some (kind, _, header, rest) =>
    let (pou, p) := readPou kind header rest
    let limit := if p.tooDeep then [.conditionalsTooDeep kind pou.name] else []
    let done := .readUnit kind pou.name pou.declared.length pou.statements.length
    ⟨some pou, p.cutOffs.map .cutOff ++ limit ++ [done]⟩

def Reading.ofSource (source : Text) : Reading := readLines (lineTexts source)

def Pou.ofSource? (source : Text) : Option Pou := (Reading.ofSource source).pou

def expressionRemarks (t : Text) : List Remark :=
  (Expression.cutOffsOf t).map .cutOff

theorem Pou.ofSource?_eq_none_iff (source : Text) :
    Pou.ofSource? source = none ↔ findHeader? (lineTexts source) = none := by
  simp only [Pou.ofSource?, Reading.ofSource, readLines]
  split <;> simp_all

end StructuredText
