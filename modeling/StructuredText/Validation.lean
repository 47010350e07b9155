import StructuredText.Remark
import StructuredText.Source.Declaration
import StructuredText.Text.Digit
import StructuredText.Validation.Assignment
import StructuredText.Validation.Call
import StructuredText.Validation.Nesting
import StructuredText.Validation.Semicolon

/- Line by line checks of a source.  No finding suppresses another. -/
namespace StructuredText

def checkDeclaration (extra : List Text) (line : Line) : List Finding :=
  match declaration? line.text with
  | none => []
  | some d =>
    (if d.name.head?.any isDigitLike then [line.finding 0 .digitFirst] else []) ++
    (if isKnownType d.type || extra.contains (upper d.type) then []
      else [line.finding d.typeOffset (.unknownType d.type)])

def checkLine (extra : List Text) (line : Line) (stack : List OpenConstruct) :
    List Finding × List OpenConstruct :=
  let (nesting, stack) := checkNesting line stack
  let top := stack.head?.map (·.construct)
  let content :=
    if top = some .declarations then checkDeclaration extra line
    else checkAssignment (top = some .caseBlock) line ++ checkCall line
  (nesting ++ checkSemicolon line ++ content, stack)

def checkLines (extra : List Text) :
    List Line → List OpenConstruct → List Finding × List OpenConstruct
  | [], stack => ([], stack)
  | line :: rest, stack =>
    if line.text.isEmpty then checkLines extra rest stack
    else
      let (findings, stack) := checkLine extra line stack
      let (further, stack) := checkLines extra rest stack
      (findings ++ further, stack)

def validate (extraTypes : List Text) (source : Text) : List Finding :=
  let (findings, stack) := checkLines (extraTypes.map upper) (sourceLines source) []
  findings ++ unclosedFindings stack

def validationRemark (source : Text) : Remark :=
  .validated source.length (validate [] source).length

end StructuredText
