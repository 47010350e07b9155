import StructuredText.Finding
import StructuredText.Text.Search
import StructuredText.Vocabulary

/- Every construct that is opened has to be closed by its own end. -/
namespace StructuredText

structure OpenConstruct where
  construct : Construct
  line : Nat
  deriving DecidableEq

def opensUnit (kind : PouKind) (t : Text) : Bool :=
  match (after? kind.keyword t).bind afterBlanks? with
  | some rest => rest.head?.any isWord
  | none => false

def opener? (t : Text) : Option Construct :=
  match PouKind.all.find? (opensUnit · t) with
  | some kind => some (.unit kind)
  | none =>
    match Construct.controls.find? fun c => startsWithWord c.keyword t with
    | some c => some c
    | none =>
      let word := withoutTrailing ';' (t.takeWhile (! isBlank ·))
      if sectionKeywords.contains word then some .declarations else none

/-- The construct that a line opens and does not close itself. -/
def opened? (t : Text) : Option Construct :=
  (opener? t).filter fun c => !containsWord c.terminator t

def closed? (t : Text) : Option Construct :=
  Construct.all.find? fun c => startsWithWord c.terminator t

/-- The open constructs, the innermost first, behind the end of `found`.  An end that does not
    fit leaves them as they are. -/
def closeConstruct (line : Nat) (found : Construct) :
    List OpenConstruct → List Finding × List OpenConstruct
  | [] => ([⟨line, 0, .unexpectedEnd found⟩], [])
  | top :: rest =>
    if top.construct = found then ([], rest)
    else ([⟨line, 0, .wrongEnd top.construct found⟩], top :: rest)

def checkNesting (line : Line) (stack : List OpenConstruct) :
    List Finding × List OpenConstruct :=
  let stack := (opened? line.text).toList.map (⟨·, line.number⟩) ++ stack
  match closed? line.text with
  | none => ([], stack)
  | some found => closeConstruct line.number found stack

/-- What is open at the end, the outermost first. -/
def unclosedFindings (stack : List OpenConstruct) : List Finding :=
  stack.reverse.map fun o => ⟨o.line, 0, .unclosed o.construct⟩

end StructuredText
