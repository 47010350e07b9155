import StructuredText.Text.Blank

/- Physical lines with their comments blanked out, so that offsets in a line stay what they were. -/
namespace StructuredText

inductive Region
  | code
  | quoted (mark : Char)
  | lineComment
  | blockComment
  deriving DecidableEq

/-- What a scan keeps of a character, the region behind it, and how many further characters belong
    to the same comment mark. -/
structure Scanned where
  kept : Char
  region : Region
  skip : Nat

def scan : Region → Char → Text → Scanned
  | .quoted mark, c, _ => ⟨c, if c = mark then .code else .quoted mark, 0⟩
  | .lineComment, _, _ => ⟨' ', .lineComment, 0⟩
  | .blockComment, c, rest =>
    if c = '*' ∧ rest.head? = some ')' then ⟨' ', .code, 1⟩ else ⟨' ', .blockComment, 0⟩
  | .code, c, rest =>
    if c = '\'' ∨ c = '"' then ⟨c, .quoted c, 0⟩
    else if c = '/' ∧ rest.head? = some '/' then ⟨' ', .lineComment, 0⟩
    else if c = '(' ∧ rest.head? = some '*' then ⟨' ', .blockComment, 1⟩
    else ⟨c, .code, 0⟩

def cleanFrom : Region → Nat → Text → Text
  | _, _, [] => []
  | region, skip + 1, _ :: rest => ' ' :: cleanFrom region skip rest
  | region, 0, c :: rest =>
    (scan region c rest).kept :: cleanFrom (scan region c rest).region (scan region c rest).skip rest

def regionAfter : Region → Nat → Text → Region
  | region, _, [] => region
  | region, skip + 1, _ :: rest => regionAfter region skip rest
  | region, 0, c :: rest =>
    regionAfter (scan region c rest).region (scan region c rest).skip rest

def cleanLine (start : Region) (line : Text) : Text := cleanFrom start 0 line

/-- Of all regions only a block comment runs on into the next line. -/
def Region.nextLine : Region → Region
  | .blockComment => .blockComment
  | _ => .code

/-- A trimmed line: its number from 1, and how many characters were cut at its left. -/
structure Line where
  number : Nat
  text : Text
  indent : Nat
  deriving DecidableEq

/-- The column of an offset in a text that stands behind `indent` characters.  The first column is 1;
    what would lie further left has a column of 0 or below. -/
def columnAt (indent offset : Int) : Int := indent + offset + 1

def Line.column (line : Line) (offset : Nat) : Nat := line.indent + offset + 1

theorem Line.column_eq_columnAt (line : Line) (offset : Nat) :
    (line.column offset : Int) = columnAt line.indent offset := by
  simp [Line.column, columnAt]

def Line.ofCleaned (number : Nat) (cleaned : Text) : Line :=
  let text := trim cleaned
  ⟨number, text, if text.isEmpty then 0 else leadingBlanks cleaned⟩

/-- A line ends at its newline; a carriage return before it is not part of the line. -/
def physicalLines (source : Text) : List Text :=
  (source.splitOn '\n').map (withoutFinal '\r')

def linesFrom (number : Nat) (start : Region) : List Text → List Line
  | [] => []
  | raw :: rest =>
    Line.ofCleaned number (cleanLine start raw) ::
      linesFrom (number + 1) (regionAfter start 0 raw).nextLine rest

def sourceLines (source : Text) : List Line := linesFrom 1 .code (physicalLines source)

def lineTexts (source : Text) : List Text := (sourceLines source).map (·.text)

theorem length_cleanFrom (region : Region) (skip : Nat) (t : Text) :
    (cleanFrom region skip t).length = t.length := by
  fun_induction cleanFrom region skip t <;> simp_all

theorem length_linesFrom (number : Nat) (start : Region) (raw : List Text) :
    (linesFrom number start raw).length = raw.length := by
  induction raw generalizing number start with
  | nil => rfl
  | cons line rest ih => simp [linesFrom, ih]

theorem length_sourceLines (source : Text) :
    (sourceLines source).length = (physicalLines source).length :=
  length_linesFrom ..

end StructuredText
