import StructuredText.Text.Capital

/- The words of the language: keywords, operators, types, variable sections. -/
namespace StructuredText

def keywords : List Text := [
  "PROGRAM", "END_PROGRAM", "FUNCTION", "END_FUNCTION", "FUNCTION_BLOCK", "END_FUNCTION_BLOCK",
  "VAR", "VAR_INPUT", "VAR_OUTPUT", "VAR_IN_OUT", "VAR_GLOBAL", "END_VAR",
  "IF", "THEN", "ELSIF", "ELSE", "END_IF", "CASE", "OF", "END_CASE",
  "FOR", "TO", "BY", "DO", "END_FOR", "WHILE", "END_WHILE", "REPEAT", "UNTIL", "END_REPEAT",
  "RETURN", "EXIT", "CONTINUE", "TRUE", "FALSE", "NULL",
  "BOOL", "BYTE", "WORD", "DWORD", "LWORD", "SINT", "INT", "DINT", "LINT",
  "USINT", "UINT", "UDINT", "ULINT", "REAL", "LREAL", "TIME", "DATE", "STRING",
  "ARRAY", "STRUCT", "END_STRUCT", "TYPE", "END_TYPE",
  "AT", "RETAIN", "CONSTANT", "PERSISTENT"].map String.toList

def operators : List Text := [
  ":=", "=", "<>", "<", ">", "<=", ">=", "+", "-", "*", "/", "MOD", "**",
  "AND", "OR", "XOR", "NOT"].map String.toList

def wordOperators : List Text := ["AND", "OR", "XOR", "NOT", "MOD"].map String.toList

def dataTypes : List Text := [
  "BOOL", "BYTE", "WORD", "DWORD", "LWORD", "SINT", "INT", "DINT", "LINT",
  "USINT", "UINT", "UDINT", "ULINT", "REAL", "LREAL", "TIME", "DATE", "STRING"].map String.toList

def timerTypes : List Text := ["TON", "TOF", "TP", "RTO"].map String.toList

def standardFunctionBlocks : List Text :=
  timerTypes ++ ["CTU", "CTD", "CTUD", "R_TRIG", "F_TRIG", "RS", "SR"].map String.toList

/-- Words that open a variable section, those included whose declarations are not kept. -/
def sectionKeywords : List Text := [
  "VAR", "VAR_INPUT", "VAR_OUTPUT", "VAR_IN_OUT", "VAR_TEMP",
  "VAR_GLOBAL", "VAR_EXTERNAL", "VAR_CONFIG", "VAR_ACCESS"].map String.toList

/-- Elementary types, and whatever begins like an array or a structure.  Function blocks are not
    known here. -/
def isKnownType (name : Text) : Bool :=
  let capital := upper name
  dataTypes.contains capital || "ARRAY".toList.isPrefixOf capital ||
    "STRUCT".toList.isPrefixOf capital

/-- A name that is a keyword or a word operator in capitals. -/
def isReserved (name : Text) : Bool :=
  keywords.contains (upper name) || wordOperators.contains (upper name)

-- Texts are compared as lists of characters, and these by their code points.
attribute [local instance (2000)] List.instLE List.decidableLE Char.instLT Char.instDecidableLt

def precedes (s t : Text) : Bool := s ≤ t

def inOrder (words : List Text) : List Text := words.mergeSort precedes

theorem mem_inOrder {word : Text} {words : List Text} : word ∈ inOrder words ↔ word ∈ words := by
  simp [inOrder]

end StructuredText
