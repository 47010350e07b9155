/- How deep nesting may go. -/
namespace StructuredText

/-- Deeper expressions stay text. -/
def expressionLimit : Nat := 64

/-- At most this many conditional blocks are open at once; a deeper IF is read as a line for
    itself. -/
def blockLimit : Nat := 64

def drawingLimit : Nat := 200

end StructuredText
