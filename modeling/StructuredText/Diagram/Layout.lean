import StructuredText.Diagram

/- Where the symbols of a unit go. -/
namespace StructuredText

/-- The unit's own block, the columns of inputs and of coils, and the logic between them in rungs
    and columns. -/
inductive Spot
  | unit
  | input (row : Nat)
  | coil (row : Nat)
  | logic (rung column : Nat)
  deriving DecidableEq

/-- Where columns and rows are, in numbers of some kind. -/
structure Raster (Number : Type) where
  inputX : Number
  logicX : Number
  coilX : Number
  blockX : Number
  startY : Number
  rowSpacing : Number
  seriesSpacing : Number

namespace Raster
variable {Number : Type}

def map {Number' : Type} (f : Number → Number') (raster : Raster Number) : Raster Number' :=
  ⟨f raster.inputX, f raster.logicX, f raster.coilX, f raster.blockX, f raster.startY,
    f raster.rowSpacing, f raster.seriesSpacing⟩

variable [NatCast Number] [Add Number] [Mul Number] (raster : Raster Number)

def rowY (row : Nat) : Number := raster.startY + row * raster.rowSpacing

def point : Spot → Point Number
  | .unit => ⟨raster.blockX, raster.startY⟩
  | .input row => ⟨raster.inputX, raster.rowY row⟩
  | .coil row => ⟨raster.coilX, raster.rowY row⟩
  | .logic rung column => ⟨raster.logicX + column * raster.seriesSpacing, raster.rowY rung⟩

end Raster

structure Layout extends Raster LReal where
  /-- Whether the else branches of conditionals are drawn. -/
  drawsElse : Bool
  /-- Whether a source without a unit is searched for patterns. -/
  fallsBack : Bool

namespace Layout

def standard : Layout := ⟨⟨100, 300, 800, 1000, 100, 100, 150⟩, false, false⟩

def position (layout : Layout) (spot : Spot) : Position := layout.toRaster.point spot

end Layout
end StructuredText
