import NesMachine.Clock

/-!
# The beam

Where the picture unit is in its frame. Scanline −1 comes before the picture, 0 to 239 are the picture,
240 follows it, and 241 to 260 are the vertical blank.
-/

namespace NesMachine

/-- A position in time: the dot that is processed next. -/
structure Beam where
  scanline : Int := -1
  dot : Nat := 0
  /-- The frames that have been completed. -/
  frame : Nat := 0
  deriving DecidableEq, Repr, Inhabited

namespace Beam

def preRenderLine : Int := -1

def postRenderLine : Int := 240

def vblankLine : Int := 241

def lastLine : Int := preRenderLine + Clock.scanlinesPerFrame - 1

def nextLine (beam : Beam) : Beam :=
  if beam.scanline < lastLine then
    { beam with scanline := beam.scanline + 1, dot := 0 }
  else
    { scanline := preRenderLine, dot := 0, frame := beam.frame + 1 }

/-- The last dot of the line before the picture is left out of odd frames if `mayDrop`. -/
def dropsDot (beam : Beam) (mayDrop : Bool) : Bool :=
  mayDrop && beam.scanline == preRenderLine && beam.dot + 2 == Clock.dotsPerScanline &&
    beam.frame % 2 == 1

def advance (beam : Beam) (mayDrop : Bool) : Beam :=
  if beam.dot + 1 < Clock.dotsPerScanline && !beam.dropsDot mayDrop then
    { beam with dot := beam.dot + 1 }
  else
    beam.nextLine

end Beam

end NesMachine
