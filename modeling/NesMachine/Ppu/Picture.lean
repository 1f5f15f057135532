import NesMachine.Ppu.Basic

/-!
# The picture

The background as the picture unit shows it: 32 by 30 tiles of eight by eight pixels. A nametable gives
each tile its pattern, an attribute byte gives each square of two by two tiles its palette, and two bit
planes give each pixel its value. A pixel of value 0 is black.
-/

namespace NesMachine

structure Color where
  red : UInt8
  green : UInt8
  blue : UInt8
  deriving DecidableEq, Repr, Inhabited

namespace Color

def black : Color := ⟨0, 0, 0⟩

/-- The component at an offset: red, green, then blue. -/
def component (color : Color) : Nat → UInt8
  | 0 => color.red
  | 1 => color.green
  | _ => color.blue

def table : Vector Color 16 :=
  #v[⟨0x7C, 0x7C, 0x7C⟩, ⟨0x00, 0x00, 0xFC⟩, ⟨0x00, 0x00, 0xBC⟩, ⟨0x44, 0x28, 0xBC⟩,
    ⟨0x94, 0x00, 0x84⟩, ⟨0xA8, 0x00, 0x20⟩, ⟨0xA8, 0x10, 0x00⟩, ⟨0x88, 0x14, 0x00⟩,
    ⟨0x50, 0x30, 0x00⟩, ⟨0x00, 0x78, 0x00⟩, ⟨0x00, 0x68, 0x00⟩, ⟨0x00, 0x58, 0x00⟩,
    ⟨0x00, 0x40, 0x58⟩, black, black, black]

/-- The colour of an index, of which only the four lowest bits count. -/
def ofIndex (index : Nat) : Color :=
  have : index % 16 < 16 := Nat.mod_lt _ (by decide)
  table[index % 16]

end Color

inductive RenderError
  | bufferTooSmall (expected actual : Nat)
  deriving DecidableEq, Repr

def RenderError.message : RenderError → String
  | .bufferTooSmall expected actual =>
    "frame buffer too small (expected " ++ toString expected ++ " bytes, got " ++ toString actual ++
      ")"

namespace Picture

def width : Nat := 256

def height : Nat := 240

/-- The bytes of a picture, three for each pixel. -/
def byteCount : Nat := width * height * 3

end Picture

namespace Ppu

def tileAt (ppu : Ppu) (x y : Nat) : UInt8 :=
  Vram.read ppu.vram (ppu.latches.control.nametable + UInt16.ofNat (y / 8 * 32 + x / 8))

def paletteAt (ppu : Ppu) (x y : Nat) : Nat :=
  let attributes := ppu.latches.control.nametable + 0x3C0
  let byte := Vram.read ppu.vram (attributes + UInt16.ofNat (y / 32 * 8 + x / 32))
  byte.toNat >>> (y / 16 % 2 * 4 + x / 16 % 2 * 2) % 4

/-- The value at a pixel, one of four: a bit from each plane of the tile's pattern. -/
def patternAt (ppu : Ppu) (x y : Nat) : Nat :=
  let row := ppu.latches.control.backgroundTable + (ppu.tileAt x y).toUInt16 * 16 + UInt16.ofNat (y % 8)
  let plane (address : UInt16) : Nat :=
    (Byte.bit (Vram.read ppu.vram address) (7 - x % 8)).toNat
  plane row + 2 * plane (row + 8)

def pixel (ppu : Ppu) (x y : Nat) : Color :=
  let value := ppu.patternAt x y
  if value = 0 then Color.black else Color.ofIndex (ppu.paletteAt x y * 4 + value)

/-- The picture, row by row, three bytes a pixel. -/
def picture (ppu : Ppu) : Array UInt8 :=
  Array.ofFn fun i : Fin Picture.byteCount =>
    (ppu.pixel (i / 3 % Picture.width) (i / 3 / Picture.width)).component (i % 3)

/-- Draws the picture into the first bytes of a buffer. -/
def renderInto (ppu : Ppu) (buffer : Array UInt8) : Except RenderError (Array UInt8) :=
  if buffer.size < Picture.byteCount then
    .error (.bufferTooSmall Picture.byteCount buffer.size)
  else
    .ok (ppu.picture ++ buffer.extract Picture.byteCount buffer.size)

end Ppu

end NesMachine
