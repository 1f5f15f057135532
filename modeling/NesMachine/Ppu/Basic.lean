import NesMachine.Ppu.Beam
import NesMachine.Ppu.OpenBus
import NesMachine.Ppu.Registers
import NesMachine.Ppu.Vram
import NesMachine.Reset

/-!
# The picture unit

A `Ppu` is the latches behind its registers, its open bus, video and sprite memory, and the position of
the beam. Time passes a dot at a time; the processor comes in between dots, through the registers.
-/

namespace NesMachine

structure Ppu where
  latches : Latches := {}
  openBus : OpenBus := {}
  /-- Video memory, by cell. -/
  vram : Ram 16 := Ram.zero 16
  /-- Sprite memory. -/
  oam : Ram 8 := Ram.zero 8
  beam : Beam := {}
  /-- An NMI edge that the processor has not taken yet. -/
  nmiLatched : Bool := false
  /-- Whether odd frames are a dot shorter while something is shown. -/
  shortOddFrames : Bool := false
  deriving DecidableEq

instance : Inhabited Ppu := ⟨{}⟩

namespace Ppu

/-- Registers, timing and the open bus take their initial values. Power-on also clears sprite memory,
the nametables and the palette. -/
def reset (ppu : Ppu) (kind : Reset) : Ppu :=
  { shortOddFrames := ppu.shortOddFrames
    vram := if kind = .powerOn then Vram.clearWork ppu.vram else ppu.vram
    oam := if kind = .powerOn then Ram.zero 8 else ppu.oam }

/-! ## Time -/

def statusEvent (ppu : Ppu) : Ppu :=
  if ppu.beam.dot ≠ 1 then
    ppu
  else if ppu.beam.scanline = Beam.preRenderLine then
    { ppu with latches := { ppu.latches with status := {} } }
  else if ppu.beam.scanline = Beam.vblankLine then
    { ppu with
      latches := { ppu.latches with status := { ppu.latches.status with vblank := true } }
      nmiLatched := ppu.nmiLatched || ppu.latches.control.nmiEnabled }
  else
    ppu

/-- Whether sprite evaluation holds the sprite address at zero. -/
def evaluatesSprites (beam : Beam) : Bool :=
  beam.scanline ≤ Beam.postRenderLine && 257 ≤ beam.dot && beam.dot ≤ 320

def spriteEvent (ppu : Ppu) : Ppu :=
  if evaluatesSprites ppu.beam then
    { ppu with latches := { ppu.latches with oamAddress := 0 } }
  else
    ppu

def tick (ppu : Ppu) : Ppu :=
  let ppu := { ppu with openBus := ppu.openBus.tick }
  let ppu := ppu.statusEvent.spriteEvent
  { ppu with beam := ppu.beam.advance (ppu.shortOddFrames && ppu.latches.mask.rendering) }

def ticks (ppu : Ppu) : Nat → Ppu
  | 0 => ppu
  | n + 1 => ppu.tick.ticks n

def releaseNmi (ppu : Ppu) : Bool × Ppu :=
  (ppu.nmiLatched, { ppu with nmiLatched := false })

/-! ## Registers -/

/-- The bits that a read of the status register drives. -/
def statusBits : UInt8 := 0xE0

/-- The bits that a read of the palette drives. -/
def paletteBits : UInt8 := 0x3F

def paletteStart : UInt16 := 0x3F00

/-- The bits of `driven` within the mask and those of the open bus outside it. -/
def overBus (ppu : Ppu) (mask driven : UInt8) : UInt8 :=
  driven &&& mask ||| ppu.openBus.value &&& ~~~mask

/-- The sprite byte at the sprite address. Attribute bytes lack bits 2 to 4. -/
def oamByte (ppu : Ppu) : UInt8 :=
  let value := ppu.oam.get ppu.latches.oamAddress.toNat
  if ppu.latches.oamAddress % 4 = 2 then value &&& 0xE3 else value

/-- Whether the line is one of the picture and something is shown on it. -/
def isRendering (ppu : Ppu) : Bool :=
  ppu.beam.scanline < Beam.postRenderLine && ppu.latches.mask.rendering

def dataAddress (ppu : Ppu) : UInt16 :=
  ppu.latches.vramAddress &&& Latches.vramAddressMask

def registerValue (ppu : Ppu) (address : UInt16) : UInt8 :=
  match PpuRegister.ofAddress address with
  | .status => ppu.overBus statusBits ppu.latches.status.toByte
  | .oamData => ppu.oamByte
  | .data =>
    if ppu.dataAddress < paletteStart then ppu.latches.readBuffer
    else ppu.overBus paletteBits (Vram.read ppu.vram ppu.dataAddress)
  | _ => ppu.openBus.value

def refreshBus (ppu : Ppu) (mask : UInt8) : Ppu :=
  { ppu with openBus := ppu.openBus.refresh mask }

/-- Reads the status, which ends the vertical blank flag and starts the next address pair. -/
def statusRead (ppu : Ppu) : UInt8 × Ppu :=
  let ppu := ppu.refreshBus statusBits
  (ppu.overBus statusBits ppu.latches.status.toByte,
    { ppu with
      latches :=
        { ppu.latches with
          status := { ppu.latches.status with vblank := false }
          secondWrite := false } })

def oamRead (ppu : Ppu) : UInt8 × Ppu :=
  let ppu := ppu.refreshBus 0xFF
  (ppu.oamByte, ppu)

/-- Reads video memory through the read buffer. Palette bytes bypass it. -/
def dataRead (ppu : Ppu) : UInt8 × Ppu :=
  let stored := Vram.read ppu.vram ppu.dataAddress
  let latches := { ppu.latches with readBuffer := stored }.advance
  if ppu.dataAddress < paletteStart then
    (ppu.latches.readBuffer, { ppu.refreshBus 0xFF with latches })
  else
    (ppu.overBus paletteBits stored, { ppu.refreshBus paletteBits with latches })

/-- A read of a register. Registers that are only written answer with the open bus. -/
def readRegister (ppu : Ppu) (address : UInt16) : UInt8 × Ppu :=
  let (value, ppu) :=
    match PpuRegister.ofAddress address with
    | .status => ppu.statusRead
    | .oamData => ppu.oamRead
    | .data => ppu.dataRead
    | _ => (ppu.openBus.value, ppu)
  (value, { ppu with openBus := ppu.openBus.latch value })

/-- Writes the control register. Enabling the NMI within the vertical blank raises it at once. -/
def controlWrite (ppu : Ppu) (value : UInt8) : Ppu :=
  let control : Control := { byte := value }
  let edge := !ppu.latches.control.nmiEnabled && control.nmiEnabled && ppu.latches.status.vblank
  { ppu with
    latches := { ppu.latches with control }
    nmiLatched := ppu.nmiLatched || edge }

/-- Writes sprite memory, unless the line is being rendered. -/
def oamWrite (ppu : Ppu) (value : UInt8) : Ppu :=
  if ppu.isRendering then
    ppu
  else
    { ppu with
      oam := ppu.oam.set ppu.latches.oamAddress.toNat value
      latches := { ppu.latches with oamAddress := ppu.latches.oamAddress + 1 } }

def dataWrite (ppu : Ppu) (value : UInt8) : Ppu :=
  { ppu with
    vram := Vram.write ppu.vram ppu.dataAddress value
    latches := ppu.latches.advance }

/-- The effect of a write on everything but the open bus. -/
def settleWrite (ppu : Ppu) (register : PpuRegister) (value : UInt8) : Ppu :=
  match register with
  | .control => ppu.controlWrite value
  | .mask => { ppu with latches := { ppu.latches with mask := { byte := value } } }
  | .status => ppu
  | .oamAddress => { ppu with latches := { ppu.latches with oamAddress := value } }
  | .oamData => ppu.oamWrite value
  | .scroll => { ppu with latches := ppu.latches.setScrollHalf }
  | .address => { ppu with latches := ppu.latches.setAddressHalf value }
  | .data => ppu.dataWrite value

/-- A write to a register. Every write drives the whole open bus. -/
def writeRegister (ppu : Ppu) (address : UInt16) (value : UInt8) : Ppu :=
  { ppu with openBus := OpenBus.drive value }.settleWrite (PpuRegister.ofAddress address) value

instance : Device Ppu where
  read := readRegister
  write := writeRegister

/-! ## Memory -/

def memory (ppu : Ppu) : AddressSpace :=
  { layout := Vram.layout, cells := ppu.vram }

/-- A read through the tree of video memory never fails and finds the byte of its cell. -/
theorem read_memory (ppu : Ppu) (address : UInt16) :
    ppu.memory.read address = .ok (Vram.read ppu.vram address) := by
  have located : ppu.memory.locate address = .ok (.cell (Vram.cell address)) :=
    Vram.locate_layout address
  rw [AddressSpace.read, located]
  rfl

/-- A write through the tree never fails and changes the same cell. -/
theorem write_memory (ppu : Ppu) (address : UInt16) (value : UInt8) :
    ppu.memory.write address value =
      .ok { ppu with vram := Vram.write ppu.vram address value }.memory := by
  have located : ppu.memory.locate address = .ok (.cell (Vram.cell address)) :=
    Vram.locate_layout address
  rw [AddressSpace.write, located]
  rfl

def loadVram (ppu : Ppu) (start : UInt16) (bytes : List UInt8) : Ppu :=
  { ppu with vram := Vram.load ppu.vram start bytes }

def setOam (ppu : Ppu) (offset : UInt8) (value : UInt8) : Ppu :=
  { ppu with oam := ppu.oam.set offset.toNat value }

end Ppu

end NesMachine
