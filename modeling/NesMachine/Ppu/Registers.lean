import NesMachine.Word

/-!
# The registers of the picture unit

Eight registers stand at `$2000` to `$2007` of the processor's bus. This file holds the meaning of their
bits and the latches behind them.
-/

namespace NesMachine

inductive PpuRegister
  | control
  | mask
  | status
  | oamAddress
  | oamData
  | scroll
  | address
  | data
  deriving DecidableEq, Repr

namespace PpuRegister

/-- The register at a bus address, of which only the three lowest bits are looked at. -/
def ofAddress (address : UInt16) : PpuRegister :=
  match address.toNat % 8 with
  | 0 => .control
  | 1 => .mask
  | 2 => .status
  | 3 => .oamAddress
  | 4 => .oamData
  | 5 => .scroll
  | 6 => .address
  | _ => .data

/-- The lowest bus address of the register. -/
def toAddress : PpuRegister → UInt16
  | control => 0x2000
  | mask => 0x2001
  | status => 0x2002
  | oamAddress => 0x2003
  | oamData => 0x2004
  | scroll => 0x2005
  | address => 0x2006
  | data => 0x2007

end PpuRegister

structure Control where
  byte : UInt8 := 0
  deriving DecidableEq, Repr

namespace Control

/-- The nametable of the background, one of four from `$2000` on. -/
def nametable (control : Control) : UInt16 :=
  0x2000 + (control.byte &&& 0x03).toUInt16 * 0x400

/-- How far an access to the data register moves the video address: along a row of tiles or down to
the next row. -/
def increment (control : Control) : UInt16 :=
  if control.byte &&& 0x04 != 0 then 32 else 1

def backgroundTable (control : Control) : UInt16 :=
  if control.byte &&& 0x10 != 0 then 0x1000 else 0

def nmiEnabled (control : Control) : Bool :=
  control.byte &&& 0x80 != 0

end Control

structure Mask where
  byte : UInt8 := 0
  deriving DecidableEq, Repr

def Mask.rendering (mask : Mask) : Bool :=
  mask.byte &&& 0x18 != 0

structure Status where
  spriteOverflow : Bool := false
  spriteZeroHit : Bool := false
  vblank : Bool := false
  deriving DecidableEq, Repr

namespace Status

/-- Packs the flags in the three top bits. -/
def toByte (status : Status) : UInt8 :=
  Byte.ofBits false false false false false status.spriteOverflow status.spriteZeroHit status.vblank

def initial : Status :=
  { spriteOverflow := true, vblank := true }

end Status

structure Latches where
  control : Control := {}
  mask : Mask := {}
  status : Status := Status.initial
  oamAddress : UInt8 := 0
  /-- The address of the next access through the data register. -/
  vramAddress : UInt16 := 0
  /-- Whether the next write to the scroll or the address register is the second of its pair. -/
  secondWrite : Bool := false
  /-- What the next read of the data register returns. -/
  readBuffer : UInt8 := 0
  deriving DecidableEq, Repr

namespace Latches

/-- The video bus has 14 address lines. -/
def vramAddressMask : UInt16 := 0x3FFF

def advance (latches : Latches) : Latches :=
  { latches with vramAddress := (latches.vramAddress + latches.control.increment) &&& vramAddressMask }

/-- Takes one half of a video address: the high six bits first, then the low byte. -/
def setAddressHalf (latches : Latches) (value : UInt8) : Latches :=
  let address := latches.vramAddress
  { latches with
    vramAddress :=
      if latches.secondWrite then Word.ofBytes value (Word.high address)
      else Word.ofBytes (Word.low address) (value &&& 0x3F)
    secondWrite := !latches.secondWrite }

/-- Takes one half of a scroll position, of which only the order counts. -/
def setScrollHalf (latches : Latches) : Latches :=
  { latches with secondWrite := !latches.secondWrite }

end Latches

end NesMachine
