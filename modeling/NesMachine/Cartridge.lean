import NesMachine.Console.Machine

/-!
# Cartridge images

An iNES image is a header of 16 bytes, an optional trainer, the program banks and the pattern banks, in
this order. Bytes after them are ignored. Any number of banks can be read; which of them a machine can
mount is decided when it is built.
-/

namespace NesMachine

inductive CartridgeSection
  | trainer
  | program
  | patterns
  deriving DecidableEq, Repr

def CartridgeSection.name : CartridgeSection → String
  | trainer => "trainer"
  | program => "PRG ROM"
  | patterns => "CHR ROM"

inductive CartridgeError
  | headerTooShort (actual : Nat)
  | missingMagic
  | sectionTooShort (part : CartridgeSection) (expected actual : Nat)
  deriving DecidableEq, Repr

def CartridgeHeader.size : Nat := 16

def CartridgeError.message : CartridgeError → String
  | headerTooShort actual =>
    "header expected " ++ toString CartridgeHeader.size ++ " bytes, got " ++ toString actual
  | missingMagic => "missing NES magic bytes"
  | sectionTooShort part expected actual =>
    part.name ++ " section expected " ++ toString expected ++ " bytes, got " ++ toString actual

structure CartridgeHeader where
  programBanks : UInt8
  patternBanks : UInt8
  flags6 : UInt8
  flags7 : UInt8
  deriving DecidableEq, Repr

namespace CartridgeHeader

def patternBankSize : Nat := 0x2000

/-- The bytes with which every image starts. -/
def magic : List UInt8 := [0x4E, 0x45, 0x53, 0x1A]

def hasTrainer (header : CartridgeHeader) : Bool :=
  header.flags6 &&& 0x04 != 0

/-- The number of the board, in two halves. -/
def mapper (header : CartridgeHeader) : UInt8 :=
  (header.flags7 &&& (0xF0 : UInt8)) ||| (header.flags6 >>> (4 : UInt8))

def programSize (header : CartridgeHeader) : Nat :=
  header.programBanks.toNat * MainMemory.bankSize

def patternSize (header : CartridgeHeader) : Nat :=
  header.patternBanks.toNat * patternBankSize

def parse (image : List UInt8) : Except CartridgeError CartridgeHeader :=
  if image.length < size then
    .error (.headerTooShort image.length)
  else if image.take 4 ≠ magic then
    .error .missingMagic
  else
    .ok
      { programBanks := image.getD 4 0
        patternBanks := image.getD 5 0
        flags6 := image.getD 6 0
        flags7 := image.getD 7 0 }

end CartridgeHeader

structure Cartridge where
  header : CartridgeHeader
  trainer : Option (List UInt8)
  program : List UInt8
  patterns : List UInt8
  deriving DecidableEq, Repr

namespace Cartridge

def trainerSize : Nat := 512

/-- Cuts a section off the front of the rest of an image. -/
def cut (part : CartridgeSection) (size : Nat) (rest : List UInt8) :
    Except CartridgeError (List UInt8 × List UInt8) :=
  if rest.length < size then
    .error (.sectionTooShort part size rest.length)
  else
    .ok (rest.take size, rest.drop size)

def cutTrainer (header : CartridgeHeader) (rest : List UInt8) :
    Except CartridgeError (Option (List UInt8) × List UInt8) :=
  if header.hasTrainer then do
    let (trainer, rest) ← cut .trainer trainerSize rest
    return (some trainer, rest)
  else
    return (none, rest)

def parse (image : List UInt8) : Except CartridgeError Cartridge := do
  let header ← CartridgeHeader.parse image
  let (trainer, rest) ← cutTrainer header (image.drop CartridgeHeader.size)
  let (program, rest) ← cut .program header.programSize rest
  let (patterns, _) ← cut .patterns header.patternSize rest
  return { header, trainer, program, patterns }

def cutBanks (program : List UInt8) : (count : Nat) → List (List UInt8)
  | 0 => []
  | count + 1 =>
    program.take MainMemory.bankSize :: cutBanks (program.drop MainMemory.bankSize) count

def banks (cartridge : Cartridge) : List (List UInt8) :=
  cutBanks cartridge.program cartridge.header.programBanks.toNat

def mount (cartridge : Cartridge) (config : Config) : Except MountError Machine :=
  Machine.build cartridge.program cartridge.patterns config

end Cartridge

end NesMachine
