import NesMachine.AddressSpace.Basic
import NesMachine.Word
import NesMachine.Cpu.Arithmetic
import NesMachine.Cpu.Form
import NesMachine.Cpu.Registers
import NesMachine.Bus.Flat
import NesMachine.Clock
import NesMachine.Cpu.Decode
import NesMachine.Cpu.TraceLine
import NesMachine.Reset
import NesMachine.Cpu.Basic
import NesMachine.Ppu.Basic
import NesMachine.Ppu.Picture
import NesMachine.Console.Machine
import NesMachine.Cartridge
import NesMachine.CommandLine.HexAddress
import NesMachine.CommandLine.Quoted
import NesMachine.CommandLine.Number
import NesMachine.CommandLine.Options
import NesMachine.CommandLine.Run
import NesMachine.Main
import NesMachine.Proofs.AddressSpace.Frame
import NesMachine.Proofs.Cpu.Activity
import NesMachine.Proofs.Cpu.Timing
import NesMachine.Proofs.Cpu.IrqMasking
import NesMachine.Proofs.Ppu.Dots
import NesMachine.Proofs.Ppu.VerticalBlank
import NesMachine.Proofs.Ppu.OpenBus
import NesMachine.Proofs.Ppu.BlankFlag
import NesMachine.Proofs.Ppu.VideoBus
import NesMachine.Proofs.Console.Accesses
import NesMachine.Proofs.Console.Steps
import NesMachine.Proofs.Console.Peek
import NesMachine.Proofs.Console.MemoryMap
import NesMachine.Proofs.Console.Build
import NesMachine.Proofs.Console.FrameTiming
import NesMachine.Proofs.Console.NmiConservation
import NesMachine.Proofs.Console.SpriteCopy
import NesMachine.Proofs.Console.TraceDots
import NesMachine.Proofs.Console.SignalConservation
import NesMachine.Proofs.Console.Alike
import NesMachine.Proofs.Console.Reset
import NesMachine.Proofs.Cartridge.Parse
import NesMachine.Proofs.Cartridge.Mount
import NesMachine.Proofs.Console.ProgramBanks
import NesMachine.Proofs.Console.Runs
import NesMachine.Proofs.Console.NextFrame
import NesMachine.Proofs.CommandLine.TracedRun
import NesMachine.Proofs.CommandLine.PrintedLines
import NesMachine.Proofs.Safety.Operations
import NesMachine.Proofs.AddressSpace.Aliases
import NesMachine.Proofs.Ppu.Pixels
import NesMachine.Proofs.Cpu.Addressing
import NesMachine.Proofs.Cpu.ProgramCounter
import NesMachine.Proofs.Cpu.FlatSteps
import NesMachine.Proofs.Cpu.BinaryArithmetic
import NesMachine.Proofs.Cpu.CombinedOperations
import NesMachine.Proofs.Cpu.Returns
import NesMachine.Proofs.Cpu.Writes
import NesMachine.Proofs.Cpu.UnstableStores
import NesMachine.Proofs.Ppu.AddressPair
import NesMachine.Proofs.Ppu.SpritePort
import NesMachine.Proofs.Ppu.VideoPort
import NesMachine.Proofs.Cpu.StatusShape
import NesMachine.Proofs.AddressSpace.Loads
import NesMachine.Proofs.CommandLine.HexAddress
import NesMachine.Proofs.Cpu.TraceText
import NesMachine.Proofs.Cpu.Stack
