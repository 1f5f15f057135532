import Mathlib.Tactic.SplitIfs
import NesMachine.Bus.Flat
import NesMachine.Ppu.Basic
import NesMachine.Proofs.Word

/-!
# Histories of a picture unit

What reaches a picture unit from outside is an access to a register or the passing of a dot. A history is
any list of these, from the first switching on or from a reset.

* `Ppu.after`: the picture unit after a history.
* `Ppu.send`, `Ppu.receive`: writes to one register and reads of it, with no time in between.
* `Ppu.tick_frame`: what a dot can change.
* `Ppu.after_addressFits`: the video address keeps to the 14 lines of its bus.
-/

namespace NesMachine

namespace Ppu

inductive Event
  | access (access : Access)
  | dot
  deriving DecidableEq, Repr

/-- The byte that an access puts on the data lines, written or returned, and the picture unit after it. -/
def respond (ppu : Ppu) : Access → UInt8 × Ppu
  | .read address => ppu.readRegister address
  | .write address value => (value, ppu.writeRegister address value)

def next (ppu : Ppu) : Event → Ppu
  | .access access => (ppu.respond access).2
  | .dot => ppu.tick

def after (ppu : Ppu) (history : List Event) : Ppu :=
  history.foldl next ppu

/-- Bytes are written to one register, in their order. -/
def send (ppu : Ppu) (address : UInt16) (bytes : List UInt8) : Ppu :=
  bytes.foldl (fun ppu byte => ppu.writeRegister address byte) ppu

/-- What so many reads of one register answer, and the picture unit after them. -/
def receive (ppu : Ppu) (address : UInt16) : Nat → List UInt8 × Ppu
  | 0 => ([], ppu)
  | n + 1 =>
    let first := ppu.readRegister address
    let rest := first.2.receive address n
    (first.1 :: rest.1, rest.2)

/-- Where a history starts. -/
inductive Started : Ppu → Prop
  | fresh : Started {}
  | reset (before : Ppu) (kind : Reset) : Started (before.reset kind)

/-- From the start, nothing is on the data lines. -/
theorem Started.openBus_eq {start : Ppu} (h : start.Started) : start.openBus = {} := by
  cases h with
  | fresh => rfl
  | reset before kind => rfl

theorem Started.latches_eq {start : Ppu} (h : start.Started) : start.latches = {} := by
  cases h with
  | fresh => rfl
  | reset before kind => rfl

theorem Started.beam_eq {start : Ppu} (h : start.Started) : start.beam = {} := by
  cases h with
  | fresh => rfl
  | reset before kind => rfl

theorem after_append_singleton (ppu : Ppu) (history : List Event) (event : Event) :
    ppu.after (history ++ [event]) = (ppu.after history).next event := by
  rw [after, List.foldl_append]
  rfl

/-! ## A dot -/

/-- What a dot can change: the open bus, the status, the sprite address, the NMI latch and the beam. -/
theorem tick_frame (ppu : Ppu) :
    ∃ status oamAddress nmiLatched, ppu.tick =
      { ppu with
        openBus := ppu.openBus.tick
        latches := { ppu.latches with status, oamAddress }
        nmiLatched
        beam := ppu.tick.beam } := by
  simp only [tick, statusEvent, spriteEvent]
  split_ifs <;> exact ⟨_, _, _, rfl⟩

theorem tick_openBus (ppu : Ppu) : ppu.tick.openBus = ppu.openBus.tick := by
  rcases ppu.tick_frame with ⟨status, oamAddress, nmiLatched, hTick⟩
  rw [hTick]

/-- The video address stands still between accesses. -/
theorem tick_vramAddress (ppu : Ppu) : ppu.tick.latches.vramAddress = ppu.latches.vramAddress := by
  rcases ppu.tick_frame with ⟨status, oamAddress, nmiLatched, hTick⟩
  rw [hTick]

@[simp] theorem tick_oam (ppu : Ppu) : ppu.tick.oam = ppu.oam := by
  rcases ppu.tick_frame with ⟨status, oamAddress, nmiLatched, hTick⟩
  rw [hTick]

@[simp] theorem ticks_oam (ppu : Ppu) (n : Nat) : (ppu.ticks n).oam = ppu.oam := by
  induction n generalizing ppu with
  | zero => rfl
  | succ n ih => rw [ticks, ih, tick_oam]

/-! ## The video address -/

/-- The video address lies on its bus. -/
def AddressFits (ppu : Ppu) : Prop :=
  ppu.latches.vramAddress.toNat < 0x4000

variable {ppu : Ppu}

/-- An address that lies on the bus is accessed as it is. -/
theorem dataAddress_eq (h : ppu.AddressFits) : ppu.dataAddress = ppu.latches.vramAddress := by
  refine UInt16.toNat_inj.mp ?_
  calc
    ppu.dataAddress.toNat = ppu.latches.vramAddress.toNat &&& (2 ^ 14 - 1) := UInt16.toNat_and ..
    _ = ppu.latches.vramAddress.toNat % 2 ^ 14 := Nat.and_two_pow_sub_one_eq_mod _ _
    _ = ppu.latches.vramAddress.toNat := Nat.mod_eq_of_lt h

/-- Moving the address on wraps at the end of the video bus. -/
theorem vramAddress_advance_lt (latches : Latches) : latches.advance.vramAddress.toNat < 0x4000 := by
  have hMasked : latches.advance.vramAddress.toNat ≤ 0x3FFF := by
    rw [Latches.advance, UInt16.toNat_and]
    exact Nat.and_le_right
  exact Nat.lt_succ_of_le hMasked

/-- The first half of an address goes to the high byte. -/
theorem setAddressHalf_first {latches : Latches} (h : latches.secondWrite = false) (value : UInt8) :
    latches.setAddressHalf value =
      { latches with
        vramAddress := Word.ofBytes (Word.low latches.vramAddress) (value &&& 0x3F)
        secondWrite := true } := by
  simp [Latches.setAddressHalf, h]

/-- The second half goes to the low byte. -/
theorem setAddressHalf_second {latches : Latches} (h : latches.secondWrite = true) (value : UInt8) :
    latches.setAddressHalf value =
      { latches with
        vramAddress := Word.ofBytes value (Word.high latches.vramAddress)
        secondWrite := false } := by
  simp [Latches.setAddressHalf, h]

theorem toNat_highHalf (value : UInt8) : (value &&& 0x3F).toNat = value.toNat % 64 := by
  rw [UInt8.toNat_and]
  exact Nat.and_two_pow_sub_one_eq_mod _ 6

/-- Either half of an address leaves the two top lines clear. -/
theorem vramAddress_setAddressHalf_lt {latches : Latches} (h : latches.vramAddress.toNat < 0x4000)
    (value : UInt8) : (latches.setAddressHalf value).vramAddress.toNat < 0x4000 := by
  have hLow := value.toNat_lt
  have hRest := (Word.low latches.vramAddress).toNat_lt
  cases hSecond : latches.secondWrite with
  | true =>
    rw [setAddressHalf_second hSecond, Word.toNat_ofBytes, Word.toNat_high]
    omega
  | false =>
    rw [setAddressHalf_first hSecond, Word.toNat_ofBytes, toNat_highHalf]
    omega

/-- Reading a register keeps the address on its bus. -/
theorem readRegister_addressFits (h : ppu.AddressFits) (address : UInt16) :
    (ppu.readRegister address).2.AddressFits := by
  rw [readRegister]
  cases PpuRegister.ofAddress address with
  | data =>
    simp only [dataRead]
    split
    · exact vramAddress_advance_lt _
    · exact vramAddress_advance_lt _
  | _ => exact h

/-- Writing a register keeps the address on its bus. -/
theorem writeRegister_addressFits (h : ppu.AddressFits) (address : UInt16) (value : UInt8) :
    (ppu.writeRegister address value).AddressFits := by
  rw [writeRegister]
  cases PpuRegister.ofAddress address with
  | oamData =>
    simp only [settleWrite, oamWrite]
    split
    · exact h
    · exact h
  | address => exact vramAddress_setAddressHalf_lt h value
  | data => exact vramAddress_advance_lt _
  | _ => exact h

theorem next_addressFits (h : ppu.AddressFits) (event : Event) : (ppu.next event).AddressFits := by
  cases event with
  | access access =>
    cases access with
    | read address => exact readRegister_addressFits h address
    | write address value => exact writeRegister_addressFits h address value
  | dot =>
    rw [next, AddressFits, tick_vramAddress]
    exact h

/-- The video address never leaves its bus. -/
theorem after_addressFits (h : ppu.AddressFits) (history : List Event) :
    (ppu.after history).AddressFits := by
  induction history generalizing ppu with
  | nil => exact h
  | cons event rest ih => exact ih (next_addressFits h event)

theorem Started.addressFits {start : Ppu} (h : start.Started) : start.AddressFits := by
  rw [AddressFits, h.latches_eq]
  decide

end Ppu

end NesMachine
