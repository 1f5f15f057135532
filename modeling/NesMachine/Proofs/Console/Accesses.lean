import NesMachine.Proofs.Cpu.Activity
import NesMachine.Proofs.Ppu.RegisterAccess

/-!
# Accesses on the system bus

What the accesses of an instruction or of a sprite transfer do to the picture unit, one access at a time
and over a list. The point of it is a count: an NMI edge needs the enabling bit to rise, between two
rises the bit has to fall, and each rise and fall is a store of its own.

* `SystemBus.accessEdges`: the edges that a list of accesses makes.
* `SystemBus.foldl_accessed`: the accesses keep the timing.
* `SystemBus.accessEdges_le`: twice the edges, and the old bit, are at most the stores and the new bit.
-/

namespace NesMachine

namespace MainMemory

/-- Below `$2000` an access comes to working memory, which is there four times. -/
theorem place_of_lt {address : UInt16} (h : address.toNat < 0x2000) :
    place address = .cell (address.toNat % 0x800) :=
  if_pos h

/-- From `$4000` on each address has a byte of its own. -/
theorem place_of_le {address : UInt16} (h : 0x4000 ≤ address.toNat) :
    place address = .cell address.toNat := by
  have hNotWork : ¬address.toNat < 0x2000 := by omega
  rw [place, if_neg hNotWork, if_neg (Nat.not_lt_of_le h)]

/-- A read makes an edge only by enabling the NMI, which reads never do. -/
theorem read_accessed (memory : MainMemory) (address : UInt16) (ppu : Ppu) :
    Ppu.Accessed (Ppu.enablesNmi ppu (memory.read address ppu).2).toNat ppu
      (memory.read address ppu).2 := by
  rw [read]
  cases place address with
  | cell cell => exact .of_control_eq rfl rfl id rfl rfl
  | device folded => exact ppu.readRegister_accessed (UInt16.ofNat folded)

/-- Reads leave the control register alone. -/
theorem read_control (memory : MainMemory) (address : UInt16) (ppu : Ppu) :
    (memory.read address ppu).2.latches.control = ppu.latches.control := by
  rw [read]
  cases place address with
  | cell cell => rfl
  | device folded => exact ppu.readRegister_control (UInt16.ofNat folded)

/-- A write makes an edge exactly when it enables the NMI within the vertical blank. -/
theorem write_accessed (memory : MainMemory) (address : UInt16) (value : UInt8) (ppu : Ppu) :
    Ppu.Accessed (Ppu.enablesNmi ppu (memory.write address value ppu).2.2).toNat ppu
      (memory.write address value ppu).2.2 := by
  rw [write]
  cases place address with
  | cell cell => exact .of_control_eq rfl rfl id rfl rfl
  | device folded => exact ppu.writeRegister_accessed (UInt16.ofNat folded) value

/-- Working memory is not the picture unit's. -/
theorem write_of_lt (memory : MainMemory) {address : UInt16} (h : address.toNat < 0x2000)
    (value : UInt8) (ppu : Ppu) : (memory.write address value ppu).2.2 = ppu := by
  rw [write, place_of_lt h]

end MainMemory

namespace SystemBus

/-! ## One access -/

/-- Accesses of both kinds change the latch by the edges they make. -/
theorem after_accessed (bus : SystemBus) (access : Access) :
    Ppu.Accessed (Ppu.enablesNmi bus.ppu (Bus.after bus access).ppu).toNat bus.ppu
      (Bus.after bus access).ppu := by
  cases access with
  | read address => exact bus.memory.read_accessed address bus.ppu
  | write address value => exact bus.memory.write_accessed address value bus.ppu

/-- Only a store can change the control register. -/
theorem after_control {access : Access} (h : access.isStore = false) (bus : SystemBus) :
    (Bus.after bus access).ppu.latches.control = bus.ppu.latches.control := by
  cases access with
  | read address => exact bus.memory.read_control address bus.ppu
  | write address value =>
    -- The stack page is working memory.
    have hPage : address.toNat / 0x100 = 1 := by simpa [Access.isStore] using h
    have hWork : address.toNat < 0x2000 := by omega
    have hSame := bus.memory.write_of_lt hWork value bus.ppu
    exact congrArg (·.latches.control) hSame

/-- A transfer reads a byte as the processor would, which makes no edge, and stores it in sprite memory,
which has no part in the timing. -/
theorem copySprite_accessed (bus : SystemBus) (copy : SpriteTransfer.Copy) :
    Ppu.Accessed 0 bus.ppu (bus.copySprite copy).ppu := by
  have hRead := bus.memory.read_accessed copy.source bus.ppu
  rw [Ppu.enablesNmi_of_control_eq (bus.memory.read_control copy.source bus.ppu)] at hRead
  exact ⟨hRead.beam, hRead.shortOddFrames, hRead.vblank, hRead.nmiLatched, hRead.flagged⟩

/-! ## Several accesses -/

/-- The NMI edges that accesses make, one after another. -/
def accessEdges : SystemBus → List Access → Nat
  | _, [] => 0
  | bus, access :: rest =>
    (Ppu.enablesNmi bus.ppu (Bus.after bus access).ppu).toNat +
      accessEdges (Bus.after bus access) rest

def enableBit (bus : SystemBus) : Nat :=
  bus.ppu.latches.control.nmiEnabled.toNat

theorem enableBit_le_one (bus : SystemBus) : bus.enableBit ≤ 1 :=
  Bool.toNat_le _

/-- An edge takes a store by which the enable bit rises. -/
theorem accessEdges_step (bus : SystemBus) (access : Access) :
    2 * (Ppu.enablesNmi bus.ppu (Bus.after bus access).ppu).toNat + bus.enableBit ≤
      access.isStore.toNat + (Bus.after bus access).enableBit := by
  cases hStore : access.isStore with
  | false =>
    have hControl := after_control hStore bus
    have hNone := Ppu.enablesNmi_of_control_eq hControl
    simp [hNone, enableBit, hControl]
  | true =>
    -- The bit before, the bit after, and the flag.
    simp only [enableBit, Ppu.enablesNmi]
    cases bus.ppu.latches.control.nmiEnabled <;>
      cases (Bus.after bus access).ppu.latches.control.nmiEnabled <;>
      cases bus.ppu.latches.status.vblank <;> decide

/-- Between two edges the enable bit has to fall again, so a second edge takes two more stores. -/
theorem accessEdges_le (bus : SystemBus) (accesses : List Access) :
    2 * bus.accessEdges accesses + bus.enableBit ≤
      accesses.countP Access.isStore + (accesses.foldl Bus.after bus).enableBit := by
  induction accesses generalizing bus with
  | nil => simp [accessEdges]
  | cons access rest ih =>
    have hHere := accessEdges_step bus access
    have hRest := ih (Bus.after bus access)
    have hCount : (access :: rest).countP Access.isStore =
        access.isStore.toNat + rest.countP Access.isStore := by
      cases hStore : access.isStore with
      | false => simp [hStore]
      | true => simp [hStore, Nat.add_comm]
    rw [accessEdges, List.foldl_cons, hCount]
    omega

/-- Two stores make one edge at most. -/
theorem accessEdges_le_one {bus : SystemBus} {accesses : List Access}
    (h : accesses.countP Access.isStore ≤ 2) : bus.accessEdges accesses ≤ 1 := by
  have hCount := accessEdges_le bus accesses
  have hBit := enableBit_le_one (accesses.foldl Bus.after bus)
  omega

/-- Edges add up along a row of accesses. -/
theorem foldl_accessed (bus : SystemBus) (accesses : List Access) :
    Ppu.Accessed (bus.accessEdges accesses) bus.ppu (accesses.foldl Bus.after bus).ppu := by
  induction accesses generalizing bus with
  | nil => exact .refl bus.ppu
  | cons access rest ih => exact (bus.after_accessed access).trans (ih (Bus.after bus access))

end SystemBus

end NesMachine
