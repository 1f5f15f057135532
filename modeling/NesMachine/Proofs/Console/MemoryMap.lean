import Mathlib.Tactic.SplitIfs
import NesMachine.Proofs.AddressSpace.Constructors
import NesMachine.Proofs.Console.Build
import NesMachine.Proofs.Console.MainMemory

/-!
# The map of the processor's bus

Storage and devices stand behind folded addresses, and observers watch addresses as they are written. This
module builds the tree of the bus with the constructors that check it, and says what one access does: the
registers answer it, or a byte that all mirrors share; and a write is then shown to the observer of its very
address.

* `MainMemory.build_eq`: the windows are accepted around any two banks, and the tree is the layout.
* `MainMemory.canonical`: the address that stands for all that arrive at the same place.
* `MainMemory.commit`, `MainMemory.write_eq`: a write is committed before it is shown.
* `MainMemory.accesses_follow_map`: reads, peeks and writes at any address of any memory.
-/

namespace NesMachine

namespace MainMemory

attribute [local instance (high)] instPowNat

/-! ## Construction -/

def build (lower upper : List UInt8) : Except LayoutError AddressSpace := do
  let work ← AddressSpace.block 0x0000 0x0800
  let registers ← AddressSpace.device 0x2000 8
  let workRepeats ← AddressSpace.repeated work 4
  let registerRepeats ← AddressSpace.repeated registers 1024
  let expansion ← AddressSpace.block 0x4000 0x2000
  let saved ← AddressSpace.block 0x6000 0x2000
  let lowerBank ← AddressSpace.ofBytes 0x8000 lower
  let upperBank ← AddressSpace.ofBytes 0xC000 upper
  AddressSpace.composite [workRepeats, registerRepeats, expansion, saved, lowerBank, upperBank]

section Build

variable {lower upper : List UInt8}

/-- Two banks, each in its own window, are stored one after the other. -/
theorem overlay_banks (hLower : lower.length = bankSize) (hUpper : upper.length = bankSize) :
    ((Ram.zero 16).overlay ((Ram.zero 16).setBytes 0x8000 lower) 0x8000 0xC000).overlay
        ((Ram.zero 16).setBytes 0xC000 upper) 0xC000 0x10000 =
      (Ram.zero 16).setBytes 0x8000 (lower ++ upper) := by
  refine Ram.ext_get fun address => ?_
  rw [← Ram.get_mod, ← Ram.get_mod ((Ram.zero 16).setBytes 0x8000 (lower ++ upper))]
  have hCell : address % 2 ^ 16 < 2 ^ 16 := Nat.mod_lt address (by decide)
  generalize address % 2 ^ 16 = a at hCell
  have hMod : a % 2 ^ 16 = a := Nat.mod_eq_of_lt hCell
  -- `omega` does not open these names, so their values stand in the context.
  have hSize : bankSize = 0x4000 := rfl
  have hBus : 2 ^ 16 = 0x10000 := rfl
  have hLength : (lower ++ upper).length = lower.length + upper.length := List.length_append
  have hBoth := Ram.get_setBytes (Ram.zero 16) 0x8000 (lower ++ upper) a (by omega) hCell
  have hOne := Ram.get_setBytes (Ram.zero 16) 0x8000 lower a (by omega) hCell
  have hOther := Ram.get_setBytes (Ram.zero 16) 0xC000 upper a (by omega) hCell
  rw [Ram.get_overlay, Ram.get_overlay, hMod, hBoth, hOne, hOther]
  by_cases hHigh : 0xC000 ≤ a
  · have hIndex : a - 0x8000 - lower.length = a - 0xC000 := by omega
    have hFrom : (lower ++ upper)[a - 0x8000]? = upper[a - 0xC000]? := by
      rw [List.getElem?_append_right (by omega), hIndex]
    rw [if_pos ⟨hHigh, hCell⟩, if_pos hHigh, if_pos (by omega), hFrom]
  · rw [if_neg (by omega)]
    by_cases hLow : 0x8000 ≤ a
    · have hFrom : (lower ++ upper)[a - 0x8000]? = lower[a - 0x8000]? :=
        List.getElem?_append_left (by omega)
      rw [if_pos ⟨hLow, by omega⟩, if_pos hLow, if_pos hLow, hFrom]
    · rw [if_neg (by omega), if_neg hLow]

/-- Every window is accepted, and together they are the layout of the processor's bus with the banks in
place. -/
theorem build_eq (hLower : lower.length = bankSize) (hUpper : upper.length = bankSize) :
    build lower upper = .ok { layout, cells := (Ram.zero 16).setBytes 0x8000 (lower ++ upper) } := by
  let work : Layout := .block { start := 0x0000, stop := 0x0800 }
  let registers : Layout := .device { start := 0x2000, stop := 0x2008 }
  let expansion : Layout := .block { start := 0x4000, stop := 0x6000 }
  let saved : Layout := .block { start := 0x6000, stop := 0x8000 }
  let lowerWindow : Layout := .block { start := 0x8000, stop := 0xC000 }
  let upperWindow : Layout := .block { start := 0xC000, stop := 0x10000 }
  let lowerBank : AddressSpace :=
    { layout := lowerWindow, cells := (Ram.zero 16).setBytes 0x8000 lower }
  let upperBank : AddressSpace :=
    { layout := upperWindow, cells := (Ram.zero 16).setBytes 0xC000 upper }
  let parts : List AddressSpace :=
    [.ofLayout (.repeated work 4), .ofLayout (.repeated registers 1024), .ofLayout expansion,
      .ofLayout saved, lowerBank, upperBank]
  have hWork : AddressSpace.block 0x0000 0x0800 = .ok (.ofLayout work) :=
    AddressSpace.block_eq_ok rfl rfl
  have hRegisters : AddressSpace.device 0x2000 8 = .ok (.ofLayout registers) :=
    AddressSpace.device_eq_ok rfl rfl
  have hFour : Layout.ofRepeated work 4 = .ok (.repeated work 4) := by decide
  have hMany : Layout.ofRepeated registers 1024 = .ok (.repeated registers 1024) := by decide
  have hWorkRepeats := AddressSpace.repeated_eq_ok hFour
  have hRegisterRepeats := AddressSpace.repeated_eq_ok hMany
  have hExpansion : AddressSpace.block 0x4000 0x2000 = .ok (.ofLayout expansion) :=
    AddressSpace.block_eq_ok rfl rfl
  have hSaved : AddressSpace.block 0x6000 0x2000 = .ok (.ofLayout saved) :=
    AddressSpace.block_eq_ok rfl rfl
  have hLowerBank : AddressSpace.ofBytes 0x8000 lower = .ok lowerBank :=
    AddressSpace.ofBytes_eq_ok rfl (by rw [hLower]; rfl)
  have hUpperBank : AddressSpace.ofBytes 0xC000 upper = .ok upperBank :=
    AddressSpace.ofBytes_eq_ok rfl (by rw [hUpper]; rfl)
  have hParts : Layout.ofParts [.repeated work 4, .repeated registers 1024, expansion, saved,
      lowerWindow, upperWindow] = .ok layout := by decide
  -- The banks lie over cleared cells, each within its own window.
  have hCells : parts.foldl (fun cells part =>
      cells.overlay part.cells part.layout.start part.layout.stop) (Ram.zero 16) =
        (Ram.zero 16).setBytes 0x8000 (lower ++ upper) := by
    have hCleared := AddressSpace.foldl_overlay_ofLayout
      [.repeated work 4, .repeated registers 1024, expansion, saved]
    simp only [List.map_cons, List.map_nil, List.foldl_cons, List.foldl_nil] at hCleared
    simp only [parts, List.foldl_cons, List.foldl_nil, hCleared]
    exact overlay_banks hLower hUpper
  have hJoined : AddressSpace.composite parts =
      .ok { layout, cells := (Ram.zero 16).setBytes 0x8000 (lower ++ upper) } := by
    rw [← hCells]
    exact bind_eq_ok_iff.mpr ⟨layout, hParts, rfl⟩
  exact bind_eq_ok_iff.mpr ⟨_, hWork, bind_eq_ok_iff.mpr ⟨_, hRegisters,
    bind_eq_ok_iff.mpr ⟨_, hWorkRepeats, bind_eq_ok_iff.mpr ⟨_, hRegisterRepeats,
      bind_eq_ok_iff.mpr ⟨_, hExpansion, bind_eq_ok_iff.mpr ⟨_, hSaved,
        bind_eq_ok_iff.mpr ⟨_, hLowerBank, bind_eq_ok_iff.mpr ⟨_, hUpperBank, hJoined⟩⟩⟩⟩⟩⟩⟩⟩

end Build

/-! ## Canonical addresses -/

/-- The address that stands for all that arrive at the same place. -/
def canonical (address : UInt16) : UInt16 :=
  if address < 0x2000 then address % 0x800
  else if address < 0x4000 then 0x2000 + address % 8
  else address

/-- The canonical address is the first of those that share its byte or its register. -/
theorem toNat_canonical (address : UInt16) : (canonical address).toNat =
    if address.toNat < 0x2000 then address.toNat % 0x800
    else if address.toNat < 0x4000 then 0x2000 + address.toNat % 8
    else address.toNat := by
  have hWork : address < 0x2000 ↔ address.toNat < 0x2000 := UInt16.lt_iff_toNat_lt
  have hRegisters : address < 0x4000 ↔ address.toNat < 0x4000 := UInt16.lt_iff_toNat_lt
  simp only [canonical, hWork, hRegisters]
  split_ifs
  · exact UInt16.toNat_mod ..
  · have hRegister : (address % 8).toNat = address.toNat % 8 := UInt16.toNat_mod ..
    have hLt : address.toNat % 8 < 8 := Nat.mod_lt _ (by decide)
    rw [UInt16.toNat_add, hRegister]
    exact Nat.mod_eq_of_lt (by simp; omega)
  · rfl

/-- Addresses arrive at the same place exactly when the same address stands for them. -/
theorem place_eq_place_iff (a b : UInt16) : place a = place b ↔ canonical a = canonical b := by
  have hA : a.toNat < 0x10000 := a.toNat_lt
  have hB : b.toNat < 0x10000 := b.toNat_lt
  rw [← UInt16.toNat_inj, toNat_canonical, toNat_canonical, place, place]
  -- Each window has canonical addresses of its own.
  split_ifs <;> simp <;> omega

/-! ## Writes in two steps -/

section Device

variable {δ : Type} [Device δ]

/-- The first step of a write: the byte is stored, or the device takes it. -/
def commit (memory : MainMemory) (address : UInt16) (value : UInt8) (device : δ) : MainMemory × δ :=
  match place address with
  | .cell cell => ({ memory with cells := memory.cells.set cell value }, device)
  | .device folded => (memory, Device.write device (UInt16.ofNat folded) value)

/-- The second step of a write: the observer of the address sees the byte. -/
def notify (memory : MainMemory) (address : UInt16) (value : UInt8) : Option Signal × MainMemory :=
  let (signal, observers) := memory.observers.notify address value
  (signal, { memory with observers })

variable (memory : MainMemory) (address : UInt16) (value : UInt8) (device : δ)

@[simp] theorem notify_signal :
    (memory.notify address value).1 = (memory.observers.notify address value).1 :=
  rfl

@[simp] theorem notify_observers :
    (memory.notify address value).2.observers = (memory.observers.notify address value).2 :=
  rfl

/-- Storing a byte concerns no observer. -/
theorem commit_observers : (memory.commit address value device).1.observers = memory.observers := by
  rw [commit]
  cases place address with
  | cell cell => rfl
  | device folded => rfl

/-- A write is committed, and then it is shown. -/
theorem write_eq : memory.write address value device =
    let committed := memory.commit address value device
    let shown := committed.1.notify address value
    (shown.1, shown.2, committed.2) := by
  rw [write, commit]
  cases place address with
  | cell cell => rfl
  | device folded => rfl

/-- Observers have no part in what a read finds. -/
theorem read_congr {memory other : MainMemory} (h : memory.cells = other.cells) :
    memory.read address device = other.read address device := by
  rw [read, read, h]

theorem peek_congr {memory other : MainMemory} (h : memory.cells = other.cells) :
    memory.peek address = other.peek address := by
  rw [peek_eq, peek_eq, h]

/-! ## Accesses -/

/-- The device answers an access, as the register that the address is folded to. -/
structure Forwards : Prop where
  peek : memory.peek address = none
  read : memory.read address device = Device.read device (0x2000 + address % 8)
  write : (memory.write address value device).2.2 = Device.write device (0x2000 + address % 8) value
  cells : (memory.write address value device).2.1.cells = memory.cells

/-- Storage answers an access, and a write shows at the mirrors of its address and nowhere else. -/
structure Stores : Prop where
  read : ∃ byte, memory.peek address = some byte ∧
    ∀ other : δ, memory.read address other = (byte, other)
  write : (memory.write address value device).2.2 = device
  bytes : ∀ (b : UInt16) (other : δ), (memory.write address value device).2.1.read b other =
    if canonical b = canonical address then (value, other) else memory.read b other

/-- A write is committed, and then shown once, to the observer at its very address. -/
structure Notifies : Prop where
  order : memory.write address value device =
    let committed := memory.commit address value device
    let shown := committed.1.notify address value
    (shown.1, shown.2, committed.2)
  visible : ∀ (b : UInt16) (other : δ), (memory.commit address value device).1.read b other =
    (memory.write address value device).2.1.read b other
  signal : (memory.write address value device).1 =
    (memory.observers.lookup address).bind fun observer => (observer.notify value).1
  observed : (memory.write address value device).2.1.observers.lookup address =
    (memory.observers.lookup address).map fun observer => (observer.notify value).2
  others : ∀ b, b ≠ address → (memory.write address value device).2.1.observers.lookup b =
    memory.observers.lookup b

theorem ofNat_register : UInt16.ofNat (0x2000 + address.toNat % 8) = 0x2000 + address % 8 := by
  refine UInt16.toNat_inj.mp ?_
  rw [UInt16.toNat_ofNat', UInt16.toNat_add, UInt16.toNat_mod]
  rfl

variable {address}

/-- Within the window of the registers, accesses go to the device. -/
theorem forwards (h : isRegister address = true) : memory.Forwards address value device where
  peek := memory.peek_of_isRegister h
  read := by rw [read_of_isRegister memory h, ofNat_register]
  write := by
    rw [write_device, place_of_isRegister h]
    exact congrArg (Device.write device · value) (ofNat_register address)
  cells := by
    rw [write_eq, commit, place_of_isRegister h]
    rfl

/-- Outside of it, they go to storage. -/
theorem stores (h : isRegister address = false) : memory.Stores address value device where
  read := memory.read_of_not_isRegister h
  write := by
    obtain ⟨cell, hPlace⟩ := place_of_not_isRegister h
    rw [write_device, hPlace]
  bytes := by
    intro b other
    rw [read_eq, peek_write]
    by_cases hSame : canonical b = canonical address
    · -- A mirror of the address has a byte, which is the one that was written.
      have hPlace : place address = place b := (place_eq_place_iff address b).mpr hSame.symm
      obtain ⟨cell, hCell⟩ := place_of_not_isRegister h
      have hPeek : memory.peek b = some (memory.cells.get cell) := by
        rw [peek_eq, ← hPlace, hCell]
      rw [if_pos hPlace, if_pos hSame, hPeek]
      rfl
    · have hPlace : place address ≠ place b :=
        fun hEq => hSame ((place_eq_place_iff address b).mp hEq).symm
      rw [if_neg hPlace, if_neg hSame, ← read_eq]

variable (address)

/-- In either case the observer of the very address is shown the byte afterwards. -/
theorem notifies : memory.Notifies address value device where
  order := memory.write_eq address value device
  visible := by
    intro b other
    rw [write_eq]
    exact read_congr b other rfl
  signal := by
    rw [write_eq, notify_signal, commit_observers]
    exact Observers.notify_fst memory.observers address value
  observed := by
    rw [write_eq, notify_observers, commit_observers, Observers.lookup_notify, if_pos rfl]
  others := by
    intro b hOther
    rw [write_eq, notify_observers, commit_observers, Observers.lookup_notify, if_neg hOther]

/-- **Accesses of the processor follow its map.** The bus is built around any two banks, and its tree
serves every access to any memory. In the window of the registers the device answers, once and as the
folded register, and no storage changes; elsewhere the device has no part, and a write shows at the
addresses with the same canonical address and nowhere else. A write is then shown, once, to the observer
at the address as it was written, whose answer it returns, and all others stay as they are. No read or
peek depends on an observer, and a read on the system bus leaves memory as it was. -/
theorem accesses_follow_map :
    (∀ lower upper : List UInt8, lower.length = bankSize → upper.length = bankSize →
      ∃ fresh, ofBanks lower upper = .ok fresh ∧ build lower upper = .ok fresh.space) ∧
    memory.space.readVia address device = .ok (memory.read address device) ∧
    memory.space.writeVia address value device =
      .ok ((memory.write address value device).2.1.space, (memory.write address value device).2.2) ∧
    (0x2000 ≤ address ∧ address < 0x4000 → memory.Forwards address value device) ∧
    (¬(0x2000 ≤ address ∧ address < 0x4000) → memory.Stores address value device) ∧
    memory.Notifies address value device ∧
    (∀ (observer : Observer) (b : UInt16), (memory.observe address observer).2.observers.lookup b =
      if b = address then some observer else memory.observers.lookup b) ∧
    (∀ (observers : Observers) (b : UInt16) (other : δ),
      { memory with observers }.read b other = memory.read b other ∧
        { memory with observers }.peek b = memory.peek b) ∧
    ∀ bus : SystemBus, (bus.read address).2.memory = bus.memory := by
  refine ⟨?_, memory.readVia_space address device, memory.writeVia_space address value device, ?_, ?_,
    memory.notifies address value device, Observers.lookup_insert memory.observers address, ?_,
    fun _ => rfl⟩
  · intro lower upper hLower hUpper
    exact ⟨_, Machine.ofBanks_eq_ok hLower hUpper, build_eq hLower hUpper⟩
  · intro hWindow
    exact memory.forwards value device ((isRegister_iff address).mpr hWindow)
  · intro hOutside
    exact memory.stores value device (isRegister_eq_false hOutside)
  · intro observers b other
    exact ⟨read_congr b other rfl, peek_congr b rfl⟩

end Device

/-- An observer sits in working memory. A write to a mirror of its address stores the byte and is not shown
to it; a write to its address is. A write among the mirrors of the registers reaches the seventh. -/
theorem accesses_follow_map_around_observer :
    let memory : MainMemory := { cells := Ram.zero 16, observers := [(0x0010, .everyNth 1)] }
    let bank : List UInt8 := List.replicate bankSize 0xEA
    (∃ fresh, ofBanks bank bank = .ok fresh ∧ build bank bank = .ok fresh.space) ∧
    (memory.write 0x0810 0x55 ({} : Ppu)).2.1.read 0x1010 ({} : Ppu) = (0x55, {}) ∧
    (memory.write 0x0810 0x55 ({} : Ppu)).1 = none ∧
    (memory.write 0x0010 0x55 ({} : Ppu)).1 = some .raiseIrq ∧
    (memory.write 0x3456 0x01 ({} : Ppu)).2.2 = Device.write ({} : Ppu) 0x2006 0x01 := by
  intro memory bank
  have hMirror := accesses_follow_map memory 0x0810 0x55 ({} : Ppu)
  have hWatched := accesses_follow_map memory 0x0010 0x55 ({} : Ppu)
  have hRegister := accesses_follow_map memory 0x3456 0x01 ({} : Ppu)
  have hLength : bank.length = bankSize := List.length_replicate
  refine ⟨hMirror.1 bank bank hLength hLength, ?_, ?_, ?_, ?_⟩
  · exact ((hMirror.2.2.2.2.1 (by decide)).bytes 0x1010 {}).trans (if_pos (by decide))
  · exact hMirror.2.2.2.2.2.1.signal
  · exact hWatched.2.2.2.2.2.1.signal
  · exact (hRegister.2.2.2.1 (by decide)).write

end MainMemory

end NesMachine
