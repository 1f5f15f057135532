import NesMachine.Proofs.Ppu.AddressPair
import NesMachine.Proofs.Ppu.VideoBus

/-!
# The port of video memory

The data register reaches video memory at an address that every access moves on, by one or by a row of tiles.
Below the palette a read is late by one: it answers with the byte that the read before it has fetched. So reads
in a row answer with memory in a row, behind one old byte, and bytes that were written in a row are found again,
unless two of their addresses share a cell.

* `Vram.along`: the addresses of accesses in a row.
* `Ppu.send_address`: both halves of an address.
* `Ppu.receive_data`, `Ppu.send_data`: reads and writes in a row.
* `Ppu.data_port_streams`: both, from an address that is written first.
-/

namespace NesMachine

/-! ## Addresses in a row -/

def Control.stride (control : Control) : Nat :=
  if Byte.bit control.byte 2 then 32 else 1

theorem Control.toNat_increment (control : Control) : control.increment.toNat = control.stride := by
  have hBit (byte : UInt8) : (byte &&& 0x04 != 0) = Byte.bit byte 2 :=
    Byte.forall_of_all (P := fun byte => (byte &&& 0x04 != 0) = Byte.bit byte 2) (by decide +kernel) byte
  rw [increment, hBit, stride]
  split <;> rfl

/-- The address so many strides from a start, on the 14 lines of the video bus. -/
def Vram.along (start : UInt16) (stride k : Nat) : UInt16 :=
  UInt16.ofNat ((start.toNat + k * stride) % 0x4000)

section Along

variable (start : UInt16) (stride k : Nat)

/-- Strides add up on the 14 lines of the bus. -/
theorem Vram.toNat_along : (along start stride k).toNat = (start.toNat + k * stride) % 0x4000 :=
  UInt16.toNat_ofNat_of_lt' (Nat.lt_trans (Nat.mod_lt _ (by decide)) (by decide))

theorem Vram.along_along : along (along start stride 1) stride k = along start stride (k + 1) := by
  rw [along, toNat_along, Nat.mod_add_mod, along, Nat.one_mul, Nat.succ_mul, Nat.add_assoc,
    Nat.add_comm stride]

theorem Vram.along_zero {start : UInt16} (h : start.toNat < 0x4000) : along start stride 0 = start := by
  rw [← UInt16.toNat_inj, toNat_along, Nat.zero_mul, Nat.add_zero, Nat.mod_eq_of_lt h]

end Along

/-- An access moves the address by one stride. -/
theorem Latches.advance_eq (latches : Latches) : latches.advance =
    { latches with vramAddress := Vram.along latches.vramAddress latches.control.stride 1 } := by
  have hAddress : latches.advance.vramAddress =
      Vram.along latches.vramAddress latches.control.stride 1 := by
    rw [← UInt16.toNat_inj, Vram.toNat_along, advance, UInt16.toNat_and, UInt16.toNat_add,
      Control.toNat_increment, Nat.one_mul]
    -- The sum wraps at 16 lines and is then cut down to 14.
    have hMask := Nat.and_two_pow_sub_one_eq_mod
      ((latches.vramAddress.toNat + latches.control.stride) % 2 ^ 16) 14
    have hFold := Nat.mod_mod_of_dvd (latches.vramAddress.toNat + latches.control.stride)
      (show 2 ^ 14 ∣ 2 ^ 16 by decide)
    exact hMask.trans hFold
  rw [← hAddress]
  rfl

namespace Ppu

variable (ppu : Ppu)

/-- The address of an access through the data register starts a row. -/
theorem dataAddress_eq_along :
    ppu.dataAddress = Vram.along ppu.latches.vramAddress ppu.latches.control.stride 0 := by
  rw [← UInt16.toNat_inj, Vram.toNat_along, dataAddress, UInt16.toNat_and, Nat.zero_mul, Nat.add_zero]
  exact Nat.and_two_pow_sub_one_eq_mod ppu.latches.vramAddress.toNat 14

/-! ## Both halves of an address -/

/-- The halves of an address, where the first one is next, set the address and nothing else. -/
theorem send_address (hFirst : ppu.latches.secondWrite = false) {a : UInt16} (h : a.toNat < 0x4000) :
    ∃ openBus, ppu.send 0x2006 [Word.high a, Word.low a] =
      { ppu with openBus, latches := { ppu.latches with vramAddress := a } } := by
  have hAddress : Word.ofBytes (Word.low a)
      (Word.high (Word.ofBytes (Word.low ppu.latches.vramAddress) (Word.high a &&& 0x3F))) = a := by
    rw [← UInt16.toNat_inj, toNat_halves, Word.toNat_high, Word.toNat_low]
    omega
  have hLatches : (ppu.latches.setAddressHalf (Word.high a)).setAddressHalf (Word.low a) =
      { ppu.latches with vramAddress := a } := by
    rw [setAddressHalf_first hFirst, setAddressHalf_second rfl, hAddress, ← hFirst]
  refine ⟨OpenBus.drive (Word.low a), ?_⟩
  rw [← hLatches]
  rfl

/-! ## Reads in a row -/

/-- A read below the palette answers with the buffer and fills it from memory. -/
theorem readRegister_data (h : ppu.latches.vramAddress.toNat < 0x3F00) :
    ppu.readRegister 0x2007 =
      (ppu.latches.readBuffer,
        { ppu with
          openBus := (ppu.openBus.refresh 0xFF).latch ppu.latches.readBuffer
          latches :=
            { ppu.latches with
              readBuffer := Vram.read ppu.vram ppu.latches.vramAddress
              vramAddress := Vram.along ppu.latches.vramAddress ppu.latches.control.stride 1 } }) := by
  have hAddress : ppu.dataAddress = ppu.latches.vramAddress :=
    dataAddress_eq (show ppu.latches.vramAddress.toNat < 0x4000 by omega)
  have hBelow : ppu.dataAddress < paletteStart := hAddress ▸ UInt16.lt_iff_toNat_lt.mpr h
  have hRead : ppu.dataRead = _ := if_pos hBelow
  rw [Latches.advance_eq, hAddress] at hRead
  exact congrArg (fun answer => (answer.1, { answer.2 with openBus := answer.2.openBus.latch answer.1 })) hRead

/-- The first read gives what is in the buffer, and the others give one byte after another. -/
theorem receive_data (n : Nat) (h : ppu.latches.vramAddress.toNat + n * ppu.latches.control.stride < 0x3F00) :
    ∃ openBus readBuffer, ppu.receive 0x2007 (n + 1) =
      (ppu.latches.readBuffer :: (List.range n).map fun k =>
          Vram.read ppu.vram (Vram.along ppu.latches.vramAddress ppu.latches.control.stride k),
        { ppu with
          openBus
          latches :=
            { ppu.latches with
              readBuffer
              vramAddress :=
                Vram.along ppu.latches.vramAddress ppu.latches.control.stride (n + 1) } }) := by
  induction n generalizing ppu with
  | zero =>
    have hOnly := ppu.readRegister_data (by omega)
    refine ⟨(ppu.openBus.refresh 0xFF).latch ppu.latches.readBuffer,
      Vram.read ppu.vram ppu.latches.vramAddress, ?_⟩
    rw [receive, hOnly]
    rfl
  | succ n ih =>
    rw [Nat.succ_mul] at h
    have hFits : ppu.latches.vramAddress.toNat < 0x4000 := by omega
    have hFirst := ppu.readRegister_data (by omega)
    have hNext : (Vram.along ppu.latches.vramAddress ppu.latches.control.stride 1).toNat =
        ppu.latches.vramAddress.toNat + ppu.latches.control.stride := by
      rw [Vram.toNat_along, Nat.one_mul]
      exact Nat.mod_eq_of_lt (by omega)
    have hRest := ih (ppu.readRegister 0x2007).2
    rw [hFirst] at hRest
    simp only [hNext] at hRest
    obtain ⟨openBus, readBuffer, hRest⟩ := hRest (by omega)
    refine ⟨openBus, readBuffer, ?_⟩
    -- The first read answers with the buffer, and the second one with what the first one has fetched.
    rw [receive, hFirst, hRest, List.range_succ_eq_map]
    simp only [List.map_cons, List.map_map, Function.comp_def, Vram.along_along, Vram.along_zero _ hFits]

/-! ## Writes in a row -/

theorem writeRegister_data (byte : UInt8) :
    ppu.writeRegister 0x2007 byte =
      { ppu with
        openBus := OpenBus.drive byte
        vram := Vram.write ppu.vram ppu.dataAddress byte
        latches := ppu.latches.advance } := rfl

/-- Bytes that are written in a row are stored along the row. -/
theorem send_data (bytes : List UInt8) :
    ∃ openBus vramAddress, ppu.send 0x2007 bytes =
      { ppu with
        openBus
        vram := Vram.writeAll ppu.vram (bytes.mapIdx fun k byte =>
          (Vram.along ppu.latches.vramAddress ppu.latches.control.stride k, byte))
        latches := { ppu.latches with vramAddress } } := by
  induction bytes generalizing ppu with
  | nil => exact ⟨ppu.openBus, ppu.latches.vramAddress, rfl⟩
  | cons byte rest ih =>
    have hFirst := ppu.writeRegister_data byte
    rw [dataAddress_eq_along, Latches.advance_eq] at hFirst
    obtain ⟨openBus, vramAddress, hRest⟩ := ih (ppu.writeRegister 0x2007 byte)
    refine ⟨openBus, vramAddress, ?_⟩
    -- The rest of the bytes have a row of their own, which starts one stride further on.
    calc
      ppu.send 0x2007 (byte :: rest) = (ppu.writeRegister 0x2007 byte).send 0x2007 rest := rfl
      _ = _ := hRest
      _ = _ := by
        rw [hFirst, List.mapIdx_cons]
        simp only [Vram.along_along]
        rfl

end Ppu

/-! ## What writes in a row leave -/

namespace Vram

variable (cells : Ram 16) {place : Nat → UInt16} (bytes : List UInt8)

/-- Bytes whose places share no cells are all found again. -/
theorem map_read_writeAll
    (hApart : ∀ j < bytes.length, ∀ k < bytes.length, canonical (place j) = canonical (place k) → j = k) :
    (List.range bytes.length).map (fun k =>
      read (writeAll cells (bytes.mapIdx fun k byte => (place k, byte))) (place k)) = bytes := by
  have hPairwise : (bytes.mapIdx fun k byte => (place k, byte)).Pairwise
      fun entry other => cell entry.1 ≠ cell other.1 := by
    rw [List.pairwise_iff_getElem]
    intro j k hj hk hLt hSame
    rw [List.length_mapIdx] at hj hk
    rw [List.getElem_mapIdx, List.getElem_mapIdx, ← canonical_eq_iff] at hSame
    exact Nat.ne_of_lt hLt (hApart j hj k hk hSame)
  refine List.ext_getElem (by simp) fun k _ hk => ?_
  have hMem : (place k, bytes[k]) ∈ bytes.mapIdx fun k byte => (place k, byte) :=
    List.mem_mapIdx.mpr ⟨k, hk, rfl⟩
  rw [List.getElem_map, List.getElem_range]
  exact read_writeAll_of_mem cells hPairwise hMem

/-- Writes to other places are not seen at an address. -/
theorem read_writeAll_of_apart {address : UInt16}
    (h : ∀ k < bytes.length, canonical address ≠ canonical (place k)) :
    read (writeAll cells (bytes.mapIdx fun k byte => (place k, byte))) address = read cells address := by
  refine read_writeAll_of_outside cells address fun entry hMem hSame => ?_
  obtain ⟨k, hk, rfl⟩ := List.mem_mapIdx.mp hMem
  exact h k hk ((canonical_eq_iff _ _).mpr hSame.symm)

end Vram

/-! ## From an address on -/

namespace Ppu

section FromAddress

variable (ppu : Ppu) (hFirst : ppu.latches.secondWrite = false) {a : UInt16}

include hFirst

/-- Reads behind both halves of an address answer with memory from the address on. -/
theorem receive_from (n : Nat) (hBelow : a.toNat + n * ppu.latches.control.stride < 0x3F00) :
    ∃ openBus readBuffer, (ppu.send 0x2006 [Word.high a, Word.low a]).receive 0x2007 (n + 1) =
      (ppu.latches.readBuffer :: (List.range n).map fun k =>
          Vram.read ppu.vram (Vram.along a ppu.latches.control.stride k),
        { ppu with
          openBus
          latches :=
            { ppu.latches with
              readBuffer
              vramAddress := Vram.along a ppu.latches.control.stride (n + 1) } }) := by
  obtain ⟨driven, hAimed⟩ := ppu.send_address hFirst (a := a) (by omega)
  obtain ⟨openBus, readBuffer, hRead⟩ :=
    (ppu.send 0x2006 [Word.high a, Word.low a]).receive_data n (by rw [hAimed]; exact hBelow)
  refine ⟨openBus, readBuffer, ?_⟩
  rw [hRead, hAimed]

/-- Bytes behind both halves of an address are stored from the address on. -/
theorem send_from (hFits : a.toNat < 0x4000) (bytes : List UInt8) :
    ∃ openBus vramAddress, (ppu.send 0x2006 [Word.high a, Word.low a]).send 0x2007 bytes =
      { ppu with
        openBus
        vram := Vram.writeAll ppu.vram (bytes.mapIdx fun k byte =>
          (Vram.along a ppu.latches.control.stride k, byte))
        latches := { ppu.latches with vramAddress } } := by
  obtain ⟨driven, hAimed⟩ := ppu.send_address hFirst hFits
  obtain ⟨openBus, vramAddress, hSent⟩ := (ppu.send 0x2006 [Word.high a, Word.low a]).send_data bytes
  refine ⟨openBus, vramAddress, ?_⟩
  rw [hSent, hAimed]

end FromAddress

/-- **The data port streams video memory.** Where the first half of an address is next, write the halves of an
address and then read `n + 1` times below the palette: the answers are what was in the buffer and then the `n`
bytes from the address on, a stride apart; no byte of video memory has changed, and the address is past them.
Or write `n` bytes from the address on, where no two of them share a cell, then write the address again and
read: the answers are what was in the buffer and then these bytes, and no byte in another cell has changed. -/
theorem data_port_streams (ppu : Ppu) (hFirst : ppu.latches.secondWrite = false) (a : UInt16) (n : Nat)
    (hBelow : a.toNat + n * ppu.latches.control.stride < 0x3F00) :
    let stride := ppu.latches.control.stride
    let place := Vram.along a stride
    let aim (ppu : Ppu) : Ppu := ppu.send 0x2006 [Word.high a, Word.low a]
    let streamed := (aim ppu).receive 0x2007 (n + 1)
    (streamed.1 = ppu.latches.readBuffer :: (List.range n).map (fun k => Vram.read ppu.vram (place k)) ∧
      streamed.2.vram = ppu.vram ∧
      streamed.2.latches.vramAddress.toNat = (a.toNat + (n + 1) * stride) % 0x4000) ∧
    ∀ bytes : List UInt8, bytes.length = n →
      (∀ j < n, ∀ k < n, Vram.canonical (place j) = Vram.canonical (place k) → j = k) →
      let found := (aim ((aim ppu).send 0x2007 bytes)).receive 0x2007 (n + 1)
      found.1 = ppu.latches.readBuffer :: bytes ∧
      ∀ address, (∀ k < n, Vram.canonical address ≠ Vram.canonical (place k)) →
        Vram.read found.2.vram address = Vram.read ppu.vram address := by
  intro stride place aim streamed
  refine ⟨?_, ?_⟩
  · obtain ⟨openBus, readBuffer, hRead⟩ := ppu.receive_from hFirst n hBelow
    have hStreamed : streamed = _ := hRead
    rw [hStreamed]
    exact ⟨rfl, rfl, Vram.toNat_along _ _ _⟩
  · intro bytes hLength hApart found
    subst hLength
    obtain ⟨openBus, vramAddress, hSent⟩ := ppu.send_from hFirst (a := a) (by omega) bytes
    let sent := (aim ppu).send 0x2007 bytes
    have hSent : sent = _ := hSent
    -- Between the rows only the address and the bytes in memory have changed.
    have hHalf : sent.latches.secondWrite = false := by rw [hSent]; exact hFirst
    have hControl : sent.latches.control = ppu.latches.control := by rw [hSent]
    have hBuffer : sent.latches.readBuffer = ppu.latches.readBuffer := by rw [hSent]
    have hVram : sent.vram = Vram.writeAll ppu.vram (bytes.mapIdx fun k byte => (place k, byte)) := by
      rw [hSent]
    obtain ⟨openBus, readBuffer, hRead⟩ :=
      sent.receive_from hHalf (a := a) bytes.length (by rw [hControl]; exact hBelow)
    have hFound : found = _ := hRead
    rw [hFound, hBuffer, hControl, hVram]
    exact ⟨congrArg _ (Vram.map_read_writeAll ppu.vram bytes hApart),
      fun address hOther => Vram.read_writeAll_of_apart ppu.vram bytes hOther⟩

/-- Two bytes, one below the other in a column of the first table, come back behind the byte of a fresh
buffer. -/
theorem data_port_streams_a_column :
    let ppu := ({} : Ppu).writeRegister 0x2000 0x04
    let aim (ppu : Ppu) : Ppu := ppu.send 0x2006 [0x20, 0x00]
    ppu.latches.secondWrite = false ∧ 0x2000 + 2 * ppu.latches.control.stride < 0x3F00 ∧
      ((aim ppu).receive 0x2007 3).2.latches.vramAddress.toNat = 0x2060 ∧
      ((aim ((aim ppu).send 0x2007 [0x11, 0x22])).receive 0x2007 3).1 = [0x00, 0x11, 0x22] := by
  intro ppu aim
  have hBelow : (0x2000 : UInt16).toNat + 2 * ppu.latches.control.stride < 0x3F00 := by decide
  have hStreams := data_port_streams ppu rfl 0x2000 2 hBelow
  exact ⟨rfl, hBelow, hStreams.1.2.2.trans (by decide), (hStreams.2 [0x11, 0x22] rfl (by decide)).1⟩

end Ppu

end NesMachine
