import Mathlib.Data.List.Nodup
import NesMachine.Proofs.Cpu.Writes

/-!
# The stack as a ring

A push writes where the stack pointer points and moves it down, and a pull moves it up and reads there. Both
wrap within page 1, so the stack is a ring of 256 bytes: a run of pulls gives back what a run of pushes has
stored, up to the first push that comes around to the place of an earlier one.

* `FlatBus.afterWrites`: a bus after some writes, and the bytes that they leave.
* `Registers.stackPlace_eq_iff`: the places of the stack repeat after 256, and not before.
* `Exec.pushAll_run`, `Exec.pullAll_run`: what runs of pushes and of pulls do, however long they are.
* `Exec.pulled_eq_reverse_iff`: which lists of bytes come back.
* `Exec.stack_is_a_ring`: a list that fits comes back, and nothing outside its places is written.
-/

namespace NesMachine

/-! ## Writes to a flat bus -/

namespace FlatBus

def afterWrites (bus : FlatBus) (writes : List (UInt16 × UInt8)) : FlatBus :=
  writes.foldl (fun bus entry => Bus.write bus entry.1 entry.2) bus

variable (bus : FlatBus)

theorem afterWrites_append (first second : List (UInt16 × UInt8)) :
    bus.afterWrites (first ++ second) = (bus.afterWrites first).afterWrites second :=
  List.foldl_append

/-- The writes are logged in their order. -/
theorem afterWrites_log (writes : List (UInt16 × UInt8)) : (bus.afterWrites writes).log.toList =
    bus.log.toList ++ writes.map fun entry => Access.write entry.1 entry.2 := by
  induction writes generalizing bus with
  | nil => exact (List.append_nil _).symm
  | cons entry rest ih =>
    have hWrite : (Bus.write bus entry.1 entry.2).log.toList =
        bus.log.toList ++ [.write entry.1 entry.2] := Array.toList_push
    have hRest := ih (Bus.write bus entry.1 entry.2)
    rw [hWrite, List.append_assoc] at hRest
    exact hRest

/-- A write is seen at its own address and at no other one. -/
theorem get_write (written address : UInt16) (value : UInt8) :
    (Bus.write bus written value).ram.get address.toNat =
      if written = address then value else bus.ram.get address.toNat := by
  have hWritten : written.toNat % 2 ^ 16 = written.toNat := Nat.mod_eq_of_lt written.toNat_lt
  have hAddress : address.toNat % 2 ^ 16 = address.toNat := Nat.mod_eq_of_lt address.toNat_lt
  have hSet := Ram.get_set bus.ram written.toNat address.toNat value
  simp only [hWritten, hAddress, UInt16.toNat_inj] at hSet
  exact hSet

/-- Writes elsewhere leave a byte. -/
theorem get_afterWrites_of_not_mem {writes : List (UInt16 × UInt8)} {address : UInt16}
    (h : address ∉ writes.map Prod.fst) :
    (bus.afterWrites writes).ram.get address.toNat = bus.ram.get address.toNat := by
  induction writes generalizing bus with
  | nil => rfl
  | cons entry rest ih =>
    rw [List.map_cons, List.mem_cons, not_or] at h
    have hRest := ih (Bus.write bus entry.1 entry.2) h.2
    rw [get_write, if_neg (Ne.symm h.1)] at hRest
    exact hRest

/-- A byte that is written is found again, if no other one is written to its address. -/
theorem get_afterWrites_of_mem {writes : List (UInt16 × UInt8)}
    (hApart : (writes.map Prod.fst).Nodup) {entry : UInt16 × UInt8} (h : entry ∈ writes) :
    (bus.afterWrites writes).ram.get entry.1.toNat = entry.2 := by
  induction writes generalizing bus with
  | nil => cases h
  | cons first rest ih =>
    obtain ⟨hFirst, hRest⟩ := List.nodup_cons.mp hApart
    rcases List.mem_cons.mp h with rfl | hMem
    · have hLater := get_afterWrites_of_not_mem (Bus.write bus entry.1 entry.2) hFirst
      rw [get_write, if_pos rfl] at hLater
      exact hLater
    · exact ih (Bus.write bus first.1 first.2) hRest hMem

end FlatBus

/-! ## The places of the stack -/

namespace Registers

variable (r : Registers)

/-- The place that is `k` below the pointer wraps from `$0100` to `$01FF`. -/
theorem toNat_stackPlace (k : Nat) :
    ((r.stackPlace k).toNat : Int) = 0x100 + (r.s.toNat - k : Int) % 0x100 := by
  rw [stackPlace, UInt16.toNat_ofNat']
  omega

/-- The places repeat after 256, and not before. -/
theorem stackPlace_eq_iff (j k : Nat) : r.stackPlace j = r.stackPlace k ↔ j % 0x100 = k % 0x100 := by
  have hJ := r.toNat_stackPlace j
  have hK := r.toNat_stackPlace k
  rw [← UInt16.toNat_inj]
  omega

/-- The first places, from the stack pointer downwards. -/
def stackPlaces (n : Nat) : List UInt16 :=
  (List.range n).map r.stackPlace

theorem stackPlaces_succ (n : Nat) : r.stackPlaces (n + 1) = r.stackPlaces n ++ [r.stackPlace n] := by
  rw [stackPlaces, List.range_succ, List.map_append]
  rfl

/-- Up to a page of places are all different. -/
theorem nodup_stackPlaces {n : Nat} (h : n ≤ 0x100) : (r.stackPlaces n).Nodup := by
  refine List.Nodup.map_on ?_ List.nodup_range
  intro j hJ k hK hSame
  rw [List.mem_range] at hJ hK
  rw [stackPlace_eq_iff] at hSame
  omega

/-- The places of the stack never leave page 1. -/
theorem bounds_of_mem_stackPlaces {n : Nat} {place : UInt16} (h : place ∈ r.stackPlaces n) :
    0x100 ≤ place.toNat ∧ place.toNat ≤ 0x1FF := by
  obtain ⟨k, -, rfl⟩ := List.mem_map.mp h
  have hPlace := r.toNat_stackPlace k
  omega

theorem map_pushes {α : Type} (f : UInt16 × UInt8 → α) (bytes : List UInt8) :
    (r.pushes bytes).map f = bytes.mapIdx fun k byte => f (r.stackPlace k, byte) := by
  refine List.ext_getElem (by simp [pushes]) fun k hPushed hByte => ?_
  simp [pushes]

theorem map_fst_pushes (bytes : List UInt8) :
    (r.pushes bytes).map Prod.fst = r.stackPlaces bytes.length := by
  refine List.ext_getElem (by simp [pushes, stackPlaces]) fun k hPushed hPlace => ?_
  simp [pushes, stackPlaces]

end Registers

namespace Core

variable (core : Core)

/-- The core once so many bytes have been pushed. -/
def lowered (n : Nat) : Core :=
  { core with s := core.s - UInt8.ofNat n }

theorem lowered_zero : core.lowered 0 = core := by
  simp [lowered]

/-- Pushes lower the pointer by as much as all of them together. -/
theorem lowered_lowered (m n : Nat) : (core.lowered m).lowered n = core.lowered (m + n) := by
  have hSum : core.s - UInt8.ofNat m - UInt8.ofNat n = core.s - UInt8.ofNat (m + n) := by
    grind [UInt8.ofNat_add]
  simp only [lowered, hSum]

theorem raise_lowered (n : Nat) :
    { core.lowered (n + 1) with s := (core.lowered (n + 1)).s + 1 } = core.lowered n := by
  have hSum : core.s - UInt8.ofNat (n + 1) + 1 = core.s - UInt8.ofNat n := by
    grind [UInt8.ofNat_add]
  simp only [lowered, hSum]

theorem toNat_s_lowered (m : Nat) : ((core.lowered m).s.toNat : Int) = (core.s.toNat - m : Int) % 0x100 := by
  have hPointer := core.s.toNat_lt
  simp only [lowered, UInt8.toNat_sub, UInt8.toNat_ofNat']
  omega

/-- Places below a lowered pointer are places further below the old one. -/
theorem stackPlace_lowered (m k : Nat) : (core.lowered m).stackPlace k = core.stackPlace (m + k) := by
  have hPointer := core.toNat_s_lowered m
  rw [← UInt16.toNat_inj, ← Int.natCast_inj, Registers.toNat_stackPlace, Registers.toNat_stackPlace]
  omega

theorem stackAddress_lowered (n : Nat) : (core.lowered n).stackAddress = core.stackPlace n := by
  rw [← Registers.stackPlace_zero, stackPlace_lowered, Nat.add_zero]

/-- Pushing two rows is pushing the first one, and then the second one below it. -/
theorem pushes_append (first second : List UInt8) :
    core.pushes (first ++ second) = core.pushes first ++ (core.lowered first.length).pushes second := by
  simp only [Registers.pushes, List.mapIdx_append, stackPlace_lowered, Nat.add_comm]

end Core

/-! ## Runs of pushes and of pulls -/

namespace Exec

def pushAll : List UInt8 → Exec Unit
  | [] => return ()
  | byte :: rest => do
    push byte
    pushAll rest

def pullAll : Nat → Exec (List UInt8)
  | 0 => return []
  | n + 1 => do
    let byte ← pull
    let rest ← pullAll n
    return byte :: rest

variable (core : Core) (bus : FlatBus)

/-- Pushing bytes makes their writes and nothing else. -/
theorem pushAll_run (bytes : List UInt8) : (pushAll bytes core).run bus =
    (((), core.lowered bytes.length), bus.afterWrites (core.pushes bytes)) := by
  induction bytes generalizing core bus with
  | nil =>
    rw [List.length_nil, core.lowered_zero]
    rfl
  | cons byte rest ih =>
    have hPush : (push byte core).run bus =
        (((), core.lowered 1), Bus.write bus core.stackAddress byte) := rfl
    rw [pushAll, run_bind, hPush, ih, core.lowered_lowered, Nat.add_comm, Registers.pushes_cons]
    rfl

/-- A pull reads the place of the last push. -/
theorem pull_run (n : Nat) : (pull (core.lowered (n + 1))).run bus =
    ((bus.ram.get (core.stackPlace n).toNat, core.lowered n),
      bus.afterReads [(core.stackPlace n).toNat]) := by
  let raised : Core := { core.lowered (n + 1) with s := (core.lowered (n + 1)).s + 1 }
  have hRun : (pull (core.lowered (n + 1))).run bus =
      ((bus.ram.get raised.stackAddress.toNat, raised), (Bus.read bus raised.stackAddress).2) := rfl
  have hRaised : raised = core.lowered n := core.raise_lowered n
  rw [hRun, hRaised, core.stackAddress_lowered, FlatBus.afterReads_cons]
  rfl

/-- Pulls read the places of as many pushes, the last one first. -/
theorem pullAll_run (n : Nat) : (pullAll n (core.lowered n)).run bus =
    (((core.stackPlaces n).reverse.map fun place => bus.ram.get place.toNat, core),
      bus.afterReads ((core.stackPlaces n).reverse.map UInt16.toNat)) := by
  induction n generalizing bus with
  | zero =>
    rw [core.lowered_zero]
    rfl
  | succ n ih =>
    have hPlaces : (core.stackPlaces (n + 1)).reverse = core.stackPlace n :: (core.stackPlaces n).reverse := by
      rw [Registers.stackPlaces_succ, List.reverse_concat]
    rw [pullAll, run_bind, pull_run, run_bind, ih, hPlaces]
    rfl

/-- Pushes and then as many pulls read the places of the pushes, the last one first. -/
theorem pullAll_pushAll_run (bytes : List UInt8) :
    let pushed := (pushAll bytes core).run bus
    let places := (core.stackPlaces bytes.length).reverse
    (pullAll bytes.length pushed.1.2).run pushed.2 =
      ((places.map fun place => pushed.2.ram.get place.toNat, core),
        pushed.2.afterReads (places.map UInt16.toNat)) := by
  intro pushed places
  have hCore : pushed.1.2 = core.lowered bytes.length := by
    simp only [pushed, pushAll_run]
  rw [hCore]
  exact pullAll_run core pushed.2 bytes.length

/-! ## What comes back -/

/-- The last 256 bytes that have been pushed stand in the memory. -/
theorem get_pushed {bytes : List UInt8} {k : Nat} (h : k < bytes.length) (hLast : bytes.length ≤ k + 0x100) :
    ((pushAll bytes core).run bus).2.ram.get (core.stackPlace k).toNat = bytes[k] := by
  let earlier := bytes.take k
  let later := bytes.drop k
  have hEarlier : earlier.length = k := List.length_take_of_le (Nat.le_of_lt h)
  have hLater : later.length ≤ 0x100 := by
    rw [List.length_drop]
    omega
  have hSplit : core.pushes bytes = core.pushes earlier ++ (core.lowered k).pushes later := by
    rw [← hEarlier, ← core.pushes_append, List.take_append_drop]
  have hFirst : (core.stackPlace k, bytes[k]) ∈ (core.lowered k).pushes later := by
    simp only [later, List.drop_eq_getElem_cons h, Registers.pushes_cons, core.stackAddress_lowered]
    exact List.mem_cons_self
  have hApart : (((core.lowered k).pushes later).map Prod.fst).Nodup := by
    rw [Registers.map_fst_pushes]
    exact Registers.nodup_stackPlaces _ hLater
  rw [pushAll_run, hSplit, FlatBus.afterWrites_append]
  exact FlatBus.get_afterWrites_of_mem _ hApart hFirst

/-- Bytes come back in the reverse order if and only if each is the same as the one that has come around to its
place. So a list of up to 256 bytes always comes back, and from 257 bytes on, not every list does. -/
theorem pulled_eq_reverse_iff (bytes : List UInt8) :
    let pushed := (pushAll bytes core).run bus
    let pulled := (pullAll bytes.length pushed.1.2).run pushed.2
    pulled.1.1 = bytes.reverse ↔
      ∀ k (h : k + 0x100 < bytes.length), bytes[k] = bytes[k + 0x100] := by
  intro pushed pulled
  let found (k : Nat) : UInt8 := pushed.2.ram.get (core.stackPlace k).toNat
  have hPulled : pulled.1.1 = ((List.range bytes.length).map found).reverse := by
    simp only [pulled, pushed, pullAll_pushAll_run, Registers.stackPlaces, ← List.map_reverse, List.map_map]
    rfl
  have hFound : pulled.1.1 = bytes.reverse ↔ ∀ k (h : k < bytes.length), found k = bytes[k] := by
    rw [hPulled, List.reverse_inj, List.ext_getElem_iff]
    simp
  have hAround (k : Nat) : found (k + 0x100) = found k := by
    have hPlace : core.stackPlace (k + 0x100) = core.stackPlace k :=
      (core.stackPlace_eq_iff _ _).mpr (Nat.add_mod_right k 0x100)
    simp only [found, hPlace]
  rw [hFound]
  constructor
  · intro hAll k hk
    calc
      bytes[k] = found k := (hAll k _).symm
      _ = found (k + 0x100) := (hAround k).symm
      _ = bytes[k + 0x100] := hAll _ hk
  · intro hSame k hk
    -- The last 256 bytes are found where they are; an earlier one is found as the byte that took its place.
    induction hLeft : bytes.length - k using Nat.strongRecOn generalizing k with
    | ind left ih =>
      by_cases hLast : bytes.length ≤ k + 0x100
      · exact get_pushed core bus hk hLast
      · have hNext : k + 0x100 < bytes.length := by omega
        calc
          found k = found (k + 0x100) := (hAround k).symm
          _ = bytes[k + 0x100] := ih _ (by omega) _ hNext rfl
          _ = bytes[k] := (hSame k hNext).symm

/-- A list that fits comes back, and the processor is as before it. -/
theorem pulled_of_fits (bytes : List UInt8) (hFits : bytes.length ≤ 0x100) :
    let pushed := (pushAll bytes core).run bus
    ((pullAll bytes.length pushed.1.2).run pushed.2).1 = (bytes.reverse, core) := by
  intro pushed
  have hBytes := (pulled_eq_reverse_iff core bus bytes).mpr fun k hk => absurd hk (by omega)
  have hCore := congrArg (·.1.2) (pullAll_pushAll_run core bus bytes)
  exact Prod.ext hBytes hCore

/-- **The stack is a ring of 256 bytes.** On every flat bus and at every stack pointer, pushing up to 256 bytes
and pulling as many gives them back, the last one first, and restores the processor. The accesses are one write
for each push, at the place as far below the stack pointer as bytes have been pushed before, and then one read
of each of these places, on the way back. The places are different ones, they are all in page 1, and the rest of
the memory is kept. Pushing a word and pulling twice gives its low byte and then its high byte. -/
theorem stack_is_a_ring (core : Core) (bus : FlatBus) :
    let r := core.toRegisters
    (∀ bytes : List UInt8, bytes.length ≤ 0x100 →
      let pushed := (pushAll bytes core).run bus
      let pulled := (pullAll bytes.length pushed.1.2).run pushed.2
      let places := r.stackPlaces bytes.length
      pulled.1 = (bytes.reverse, core) ∧
      pushed.2.log.toList =
        bus.log.toList ++ bytes.mapIdx (fun k byte => Access.write (r.stackPlace k) byte) ∧
      pulled.2.log.toList = pushed.2.log.toList ++ places.reverse.map Access.read ∧
      places.Nodup ∧
      (∀ place ∈ places, 0x100 ≤ place.toNat ∧ place.toNat ≤ 0x1FF) ∧
      ∀ address, address ∉ places → pulled.2.ram.get address.toNat = bus.ram.get address.toNat) ∧
    ∀ word : UInt16,
      (((pushWord word >>= fun _ => pullAll 2) core).run bus).1 =
        ([Word.low word, Word.high word], core) := by
  intro r
  refine ⟨?_, ?_⟩
  · intro bytes hFits pushed pulled places
    have hPushed : pushed.2 = bus.afterWrites (r.pushes bytes) :=
      congrArg Prod.snd (pushAll_run core bus bytes)
    have hPulled : pulled.2 = pushed.2.afterReads (places.reverse.map UInt16.toNat) :=
      congrArg Prod.snd (pullAll_pushAll_run core bus bytes)
    refine ⟨pulled_of_fits core bus bytes hFits, ?_, ?_, r.nodup_stackPlaces hFits,
      fun place => r.bounds_of_mem_stackPlaces, ?_⟩
    · rw [hPushed, FlatBus.afterWrites_log, Registers.map_pushes]
    · have hRead : (fun address => Access.read (UInt16.ofNat address)) ∘ UInt16.toNat = Access.read :=
        funext fun _ => congrArg Access.read UInt16.ofNat_toNat
      rw [hPulled, FlatBus.afterReads_log, List.map_map, hRead]
    · intro address hOutside
      rw [hPulled, FlatBus.afterReads_ram, hPushed]
      exact bus.get_afterWrites_of_not_mem (r.map_fst_pushes bytes ▸ hOutside)
  · -- A word is pushed as its high byte and then its low byte.
    intro word
    have hWord : pushWord word = pushAll [Word.high word, Word.low word] := rfl
    rw [run_bind, hWord]
    exact pulled_of_fits core bus [Word.high word, Word.low word] (by simp)

/-- Three pushes from the stack pointer 1 on are found at `$0101`, `$0100` and `$01FF`. -/
theorem stack_is_a_ring_over_the_wrap :
    let core : Core := { s := 1 }
    let bus : FlatBus := {}
    let bytes : List UInt8 := [0x11, 0x22, 0x33]
    let pushed := (pushAll bytes core).run bus
    let pulled := (pullAll 3 pushed.1.2).run pushed.2
    bytes.length ≤ 0x100 ∧ pulled.1 = ([0x33, 0x22, 0x11], core) ∧
      pushed.2.log.toList = [.write 0x0101 0x11, .write 0x0100 0x22, .write 0x01FF 0x33] ∧
      pulled.2.log.toList = pushed.2.log.toList ++ [.read 0x01FF, .read 0x0100, .read 0x0101] ∧
      (((pushWord 0x1234 >>= fun _ => pullAll 2) { core with s := 0 }).run bus).1.1 = [0x34, 0x12] := by
  intro core bus bytes pushed pulled
  have hFits : bytes.length ≤ 0x100 := by decide
  have hRing := (stack_is_a_ring core bus).1 bytes hFits
  have hWord := (stack_is_a_ring { core with s := 0 } bus).2 0x1234
  exact ⟨hFits, hRing.1, hRing.2.1.trans (by decide +kernel), hRing.2.2.1.trans (by decide +kernel),
    (congrArg Prod.fst hWord).trans (by decide)⟩

end Exec

end NesMachine
