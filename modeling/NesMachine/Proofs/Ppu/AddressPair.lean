import Mathlib.Data.List.Induction
import NesMachine.Proofs.Ppu.Events

/-!
# The pair of writes that makes an address

A video address is written in two halves, and which half comes next is one hidden latch. The scroll register
and the address register both flip it, a read of the status clears it, and accesses through the data register
move the address besides.

* `Ppu.halvesWritten`: the halves since the status was last read.
* `Ppu.next_secondWrite`: what an event does to the latch.
* `Ppu.SamePair`: the latch and the address are as they were, as after every event that has no part in them.
* `Ppu.toggle_follows_history`: the latch and the address after any history.
-/

namespace NesMachine

namespace Ppu

/-! ## Events that have a part in the pair -/

namespace Event

def readsStatus : Event → Bool
  | .access (.read address) => PpuRegister.ofAddress address = .status
  | _ => false

/-- One half of a pair is written, of a scroll position or of an address. -/
def writesHalf : Event → Bool
  | .access (.write address _) =>
    PpuRegister.ofAddress address = .scroll || PpuRegister.ofAddress address = .address
  | _ => false

/-- A dot passes, or a register is accessed that has no part in the pair and in the address. -/
def isApart : Event → Bool
  | .access (.read address) | .access (.write address _) =>
    PpuRegister.ofAddress address ∉ [.status, .scroll, .address, .data]
  | .dot => true

end Event

/-- The halves that were written since the status was last read, or since the history started. -/
def halvesWritten (history : List Event) : Nat :=
  (history.reverse.takeWhile fun event => !event.readsStatus).countP Event.writesHalf

/-- A read of the status starts the count over, and each half adds to it. -/
theorem halvesWritten_append_singleton (history : List Event) (event : Event) :
    halvesWritten (history ++ [event]) =
      if event.readsStatus then 0
      else if event.writesHalf then halvesWritten history + 1
      else halvesWritten history := by
  rw [halvesWritten, List.reverse_append, List.reverse_singleton, List.singleton_append,
    List.takeWhile_cons]
  cases hReads : event.readsStatus with
  | true => simp
  | false =>
    simp only [Bool.not_false, ↓reduceIte, List.countP_cons, Bool.false_eq_true]
    split <;> rfl

/-! ## The latch -/

section Latch

variable (ppu : Ppu)

theorem tick_secondWrite : ppu.tick.latches.secondWrite = ppu.latches.secondWrite := by
  rcases ppu.tick_frame with ⟨status, oamAddress, nmiLatched, hTick⟩
  rw [hTick]

/-- Only a read of the status takes the toggle back. -/
theorem readRegister_secondWrite (address : UInt16) :
    (ppu.readRegister address).2.latches.secondWrite =
      if PpuRegister.ofAddress address = .status then false else ppu.latches.secondWrite := by
  rw [readRegister]
  cases PpuRegister.ofAddress address with
  | data =>
    simp only [dataRead]
    split <;> rfl
  | _ => rfl

/-- Writes to the two registers of pairs flip the toggle, and no other writes do. -/
theorem writeRegister_secondWrite (address : UInt16) (value : UInt8) :
    (ppu.writeRegister address value).latches.secondWrite =
      if PpuRegister.ofAddress address = .scroll ∨ PpuRegister.ofAddress address = .address then
        !ppu.latches.secondWrite
      else ppu.latches.secondWrite := by
  rw [writeRegister]
  cases PpuRegister.ofAddress address with
  | oamData =>
    simp only [settleWrite, oamWrite]
    split <;> rfl
  | _ => rfl

/-- A read of the status clears the latch, either half flips it, and nothing else touches it. -/
theorem next_secondWrite (event : Event) : (ppu.next event).latches.secondWrite =
    if event.readsStatus then false
    else if event.writesHalf then !ppu.latches.secondWrite
    else ppu.latches.secondWrite := by
  rcases event with ⟨address | ⟨address, value⟩⟩ | _
  · simp [next, respond, readRegister_secondWrite, Event.readsStatus, Event.writesHalf]
  · simp [next, respond, writeRegister_secondWrite, Event.readsStatus, Event.writesHalf]
  · exact ppu.tick_secondWrite

/-- The second half is next when an odd number of halves has been written. -/
theorem after_secondWrite (hFirst : ppu.latches.secondWrite = false) (history : List Event) :
    (ppu.after history).latches.secondWrite = true ↔ halvesWritten history % 2 = 1 := by
  -- The count starts over at a read of the status, so the induction is on the last event.
  induction history using List.reverseRecOn with
  | nil => simp [after, halvesWritten, hFirst]
  | append_singleton history event ih =>
    rw [after_append_singleton, next_secondWrite, halvesWritten_append_singleton]
    cases event.readsStatus with
    | true => simp
    | false =>
      cases event.writesHalf with
      | false => exact ih
      | true =>
        have hNext : (halvesWritten history + 1) % 2 = 1 ↔ ¬halvesWritten history % 2 = 1 := by omega
        simp [hNext, ← ih]

end Latch

/-! ## Events apart from the pair -/

/-- The same half comes next, and the same address is there. -/
structure SamePair (before after : Ppu) : Prop where
  secondWrite : after.latches.secondWrite = before.latches.secondWrite
  vramAddress : after.latches.vramAddress = before.latches.vramAddress

theorem SamePair.trans {first second third : Ppu} (h : SamePair first second)
    (hNext : SamePair second third) : SamePair first third :=
  ⟨hNext.secondWrite.trans h.secondWrite, hNext.vramAddress.trans h.vramAddress⟩

/-- An event apart from the pair keeps its state. -/
theorem next_samePair (ppu : Ppu) {event : Event} (h : event.isApart = true) :
    SamePair ppu (ppu.next event) := by
  rcases event with ⟨address | ⟨address, value⟩⟩ | _
  · rw [next, respond, readRegister]
    cases hRegister : PpuRegister.ofAddress address with
    | status | data => simp [Event.isApart, hRegister] at h
    | _ => exact ⟨rfl, rfl⟩
  · rw [next, respond, writeRegister]
    cases hRegister : PpuRegister.ofAddress address with
    | scroll | address | data => simp [Event.isApart, hRegister] at h
    | oamData =>
      simp only [settleWrite, oamWrite]
      split <;> exact ⟨rfl, rfl⟩
    | _ => exact ⟨rfl, rfl⟩
  · exact ⟨ppu.tick_secondWrite, ppu.tick_vramAddress⟩

/-- So does any number of them. -/
theorem after_samePair (ppu : Ppu) {quiet : List Event} (h : ∀ event ∈ quiet, event.isApart = true) :
    SamePair ppu (ppu.after quiet) := by
  induction quiet generalizing ppu with
  | nil => exact ⟨rfl, rfl⟩
  | cons event rest ih =>
    have hEvent := next_samePair ppu (h event List.mem_cons_self)
    exact hEvent.trans (ih (ppu.next event) fun other hMem => h other (List.mem_cons_of_mem event hMem))

/-! ## Writing an address -/

theorem writeRegister_address {address : UInt16} (h : PpuRegister.ofAddress address = .address) (ppu : Ppu)
    (value : UInt8) :
    (ppu.writeRegister address value).latches = ppu.latches.setAddressHalf value := by
  rw [writeRegister, h]
  rfl

/-- The word that two halves make, whatever word was there. -/
theorem toNat_halves (word : UInt16) (high low : UInt8) :
    (Word.ofBytes low (Word.high (Word.ofBytes (Word.low word) (high &&& 0x3F)))).toNat =
      high.toNat % 64 * 256 + low.toNat := by
  rw [Word.toNat_ofBytes, Word.toNat_high, Word.toNat_ofBytes, Word.toNat_low, toNat_highHalf]
  omega

/-- A read of the status, then both halves of an address, with events apart in between. -/
theorem after_pair (ppu : Ppu) {status high low : UInt16} {h l : UInt8} {first second : List Event}
    (hStatus : PpuRegister.ofAddress status = .status) (hHigh : PpuRegister.ofAddress high = .address)
    (hLow : PpuRegister.ofAddress low = .address) (hFirst : ∀ event ∈ first, event.isApart = true)
    (hSecond : ∀ event ∈ second, event.isApart = true) :
    let polled := ppu.next (.access (.read status))
    let halfway := (polled.after first).next (.access (.write high h))
    let addressed := (halfway.after second).next (.access (.write low l))
    addressed.latches.vramAddress.toNat = h.toNat % 64 * 256 + l.toNat := by
  intro polled halfway addressed
  have hPolled : polled.latches.secondWrite = false :=
    (ppu.readRegister_secondWrite status).trans (if_pos hStatus)
  -- What happens before the first half keeps the latch clear; what happens before the second one keeps the
  -- latch set and the first half in its place.
  have hBefore := (after_samePair polled hFirst).secondWrite.trans hPolled
  have hHalfway := (writeRegister_address hHigh (polled.after first) h).trans
    (setAddressHalf_first hBefore h)
  have hWaiting := after_samePair halfway hSecond
  have hNext : (halfway.after second).latches.secondWrite = true :=
    hWaiting.secondWrite.trans (congrArg Latches.secondWrite hHalfway)
  have hLast := (writeRegister_address hLow (halfway.after second) l).trans
    (setAddressHalf_second hNext l)
  have hWord := hWaiting.vramAddress.trans (congrArg Latches.vramAddress hHalfway)
  calc
    addressed.latches.vramAddress.toNat
        = (Word.ofBytes l (Word.high (halfway.after second).latches.vramAddress)).toNat :=
          congrArg (fun latches => latches.vramAddress.toNat) hLast
    _ = h.toNat % 64 * 256 + l.toNat := by rw [hWord, toNat_halves]

/-! ## Histories -/

/-- **The toggle and the address follow the history.** After any history since it was switched on or reset, the
second half of a pair is next if and only if an odd number of halves, through either register, has been written
since the status was last read. The video address is on its bus. And a read of the status and two writes of
an address leave exactly their address, whatever the history was and whatever happens in between at the other
registers and in the time that passes. -/
theorem toggle_follows_history {start : Ppu} (hStart : start.Started) (history : List Event) :
    let ppu := start.after history
    (ppu.latches.secondWrite = true ↔ halvesWritten history % 2 = 1) ∧
    ppu.latches.vramAddress.toNat < 0x4000 ∧
    ∀ (status high low : UInt16) (h l : UInt8) (first second : List Event),
      PpuRegister.ofAddress status = .status → PpuRegister.ofAddress high = .address →
      PpuRegister.ofAddress low = .address → (∀ event ∈ first ++ second, event.isApart = true) →
      let pair := [.access (.read status)] ++ first ++ [.access (.write high h)] ++ second ++
        [.access (.write low l)]
      (start.after (history ++ pair)).latches.vramAddress.toNat = h.toNat % 64 * 256 + l.toNat := by
  intro ppu
  have hLatch : start.latches.secondWrite = false := by
    rw [hStart.latches_eq]
  refine ⟨start.after_secondWrite hLatch history, after_addressFits hStart.addressFits history, ?_⟩
  intro status high low h l first second hStatus hHigh hLow hApart pair
  -- Whatever the latch was before, the read of the status starts a new pair.
  have hPair := after_pair ppu (h := h) (l := l) hStatus hHigh hLow
    (fun event hMem => hApart event (List.mem_append_left second hMem))
    (fun event hMem => hApart event (List.mem_append_right first hMem))
  have hAfter : start.after (history ++ pair) = ppu.after pair := List.foldl_append
  rw [hAfter]
  simpa [pair, after, List.foldl_append] using hPair

/-- A write to the scroll register makes the second half next; the read of the status makes it the first one
again, and of the high half only six bits count. Every register is reached at some repeat of its address. -/
theorem address_follows_through_repeats :
    Started {} ∧
      let history : List Event := [.access (.write 0x2005 0x10), .dot]
      (({} : Ppu).after history).latches.secondWrite = true ∧
      let pair : List Event := [.access (.read 0x200A)] ++ [.dot, .access (.write 0x2000 0x80)] ++
        [.access (.write 0x3FFE 0xFF)] ++ [.access (.read 0x2004)] ++ [.access (.write 0x2006 0x21)]
      (({} : Ppu).after (history ++ pair)).latches.vramAddress.toNat = 0x3F21 := by
  have hFollows := toggle_follows_history .fresh [.access (.write 0x2005 0x10), .dot]
  exact ⟨.fresh, hFollows.1.mpr rfl,
    hFollows.2.2 0x200A 0x3FFE 0x2006 0xFF 0x21 [.dot, .access (.write 0x2000 0x80)]
      [.access (.read 0x2004)] rfl rfl rfl (by decide)⟩

end Ppu

end NesMachine
