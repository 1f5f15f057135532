import NesMachine.Proofs.Ppu.OpenBus
import NesMachine.Proofs.Ppu.RegisterAccess
import NesMachine.Proofs.Ppu.VerticalBlank

/-!
# The vertical blank flag as a matter of the beam

The flag is a latch: a reset and the start of the vertical blank set it, and a read of the status and the
second dot of the line before the picture clear it. What it shows can be said without the latch, from where
the beam is and whether the status has been read since the flag was last set.

* `Ppu.moments`: the events of a history, each with the picture unit before it.
* `Ppu.ReadSinceSet`: the status was read and no vertical blank has started since.
* `Ppu.next_vblank_iff`, `Ppu.next_inVblank_iff`: one event, on the flag and on the window of the beam.
* `Ppu.blank_flag_follows_beam`: the flag after any history, and how often a read shows it.
-/

namespace NesMachine

namespace Ppu

/-! ## Moments -/

/-- An event, and the picture unit before it. -/
structure Moment where
  ppu : Ppu
  event : Event

namespace Moment

def readsStatus (moment : Moment) : Bool :=
  match moment.event with
  | .access (.read address) => PpuRegister.ofAddress address = .status
  | _ => false

/-- The status register is read, and the byte has the bit of the vertical blank. -/
def showsBlank (moment : Moment) : Bool :=
  match moment.event with
  | .access (.read address) =>
    PpuRegister.ofAddress address = .status && Byte.bit (moment.ppu.readRegister address).1 7
  | _ => false

def startsBlank (moment : Moment) : Bool :=
  moment.event = .dot && moment.ppu.beam.scanline = Beam.vblankLine && moment.ppu.beam.dot = 1

def clearsStatus (moment : Moment) : Bool :=
  moment.event = .dot && moment.ppu.beam.scanline = Beam.preRenderLine && moment.ppu.beam.dot = 1

end Moment

/-- The events of a history that starts here, each with the picture unit before it. -/
def moments (ppu : Ppu) : List Event → List Moment
  | [] => []
  | event :: rest => { ppu, event } :: (ppu.next event).moments rest

/-- The status was read, and no vertical blank has started since. -/
def ReadSinceSet (moments : List Moment) : Prop :=
  ∃ earlier read later, moments = earlier ++ read :: later ∧ read.readsStatus = true ∧
    ∀ moment ∈ later, moment.startsBlank = false

/-- The last event of a history is its last moment. -/
theorem moments_append_singleton (ppu : Ppu) (history : List Event) (event : Event) :
    ppu.moments (history ++ [event]) =
      ppu.moments history ++ [{ ppu := ppu.after history, event }] := by
  induction history generalizing ppu with
  | nil => rfl
  | cons first rest ih => exact congrArg (List.cons _) (ih (ppu.next first))

/-- What comes before a moment is a history that leads to it. -/
theorem exists_of_moments_eq {ppu : Ppu} {history : List Event} {earlier later : List Moment}
    {moment : Moment} (h : ppu.moments history = earlier ++ moment :: later) :
    ∃ before, ppu.moments before = earlier ∧ moment.ppu = ppu.after before := by
  induction earlier generalizing ppu history with
  | nil =>
    cases history with
    | nil => cases h
    | cons event rest =>
      have hHere := (List.cons.inj h).1
      exact ⟨[], rfl, by rw [← hHere]; rfl⟩
  | cons first others ih =>
    cases history with
    | nil => cases h
    | cons event rest =>
      obtain ⟨hFirst, hRest⟩ := List.cons.inj h
      obtain ⟨before, hBefore, hMoment⟩ := ih hRest
      exact ⟨event :: before, by rw [moments, hFirst, hBefore], hMoment⟩

/-- A read of the status counts from the moment at which it is made, and until a vertical blank starts. -/
theorem readSinceSet_append_singleton {moments : List Moment} {moment : Moment} :
    ReadSinceSet (moments ++ [moment]) ↔
      moment.readsStatus = true ∨ ReadSinceSet moments ∧ moment.startsBlank = false := by
  constructor
  · rintro ⟨earlier, read, later, hSplit, hRead, hNone⟩
    rcases List.eq_nil_or_concat later with rfl | ⟨others, last, rfl⟩
    · have hLast := List.append_inj_right' hSplit rfl
      rw [List.singleton_inj.mp hLast]
      exact .inl hRead
    · -- The read is one of the moments before the last.
      have hMoved : moments ++ [moment] = (earlier ++ read :: others) ++ [last] := by
        simpa using hSplit
      have hMoments := List.append_inj_left' hMoved rfl
      have hLast : moment = last := List.singleton_inj.mp (List.append_inj_right' hMoved rfl)
      refine .inr ⟨⟨earlier, read, others, hMoments, hRead, ?_⟩, ?_⟩
      · intro other hMem
        exact hNone other (by simp [hMem])
      · rw [hLast]
        exact hNone last (by simp)
  · rintro (hRead | ⟨⟨earlier, read, later, rfl, hRead, hNone⟩, hHere⟩)
    · exact ⟨moments, moment, [], rfl, hRead, by simp⟩
    · refine ⟨earlier, read, later ++ [moment], by simp, hRead, ?_⟩
      intro other hMem
      rcases List.mem_append.mp hMem with hOld | hNew
      · exact hNone other hOld
      · rw [List.mem_singleton.mp hNew]
        exact hHere

/-! ## The status under accesses -/

/-- A read of the status clears the flag, and no other read changes the status. -/
theorem readRegister_status (ppu : Ppu) (address : UInt16) :
    (ppu.readRegister address).2.latches.status =
      if PpuRegister.ofAddress address = .status then { ppu.latches.status with vblank := false }
      else ppu.latches.status := by
  rw [readRegister]
  cases PpuRegister.ofAddress address with
  | data =>
    simp only [dataRead]
    split <;> rfl
  | _ => rfl

/-- No write changes the status. -/
theorem writeRegister_status (ppu : Ppu) (address : UInt16) (value : UInt8) :
    (ppu.writeRegister address value).latches.status = ppu.latches.status := by
  rw [writeRegister]
  cases PpuRegister.ofAddress address with
  | oamData =>
    simp only [settleWrite, oamWrite]
    split <;> rfl
  | _ => rfl

/-- Accesses leave the beam where it is. -/
theorem respond_beam (ppu : Ppu) (access : Access) : (ppu.respond access).2.beam = ppu.beam := by
  cases access with
  | read address => exact (ppu.readRegister_accessed address).beam
  | write address value => exact (ppu.writeRegister_accessed address value).beam

/-- A read of the status answers with the flag as it was before. -/
theorem bit_readRegister_status (ppu : Ppu) {address : UInt16}
    (h : PpuRegister.ofAddress address = .status) :
    Byte.bit (ppu.readRegister address).1 7 = ppu.latches.status.vblank := by
  have hByte : (ppu.readRegister address).1 =
      (ppu.refreshBus statusBits).overBus statusBits ppu.latches.status.toByte := by
    rw [readRegister, h]
    rfl
  rw [hByte, overBus_bit _ _ _ (by decide), bit_statusBits (by decide), if_pos (by decide)]
  exact Byte.bit_ofBits false false false false false _ _ _ 7

/-- The vertical blank is shown by reading the status while its flag is set. -/
theorem Moment.showsBlank_iff (moment : Moment) : moment.showsBlank = true ↔
    moment.readsStatus = true ∧ moment.ppu.latches.status.vblank = true := by
  rcases moment with ⟨ppu, event⟩
  rcases event with ⟨address | ⟨address, value⟩⟩ | _
  · by_cases hStatus : PpuRegister.ofAddress address = .status
    · simp [showsBlank, readsStatus, hStatus, ppu.bit_readRegister_status hStatus]
    · simp [showsBlank, readsStatus, hStatus]
  · simp [showsBlank, readsStatus]
  · simp [showsBlank, readsStatus]

/-! ## One event -/

section Event

variable {ppu : Ppu}

/-- Every event leaves the beam within the frame. -/
theorem next_valid (h : ppu.beam.Valid) (event : Event) : (ppu.next event).beam.Valid := by
  cases event with
  | access access =>
    rw [next, respond_beam]
    exact h
  | dot => exact tick_valid h

theorem startsBlank_dot_iff (h : ppu.beam.Valid) :
    Moment.startsBlank { ppu, event := .dot } = true ↔ ppu.beam.index = Beam.vblankIndex := by
  rw [Beam.index_eq_vblankIndex_iff h]
  simp [Moment.startsBlank]

theorem clearsStatus_dot_iff (h : ppu.beam.Valid) :
    Moment.clearsStatus { ppu, event := .dot } = true ↔ ppu.beam.index = 1 := by
  rw [Beam.index_eq_one_iff h]
  simp [Moment.clearsStatus]

/-- After an event the flag is set if it was and nothing has cleared it, or if the event sets it. -/
theorem next_vblank_iff (h : ppu.beam.Valid) (event : Event) :
    (ppu.next event).latches.status.vblank = true ↔
      ppu.latches.status.vblank = true ∧ Moment.readsStatus { ppu, event } = false ∧
          Moment.clearsStatus { ppu, event } = false ∨
        Moment.startsBlank { ppu, event } = true := by
  cases event with
  | dot =>
    rw [next, tick_vblank_iff h, startsBlank_dot_iff h, ← Bool.not_eq_true (Moment.clearsStatus _),
      clearsStatus_dot_iff h]
    simp [Moment.readsStatus]
  -- An access sets no flag, and only a read of the status clears one.
  | access access =>
    cases access with
    | read address =>
      rw [next, respond, readRegister_status]
      by_cases hStatus : PpuRegister.ofAddress address = .status
      · simp [hStatus, Moment.readsStatus, Moment.startsBlank]
      · simp [hStatus, Moment.readsStatus, Moment.clearsStatus, Moment.startsBlank]
    | write address value =>
      rw [next, respond, writeRegister_status]
      simp [Moment.readsStatus, Moment.clearsStatus, Moment.startsBlank]

/-- The beam is in the window after an event if it was and has not left it, or if it comes into it. -/
theorem next_inVblank_iff (h : ppu.beam.Valid) (event : Event) :
    (ppu.next event).beam.InVblank ↔
      ppu.beam.InVblank ∧ Moment.clearsStatus { ppu, event } = false ∨
        Moment.startsBlank { ppu, event } = true := by
  cases event with
  | dot =>
    rw [next, tick_beam, Beam.inVblank_advance_iff h, startsBlank_dot_iff h,
      ← Bool.not_eq_true (Moment.clearsStatus _), clearsStatus_dot_iff h]
  | access access =>
    rw [next, respond_beam]
    simp [Moment.clearsStatus, Moment.startsBlank]

/-- A dot is no read, so a start of the vertical blank reads nothing. -/
theorem readsStatus_of_startsBlank {moment : Moment} (h : moment.startsBlank = true) :
    moment.readsStatus = false := by
  have hDot : moment.event = .dot := by
    simp only [Moment.startsBlank, Bool.and_eq_true, decide_eq_true_eq] at h
    exact h.1.1
  rw [Moment.readsStatus, hDot]

/-- Neither of the flags that sprites set is set. -/
def SpritesClear (ppu : Ppu) : Prop :=
  ppu.latches.status.spriteOverflow = false ∧ ppu.latches.status.spriteZeroHit = false

/-- Nothing sets these flags, and the dot that clears the status clears them. -/
theorem SpritesClear.next {event : Event}
    (h : ppu.SpritesClear ∨ Moment.clearsStatus { ppu, event } = true) : (ppu.next event).SpritesClear := by
  cases event with
  | dot =>
    rw [SpritesClear, Ppu.next, tick_status]
    by_cases hCleared : ppu.beam.dot = 1 ∧ ppu.beam.scanline = Beam.preRenderLine
    · rw [if_pos hCleared]
      exact ⟨rfl, rfl⟩
    · have hKept : ppu.SpritesClear := by
        -- The dot that clears the status is the one that is excluded here.
        refine h.resolve_right fun hHere => hCleared ?_
        simp only [Moment.clearsStatus, Bool.and_eq_true, decide_eq_true_eq] at hHere
        exact ⟨hHere.2, hHere.1.2⟩
      rw [if_neg hCleared]
      split
      · exact hKept
      · exact hKept
  | access access =>
    have hKept : ppu.SpritesClear := h.resolve_right (by simp [Moment.clearsStatus])
    cases access with
    | read address =>
      rw [SpritesClear, Ppu.next, respond, readRegister_status]
      split
      · exact hKept
      · exact hKept
    | write address value =>
      rw [SpritesClear, Ppu.next, respond, writeRegister_status]
      exact hKept

end Event

/-! ## Histories -/

section History

variable {start : Ppu}

/-- After any history the beam is within the frame. -/
theorem after_valid (h : start.Started) (history : List Event) : (start.after history).beam.Valid := by
  induction history using List.reverseRecOn with
  | nil =>
    rw [after, List.foldl_nil, h.beam_eq]
    exact Beam.valid_default
  | append_singleton history event ih =>
    rw [after_append_singleton]
    exact next_valid ih event

/-- The flag is set when the beam is in the window and the status has not been read since. -/
theorem after_vblank_iff (h : start.Started) (history : List Event) :
    (start.after history).latches.status.vblank = true ↔
      ¬ReadSinceSet (start.moments history) ∧ (start.after history).beam.InVblank := by
  -- From the end: the last event sets the flag, clears it or leaves it.
  induction history using List.reverseRecOn with
  | nil =>
    have hNone : ¬ReadSinceSet (start.moments []) := by
      rintro ⟨earlier, read, later, hSplit, -⟩
      simp [moments] at hSplit
    have hFlag : start.latches.status.vblank = true := by
      rw [h.latches_eq]
      rfl
    have hWindow : start.beam.InVblank := by
      rw [h.beam_eq]
      exact .inl (by decide)
    exact iff_of_true hFlag ⟨hNone, hWindow⟩
  | append_singleton history event ih =>
    have hValid := after_valid h history
    have hExcluded : Moment.startsBlank { ppu := start.after history, event } = true →
        Moment.readsStatus { ppu := start.after history, event } = false := readsStatus_of_startsBlank
    rw [after_append_singleton, moments_append_singleton, next_vblank_iff hValid,
      next_inVblank_iff hValid, readSinceSet_append_singleton, ih]
    cases hStarts : Moment.startsBlank { ppu := start.after history, event } with
    | true => simp [hExcluded hStarts]
    | false => simp; tauto

/-- Once the line before the picture has begun, no sprite flag is set. -/
theorem after_spritesClear {history : List Event}
    (h : ∃ moment ∈ start.moments history, moment.clearsStatus = true) :
    (start.after history).SpritesClear := by
  induction history using List.reverseRecOn with
  | nil =>
    obtain ⟨moment, hMem, -⟩ := h
    cases hMem
  | append_singleton history event ih =>
    rw [after_append_singleton]
    refine .next ?_
    obtain ⟨moment, hMem, hClears⟩ := h
    rw [moments_append_singleton] at hMem
    rcases List.mem_append.mp hMem with hOld | hNew
    · exact .inl (ih ⟨moment, hOld, hClears⟩)
    · rw [List.mem_singleton.mp hNew] at hClears
      exact .inr hClears

/-- Between two reads that show the flag, a vertical blank starts. -/
theorem exists_startsBlank_of_showsBlank (h : start.Started) {history : List Event}
    {earlier middle later : List Moment} {first second : Moment}
    (hSplit : start.moments history = earlier ++ first :: middle ++ second :: later)
    (hFirst : first.showsBlank = true) (hSecond : second.showsBlank = true) :
    ∃ moment ∈ middle, moment.startsBlank = true := by
  obtain ⟨before, hBefore, hPpu⟩ := exists_of_moments_eq hSplit
  have hFlag := ((Moment.showsBlank_iff second).mp hSecond).2
  rw [hPpu, after_vblank_iff h, hBefore] at hFlag
  by_contra hNone
  refine hFlag.1 ⟨earlier, first, middle, rfl, ((Moment.showsBlank_iff first).mp hFirst).1, ?_⟩
  intro moment hMem
  by_contra hStarts
  exact hNone ⟨moment, hMem, by simpa using hStarts⟩

/-- **The vertical blank flag follows the beam.** After any history the flag is set if and only if the status
has not been read since it was last set, by the reset or by the start of a vertical blank, and the beam is
past that start and not past the second dot of the line before the picture. So two reads never show it
within one such window, it is clear from the third dot of that line on up to the start of the next
vertical blank, and the flags of the sprites are clear once that line has cleared them. -/
theorem blank_flag_follows_beam (hStart : start.Started) (history : List Event) :
    let ppu := start.after history
    let moments := start.moments history
    let line := ppu.beam.scanline
    let dot := ppu.beam.dot
    (ppu.latches.status.vblank = true ↔ ¬ReadSinceSet moments ∧
      (line = 241 ∧ 2 ≤ dot ∨ 242 ≤ line ∧ line ≤ 260 ∨ line = -1 ∧ dot ≤ 1)) ∧
    (∀ earlier first middle second later,
      moments = earlier ++ first :: middle ++ second :: later →
      first.showsBlank = true → second.showsBlank = true →
        ∃ moment ∈ middle, moment.startsBlank = true) ∧
    (line = -1 ∧ 2 ≤ dot ∨ 0 ≤ line ∧ line ≤ 240 ∨ line = 241 ∧ dot ≤ 1 →
      ppu.latches.status.vblank = false) ∧
    ((∃ moment ∈ moments, moment.clearsStatus = true) →
      ppu.latches.status.spriteOverflow = false ∧ ppu.latches.status.spriteZeroHit = false) := by
  intro ppu moments line dot
  have hValid : ppu.beam.Valid := after_valid hStart history
  have hFlag := after_vblank_iff hStart history
  rw [Beam.inVblank_iff hValid] at hFlag
  refine ⟨hFlag, ?_, ?_, after_spritesClear⟩
  · intro earlier first middle second later hSplit hFirst hSecond
    exact exists_startsBlank_of_showsBlank hStart hSplit hFirst hSecond
  · intro hOutside
    refine Bool.eq_false_iff.mpr fun hSet => ?_
    have hWindow : line = 241 ∧ 2 ≤ dot ∨ 242 ≤ line ∧ line ≤ 260 ∨ line = -1 ∧ dot ≤ 1 :=
      (hFlag.mp hSet).2
    omega

/-- On the line where a reset leaves the beam the flag is set, and a read of the status clears it for the
rest of the window. -/
theorem blank_flag_of_polled_start :
    Started {} ∧ (({} : Ppu).after [.dot]).latches.status.vblank = true ∧
      let polled := ({} : Ppu).after [.access (.read 0x2002), .dot]
      polled.beam.scanline = -1 ∧ polled.beam.dot = 1 ∧ polled.latches.status.vblank = false := by
  -- The only moment of the first history is a dot, and that reads nothing.
  have hUnread : ¬ReadSinceSet (({} : Ppu).moments [.dot]) := by
    rintro ⟨earlier, read, later, hSplit, hRead, -⟩
    have hMem : read ∈ ({} : Ppu).moments [.dot] := by
      rw [hSplit]
      simp
    rw [List.mem_singleton.mp hMem] at hRead
    cases hRead
  have hPolled : ReadSinceSet (({} : Ppu).moments [.access (.read 0x2002), .dot]) := by
    refine ⟨[], _, _, rfl, rfl, ?_⟩
    intro moment hMem
    rw [List.mem_singleton.mp hMem]
    rfl
  have hBefore := blank_flag_follows_beam .fresh [.dot]
  have hAfter := blank_flag_follows_beam .fresh [.access (.read 0x2002), .dot]
  refine ⟨.fresh, hBefore.1.mpr ⟨hUnread, .inr (.inr (by decide))⟩, by decide, by decide, ?_⟩
  exact Bool.eq_false_iff.mpr fun hSet => (hAfter.1.mp hSet).1 hPolled

end History

end Ppu

end NesMachine
