import NesMachine.Proofs.Cartridge.Parse
import NesMachine.Proofs.Console.Build
import NesMachine.Proofs.Console.Reset

/-!
# Images in a machine

A machine that has just been switched on shows the program of its cartridge, once or twice as its size
demands, and the patterns; all other memory is zero, and the processor starts where the end of the program
says.

* `Machine.getElem?_append_of_banks`: the two banks in a row are the program, repeated.
* `Machine.peek_mounted`: main memory with the program in it.
* `Machine.build_shows`: the machine that is built from a program and patterns.
* `Cartridge.mount_shows_image`: the machine that is built from an image.
-/

namespace NesMachine

namespace Machine

attribute [local instance (high)] instPowNat

variable {program patterns : List UInt8} {config : Config} {built : Machine}

/-! ## The program -/

/-- The two banks in a row are the program, which is repeated if it has the size of one. -/
theorem getElem?_append_of_banks {lower upper : List UInt8} (h : banks program = .ok (lower, upper)) {i : Nat}
    (hWindow : i < 0x8000) : (lower ++ upper)[i]? = program[i % program.length]? := by
  by_cases hOne : program.length = MainMemory.bankSize
  · rw [banks, if_pos hOne] at h
    cases h
    have hBank : program.length = 0x4000 := hOne
    -- The single bank stands in both halves.
    by_cases hLower : i < 0x4000
    · have hSame : i % program.length = i := Nat.mod_eq_of_lt (by omega)
      rw [hSame, List.getElem?_append_left (by omega)]
    · have hSame : i % program.length = i - program.length := by
        rw [hBank]
        omega
      rw [hSame, List.getElem?_append_right (by omega)]
  · by_cases hTwo : program.length = 2 * MainMemory.bankSize
    · rw [banks, if_neg hOne, if_pos hTwo] at h
      cases h
      have hBanks : program.length = 0x8000 := hTwo
      -- Two banks are the program itself.
      have hSame : i % program.length = i := Nat.mod_eq_of_lt (by omega)
      rw [hSame, List.take_append_drop]
    · rw [banks, if_neg hOne, if_neg hTwo] at h
      cases h

/-- The two banks fill the upper half of the bus. -/
theorem length_append_of_banks {lower upper : List UInt8} (h : banks program = .ok (lower, upper)) :
    (lower ++ upper).length = 0x8000 := by
  rw [List.length_append, (length_of_banks h).1, (length_of_banks h).2]
  rfl

/-- Main memory holds the banks in its upper half, and the expansion window below them is zero. -/
theorem peek_mounted {lower upper : List UInt8} (h : (lower ++ upper).length = 0x8000) {address : UInt16}
    (hAbove : 0x4000 ≤ address.toNat) : (mounted lower upper patterns config).peek address =
      if 0x8000 ≤ address.toNat then (lower ++ upper).getD (address.toNat - 0x8000) 0 else 0 := by
  have hFits : 0x8000 + (lower ++ upper).length ≤ 2 ^ 16 := by
    rw [h]
    decide
  have hCells := Ram.get_setBytes (Ram.zero 16) 0x8000 (lower ++ upper) address.toNat hFits address.toNat_lt
  have hMemory : (mounted lower upper patterns config).bus.memory.cells =
      (Ram.zero 16).setBytes 0x8000 (lower ++ upper) := rfl
  have hPeek := (mounted lower upper patterns config).bus.memory.peek_eq address
  rw [MainMemory.place_of_le hAbove, hMemory] at hPeek
  simp only [peek, SystemBus.peek, hPeek, hCells, Ram.get_zero, List.getD]

/-! ## The machine -/

/-- A machine shows a program and patterns: the bytes of both where the processor and the picture unit look
for them, the entry address from the end of the program, and zeroes everywhere else. -/
structure Shows (built : Machine) (program patterns : List UInt8) : Prop where
  programByte : ∀ i, i < 0x8000 →
    some (built.peek (UInt16.ofNat (0x8000 + i))) = program[i % program.length]?
  patternByte : ∀ i, i < 0x2000 → Vram.read built.ppu.vram (UInt16.ofNat i) = patterns.getD i 0
  entry : ∃ low high, program[program.length - 4]? = some low ∧ program[program.length - 3]? = some high ∧
    built.cpu.registers.pc = Word.ofBytes low high
  work : ∀ address : UInt16,
    address.toNat < 0x2000 ∨ 0x4000 ≤ address.toNat ∧ address.toNat < 0x8000 → built.peek address = 0
  oam : ∀ i, built.ppu.oam.get i = 0
  names : ∀ address : UInt16, 0x2000 ≤ address.toNat % 0x4000 → Vram.read built.ppu.vram address = 0

theorem toNat_programAddress {i : Nat} (h : i < 0x8000) :
    (UInt16.ofNat (0x8000 + i)).toNat = 0x8000 + i := by
  have hBus : 0x8000 + i < UInt16.size := by
    have hSize : UInt16.size = 0x10000 := rfl
    omega
  exact UInt16.toNat_ofNat_of_lt' hBus

/-- The program as the processor sees it, as long as it has one bank or two. -/
theorem peek_program (patterns : List UInt8) (config : Config) {lower upper : List UInt8}
    (h : banks program = .ok (lower, upper)) {i : Nat} (hWindow : i < 0x8000) :
    some ((mounted lower upper patterns config).peek (UInt16.ofNat (0x8000 + i))) =
      program[i % program.length]? := by
  have hLength := length_append_of_banks h
  have hAddress := toNat_programAddress hWindow
  rw [peek_mounted hLength (by omega), hAddress, if_pos (Nat.le_add_right _ _), Nat.add_sub_cancel_left,
    ← getElem?_append_of_banks h hWindow]
  have hIn : i < (lower ++ upper).length := by omega
  rw [List.getD, List.getElem?_eq_getElem hIn]
  rfl

/-- The entry address stands four bytes before the end of the program, whatever its size. -/
theorem entry_program (patterns : List UInt8) (config : Config) {lower upper : List UInt8}
    (h : banks program = .ok (lower, upper)) :
    some ((mounted lower upper patterns config).peek 0xFFFC) = program[program.length - 4]? ∧
      some ((mounted lower upper patterns config).peek 0xFFFD) = program[program.length - 3]? := by
  have hSize : program.length = 0x4000 ∨ program.length = 0x8000 := exists_banks_iff.mp ⟨_, h⟩
  -- The window ends with a whole bank, and so with the end of the program.
  have hEnd (back : Nat) (hBack : 0 < back ∧ back ≤ 0x4000) :
      (0x8000 - back) % program.length = program.length - back := by
    rcases hSize with hSize | hSize
    · rw [hSize]
      omega
    · rw [hSize]
      omega
  have hByte (back : Nat) (hBack : 0 < back ∧ back ≤ 0x4000) :
      some ((mounted lower upper patterns config).peek (UInt16.ofNat (0x8000 + (0x8000 - back)))) =
        program[program.length - back]? := by
    rw [← hEnd back hBack]
    exact peek_program patterns config h (by omega)
  exact ⟨hByte 4 (by decide), hByte 3 (by decide)⟩

/-- Power-on clears what lies behind the patterns, and leaves those. -/
theorem read_patterns (lower upper : List UInt8) (config : Config) (h : patterns.length ≤ 0x2000) {i : Nat}
    (hWindow : i < 0x2000) :
    Vram.read ((mounted lower upper patterns config).reset .powerOn).ppu.vram (UInt16.ofNat i) =
      patterns.getD i 0 := by
  have hAddress : (UInt16.ofNat i).toNat = i :=
    UInt16.toNat_ofNat_of_lt' (Nat.lt_trans hWindow (by decide))
  have hPatterns : (UInt16.ofNat i).toNat % 0x4000 < 0x2000 := by omega
  calc
    Vram.read ((mounted lower upper patterns config).reset .powerOn).ppu.vram (UInt16.ofNat i)
        = Vram.read (Vram.clearWork (Vram.load (Ram.zero 16) 0 patterns)) (UInt16.ofNat i) := rfl
    _ = Vram.read (Vram.load (Ram.zero 16) 0 patterns) (UInt16.ofNat i) := by
        rw [Vram.read_clearWork, if_pos hPatterns]
    _ = patterns.getD i (Vram.read (Ram.zero 16) (UInt16.ofNat i)) := by
        rw [Vram.read_load (Ram.zero 16) (by omega) _ (by omega), hAddress]
    _ = patterns.getD i 0 := congrArg (patterns.getD i) (Ram.get_zero 16 _)

/-- A machine that has just been built shows what it was built from. -/
theorem build_shows (h : build program patterns config = .ok built) : built.Shows program patterns := by
  rcases build_eq_ok_iff.mp h with ⟨lower, upper, hBanks, hFits, rfl⟩
  let bare := mounted lower upper patterns config
  have hLength := length_append_of_banks hBanks
  exact
    { programByte := by
        intro i hWindow
        have hAddress := toNat_programAddress hWindow
        rw [peek_reset_of_kept bare .powerOn (.inr (by omega))]
        exact peek_program patterns config hBanks hWindow
      patternByte := by
        intro i hWindow
        have hPatterns : patterns.length ≤ 0x2000 := by
          simp only [patternSize] at hFits
          omega
        exact read_patterns lower upper config hPatterns hWindow
      entry := by
        rcases entry_program patterns config hBanks with ⟨hLow, hHigh⟩
        exact ⟨bare.peek 0xFFFC, bare.peek 0xFFFD, hLow.symm, hHigh.symm, bare.reset_pc .powerOn⟩
      work := by
        intro address hWork
        by_cases hCleared : address.toNat < 0x2000 ∨ 0x6000 ≤ address.toNat ∧ address.toNat < 0x8000
        · exact peek_powerOn_of_cleared bare hCleared
        · -- The expansion window is not cleared, but nothing was stored there.
          rw [peek_reset_of_kept bare .powerOn (.inl (by omega)), peek_mounted hLength (by omega),
            if_neg (by omega)]
      oam := fun i => Ram.get_zero 8 i
      names := by
        intro address hNames
        have hRead := Vram.read_clearWork bare.ppu.vram address
        rw [if_neg (by omega)] at hRead
        exact hRead }

end Machine

/-! ## Images -/

namespace Cartridge

variable {image : List UInt8} {cartridge : Cartridge}

/-- The program of an accepted image has the size of as many banks as the image announces. -/
theorem program_length_eq_iff (h : parse image = .ok cartridge) (count : Nat) :
    cartridge.program.length = count * MainMemory.bankSize ↔ (image.getD 4 0).toNat = count := by
  rcases parse_eq_ok_iff.mp h with ⟨hWellFormed, rfl⟩
  have hLength : (ofImage image).program.length = 16384 * (image.getD 4 0).toNat :=
    length_slice hWellFormed .program
  rw [hLength]
  simp only [MainMemory.bankSize]
  omega

/-- The patterns of an image fill the pattern tables exactly when its header announces one bank of them. -/
theorem patterns_length_eq_iff (h : parse image = .ok cartridge) (count : Nat) :
    cartridge.patterns.length = count * Machine.patternSize ↔ (image.getD 5 0).toNat = count := by
  rcases parse_eq_ok_iff.mp h with ⟨hWellFormed, rfl⟩
  have hLength : (ofImage image).patterns.length = 8192 * (image.getD 5 0).toNat :=
    length_slice hWellFormed .patterns
  rw [hLength]
  simp only [Machine.patternSize]
  omega

/-- **A booted machine shows the image it was given.** An accepted image can be mounted if and only if it has
one or two program banks and at most one bank of patterns, and else the size of what is wrong is reported,
that of the program first. The machine that is built shows the program and the patterns of the image. -/
theorem mount_shows_image (h : parse image = .ok cartridge) (config : Config) :
    let program := Image.slice image .program
    let patterns := Image.slice image .patterns
    let fitsProgram := (image.getD 4 0).toNat = 1 ∨ (image.getD 4 0).toNat = 2
    let fitsPatterns := (image.getD 5 0).toNat = 0 ∨ (image.getD 5 0).toNat = 1
    ((∃ built, cartridge.mount config = .ok built) ↔ fitsProgram ∧ fitsPatterns) ∧
      (¬fitsProgram → cartridge.mount config = .error (.unsupportedProgramSize program.length)) ∧
      (fitsProgram → ¬fitsPatterns →
        cartridge.mount config = .error (.unsupportedPatternSize patterns.length)) ∧
      ∀ built, cartridge.mount config = .ok built → built.Shows program patterns := by
  intro program patterns fitsProgram fitsPatterns
  have hParts : cartridge = ofImage image := (parse_eq_ok_iff.mp h).2
  have hProgram : cartridge.program.length = MainMemory.bankSize ∨
      cartridge.program.length = 2 * MainMemory.bankSize ↔ fitsProgram := by
    have hOne := program_length_eq_iff h 1
    rw [Nat.one_mul] at hOne
    exact or_congr hOne (program_length_eq_iff h 2)
  have hPatterns : cartridge.patterns.length = 0 ∨ cartridge.patterns.length = Machine.patternSize ↔
      fitsPatterns := by
    have hNone := patterns_length_eq_iff h 0
    have hOne := patterns_length_eq_iff h 1
    rw [Nat.zero_mul] at hNone
    rw [Nat.one_mul] at hOne
    exact or_congr hNone hOne
  have hProgramPart : cartridge.program = program := congrArg Cartridge.program hParts
  have hPatternsPart : cartridge.patterns = patterns := congrArg Cartridge.patterns hParts
  -- Both conditions on the header are now conditions on the lengths, which is what the machine checks.
  rw [← hProgram, ← hPatterns, ← hProgramPart, ← hPatternsPart]
  exact ⟨Machine.exists_build_iff, Machine.build_eq_unsupportedProgramSize,
    Machine.build_eq_unsupportedPatternSize, fun _ hBuilt => Machine.build_shows hBuilt⟩

/-- One bank of no-operations and no patterns. -/
theorem mount_shows_image_of_idle_program :
    let image := Image.plain 1 0 (List.replicate 16384 0xEA) []
    ∃ cartridge built, parse image = .ok cartridge ∧ cartridge.mount {} = .ok built ∧
      built.peek 0xBFFF = 0xEA ∧ built.cpu.registers.pc = 0xEAEA := by
  have hLength : (List.replicate 16384 (0xEA : UInt8)).length = 16384 := List.length_replicate
  have hByte {i : Nat} (hIndex : i < 16384) : (List.replicate 16384 (0xEA : UInt8))[i]? = some 0xEA :=
    List.getElem?_replicate_of_lt hIndex
  have hProgram : (List.replicate 16384 (0xEA : UInt8)).length = 16384 * (1 : UInt8).toNat := hLength
  have hPatterns : ([] : List UInt8).length = 8192 * (0 : UInt8).toNat := rfl
  have hParse := parse_plain hProgram hPatterns
  have hMount := mount_shows_image hParse {}
  rcases hMount.1.mpr ⟨.inl rfl, .inl rfl⟩ with ⟨built, hBuilt⟩
  have hShows := hMount.2.2.2 built hBuilt
  rw [Image.slice_plain_program hProgram] at hShows
  -- The last byte before the second window, and the two bytes of the vector.
  have hLast := hShows.programByte 0x3FFF (by decide)
  rw [hLength, hByte (Nat.mod_lt _ (by decide))] at hLast
  rcases hShows.entry with ⟨low, high, hLow, hHigh, hEntry⟩
  rw [hLength, hByte (by decide)] at hLow hHigh
  cases hLow
  cases hHigh
  exact ⟨_, built, hParse, hBuilt, Option.some.inj hLast, hEntry⟩

end Cartridge

end NesMachine
