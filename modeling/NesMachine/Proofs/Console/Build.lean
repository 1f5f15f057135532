import NesMachine.Console.Machine
import NesMachine.Proofs.Refusal

/-!
# Building a machine

What a machine is built from, and in which state it starts.

* `Machine.build_eq_ok_iff`: a machine that was just built has just been switched on.
* `Machine.exists_build_iff`: the programs and patterns that can be mounted.
-/

namespace NesMachine

namespace Machine

variable {program patterns : List UInt8} {config : Config} {built : Machine}

/-- The two banks of an accepted program have the size of a bank. -/
theorem length_of_banks {lower upper : List UInt8} (h : banks program = .ok (lower, upper)) :
    lower.length = MainMemory.bankSize ∧ upper.length = MainMemory.bankSize := by
  by_cases hOne : program.length = MainMemory.bankSize
  · rw [banks, if_pos hOne] at h
    cases h
    exact ⟨hOne, hOne⟩
  · by_cases hTwo : program.length = 2 * MainMemory.bankSize
    · rw [banks, if_neg hOne, if_pos hTwo] at h
      cases h
      rw [List.length_take, List.length_drop, hTwo]
      exact ⟨by decide, by decide⟩
    · rw [banks, if_neg hOne, if_neg hTwo] at h
      cases h

/-- One bank or two are taken, and no other length. -/
theorem exists_banks_iff : (∃ halves, banks program = .ok halves) ↔
    program.length = MainMemory.bankSize ∨ program.length = 2 * MainMemory.bankSize := by
  by_cases hOne : program.length = MainMemory.bankSize
  · simp [banks, hOne]
  · by_cases hTwo : program.length = 2 * MainMemory.bankSize
    · have hOk : banks program =
          .ok (program.take MainMemory.bankSize, program.drop MainMemory.bankSize) := by
        rw [banks, if_neg hOne, if_pos hTwo]
      simp [hOk, hTwo]
    · simp [banks, hOne, hTwo]

theorem ofBanks_eq_ok {lower upper : List UInt8} (hLower : lower.length = MainMemory.bankSize)
    (hUpper : upper.length = MainMemory.bankSize) :
    MainMemory.ofBanks lower upper =
      .ok { cells := (Ram.zero 16).setBytes 0x8000 (lower ++ upper) } := by
  simp [MainMemory.ofBanks, hLower, hUpper]

def mounted (lower upper patterns : List UInt8) (config : Config) : Machine :=
  let bare : MainMemory := { cells := (Ram.zero 16).setBytes 0x8000 (lower ++ upper) }
  let watched := (bare.observe transferAddress Observer.spriteTransfer).2
  { cpu := Cpu.setTracing {} config.trace
    bus :=
      { memory := (watched.observe frameCounterAddress Observer.frameIrq).2
        ppu :=
          { vram := Vram.load (Ram.zero 16) 0 patterns
            shortOddFrames := config.shortOddFrames } }
    config }

/-- Building is mounting what can be mounted, and switching it on. -/
theorem build_eq_ok_iff : build program patterns config = .ok built ↔
    ∃ lower upper, banks program = .ok (lower, upper) ∧
      (patterns.length = 0 ∨ patterns.length = patternSize) ∧
      built = (mounted lower upper patterns config).reset .powerOn := by
  cases hBanks : banks program with
  | error reason =>
    -- The machine looks at the program before the patterns, so a program that does not fit decides alone.
    constructor
    · intro h
      rw [build, hBanks] at h
      cases h
    · rintro ⟨lower, upper, hOk, -⟩
      cases hOk
  | ok halves =>
    rcases halves with ⟨lower, upper⟩
    have hLengths := length_of_banks hBanks
    have hMemory := ofBanks_eq_ok hLengths.1 hLengths.2
    by_cases hPatterns : patterns.length ≠ 0 ∧ patterns.length ≠ patternSize
    · constructor
      · intro h
        simp only [build, hBanks, if_pos hPatterns, bind, Except.bind] at h
        cases h
      · rintro ⟨_, _, -, hFits, -⟩
        omega
    · have hFits : patterns.length = 0 ∨ patterns.length = patternSize := by omega
      have hBuild : build program patterns config =
          .ok ((mounted lower upper patterns config).reset .powerOn) := by
        simp only [build, hBanks, if_neg hPatterns, hMemory, bind, Except.bind]
        rfl
      rw [hBuild]
      constructor
      · intro h
        cases h
        exact ⟨lower, upper, rfl, hFits, rfl⟩
      · rintro ⟨_, _, hOk, -, rfl⟩
        cases hOk
        rfl

/-- A machine that has just been switched on, with the given bytes in its storage and no patterns. -/
def switchedOn (cells : Ram 16) : Machine :=
  let bare : MainMemory := { cells }
  let watched := (bare.observe transferAddress Observer.spriteTransfer).2
  reset
    { bus :=
        { memory := (watched.observe frameCounterAddress Observer.frameIrq).2
          ppu := { vram := Ram.zero 16 } } }
    .powerOn

/-- Without patterns, a machine is built by switching it on over its banks. -/
theorem build_eq_switchedOn {lower upper : List UInt8} {cells : Ram 16}
    (hBanks : banks program = .ok (lower, upper))
    (hCells : (Ram.zero 16).setBytes 0x8000 (lower ++ upper) = cells) :
    build program [] {} = .ok (switchedOn cells) := by
  refine build_eq_ok_iff.mpr ⟨lower, upper, hBanks, .inl rfl, ?_⟩
  rw [mounted, hCells]
  rfl

/-- One or two program banks can be mounted, with all patterns or none. -/
theorem exists_build_iff : (∃ built, build program patterns config = .ok built) ↔
    (program.length = MainMemory.bankSize ∨ program.length = 2 * MainMemory.bankSize) ∧
      (patterns.length = 0 ∨ patterns.length = patternSize) := by
  rw [← exists_banks_iff]
  constructor
  · rintro ⟨built, h⟩
    rcases build_eq_ok_iff.mp h with ⟨lower, upper, hBanks, hFits, -⟩
    exact ⟨⟨_, hBanks⟩, hFits⟩
  · rintro ⟨⟨⟨lower, upper⟩, hBanks⟩, hFits⟩
    exact ⟨_, build_eq_ok_iff.mpr ⟨lower, upper, hBanks, hFits, rfl⟩⟩

/-- The program is looked at first. -/
theorem build_eq_unsupportedProgramSize
    (h : ¬(program.length = MainMemory.bankSize ∨ program.length = 2 * MainMemory.bankSize)) :
    build program patterns config = .error (.unsupportedProgramSize program.length) := by
  have hOne : ¬program.length = MainMemory.bankSize := fun hOne => h (.inl hOne)
  have hTwo : ¬program.length = 2 * MainMemory.bankSize := fun hTwo => h (.inr hTwo)
  have hBanks : banks program = .error (.unsupportedProgramSize program.length) := by
    rw [banks, if_neg hOne, if_neg hTwo]
  rw [build, hBanks]
  rfl

/-- Patterns of a wrong size are refused with the size, once the program has been taken. -/
theorem build_eq_unsupportedPatternSize
    (hProgram : program.length = MainMemory.bankSize ∨ program.length = 2 * MainMemory.bankSize)
    (hPatterns : ¬(patterns.length = 0 ∨ patterns.length = patternSize)) :
    build program patterns config = .error (.unsupportedPatternSize patterns.length) := by
  rcases exists_banks_iff.mpr hProgram with ⟨halves, hBanks⟩
  have hRefused : patterns.length ≠ 0 ∧ patterns.length ≠ patternSize := not_or.mp hPatterns
  simp only [build, hBanks, if_pos hRefused, bind, Except.bind]
  rfl

/-- A bank that is filled with one byte can be mounted without patterns. -/
theorem exists_build_of_replicate (opcode : UInt8) (config : Config) :
    ∃ built, build (List.replicate MainMemory.bankSize opcode) [] config = .ok built :=
  exists_build_iff.mpr ⟨.inl List.length_replicate, .inl rfl⟩

end Machine

end NesMachine
