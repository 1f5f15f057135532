import Mathlib.Tactic.SplitIfs
import NesMachine.Cartridge
import NesMachine.Proofs.Byte

/-!
# Taking images apart

The bytes of an image announce the sizes of its sections. An image is well formed when it has a header with
the magic bytes and all that it announces. `Cartridge.parse` accepts the well-formed images and no others.

* `Image.size`, `Image.offset`: the sections as the image announces them.
* `Cartridge.parse_eq`: what `parse` answers, section by section.
* `Cartridge.parse_eq_ok_iff`: the images that it accepts, and their parts.
* `Cartridge.parse_append`: bytes after the announced ones change nothing.
* `Cartridge.parse_plain`: programs and patterns that are put into an image are taken from it again.
* `Cartridge.ofImage_takenFrom`: the parts of an accepted image.
* `Cartridge.parse_exact`: all of it together, with the errors.
-/

namespace NesMachine

/-! ## What an image announces -/

namespace Image

def hasTrainer (image : List UInt8) : Bool :=
  (image.getD 6 0).toNat.testBit 2

def size (image : List UInt8) : CartridgeSection → Nat
  | .trainer => if hasTrainer image then 512 else 0
  | .program => 16384 * (image.getD 4 0).toNat
  | .patterns => 8192 * (image.getD 5 0).toNat

/-- Where a section starts: behind the header and the sections before it. -/
def offset (image : List UInt8) : CartridgeSection → Nat
  | .trainer => 16
  | .program => 16 + size image .trainer
  | .patterns => 16 + size image .trainer + size image .program

def stop (image : List UInt8) (part : CartridgeSection) : Nat :=
  offset image part + size image part

def slice (image : List UInt8) (part : CartridgeSection) : List UInt8 :=
  (image.drop (offset image part)).take (size image part)

/-- The length of the header and of all that an image announces. -/
def announced (image : List UInt8) : Nat :=
  16 + size image .trainer + size image .program + size image .patterns

/-- A header with the magic bytes, and all the sections that it announces. -/
structure WellFormed (image : List UInt8) : Prop where
  header : 16 ≤ image.length
  magic : image.take 4 = CartridgeHeader.magic
  sections : announced image ≤ image.length

theorem stop_trainer (image : List UInt8) : stop image .trainer = offset image .program := rfl

theorem stop_program (image : List UInt8) : stop image .program = offset image .patterns := rfl

theorem header_le_announced (image : List UInt8) : 16 ≤ announced image := by
  simp only [announced]
  omega

/-- All sections lie within what is announced. -/
theorem stop_le_announced (image : List UInt8) (part : CartridgeSection) :
    stop image part ≤ announced image := by
  cases part with
  | trainer => simp only [stop, offset, announced]; omega
  | program => simp only [stop, offset, announced]; omega
  | patterns => exact Nat.le_refl _

section Prefix

variable (image : List UInt8) {n : Nat}

theorem getD_take (h : 16 ≤ n) {i : Nat} (hHeader : i < 16) : (image.take n).getD i 0 = image.getD i 0 := by
  simp [List.getD, List.getElem?_take_of_lt (Nat.lt_of_lt_of_le hHeader h)]

theorem hasTrainer_take (h : 16 ≤ n) : hasTrainer (image.take n) = hasTrainer image := by
  simp only [hasTrainer, getD_take image h (by decide : 6 < 16)]

/-- The sizes stand in the header. -/
theorem size_take (h : 16 ≤ n) (part : CartridgeSection) : size (image.take n) part = size image part := by
  cases part with
  | trainer => simp only [size, hasTrainer_take image h]
  | program => simp only [size, getD_take image h (by decide : 4 < 16)]
  | patterns => simp only [size, getD_take image h (by decide : 5 < 16)]

/-- Where a section starts is settled by the header. -/
theorem offset_take (h : 16 ≤ n) (part : CartridgeSection) :
    offset (image.take n) part = offset image part := by
  cases part <;> simp only [offset, size_take image h]

/-- How long an image should be is settled by the header. -/
theorem announced_take (h : 16 ≤ n) : announced (image.take n) = announced image := by
  simp only [announced, size_take image h]

/-- The bytes past what is announced belong to no section. -/
theorem slice_take (h : announced image ≤ n) (part : CartridgeSection) :
    slice (image.take n) part = slice image part := by
  have hHeader : 16 ≤ n := Nat.le_trans (header_le_announced image) h
  have hStop : offset image part + size image part ≤ n := Nat.le_trans (stop_le_announced image part) h
  have hSize : min (size image part) (n - offset image part) = size image part := by omega
  simp only [slice, size_take image hHeader, offset_take image hHeader, List.drop_take, List.take_take, hSize]

end Prefix

/-- Sections that an image has in full stand one behind the other. -/
theorem take_slices (image : List UInt8) : image.take 16 ++ slice image .trainer ++ slice image .program ++
    slice image .patterns = image.take (announced image) := by
  have hNext (start count : Nat) :
      image.take start ++ (image.drop start).take count = image.take (start + count) :=
    List.take_add.symm
  simp only [slice, offset, announced, hNext]

def plain (programBanks patternBanks : UInt8) (program patterns : List UInt8) : List UInt8 :=
  CartridgeHeader.magic ++ [programBanks, patternBanks, 0, 0, 0, 0, 0, 0, 0, 0, 0, 0] ++ program ++ patterns

section Plain

variable {programBanks patternBanks : UInt8} {program patterns : List UInt8}

theorem hasTrainer_plain : hasTrainer (plain programBanks patternBanks program patterns) = false := by
  have hFlags : (plain programBanks patternBanks program patterns).getD 6 0 = 0 := rfl
  rw [hasTrainer, hFlags]
  decide

theorem size_plain_trainer : size (plain programBanks patternBanks program patterns) .trainer = 0 := by
  simp [size, hasTrainer_plain]

theorem announced_plain : announced (plain programBanks patternBanks program patterns) =
    16 + 16384 * programBanks.toNat + 8192 * patternBanks.toNat := by
  rw [announced, size_plain_trainer]
  rfl

theorem slice_plain_program (h : program.length = 16384 * programBanks.toNat) :
    slice (plain programBanks patternBanks program patterns) .program = program := by
  have hBehind : (plain programBanks patternBanks program patterns).drop 16 = program ++ patterns := rfl
  have hSize : size (plain programBanks patternBanks program patterns) .program = program.length := h.symm
  simp only [slice, offset, size_plain_trainer, Nat.add_zero, hBehind, hSize, List.take_left]

theorem slice_plain_patterns (h : program.length = 16384 * programBanks.toNat)
    (hPatterns : patterns.length = 8192 * patternBanks.toNat) :
    slice (plain programBanks patternBanks program patterns) .patterns = patterns := by
  have hBehind : (plain programBanks patternBanks program patterns).drop 16 = program ++ patterns := rfl
  have hStart : size (plain programBanks patternBanks program patterns) .program = program.length := h.symm
  have hSize : size (plain programBanks patternBanks program patterns) .patterns = patterns.length :=
    hPatterns.symm
  simp only [slice, offset, size_plain_trainer, Nat.add_zero, ← List.drop_drop, hBehind, hStart, hSize,
    List.drop_left, List.take_length]

end Plain

end Image

namespace CartridgeHeader

/-- The header as it stands in an image. -/
def ofImage (image : List UInt8) : CartridgeHeader :=
  { programBanks := image.getD 4 0
    patternBanks := image.getD 5 0
    flags6 := image.getD 6 0
    flags7 := image.getD 7 0 }

/-- A header is refused for its length first, and then for its first four bytes. -/
theorem parse_eq (image : List UInt8) : parse image =
    if image.length < 16 then .error (.headerTooShort image.length)
    else if image.take 4 ≠ CartridgeHeader.magic then .error .missingMagic
    else .ok (ofImage image) :=
  rfl

variable (header : CartridgeHeader)

/-- Bit 2 of flag byte 6 announces a trainer. -/
theorem hasTrainer_eq : header.hasTrainer = header.flags6.toNat.testBit 2 :=
  Byte.forall_of_all (P := fun flags => (flags &&& 0x04 != 0) = flags.toNat.testBit 2)
    (by decide +kernel) header.flags6

/-- The high half of the seventh flag byte stands over that of the sixth. -/
theorem mapper_eq : header.mapper.toNat = 16 * (header.flags7.toNat / 16) + header.flags6.toNat / 16 := by
  have hHigh : (header.flags7 &&& 0xF0).toNat = 16 * (header.flags7.toNat / 16) :=
    Byte.forall_of_all (P := fun flags => (flags &&& 0xF0).toNat = 16 * (flags.toNat / 16))
      (by decide +kernel) header.flags7
  have hLow : (header.flags6 >>> 4).toNat = header.flags6.toNat / 16 :=
    Byte.forall_of_all (P := fun flags => (flags >>> 4).toNat = flags.toNat / 16)
      (by decide +kernel) header.flags6
  have hNibble : header.flags6.toNat / 16 < 2 ^ 4 := by
    have hByte := header.flags6.toNat_lt
    omega
  rw [mapper, UInt8.toNat_or, hHigh, hLow]
  exact (Nat.two_pow_add_eq_or_of_lt hNibble _).symm

end CartridgeHeader

namespace Cartridge

variable (image : List UInt8)

/-! ## Sections -/

/-- A section is cut out of the image where it stands. -/
theorem cut_section (part : CartridgeSection) (h : Image.offset image part ≤ image.length) :
    cut part (Image.size image part) (image.drop (Image.offset image part)) =
      if image.length < Image.stop image part then
        .error (.sectionTooShort part (Image.size image part) (image.length - Image.offset image part))
      else .ok (Image.slice image part, image.drop (Image.stop image part)) := by
  have hShort : image.length - Image.offset image part < Image.size image part ↔
      image.length < Image.stop image part := by
    simp only [Image.stop]
    omega
  simp only [cut, List.length_drop, List.drop_drop, hShort]
  rfl

/-- A trainer that is not announced has no bytes, and so it lacks none. -/
theorem cutTrainer_drop (h : 16 ≤ image.length) :
    cutTrainer (.ofImage image) (image.drop 16) =
      if image.length < Image.stop image .trainer then
        .error (.sectionTooShort .trainer (Image.size image .trainer) (image.length - 16))
      else
        .ok (if Image.hasTrainer image then some (Image.slice image .trainer) else none,
          image.drop (Image.stop image .trainer)) := by
  have hFlag : (CartridgeHeader.ofImage image).hasTrainer = Image.hasTrainer image :=
    CartridgeHeader.hasTrainer_eq _
  rw [cutTrainer, hFlag]
  cases hTrainer : Image.hasTrainer image with
  | false =>
    -- Nothing is announced, so the end of the trainer is the end of the header.
    have hSize : Image.size image .trainer = 0 := by simp [Image.size, hTrainer]
    have hFits : ¬image.length < 16 := Nat.not_lt_of_le h
    simp [Image.stop, Image.offset, hSize, hFits, pure, Except.pure]
  | true =>
    have hSize : trainerSize = Image.size image .trainer := by simp [Image.size, hTrainer, trainerSize]
    have hCut := cut_section image .trainer h
    rw [if_pos rfl, if_pos rfl, hSize]
    simp only [Image.offset] at hCut
    rw [hCut]
    split
    · rfl
    · rfl

/-- The image taken apart, whether it is long enough or not. -/
def ofImage : Cartridge :=
  { header := .ofImage image
    trainer := if Image.hasTrainer image then some (Image.slice image .trainer) else none
    program := Image.slice image .program
    patterns := Image.slice image .patterns }

/-- Whatever follows the announced bytes has no effect on the cartridge. -/
theorem ofImage_take {n : Nat} (h : Image.announced image ≤ n) : ofImage (image.take n) = ofImage image := by
  have hHeader : 16 ≤ n := Nat.le_trans (Image.header_le_announced image) h
  have hByte {i : Nat} (hIndex : i < 16) : (image.take n).getD i 0 = image.getD i 0 :=
    Image.getD_take image hHeader hIndex
  simp only [ofImage, CartridgeHeader.ofImage, Image.slice_take image h, Image.hasTrainer_take image hHeader,
    hByte (by decide : 4 < 16), hByte (by decide : 5 < 16), hByte (by decide : 6 < 16),
    hByte (by decide : 7 < 16)]

/-- What `parse` answers: the first fault from the front of the image, or else its parts. -/
theorem parse_eq : parse image =
    if image.length < 16 then .error (.headerTooShort image.length)
    else if image.take 4 ≠ CartridgeHeader.magic then .error .missingMagic
    else if image.length < Image.stop image .trainer then
      .error (.sectionTooShort .trainer (Image.size image .trainer) (image.length - 16))
    else if image.length < Image.stop image .program then
      .error (.sectionTooShort .program (Image.size image .program)
        (image.length - Image.offset image .program))
    else if image.length < Image.stop image .patterns then
      .error (.sectionTooShort .patterns (Image.size image .patterns)
        (image.length - Image.offset image .patterns))
    else .ok (ofImage image) := by
  rw [parse, CartridgeHeader.parse_eq]
  by_cases hHeader : image.length < 16
  · simp only [if_pos hHeader]
    rfl
  · by_cases hMagic : image.take 4 ≠ CartridgeHeader.magic
    · simp only [if_neg hHeader, if_pos hMagic]
      rfl
    · have hTrainer := cutTrainer_drop image (Nat.le_of_not_lt hHeader)
      simp only [if_neg hHeader, if_neg hMagic, bind, Except.bind, CartridgeHeader.size, hTrainer]
      by_cases hTrainerFits : image.length < Image.stop image .trainer
      · simp only [if_pos hTrainerFits]
      · -- What is left starts where the trainer ends, and so with the program.
        have hProgramSize : (CartridgeHeader.ofImage image).programSize = Image.size image .program :=
          Nat.mul_comm _ _
        have hPatternSize : (CartridgeHeader.ofImage image).patternSize = Image.size image .patterns :=
          Nat.mul_comm _ _
        have hProgram := cut_section image .program (Nat.le_of_not_lt hTrainerFits)
        simp only [if_neg hTrainerFits, hProgramSize, hPatternSize]
        simp only [Image.stop_trainer, hProgram]
        by_cases hProgramFits : image.length < Image.stop image .program
        · simp only [if_pos hProgramFits]
        · have hPatterns := cut_section image .patterns (Nat.le_of_not_lt hProgramFits)
          simp only [if_neg hProgramFits]
          simp only [Image.stop_program, hPatterns]
          by_cases hPatternsFit : image.length < Image.stop image .patterns
          · simp only [if_pos hPatternsFit]
          · simp only [if_neg hPatternsFit]
            rfl

/-! ## Answers -/

variable {image} {cartridge : Cartridge}

/-- The well-formed images are accepted, and taken apart as they announce it. -/
theorem parse_eq_ok_iff : parse image = .ok cartridge ↔
    Image.WellFormed image ∧ cartridge = ofImage image := by
  rw [parse_eq]
  constructor
  · intro h
    split_ifs at h with hHeader hMagic hTrainer hProgram hPatterns
    cases h
    exact ⟨⟨Nat.le_of_not_lt hHeader, Decidable.not_not.mp hMagic, Nat.le_of_not_lt hPatterns⟩, rfl⟩
  · rintro ⟨⟨hHeader, hMagic, hSections⟩, rfl⟩
    have hFits (part : CartridgeSection) : ¬image.length < Image.stop image part :=
      Nat.not_lt_of_le (Nat.le_trans (Image.stop_le_announced image part) hSections)
    rw [if_neg (Nat.not_lt_of_le hHeader), if_neg (Decidable.not_not.mpr hMagic), if_neg (hFits .trainer),
      if_neg (hFits .program), if_neg (hFits .patterns)]

/-- Exactly the well-formed images are accepted. -/
theorem exists_parse_iff : (∃ cartridge, parse image = .ok cartridge) ↔ Image.WellFormed image := by
  constructor
  · rintro ⟨cartridge, h⟩
    exact (parse_eq_ok_iff.mp h).1
  · intro h
    exact ⟨ofImage image, parse_eq_ok_iff.mpr ⟨h, rfl⟩⟩

/-- An image is too short for a header exactly when it has less than sixteen bytes, and the error tells how
many. -/
theorem parse_eq_headerTooShort_iff (actual : Nat) : parse image = .error (.headerTooShort actual) ↔
    image.length < 16 ∧ actual = image.length := by
  rw [parse_eq]
  split_ifs with hHeader
  · simp [hHeader, eq_comm]
  all_goals simp [hHeader]

/-- The magic bytes are missing exactly when there is a header that starts otherwise. -/
theorem parse_eq_missingMagic_iff : parse image = .error .missingMagic ↔
    16 ≤ image.length ∧ image.take 4 ≠ CartridgeHeader.magic := by
  rw [parse_eq]
  split_ifs with hHeader hMagic
  · have hShort : ¬16 ≤ image.length := Nat.not_le_of_lt hHeader
    simp [hShort]
  · simpa [hMagic] using hHeader
  all_goals simp [hMagic]

/-- The first section that does not fit is the one whose start is still within the image. -/
theorem parse_eq_sectionTooShort_iff (part : CartridgeSection) (expected actual : Nat) :
    parse image = .error (.sectionTooShort part expected actual) ↔
      16 ≤ image.length ∧ image.take 4 = CartridgeHeader.magic ∧
        Image.offset image part ≤ image.length ∧ image.length < Image.stop image part ∧
        expected = Image.size image part ∧ actual = image.length - Image.offset image part := by
  rw [parse_eq]
  constructor
  · intro h
    split_ifs at h with hHeader hMagic hTrainer hProgram hPatterns
    all_goals cases h
    all_goals refine ⟨Nat.le_of_not_lt hHeader, Decidable.not_not.mp hMagic, ?_⟩
    · exact ⟨Nat.le_of_not_lt hHeader, hTrainer, rfl, rfl⟩
    · exact ⟨Nat.le_of_not_lt hTrainer, hProgram, rfl, rfl⟩
    · exact ⟨Nat.le_of_not_lt hProgram, hPatterns, rfl, rfl⟩
  · rintro ⟨hHeader, hMagic, hStart, hShort, rfl, rfl⟩
    rw [if_neg (Nat.not_lt_of_le hHeader), if_neg (Decidable.not_not.mpr hMagic)]
    -- A section starts where the one before it ends, so the sections before this one fit.
    cases part with
    | trainer =>
      rw [if_pos hShort]
      rfl
    | program =>
      have hTrainer : ¬image.length < Image.stop image .trainer := Nat.not_lt_of_le hStart
      rw [if_neg hTrainer, if_pos hShort]
    | patterns =>
      have hProgram : ¬image.length < Image.stop image .program := Nat.not_lt_of_le hStart
      have hTrainer : ¬image.length < Image.stop image .trainer := by
        have hOrder : Image.stop image .trainer ≤ Image.stop image .program := Nat.le_add_right _ _
        omega
      rw [if_neg hTrainer, if_neg hProgram, if_pos hShort]

/-- An accepted image is not read past what it announces. -/
theorem parse_of_take_eq {other : List UInt8} (h : parse image = .ok cartridge)
    (hSame : other.take (Image.announced image) = image.take (Image.announced image)) :
    parse other = .ok cartridge := by
  rcases parse_eq_ok_iff.mp h with ⟨hWellFormed, rfl⟩
  have hLong := Image.header_le_announced image
  have hAnnounced : Image.announced other = Image.announced image := by
    rw [← Image.announced_take other hLong, hSame, Image.announced_take image hLong]
  have hParts : ofImage other = ofImage image := by
    rw [← ofImage_take other (Nat.le_of_eq hAnnounced), hSame, ofImage_take image (Nat.le_refl _)]
  have hLength : Image.announced image ≤ other.length := by
    have hTaken := congrArg List.length hSame
    rw [List.length_take_of_le hWellFormed.sections, List.length_take] at hTaken
    omega
  -- The magic bytes are among the announced ones.
  have hMagic : other.take 4 = image.take 4 := by
    have hFront := congrArg (List.take 4) hSame
    have hMin : min 4 (Image.announced image) = 4 := by omega
    rwa [List.take_take, List.take_take, hMin] at hFront
  refine parse_eq_ok_iff.mpr ⟨⟨Nat.le_trans hLong hLength, ?_, ?_⟩, hParts.symm⟩
  · rw [hMagic, hWellFormed.magic]
  · rw [hAnnounced]
    exact hLength

/-- An image can be followed by anything. -/
theorem parse_append (h : parse image = .ok cartridge) (rest : List UInt8) :
    parse (image.take (Image.announced image) ++ rest) = .ok cartridge := by
  have hLength := List.length_take_of_le (parse_eq_ok_iff.mp h).1.sections
  exact parse_of_take_eq h (List.take_left' hLength)

/-- Every program and all patterns of whole banks make an image, from which they are taken again. -/
theorem parse_plain {programBanks patternBanks : UInt8} {program patterns : List UInt8}
    (hProgram : program.length = 16384 * programBanks.toNat)
    (hPatterns : patterns.length = 8192 * patternBanks.toNat) :
    parse (Image.plain programBanks patternBanks program patterns) = .ok
      { header := { programBanks, patternBanks, flags6 := 0, flags7 := 0 }
        trainer := none
        program
        patterns } := by
  have hLength : (Image.plain programBanks patternBanks program patterns).length =
      16 + program.length + patterns.length := by
    simp only [Image.plain, List.length_append]
    rfl
  refine parse_eq_ok_iff.mpr ⟨⟨?_, rfl, ?_⟩, ?_⟩
  · omega
  · rw [Image.announced_plain]
    omega
  · rw [ofImage, Image.hasTrainer_plain, Image.slice_plain_program hProgram,
      Image.slice_plain_patterns hProgram hPatterns]
    rfl

/-! ## Banks -/

/-- There are as many banks as were asked for, whatever the program. -/
theorem length_cutBanks (program : List UInt8) (count : Nat) : (cutBanks program count).length = count := by
  induction count generalizing program with
  | zero => rfl
  | succ count ih => simp [cutBanks, ih]

/-- The banks of a program of that many banks are whole. -/
theorem length_of_mem_cutBanks {program : List UInt8} {count : Nat}
    (h : program.length = count * MainMemory.bankSize) {bank : List UInt8}
    (hBank : bank ∈ cutBanks program count) : bank.length = MainMemory.bankSize := by
  induction count generalizing program with
  | zero => cases hBank
  | succ count ih =>
    have hLength : program.length = count * MainMemory.bankSize + MainMemory.bankSize := by
      rw [h, Nat.succ_mul]
    -- The first bank, or one of those that are cut from the rest.
    rcases List.mem_cons.mp hBank with rfl | hRest
    · exact List.length_take_of_le (by omega)
    · exact ih (by rw [List.length_drop]; omega) hRest

/-- The banks of a program make it up again. -/
theorem flatten_cutBanks {program : List UInt8} {count : Nat}
    (h : program.length = count * MainMemory.bankSize) : (cutBanks program count).flatten = program := by
  induction count generalizing program with
  | zero =>
    have hNone : program = [] := List.eq_nil_of_length_eq_zero (by simpa using h)
    simp [cutBanks, hNone]
  | succ count ih =>
    have hLength : program.length = count * MainMemory.bankSize + MainMemory.bankSize := by
      rw [h, Nat.succ_mul]
    have hRest : (program.drop MainMemory.bankSize).length = count * MainMemory.bankSize := by
      rw [List.length_drop]
      omega
    calc
      (cutBanks program (count + 1)).flatten
          = program.take MainMemory.bankSize ++ (cutBanks (program.drop MainMemory.bankSize) count).flatten :=
            rfl
      _ = program := by rw [ih hRest, List.take_append_drop]

/-! ## The parts of an accepted image -/

/-- A cartridge is an image taken apart without loss: header, trainer, program and patterns are all that the
image announces, in its order, and the banks are the program. -/
structure TakenFrom (cartridge : Cartridge) (image : List UInt8) : Prop where
  whole : image.take 16 ++ cartridge.trainer.getD [] ++ cartridge.program ++ cartridge.patterns =
    image.take (Image.announced image)
  hasTrainer : cartridge.trainer.isSome = Image.hasTrainer image
  trainer : (cartridge.trainer.getD []).length = Image.size image .trainer
  program : cartridge.program.length = Image.size image .program
  patterns : cartridge.patterns.length = Image.size image .patterns
  banks : cartridge.banks.length = (image.getD 4 0).toNat
  bank : ∀ bank ∈ cartridge.banks, bank.length = 16384
  flatten : cartridge.banks.flatten = cartridge.program
  mapper : cartridge.header.mapper.toNat =
    16 * ((image.getD 7 0).toNat / 16) + (image.getD 6 0).toNat / 16

/-- A section of a well-formed image is as long as announced. -/
theorem length_slice (h : Image.WellFormed image) (part : CartridgeSection) :
    (Image.slice image part).length = Image.size image part := by
  have hStop : Image.offset image part + Image.size image part ≤ image.length :=
    Nat.le_trans (Image.stop_le_announced image part) h.sections
  rw [Image.slice, List.length_take, List.length_drop]
  omega

/-- An absent trainer is an empty section. -/
theorem trainer_ofImage (image : List UInt8) :
    (ofImage image).trainer.getD [] = Image.slice image .trainer := by
  cases hTrainer : Image.hasTrainer image with
  | true => simp [ofImage, hTrainer]
  | false => simp [ofImage, hTrainer, Image.slice, Image.size]

/-- Taking a well-formed image apart loses none of the announced bytes. -/
theorem ofImage_takenFrom (h : Image.WellFormed image) : (ofImage image).TakenFrom image := by
  have hProgram : (ofImage image).program.length =
      (ofImage image).header.programBanks.toNat * MainMemory.bankSize :=
    (length_slice h .program).trans (Nat.mul_comm _ _)
  exact
    { whole := by
        rw [trainer_ofImage]
        exact Image.take_slices image
      hasTrainer := by cases hTrainer : Image.hasTrainer image <;> simp [ofImage, hTrainer]
      trainer := by rw [trainer_ofImage, length_slice h]
      program := length_slice h .program
      patterns := length_slice h .patterns
      banks := length_cutBanks _ _
      bank := fun _ hBank => length_of_mem_cutBanks hProgram hBank
      flatten := flatten_cutBanks hProgram
      mapper := CartridgeHeader.mapper_eq _ }

/-- **Images are taken apart exactly.** An image is accepted if and only if it is well formed; it is then
taken apart without loss, whatever follows what it announces. Any other image is refused with its first
fault: too short for a header, then no magic bytes, and then the first section that ends behind the image,
with the size that it should have and the bytes that are left for it. -/
theorem parse_exact (image : List UInt8) :
    ((∃ cartridge, parse image = .ok cartridge) ↔
      16 ≤ image.length ∧ image.take 4 = [0x4E, 0x45, 0x53, 0x1A] ∧
        16 + (if (image.getD 6 0).toNat.testBit 2 then 512 else 0) + 16384 * (image.getD 4 0).toNat +
          8192 * (image.getD 5 0).toNat ≤ image.length) ∧
    (∀ cartridge, parse image = .ok cartridge → cartridge.TakenFrom image ∧
      ∀ rest, parse (image.take (Image.announced image) ++ rest) = .ok cartridge) ∧
    (∀ actual, parse image = .error (.headerTooShort actual) ↔
      image.length < 16 ∧ actual = image.length) ∧
    (parse image = .error .missingMagic ↔
      16 ≤ image.length ∧ image.take 4 ≠ [0x4E, 0x45, 0x53, 0x1A]) ∧
    (∀ part expected actual, parse image = .error (.sectionTooShort part expected actual) ↔
      16 ≤ image.length ∧ image.take 4 = [0x4E, 0x45, 0x53, 0x1A] ∧
        Image.offset image part ≤ image.length ∧ image.length < Image.stop image part ∧
        expected = Image.size image part ∧ actual = image.length - Image.offset image part) := by
  refine ⟨exists_parse_iff.trans ?_, ?_, parse_eq_headerTooShort_iff, parse_eq_missingMagic_iff,
    parse_eq_sectionTooShort_iff⟩
  · -- The conditions of the statement are the fields of `WellFormed`.
    exact ⟨fun h => ⟨h.header, h.magic, h.sections⟩, fun h => ⟨h.1, h.2.1, h.2.2⟩⟩
  · intro cartridge h
    rcases parse_eq_ok_iff.mp h with ⟨hWellFormed, hParts⟩
    refine ⟨?_, parse_append h⟩
    rw [hParts]
    exact ofImage_takenFrom hWellFormed

/-- An image of a trainer and no banks, with one byte more than it announces; and the same image with one
byte less. -/
theorem parse_exact_at_end_of_trainer :
    let image : List UInt8 :=
      [0x4E, 0x45, 0x53, 0x1A, 0, 0, 0x14, 0x20, 0, 0, 0, 0, 0, 0, 0, 0] ++ List.replicate 513 0xEA
    (∃ cartridge, parse image = .ok cartridge) ∧
      parse (image.take 527) = .error (.sectionTooShort .trainer 512 511) := by
  intro image
  exact ⟨(parse_exact image).1.mpr (by decide +kernel),
    ((parse_exact (image.take 527)).2.2.2.2 .trainer 512 511).mpr (by decide +kernel)⟩

end Cartridge

end NesMachine
