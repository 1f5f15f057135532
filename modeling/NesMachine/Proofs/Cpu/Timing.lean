import NesMachine.Proofs.Byte
import NesMachine.Proofs.Cpu.Activity

/-!
# Instruction timing

No instruction carries its time: it takes as many cycles as it makes accesses. This module proves that the
accesses add up to the times of the 6502, on every bus.

* `Exec.time`: the number of accesses of an execution on a bus.
* `Exec.execute_time`: the accesses of an instruction, its opcode included, add up to its time.
* `Cpu.length_accessesOn`: so do those of a step.
* `Cpu.step_takes_its_time`: a step takes its time on every bus where an access is one cycle.
-/

namespace NesMachine

variable {σ : Type} [Bus σ]

/-- The accesses of a sequence are those of its first half, and of the second where the first has left the
bus. -/
theorem Script.length_accesses_bind {α β : Type} (script : Script α) (f : α → Script β) (bus : σ) :
    ((script >>= f).accesses bus).length =
      (script.accesses bus).length +
        ((f (script.run bus).1).accesses (script.run bus).2).length := by
  induction script generalizing bus with
  | done result => exact (Nat.zero_add _).symm
  | read address next ih =>
    have hRest := ih (Bus.read bus address).1 (Bus.read bus address).2
    simp only [Script.read_bind, Script.accesses, Script.run, List.length_cons, hRest]
    omega
  | write address value next ih =>
    have hRest := ih (Bus.write bus address value)
    simp only [Script.write_bind, Script.accesses, Script.run, List.length_cons, hRest]
    omega

namespace Exec

variable {α β : Type} {n stores : Nat}

def time (exec : Exec α) (core : Core) (bus : σ) : Nat :=
  ((exec core).accesses bus).length

theorem Takes.time {exec : Exec α} (h : exec.Takes n stores) (core : Core) (bus : σ) :
    exec.time core bus = n :=
  (h core _ _ (Script.makes_accesses (exec core) bus)).1

/-- The time of a sequence is that of its parts, the second one on the bus and the core that the first one
leaves. -/
theorem time_bind (exec : Exec α) (f : α → Exec β) (core : Core) (bus : σ) :
    (exec >>= f).time core bus =
      exec.time core bus +
        (f ((exec core).run bus).1.1).time ((exec core).run bus).1.2 ((exec core).run bus).2 :=
  Script.length_accesses_bind (exec core) _ bus

/-- What follows adds its own length, if it has one. -/
theorem time_bind_of_takes {exec : Exec α} {f : α → Exec β}
    (hNext : ∀ result, (f result).Takes n stores) (core : Core) (bus : σ) :
    (exec >>= f).time core bus = exec.time core bus + n := by
  rw [time_bind, (hNext _).time]

/-! ## Indexed reads -/

/-- Finding the base changes no index register. -/
theorem index_base_run (mode : IndexedMode) (core : Core) (bus : σ) :
    index mode ((base mode core).run bus).1.2.toRegisters = index mode core.toRegisters := by
  cases mode with
  | absoluteX => rfl
  | absoluteY => rfl
  | indirectY => rfl

/-- The address of an indexed load takes what its base takes, and the wait for the carry. -/
theorem address_load_indexed_time (mode : IndexedMode) (core : Core) (bus : σ) :
    let start := ((base mode core).run bus).1.1
    (address .load (.indexed mode)).time core bus =
      baseAccesses mode + Word.pageCross start (start + (index mode core.toRegisters).toUInt16) := by
  have hRest (start : UInt16) (core' : Core) (bus' : σ) :
      Exec.time (registers >>= fun r => indexed .load start (index mode r)) core' bus' =
        Word.pageCross start (start + (index mode core'.toRegisters).toUInt16) :=
    (indexed_load_takes start (index mode core'.toRegisters)).time core' bus'
  intro start
  calc
    (address .load (.indexed mode)).time core bus
        = (base mode).time core bus + _ := time_bind _ _ core bus
    _ = baseAccesses mode +
          Word.pageCross start (start + (index mode core.toRegisters).toUInt16) := by
          rw [(base_takes mode).time, hRest, index_base_run]

/-- An indexed read takes its fixed part, and one cycle for a page that the index crosses. -/
theorem read_indexed_time (op : ReadOp) (mode : IndexedMode) (core : Core) (bus : σ) :
    let start := ((base mode core).run bus).1.1
    (execute (.read op (.indexed mode))).time core bus + 1 =
      (MemoryMode.indexed mode).readCycles +
        Word.pageCross start (start + (index mode core.toRegisters).toUInt16) := by
  intro start
  have hRead : (execute (.read op (.indexed mode))).time core bus =
      (address .load (.indexed mode)).time core bus + 1 :=
    time_bind_of_takes (fun target => (read_takes target).bind fun operand =>
      update_takes (op.apply operand)) core bus
  rw [hRead, address_load_indexed_time, readCycles_indexed]
  exact Nat.add_right_comm _ _ 2

/-! ## Branches -/

/-- A branch decides once the offset is fetched. -/
theorem branch_time (condition : Condition) (core : Core) (bus : σ) :
    let next := core.pc + 1
    let target := next + Byte.signExtend (Bus.read bus core.pc).1
    (branch condition).time core bus =
      if condition.holds core.p then 2 + Word.pageCross next target else 1 := by
  intro next target
  let fetched : Core :=
    { core with pc := next, fetched := core.fetched.push (Bus.read bus core.pc).1 }
  have hBranch :
      (branch condition).time core bus =
        fetch.time core bus +
          Exec.time (if condition.holds core.p then do
              dummyRead next
              if !Word.samePage next target then
                dummyRead (Word.onPageOf next target)
              setPC target
            else Pure.pure ()) fetched (Bus.read bus core.pc).2 :=
    time_bind _ _ core bus
  -- The fetch has moved the counter behind the offset and has left the flags.
  rw [hBranch, fetch_takes.time]
  by_cases hTaken : condition.holds core.p = true
  · rw [if_pos hTaken, if_pos hTaken, (branch_taken_takes next target).time]
    omega
  · rw [if_neg hTaken, if_neg hTaken, (Takes.pure ()).time]

/-! ## Instructions -/

/-- The accesses of an instruction, its opcode included, add up to its time. -/
theorem execute_time (instruction : Instruction) (r : Registers) (latch : FetchLatch) (bus : σ) :
    (execute instruction).time { r with pc := r.pc + 1, fetched := latch } bus + 1 =
      ((instruction.timing r).run bus).1 := by
  rw [Instruction.timing_run]
  -- Only an indexed read and a branch ask the bus; every other instruction has a fixed length.
  cases hVaries : instruction.varies with
  | false =>
    have hBounds := instruction.cycles_bounds
    have hNone : ((instruction.extraCycles r).run bus).1 = 0 := by
      rw [Instruction.extraCycles_of_not_varies hVaries]
      rfl
    rw [(execute_takes hVaries).time, hNone]
    omega
  | true =>
    rcases Instruction.varies_iff.mp hVaries with ⟨op, mode, rfl⟩ | ⟨condition, rfl⟩
    · rw [read_indexed_time]
      cases mode with
      | absoluteX => rfl
      | absoluteY => rfl
      | indirectY => rfl
    · have hNext : r.pc + 1 + 1 = r.pc + 2 := UInt16.add_assoc r.pc 1 1
      rw [execute, branch_time, Byte.signExtend_eq, Instruction.extraCycles, hNext]
      by_cases hTaken : condition.holds r.p = true
      · rw [if_pos hTaken, if_pos hTaken]
        exact (Nat.add_right_comm 2 _ 1).trans (Nat.add_assoc 2 1 _)
      · rw [if_neg hTaken, if_neg hTaken]
        rfl

/-- The next instruction takes its time, where its opcode is the byte at the program counter. -/
theorem executeNext_time (core : Core) (bus : σ) :
    let opcode := (Bus.read bus core.pc).1
    executeNext.time core bus =
      (((Instruction.decode opcode).timing core.toRegisters).run (Bus.read bus core.pc).2).1 := by
  intro opcode
  -- The latch is cleared before the fetch, which is no access, and the result costs none either.
  let cleared : Core := { core with fetched := core.fetched.clear }
  let fetched : Core := { core with pc := core.pc + 1, fetched := core.fetched.clear.push opcode }
  have hRest :
      Exec.time (execute (Instruction.decode opcode) >>= fun _ => pure (Instruction.decode opcode))
          fetched (Bus.read bus core.pc).2 =
        (execute (Instruction.decode opcode)).time fetched (Bus.read bus core.pc).2 :=
    time_bind_of_takes (fun _ => Takes.pure _) fetched _
  have hFetch :
      executeNext.time core bus =
        fetch.time cleared bus +
          Exec.time (execute (Instruction.decode opcode) >>= fun _ => pure (Instruction.decode opcode))
            fetched (Bus.read bus core.pc).2 :=
    time_bind fetch _ cleared bus
  rw [hFetch, fetch_takes.time, hRest, Nat.add_comm]
  exact execute_time _ _ _ _

end Exec

/-! ## Steps -/

namespace Cpu

/-- The cycles of the next step: an interrupt entry, or the instruction at the program counter. -/
def timing (cpu : Cpu) : Script Nat :=
  match cpu.activity with
  | .entry _ => return 7
  | .instruction => do
    let opcode ← Script.byteAt cpu.core.pc
    (Instruction.decode opcode).timing cpu.registers

/-- A step makes as many accesses as its time has cycles. -/
theorem length_accessesOn (cpu : Cpu) (bus : σ) :
    (cpu.accessesOn bus).length = (cpu.timing.run bus).1 := by
  rw [accessesOn, step_eq_perform, timing]
  cases cpu.activity with
  | entry line =>
    have hMakes := Script.makes_accesses ((cpu.acknowledge line).enter line) bus
    rcases enter_makes hMakes with ⟨core, hEntry, -⟩
    exact (Exec.interrupt_takes line _ _ _ hEntry).1
  | instruction =>
    calc
      ((cpu.executeNext (Bus.cycles bus)).accesses bus).length
          = Exec.executeNext.time cpu.core bus + 0 := Script.length_accesses_bind _ _ bus
      _ = _ := Exec.executeNext_time cpu.core bus

/-- Every step takes at least two cycles. -/
theorem two_le_timing (cpu : Cpu) (bus : σ) : 2 ≤ (cpu.timing.run bus).1 := by
  rw [timing]
  cases cpu.activity with
  | entry line => exact (by decide : 2 ≤ 7)
  | instruction => exact Instruction.two_le_timing _ _ _

/-- **Every step takes its time.** On every bus where an access is one cycle, the cycles of a step are those
of the interrupt entry or the instruction that it is. They are two to eight, so that they fit in a byte. -/
theorem step_takes_its_time [TimedBus σ] (cpu : Cpu) (bus : σ) :
    let cycles := (cpu.stepOn bus).1
    cycles = (cpu.timing.run bus).1 ∧ 2 ≤ cycles ∧ cycles ≤ 8 ∧
      (UInt8.ofNat cycles).toNat = cycles := by
  intro cycles
  have hLength : cycles = (cpu.accessesOn bus).length := stepOn_cycles cpu bus
  have hTime : cycles = (cpu.timing.run bus).1 := hLength.trans (length_accessesOn cpu bus)
  have hLeast : 2 ≤ cycles := hTime ▸ two_le_timing cpu bus
  have hMost : cycles ≤ 8 := hLength ▸ (step_effort (makes_accessesOn cpu bus)).1
  refine ⟨hTime, hLeast, hMost, ?_⟩
  rw [UInt8.toNat_ofNat']
  omega

/-- `LDA $10F0,X` with `X = $20` reads on the page after the base, which is its fifth cycle. -/
theorem step_takes_its_time_across_a_page :
    (({ core := { x := 0x20 } } : Cpu).stepOn
      ({ ram := (((Ram.zero 16).set 0 0xBD).set 1 0xF0).set 2 0x10 } : FlatBus)).1 = 5 := by
  have hStep := step_takes_its_time ({ core := { x := 0x20 } } : Cpu)
    ({ ram := (((Ram.zero 16).set 0 0xBD).set 1 0xF0).set 2 0x10 } : FlatBus)
  exact hStep.1.trans (by decide +kernel)

end Cpu

end NesMachine
