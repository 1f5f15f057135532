import NesMachine.Proofs.Cpu.Activity
import NesMachine.Proofs.Safety.Dispatch
import NesMachine.Proofs.Safety.SystemBus

/-!
# The processor with checks

A step takes a request off its count, runs an instruction by its mnemonic, keeps a record of it whose
dot is a product of words, and reports the cycles it took in a byte.

* `Cpu.checkedStep_eq`: a step fails no check on any bus, while the dot of its record can be counted.
* `Cpu.checkedStepOn_eq`: on the system bus it fails none while its cycles can be counted.
-/

namespace NesMachine

def CheckedScript.require {α : Type} (check : Checked α) : CheckedScript α :=
  ExceptT.mk (pure check)

/-- Runs a script with checks of its own on the system bus, with all checks. -/
def CheckedScript.runOn {α : Type} (script : CheckedScript α) (bus : SystemBus) :
    Checked (α × SystemBus) := do
  let (answer, bus) ← Script.checkedRun script.run bus
  let result ← answer
  return (result, bus)

/-- A script without checks fails none but the cycle counter's. -/
theorem CheckedScript.runOn_lift {α : Type} {script : Script α} {bus : SystemBus}
    (h : (script.run bus).2.cycles < UInt64.size) :
    CheckedScript.runOn (ExceptT.lift script) bus = .ok (script.run bus) := by
  have hRun := Script.run_map (Except.ok : α → Checked α) script bus
  have hFits : ((Except.ok <$> script : Script (Checked α)).run bus).2.cycles < UInt64.size := by
    rw [hRun]
    exact h
  have hChecked : Script.checkedRun (ExceptT.lift script : CheckedScript α).run bus =
      .ok (.ok (script.run bus).1, (script.run bus).2) := (Script.checkedRun_eq hFits).trans (by rw [hRun])
  rw [runOn, hChecked]
  rfl

namespace Cpu

/-- The checks of a record: its bytes are a slice of the latch, and its dot is a product of words. -/
def checkRecord (cpu : Cpu) (core : Core) (now : Nat) : Checked Unit :=
  if cpu.tracing then do
    Checked.slice core.fetched.count 3
    let dots ← Checked.fit UInt64.size (now * Clock.dotsPerCycle)
    let _ ← Checked.mod dots Clock.dotsPerScanline
  else
    return ()

def checkedExecuteNext (cpu : Cpu) (now : Nat) : CheckedScript Cpu := do
  let (instruction, core) ← Exec.checkedExecuteNext cpu.core
  CheckedScript.require (cpu.checkRecord core now)
  return cpu.executed now instruction core

def checkedStep (cpu : Cpu) (now : Nat) : CheckedScript Cpu :=
  if cpu.nmiLatched then
    ExceptT.lift ({ cpu with nmiLatched := false }.enter .nmi)
  else if 0 < cpu.irqCount && !cpu.irqMasked then do
    let irqCount ← CheckedScript.require (Checked.sub cpu.irqCount 1)
    ExceptT.lift ({ cpu with irqCount }.enter .irq)
  else
    cpu.checkedExecuteNext now

def checkedStepOn (cpu : Cpu) (bus : SystemBus) : Checked (Nat × Cpu × SystemBus) := do
  let (next, after) ← (cpu.checkedStep bus.cycles).runOn bus
  let cycles ← Checked.sub after.cycles bus.cycles
  return (cycles % UInt8.size, next, after)

variable {cpu : Cpu} {now : Nat}

theorem checkRecord_eq_ok (h : now * Clock.dotsPerCycle < UInt64.size) (core : Core) :
    cpu.checkRecord core now = .ok () := by
  rw [checkRecord]
  split
  · rw [Checked.slice_eq_ok (Nat.le_of_lt_succ core.fetched.count.isLt), Checked.ok_bind,
      Checked.fit_eq_ok h, Checked.ok_bind, Checked.mod_eq_ok (by decide)]
    rfl
  · rfl

/-- An instruction fails no check of its own, as long as its dot can be counted. -/
theorem checkedExecuteNext_eq (h : now * Clock.dotsPerCycle < UInt64.size) :
    cpu.checkedExecuteNext now = ExceptT.lift (cpu.executeNext now) := by
  -- The record is the only step that can fail, and it needs the dot of `now`.
  have hRecord : ∀ result : Instruction × Core, (do
      CheckedScript.require (cpu.checkRecord result.2 now)
      return cpu.executed now result.1 result.2 : CheckedScript Cpu) =
        ExceptT.lift (Script.done (cpu.executed now result.1 result.2)) := by
    intro result
    rw [checkRecord_eq_ok h]
    rfl
  have hCore : Exec.checkedExecuteNext cpu.core = ExceptT.lift (Exec.executeNext cpu.core) :=
    congrFun Exec.checkedExecuteNext_eq cpu.core
  calc
    cpu.checkedExecuteNext now
        = ExceptT.lift (Exec.executeNext cpu.core) >>= fun result =>
            ExceptT.lift (Script.done (cpu.executed now result.1 result.2)) := by
          rw [checkedExecuteNext, hCore]
          exact congrArg (ExceptT.lift (Exec.executeNext cpu.core) >>= ·) (funext hRecord)
    _ = ExceptT.lift (cpu.executeNext now) :=
          (monadLift_bind (n := CheckedScript) (Exec.executeNext cpu.core) fun result =>
            Script.done (cpu.executed now result.1 result.2)).symm

/-- A step fails no check of its own. -/
theorem checkedStep_eq (h : now * Clock.dotsPerCycle < UInt64.size) :
    cpu.checkedStep now = ExceptT.lift (cpu.step now) := by
  rw [checkedStep, step]
  split
  · rfl
  · split
    · rename_i hIrq
      -- The request that is taken off has been seen.
      have hPending : 0 < cpu.irqCount ∧ cpu.irqMasked = false := by simpa using hIrq
      rw [Checked.sub_eq_ok hPending.1]
      rfl
    · exact checkedExecuteNext_eq h

/-- A step on the system bus fails no check, if its dots can be counted. -/
theorem checkedStepOn_eq {bus : SystemBus}
    (h : (cpu.stepOn bus).2.2.cycles * Clock.dotsPerCycle < UInt64.size) :
    cpu.checkedStepOn bus = .ok (cpu.stepOn bus) := by
  have hGrows : bus.cycles ≤ (cpu.stepOn bus).2.2.cycles := Script.cycles_le_run _ bus
  have hNow : bus.cycles * Clock.dotsPerCycle < UInt64.size :=
    Nat.lt_of_le_of_lt (Nat.mul_le_mul_right _ hGrows) h
  have hFits : (cpu.stepOn bus).2.2.cycles < UInt64.size :=
    Nat.lt_of_le_of_lt (Nat.le_mul_of_pos_right _ (by decide)) h
  have hRun : (cpu.checkedStep bus.cycles).runOn bus = .ok (cpu.stepOn bus).2 := by
    rw [checkedStep_eq hNow]
    exact CheckedScript.runOn_lift hFits
  -- No step takes as long as a byte can count.
  have hTaken : (cpu.stepOn bus).1 < UInt8.size := by
    rw [stepOn_cycles]
    exact Nat.lt_of_le_of_lt (step_effort (cpu.makes_accessesOn bus)).1 (by decide)
  calc
    cpu.checkedStepOn bus
        = .ok ((cpu.stepOn bus).1 % UInt8.size, (cpu.stepOn bus).2) := by
          rw [checkedStepOn, hRun, Checked.ok_bind]
          simp only [Checked.sub_eq_ok hGrows, Checked.ok_bind]
          rfl
    _ = .ok (cpu.stepOn bus) := by rw [Nat.mod_eq_of_lt hTaken]

end Cpu

end NesMachine
