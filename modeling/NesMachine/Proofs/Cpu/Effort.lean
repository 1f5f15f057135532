import NesMachine.Cpu.Basic
import NesMachine.Proofs.Cpu.FixedLength

/-!
# The effort of an instruction

`Exec.Effort most stores` bounds the accesses of an execution, on every branch: there are at most `most`,
and at most `stores` of them write outside the stack page. The bounds add up along a sequence, so that
each instruction has those of its parts.

* `Exec.Effort.bind`: the effort of a sequence.
* `Exec.executeNext_effort`: an instruction takes at most eight accesses and stores at most twice.
-/

namespace NesMachine

namespace Exec

variable {α β : Type} {most stores : Nat}

/-- On every branch there are at most `most` accesses, and at most `stores` of them are stores. -/
def Effort (most stores : Nat) (exec : Exec α) : Prop :=
  ∀ core accesses result, (exec core).Makes accesses result →
    accesses.length ≤ most ∧ accesses.countP Access.isStore ≤ stores

/-- A fixed length is a bound as well. -/
theorem Takes.effort {exec : Exec α} {n : Nat} (h : exec.Takes n stores) (hMost : n ≤ most) :
    exec.Effort most stores := by
  intro core accesses result hMakes
  have hTakes := h core accesses result hMakes
  exact ⟨hTakes.1 ▸ hMost, hTakes.2⟩

namespace Effort

theorem mono {exec : Exec α} {more further : Nat} (h : exec.Effort most stores)
    (hMost : most ≤ more) (hStores : stores ≤ further) : exec.Effort more further := by
  intro core accesses result hMakes
  have hBounds := h core accesses result hMakes
  exact ⟨Nat.le_trans hBounds.1 hMost, Nat.le_trans hBounds.2 hStores⟩

/-- The bounds of a sequence add up. -/
theorem bind {exec : Exec α} {f : α → Exec β} {more further : Nat} (h : exec.Effort most stores)
    (hNext : ∀ result, (f result).Effort more further) :
    (exec >>= f).Effort (most + more) (stores + further) := by
  intro core accesses final hMakes
  rcases Script.makes_bind_iff.mp hMakes with ⟨before, middle, after, rfl, hBefore, hAfter⟩
  have hFirst := h core before middle hBefore
  have hSecond := hNext middle.1 middle.2 after final hAfter
  rw [List.length_append, List.countP_append]
  exact ⟨Nat.add_le_add hFirst.1 hSecond.1, Nat.add_le_add hFirst.2 hSecond.2⟩

/-- A choice is bounded when both branches are. -/
theorem ite {condition : Prop} [Decidable condition] {exec other : Exec α}
    (h : exec.Effort most stores) (hOther : other.Effort most stores) :
    (if condition then exec else other).Effort most stores := by
  by_cases hCondition : condition
  · simpa [hCondition] using h
  · simpa [hCondition] using hOther

end Effort

/-- A branch reads at most its offset and two opcodes that it does not run. -/
theorem branch_effort (condition : Condition) : (branch condition).Effort 3 0 := by
  have hTaken (pc offset : UInt16) : Effort 2 0 (do
      dummyRead pc
      if !Word.samePage pc (pc + offset) then
        dummyRead (Word.onPageOf pc (pc + offset))
      setPC (pc + offset)) := by
    have hCross := Word.pageCross_le_one pc (pc + offset)
    exact (branch_taken_takes pc (pc + offset)).effort (by omega)
  have hNotTaken : Effort 2 0 (Pure.pure () : Exec Unit) := (Takes.pure ()).effort (by decide)
  exact (fetch_takes.effort (Nat.le_refl 1)).bind fun offset =>
    (registers_takes.effort (Nat.le_refl 0)).bind fun r =>
      (hTaken r.pc (Byte.signExtend offset)).ite hNotTaken

/-- An indexed read makes five accesses at most, one of them for a page that is crossed. -/
theorem read_indexed_effort (op : ReadOp) (mode : IndexedMode) :
    (execute (.read op (.indexed mode))).Effort 5 0 := by
  have hBase : (base mode).Effort 3 0 := (base_takes mode).effort (by cases mode <;> decide)
  have hAddress (start : UInt16) (r : Registers) :
      (indexed .load start (index mode r)).Effort 1 0 :=
    (indexed_load_takes start (index mode r)).effort (Word.pageCross_le_one _ _)
  have hRead (target : UInt16) :
      Effort 1 0 (read target >>= fun operand => update (op.apply operand)) :=
    ((read_takes target).bind fun operand => update_takes (op.apply operand)).effort (Nat.le_refl 1)
  exact (hBase.bind fun start => (registers_takes.effort (Nat.le_refl 0)).bind fun r =>
    hAddress start r).bind hRead

/-- Only a read-modify-write instruction stores twice, and none takes more than seven accesses. -/
theorem execute_effort (instruction : Instruction) : (execute instruction).Effort 7 2 := by
  cases hVaries : instruction.varies with
  | false =>
    have hCycles : instruction.cycles - 1 ≤ 7 := by
      have hBounds := instruction.cycles_bounds
      omega
    exact (execute_takes hVaries).effort hCycles
  | true =>
    rcases Instruction.varies_iff.mp hVaries with ⟨op, mode, rfl⟩ | ⟨condition, rfl⟩
    · exact (read_indexed_effort op mode).mono (by decide) (by decide)
    · exact (branch_effort condition).mono (by decide) (by decide)

/-- The next instruction takes at most eight accesses, its opcode included. -/
theorem executeNext_effort : executeNext.Effort 8 2 := by
  have hClear : Effort 0 0 (modify fun core : Core => { core with fetched := core.fetched.clear }) := by
    intro core accesses final hMakes
    cases hMakes
    exact ⟨Nat.le_refl _, Nat.le_refl _⟩
  have hFetch : fetch.Effort 1 0 := fetch_takes.effort (Nat.le_refl 1)
  exact hClear.bind fun _ => hFetch.bind fun opcode =>
    (execute_effort (Instruction.decode opcode)).bind fun _ =>
      (Takes.pure (Instruction.decode opcode)).effort (Nat.le_refl 0)

end Exec

end NesMachine
