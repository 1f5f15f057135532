import NesMachine.Bus.Flat
import NesMachine.Console.SystemBus

/-!
# The accesses of a script

A script is a tree, and the bus picks the branch. `Script.Makes` lists the accesses of any branch, so what
holds of every list holds on every bus; `Script.accesses` is the branch that one bus picks.

* `Script.makes_bind_iff`: the accesses of a sequence are those of its halves.
* `Script.run_eq_foldl`: a run leaves the bus as its accesses leave it, one after another.
* `Script.cycles_run`: on a bus where every access is one cycle, a run takes as many cycles as accesses.
-/

namespace NesMachine

variable {σ α β : Type}

namespace Script

/-! ## Branches -/

/-- The script can make these accesses, in this order, and end in this result. -/
inductive Makes : Script α → List Access → α → Prop
  | done {result : α} : Makes (.done result) [] result
  | read {address : UInt16} {next : UInt8 → Script α} {byte : UInt8} {accesses : List Access}
      {result : α} :
      Makes (next byte) accesses result →
        Makes (.read address next) (.read address :: accesses) result
  | write {address : UInt16} {value : UInt8} {next : Script α} {accesses : List Access}
      {result : α} :
      Makes next accesses result →
        Makes (.write address value next) (.write address value :: accesses) result

/-- A sequence makes the accesses of its first half and then those of its second half. -/
theorem makes_bind_iff {script : Script α} {f : α → Script β} {accesses : List Access}
    {result : β} :
    (script >>= f).Makes accesses result ↔
      ∃ before middle after, accesses = before ++ after ∧
        script.Makes before middle ∧ (f middle).Makes after result := by
  constructor
  · -- The accesses are split where the first half of the branch ends.
    intro h
    induction script generalizing accesses with
    | done middle => exact ⟨[], middle, accesses, rfl, .done, h⟩
    | read address next ih =>
      cases h with
      | read hNext =>
        rcases ih _ hNext with ⟨before, middle, after, rfl, hBefore, hAfter⟩
        exact ⟨.read address :: before, middle, after, rfl, .read hBefore, hAfter⟩
    | write address value next ih =>
      cases h with
      | write hNext =>
        rcases ih hNext with ⟨before, middle, after, rfl, hBefore, hAfter⟩
        exact ⟨.write address value :: before, middle, after, rfl, .write hBefore, hAfter⟩
  · rintro ⟨before, middle, after, rfl, hBefore, hAfter⟩
    induction hBefore with
    | done => exact hAfter
    | read _ ih => exact .read (ih hAfter)
    | write _ ih => exact .write (ih hAfter)

end Script

/-! ## The branch that a bus picks -/

section Bus

variable [Bus σ]

def Bus.after (bus : σ) : Access → σ
  | .read address => (Bus.read bus address).2
  | .write address value => Bus.write bus address value

namespace Script

def accesses : Script α → σ → List Access
  | .done _, _ => []
  | .read address next, bus =>
    .read address :: (next (Bus.read bus address).1).accesses (Bus.read bus address).2
  | .write address value next, bus =>
    .write address value :: next.accesses (Bus.write bus address value)

/-- The accesses of a run are some that the script can make, and they end in its result. -/
theorem makes_accesses (script : Script α) (bus : σ) :
    script.Makes (script.accesses bus) (script.run bus).1 := by
  induction script generalizing bus with
  | done result => exact .done
  | read address next ih => exact .read (ih _ _)
  | write address value next ih => exact .write (ih _)

/-- A function of the result has no part in the accesses. -/
theorem run_map (f : α → β) (script : Script α) (bus : σ) :
    (f <$> script).run bus = (f (script.run bus).1, (script.run bus).2) := by
  rw [← bind_pure_comp, run_bind]
  rfl

/-- A run does to the bus what its accesses do. -/
theorem run_eq_foldl (script : Script α) (bus : σ) :
    (script.run bus).2 = (script.accesses bus).foldl Bus.after bus := by
  induction script generalizing bus with
  | done result => rfl
  | read address next ih => exact ih _ _
  | write address value next ih => exact ih _

end Script

/-! ## Time -/

/-- Every access is one cycle. -/
class TimedBus (σ : Type) [Bus σ] : Prop where
  cycles_after : ∀ (bus : σ) (access : Access), Bus.cycles (Bus.after bus access) = Bus.cycles bus + 1

instance : TimedBus SystemBus where
  cycles_after := by
    intro bus access
    cases access <;> rfl

instance : TimedBus FlatBus where
  cycles_after := by
    intro bus access
    cases access <;> rfl

variable [TimedBus σ]

/-- Accesses take one cycle each, whichever they are. -/
theorem cycles_foldl_after (bus : σ) (accesses : List Access) :
    Bus.cycles (accesses.foldl Bus.after bus) = Bus.cycles bus + accesses.length := by
  induction accesses generalizing bus with
  | nil => rfl
  | cons access rest ih =>
    calc
      Bus.cycles (rest.foldl Bus.after (Bus.after bus access))
          = Bus.cycles (Bus.after bus access) + rest.length := ih _
      _ = Bus.cycles bus + 1 + rest.length := by rw [TimedBus.cycles_after]
      _ = Bus.cycles bus + (rest.length + 1) := by omega

/-- A run takes one cycle for each of its accesses. -/
theorem Script.cycles_run (script : Script α) (bus : σ) :
    Bus.cycles (script.run bus).2 = Bus.cycles bus + (script.accesses bus).length := by
  rw [script.run_eq_foldl, cycles_foldl_after]

end Bus

end NesMachine
