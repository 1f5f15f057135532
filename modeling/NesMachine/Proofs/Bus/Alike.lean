import NesMachine.Bus.Script

/-!
# Two runs of a script

Two scripts are alike when they make the same accesses for as long as they read the same bytes, and then end
in related results. On two buses that answer alike, they run alike.

* `Script.Alike.bind`: what is alike step by step is alike as a sequence.
* `Bus.Bisimulation`: buses that cannot be told apart by accesses.
* `Script.Alike.run`: the two runs end in related results and on buses that are still related.
-/

namespace NesMachine

variable {α β γ δ σ τ : Type}

namespace Script

/-- Two scripts that make the same accesses for as long as they read the same bytes, and then end in results
that `R` relates. -/
inductive Alike (R : α → β → Prop) : Script α → Script β → Prop
  | done {result : α} {other : β} : R result other → Alike R (.done result) (.done other)
  | read {address : UInt16} {next : UInt8 → Script α} {nextOther : UInt8 → Script β} :
      (∀ byte, Alike R (next byte) (nextOther byte)) →
        Alike R (.read address next) (.read address nextOther)
  | write {address : UInt16} {value : UInt8} {next : Script α} {nextOther : Script β} :
      Alike R next nextOther → Alike R (.write address value next) (.write address value nextOther)

variable {R : α → β → Prop} {script : Script α} {other : Script β}

/-- Scripts that are alike step by step are alike as a sequence. -/
theorem Alike.bind {S : γ → δ → Prop} {f : α → Script γ} {g : β → Script δ}
    (h : Alike R script other)
    (hNext : ∀ result result', R result result' → Alike S (f result) (g result')) :
    Alike S (script >>= f) (other >>= g) := by
  induction h with
  | done hResult => exact hNext _ _ hResult
  | read _ ih => exact .read ih
  | write _ ih => exact .write ih

end Script

/-- Buses that `B` relates return the same bytes, and accesses leave them related. -/
structure Bus.Bisimulation [Bus σ] [Bus τ] (B : σ → τ → Prop) : Prop where
  read_fst : ∀ {bus : σ} {other : τ}, B bus other →
    ∀ address, (Bus.read bus address).1 = (Bus.read other address).1
  read_snd : ∀ {bus : σ} {other : τ}, B bus other →
    ∀ address, B (Bus.read bus address).2 (Bus.read other address).2
  write : ∀ {bus : σ} {other : τ}, B bus other →
    ∀ address value, B (Bus.write bus address value) (Bus.write other address value)

/-- Scripts that are alike run alike on buses that are related. -/
theorem Script.Alike.run [Bus σ] [Bus τ] {R : α → β → Prop} {script : Script α} {other : Script β}
    (h : Alike R script other) {B : σ → τ → Prop} (hBus : Bus.Bisimulation B) {bus : σ} {busOther : τ}
    (hStart : B bus busOther) :
    R (script.run bus).1 (other.run busOther).1 ∧ B (script.run bus).2 (other.run busOther).2 := by
  induction h generalizing bus busOther with
  | done hResult => exact ⟨hResult, hStart⟩
  | @read address next nextOther _ ih =>
    -- Both runs go on with the byte that both buses return.
    have hByte := hBus.read_fst hStart address
    have hRest := ih (Bus.read busOther address).1 (hBus.read_snd hStart address)
    simpa only [Script.run, hByte] using hRest
  | write _ ih => exact ih (hBus.write hStart _ _)

end NesMachine
