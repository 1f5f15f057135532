import Mathlib.Algebra.BigOperators.Intervals
import Mathlib.Order.Nat
import NesMachine.Proofs.Console.Progress

/-!
# Runs on a budget

A run on a budget stops after the first step by which the budget is used up. Steps have different lengths,
so a run may take longer than it was asked to, but not by a whole step; and a run that goes on where
another one stopped stops where one run would have.

* `isLeast_add`: a test that is waited for in two parts.
* `Machine.elapsed`: the cycles of a number of steps.
* `Machine.runBudget_of_isLeast`: a run on a budget is the least number of steps that use it up.
* `Machine.runFor_stops_in_time_and_composes`: its length, and the composition of runs.
-/

namespace NesMachine

/-! ## First times

A loop stops at the first time at which its test succeeds: the least number of steps after which it does. -/

section FirstTime

variable {p q : Nat → Prop} {m n : Nat}

theorem not_of_lt_isLeast (h : IsLeast {k | p k} n) (hLt : m < n) : ¬p m :=
  fun hBefore => Nat.not_lt_of_le (h.2 hBefore) hLt

theorem isLeast_eq_zero_iff (h : IsLeast {k | p k} n) : n = 0 ↔ p 0 := by
  constructor
  · rintro rfl
    exact h.1
  · exact fun hNow => Nat.le_zero.mp (h.2 hNow)

/-- After the first step there is one step less to go. -/
theorem isLeast_of_isLeast_succ (h : IsLeast {k | p k} (n + 1)) : IsLeast {k | p (k + 1)} n :=
  ⟨h.1, fun _ hLater => Nat.le_of_succ_le_succ (h.2 hLater)⟩

/-- A test that never succeeds before another one may be waited for in two parts. -/
theorem isLeast_add (hFirst : IsLeast {k | p k} m) (hLater : ∀ k, q k → p k)
    (hRest : IsLeast {k | q (m + k)} n) : IsLeast {k | q k} (m + n) := by
  refine ⟨hRest.1, fun k hSucceeds => ?_⟩
  obtain ⟨more, rfl⟩ := Nat.exists_eq_add_of_le (hFirst.2 (hLater k hSucceeds))
  exact Nat.add_le_add_left (hRest.2 hSucceeds) m

end FirstTime

namespace Machine

variable {machine : Machine}

/-! ## Several steps -/

/-- A run can be cut in two anywhere. -/
theorem after_add (machine : Machine) (m n : Nat) :
    machine.after (m + n) = (machine.after m).after n := by
  induction n with
  | zero => rfl
  | succ n ih => exact congrArg (fun reached : Machine => reached.step.2) ih

def elapsed (machine : Machine) (n : Nat) : Nat :=
  ∑ i ∈ Finset.range n, (machine.after i).step.1

theorem elapsed_zero (machine : Machine) : machine.elapsed 0 = 0 :=
  rfl

theorem elapsed_succ (machine : Machine) (n : Nat) :
    machine.elapsed (n + 1) = machine.elapsed n + (machine.after n).step.1 :=
  Finset.sum_range_succ _ n

/-- The time of a run is that of its parts together. -/
theorem elapsed_add (machine : Machine) (m n : Nat) :
    machine.elapsed (m + n) = machine.elapsed m + (machine.after m).elapsed n := by
  induction n with
  | zero => rfl
  | succ n ih =>
    calc
      machine.elapsed (m + (n + 1))
          = machine.elapsed (m + n) + (machine.after (m + n)).step.1 := machine.elapsed_succ (m + n)
      _ = machine.elapsed m + (machine.after m).elapsed n + ((machine.after m).after n).step.1 := by
            rw [ih, after_add]
      _ = machine.elapsed m + (machine.after m).elapsed (n + 1) := by
            rw [elapsed_succ, Nat.add_assoc]

/-- The first step counts on its own. -/
theorem elapsed_step (machine : Machine) (n : Nat) :
    machine.elapsed (n + 1) = machine.step.1 + machine.step.2.elapsed n := by
  have hFirst : machine.elapsed 1 = machine.step.1 := Finset.sum_range_one _
  have hSplit := machine.elapsed_add 1 n
  rw [hFirst, Nat.add_comm 1 n] at hSplit
  exact hSplit

/-- The counter rises by what the steps return. -/
theorem cycles_after (machine : Machine) (n : Nat) :
    (machine.after n).cycles = machine.cycles + machine.elapsed n := by
  induction n with
  | zero => rfl
  | succ n ih =>
    calc
      (machine.after (n + 1)).cycles
          = (machine.after n).cycles + (machine.after n).step.1 := (machine.after n).step_cycles
      _ = machine.cycles + machine.elapsed (n + 1) := by rw [ih, elapsed_succ, Nat.add_assoc]

/-- Every step takes a cycle at least. -/
theorem le_elapsed (machine : Machine) (n : Nat) : n ≤ machine.elapsed n := by
  induction n with
  | zero => exact Nat.zero_le _
  | succ n ih =>
    rw [elapsed_succ]
    exact Nat.add_le_add ih (machine.after n).step_pos

/-! ## The steps of a run -/

section Budget

variable {budget first steps : Nat}

/-- Some number of steps uses up the budget, and so there is a least one. -/
theorem exists_isLeast_elapsed (machine : Machine) (budget : Nat) :
    ∃ steps, IsLeast {n | budget ≤ machine.elapsed n} steps :=
  ⟨_, Nat.isLeast_find ⟨budget, machine.le_elapsed budget⟩⟩

/-- A run on a budget makes the least number of steps that use it up. -/
theorem runBudget_of_isLeast (h : IsLeast {n | budget ≤ machine.elapsed n} steps) (spent : Nat) :
    machine.runBudget budget spent = (spent + machine.elapsed steps, machine.after steps) := by
  induction steps generalizing machine budget spent with
  | zero =>
    have hNone : budget = 0 := Nat.le_zero.mp h.1
    rw [hNone, runBudget_zero]
    rfl
  | succ steps ih =>
    have hSome : budget ≠ 0 := by
      intro hNone
      exact not_of_lt_isLeast h (Nat.succ_pos steps) (Nat.le_zero.mpr hNone)
    -- The rest of the budget is used up by the rest of the steps, and not by fewer.
    have hRest (n : Nat) : budget ≤ machine.elapsed (n + 1) ↔
        budget - max machine.step.1 1 ≤ machine.step.2.elapsed n := by
      have hPos := machine.step_pos
      rw [elapsed_step]
      omega
    have hLeast := isLeast_of_isLeast_succ h
    simp only [hRest] at hLeast
    rw [runBudget_of_pos machine hSome, ih hLeast, after_step, elapsed_step, Nat.add_assoc]

/-- Running for a budget stops after the least number of steps that use it up. -/
theorem runFor_of_isLeast (h : IsLeast {n | budget ≤ machine.elapsed n} steps) :
    machine.runFor budget = (machine.elapsed steps, machine.after steps) := by
  have hRun := runBudget_of_isLeast h 0
  rw [Nat.zero_add] at hRun
  exact hRun

/-- The last step starts within the budget, and takes eight cycles at most. -/
theorem elapsed_le_of_isLeast (h : IsLeast {n | budget ≤ machine.elapsed n} steps) :
    machine.elapsed steps ≤ budget + 7 := by
  cases steps with
  | zero =>
    rw [elapsed_zero]
    exact Nat.zero_le _
  | succ steps =>
    have hBefore := not_of_lt_isLeast h (Nat.lt_succ_self steps)
    have hLast := (machine.after steps).step_le
    rw [elapsed_succ]
    omega

/-- The steps that a run still has to make after another one has stopped. -/
theorem isLeast_elapsed_add {rest : Nat} (hLe : first ≤ budget)
    (hFirst : IsLeast {n | first ≤ machine.elapsed n} steps)
    (hRest : IsLeast {n | budget - machine.elapsed steps ≤ (machine.after steps).elapsed n} rest) :
    IsLeast {n | budget ≤ machine.elapsed n} (steps + rest) := by
  refine isLeast_add hFirst (fun n hWhole => Nat.le_trans hLe hWhole) ?_
  simpa only [elapsed_add, Nat.sub_le_iff_le_add'] using hRest

end Budget

/-- **Runs on a budget.** Whatever the machine is in the middle of, a run on a budget stops, after the least
number of steps that use the budget up. It returns what the cycle counter rises by, and without a budget it
does nothing; else that is the budget and at most seven cycles more. A run on a part of the budget and then
a run on what it left are one run on the whole budget. -/
theorem runFor_stops_in_time_and_composes (machine : Machine) (budget : Nat) :
    let run := machine.runFor budget
    (∃ steps, IsLeast {n | budget ≤ machine.elapsed n} steps ∧
      run = (machine.elapsed steps, machine.after steps)) ∧
    machine.runFor 0 = (0, machine) ∧
    run.2.cycles = machine.cycles + run.1 ∧
    (budget ≤ run.1 ∧ run.1 ≤ budget + 7) ∧
    ∀ first ≤ budget,
      let begun := machine.runFor first
      let rest := begun.2.runFor (budget - begun.1)
      rest.2 = run.2 ∧ begun.1 + rest.1 = run.1 := by
  intro run
  obtain ⟨steps, hSteps⟩ := machine.exists_isLeast_elapsed budget
  have hRun : run = (machine.elapsed steps, machine.after steps) := runFor_of_isLeast hSteps
  refine ⟨⟨steps, hSteps, hRun⟩, machine.runBudget_zero 0, ?_, ?_, ?_⟩
  · rw [hRun]
    exact machine.cycles_after steps
  · rw [hRun]
    exact ⟨hSteps.1, elapsed_le_of_isLeast hSteps⟩
  · intro first hLe begun rest
    obtain ⟨early, hEarly⟩ := machine.exists_isLeast_elapsed first
    have hBegun : begun = (machine.elapsed early, machine.after early) := runFor_of_isLeast hEarly
    obtain ⟨late, hLate⟩ :=
      (machine.after early).exists_isLeast_elapsed (budget - machine.elapsed early)
    have hRest : rest = ((machine.after early).elapsed late, (machine.after early).after late) := by
      have hGoesOn : rest = begun.2.runFor (budget - begun.1) := rfl
      rw [hGoesOn, hBegun]
      exact runFor_of_isLeast hLate
    -- The least number of steps is unique, so it is reached in two parts or in one.
    have hSame : steps = early + late := hSteps.unique (isLeast_elapsed_add hLe hEarly hLate)
    rw [hRun, hRest, hBegun, hSame, after_add, elapsed_add]
    exact ⟨rfl, rfl⟩

/-- A transfer that has just been asked for, from an odd cycle: two cycles, and two for each byte. -/
theorem runFor_of_transfer_composes :
    let machine : Machine :=
      { dma := SpriteTransfer.start 2
        bus := { memory := { cells := Ram.zero 16 }, cycles := 7 } }
    let begun := machine.runFor 3
    begun.1 = 4 ∧ (machine.runFor 5).1 = 6 ∧ 3 ≤ 5 ∧
      (begun.2.runFor (5 - begun.1)).2 = (machine.runFor 5).2 := by
  intro machine begun
  have hLe : 3 ≤ 5 := by decide
  have hRuns := runFor_stops_in_time_and_composes machine 5
  exact ⟨by decide +kernel, by decide +kernel, hLe, (hRuns.2.2.2.2 3 hLe).1⟩

end Machine

end NesMachine
