/-!
# Bus programs

A `Script` is a program that a bus master runs: a finite tree of timed reads and writes that ends in a
result, where what follows a read may depend on the byte. Instructions are scripts, so they are written
once and run on any bus.

`Bus` is what a script needs of a bus. One timed access takes one cycle. The cycles that a script takes
on a bus are the accesses on the branch that the bus makes it follow.
-/

namespace NesMachine

/-- A program of timed bus accesses with a result of type `α`. -/
inductive Script (α : Type) : Type
  | done (result : α)
  | read (address : UInt16) (next : UInt8 → Script α)
  | write (address : UInt16) (value : UInt8) (next : Script α)

namespace Script

variable {α β γ : Type}

def bind : Script α → (α → Script β) → Script β
  | done result, f => f result
  | read address next, f => .read address fun byte => (next byte).bind f
  | write address value next, f => .write address value (next.bind f)

instance : Monad Script where
  pure := done
  bind := bind

@[simp] theorem pure_eq_done (result : α) : (pure result : Script α) = done result := rfl

@[simp] theorem done_bind (result : α) (f : α → Script β) : done result >>= f = f result := rfl

@[simp] theorem read_bind (address : UInt16) (next : UInt8 → Script α) (f : α → Script β) :
    read address next >>= f = read address fun byte => next byte >>= f := rfl

@[simp] theorem write_bind (address : UInt16) (value : UInt8) (next : Script α)
    (f : α → Script β) : write address value next >>= f = write address value (next >>= f) := rfl

theorem bind_done (script : Script α) : script >>= done = script := by
  induction script with
  | done result => rfl
  | read address next ih => exact congrArg (read address) (funext ih)
  | write address value next ih => exact congrArg (write address value) ih

theorem bind_bind (script : Script α) (f : α → Script β) (g : β → Script γ) :
    script >>= f >>= g = script >>= fun result => f result >>= g := by
  induction script with
  | done result => rfl
  | read address next ih => exact congrArg (read address) (funext ih)
  | write address value next ih => exact congrArg (write address value) ih

instance : LawfulMonad Script :=
  LawfulMonad.mk' Script bind_done (fun _ _ => rfl) bind_bind

end Script

/-- A bus with a cycle counter. Every timed access is one cycle. -/
class Bus (σ : Type) where
  read : σ → UInt16 → UInt8 × σ
  write : σ → UInt16 → UInt8 → σ
  /-- Reads without taking time and without effect. -/
  peek : σ → UInt16 → UInt8
  /-- The cycles that have passed. -/
  cycles : σ → Nat

def Script.run {σ α : Type} [Bus σ] : Script α → σ → α × σ
  | done result, bus => (result, bus)
  | read address next, bus =>
    let (byte, bus) := Bus.read bus address
    (next byte).run bus
  | write address value next, bus => next.run (Bus.write bus address value)

/-- A sequence runs its second part on the bus that the first one leaves behind. -/
theorem Script.run_bind {σ α β : Type} [Bus σ] (script : Script α) (f : α → Script β) (bus : σ) :
    (script >>= f).run bus = (f (script.run bus).1).run (script.run bus).2 := by
  induction script generalizing bus with
  | done result => rfl
  | read address next ih => exact ih _ _
  | write address value next ih => exact ih _

end NesMachine
