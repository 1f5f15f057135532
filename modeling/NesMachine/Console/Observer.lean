/-!
# Write observers

An observer sits at one address of the processor's bus and sees every byte that is written there. It may
answer with a signal, which the machine acts on once the instruction has ended.
-/

namespace NesMachine

inductive Signal
  /-- Copy a page of the processor's memory to sprite memory. -/
  | startTransfer (page : UInt8)
  /-- Request an interrupt. -/
  | raiseIrq
  deriving DecidableEq, Repr

/-- A reaction to the bytes written at one address. The state can hold anything that the reaction has to
remember; a machine and its copies have states of their own. -/
structure Observer where
  react : Nat → UInt8 → Option Signal × Nat
  state : Nat := 0

namespace Observer

def notify (observer : Observer) (value : UInt8) : Option Signal × Observer :=
  let (signal, state) := observer.react observer.state value
  (signal, { observer with state })

def stateless (answer : UInt8 → Option Signal) : Observer :=
  { react := fun state value => (answer value, state) }

def spriteTransfer : Observer :=
  stateless fun page => some (.startTransfer page)

/-- Requests an interrupt when zero is written. -/
def frameIrq : Observer :=
  stateless fun value => if value = 0 then some .raiseIrq else none

/-- Requests an interrupt on every `period`-th write. -/
def everyNth (period : Nat) : Observer :=
  { react := fun count _ =>
      (if (count + 1) % period = 0 then some .raiseIrq else none, count + 1) }

end Observer

/-- The observers by their addresses, at most one at each. -/
abbrev Observers := List (UInt16 × Observer)

namespace Observers

def insert (address : UInt16) (observer : Observer) : Observers → Option Observer × Observers
  | [] => (none, [(address, observer)])
  | (other, old) :: rest =>
    if other = address then
      (some old, (address, observer) :: rest)
    else
      let (replaced, rest) := insert address observer rest
      (replaced, (other, old) :: rest)

def notify (address : UInt16) (value : UInt8) : Observers → Option Signal × Observers
  | [] => (none, [])
  | (other, observer) :: rest =>
    if other = address then
      let (signal, observer) := observer.notify value
      (signal, (other, observer) :: rest)
    else
      let (signal, rest) := notify address value rest
      (signal, (other, observer) :: rest)

end Observers

end NesMachine
