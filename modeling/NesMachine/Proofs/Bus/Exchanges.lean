import NesMachine.Proofs.Bus.Accesses

/-!
# Exchanges

An access of the processor is half of an exchange: to a read the bus answers with a byte. `Script.exchanges`
lists the accesses of a script on a bus with these bytes, so that a byte that is written can be compared with one
that was read before.

* `Script.exchanges_bind`: a sequence makes the exchanges of its first half and then those of its second half.
* `Script.Silent`: a script that writes on no branch.
* `Bus.Logs`: a bus on which a log grows by every access.
-/

namespace NesMachine

variable {σ α β : Type}

inductive Exchange
  | read (address : UInt16) (answer : UInt8)
  | write (address : UInt16) (value : UInt8)
  deriving DecidableEq, Repr

namespace Exchange

def access : Exchange → Access
  | .read address _ => .read address
  | .write address value => .write address value

def write? : Exchange → Option (UInt16 × UInt8)
  | .read _ _ => none
  | .write address value => some (address, value)

def writes (exchanges : List Exchange) : List (UInt16 × UInt8) :=
  exchanges.filterMap write?

end Exchange

namespace Script

/-- The script writes on no branch. -/
inductive Silent : Script α → Prop
  | done {result : α} : Silent (.done result)
  | read {address : UInt16} {next : UInt8 → Script α} :
      (∀ byte, Silent (next byte)) → Silent (.read address next)

/-- A sequence of parts that never write never writes. -/
theorem Silent.bind {script : Script α} {f : α → Script β} (h : script.Silent)
    (hNext : ∀ result, (f result).Silent) : (script >>= f).Silent := by
  induction h with
  | done => exact hNext _
  | read _ ih => exact .read ih

section Bus

variable [Bus σ]

def exchanges : Script α → σ → List Exchange
  | .done _, _ => []
  | .read address next, bus =>
    .read address (Bus.read bus address).1 ::
      (next (Bus.read bus address).1).exchanges (Bus.read bus address).2
  | .write address value next, bus =>
    .write address value :: next.exchanges (Bus.write bus address value)

/-- Without the answers, exchanges are accesses. -/
theorem map_access_exchanges (script : Script α) (bus : σ) :
    (script.exchanges bus).map Exchange.access = script.accesses bus := by
  induction script generalizing bus with
  | done result => rfl
  | read address next ih => exact congrArg (List.cons _) (ih _ _)
  | write address value next ih => exact congrArg (List.cons _) (ih _)

/-- A sequence exchanges what its first part does, and then what its second part does on the bus it
finds. -/
theorem exchanges_bind (script : Script α) (f : α → Script β) (bus : σ) :
    (script >>= f).exchanges bus =
      script.exchanges bus ++ (f (script.run bus).1).exchanges (script.run bus).2 := by
  induction script generalizing bus with
  | done result => rfl
  | read address next ih => exact congrArg (List.cons _) (ih _ _)
  | write address value next ih => exact congrArg (List.cons _) (ih _)

/-- A function of the result has no part in the exchanges. -/
theorem exchanges_bind_done (script : Script α) (f : α → β) (bus : σ) :
    (script >>= fun result => .done (f result)).exchanges bus = script.exchanges bus := by
  rw [exchanges_bind]
  exact List.append_nil _

/-- A script that writes on no branch makes no write on any bus. -/
theorem Silent.writes_exchanges {script : Script α} (h : script.Silent) (bus : σ) :
    Exchange.writes (script.exchanges bus) = [] := by
  induction h generalizing bus with
  | done => rfl
  | read _ ih => exact ih _ _

end Bus

end Script

/-! ## Logs -/

section Bus

variable [Bus σ] {log : σ → List Access}

/-- The log grows by every access, at its end. -/
def Bus.Logs (log : σ → List Access) : Prop :=
  ∀ (bus : σ) (access : Access), log (Bus.after bus access) = log bus ++ [access]

theorem FlatBus.logs : Bus.Logs fun bus : FlatBus => bus.log.toList := by
  intro bus access
  cases access <;> exact Array.toList_push

/-- A run of accesses extends the log by just these accesses. -/
theorem Bus.Logs.foldl_after (h : Bus.Logs log) (accesses : List Access) (bus : σ) :
    log (accesses.foldl Bus.after bus) = log bus ++ accesses := by
  induction accesses generalizing bus with
  | nil => exact (List.append_nil _).symm
  | cons access rest ih =>
    calc
      log (rest.foldl Bus.after (Bus.after bus access)) = log (Bus.after bus access) ++ rest := ih _
      _ = log bus ++ access :: rest := by rw [h, List.append_assoc, List.singleton_append]

end Bus

end NesMachine
