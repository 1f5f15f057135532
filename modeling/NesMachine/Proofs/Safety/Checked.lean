import NesMachine.AddressSpace.Layout
import NesMachine.Clock
import NesMachine.Cpu.Form

/-!
# Checked operations

The definitions of the machine are total: numbers do not overflow, a look-up always has an answer and
an instruction always has the operand that it needs. An implementation on words of fixed width checks
all this as it runs, and it cannot go on when a check fails. The checks are stated here once; the modules
after this one run the machine with every check in its place and show that none of them fails.

* `Violation`: the checks that can fail.
* `Checked.fit`, `Checked.sub`, `Checked.mod`, `Checked.index`, `Checked.slice`,
  `Checked.shift`: the checks of words.
* `Checked.forM_eq_ok`: a loop passes when each of its rounds does.
* `Clock.dots_lt_size`: how many cycles can be counted in dots.
-/

namespace NesMachine

inductive Violation
  /-- An access that the address space cannot serve. -/
  | fault (fault : Fault)
  | outOfBounds (index length : Nat)
  | overflow (value : Int) (limit : Nat)
  | underflow (value amount : Nat)
  | divisionByZero
  | longShift (amount width : Nat)
  /-- A mnemonic in a part of the processor that does not know it. -/
  | unknownMnemonic (mnemonic : Mnemonic)
  /-- A mnemonic without an operand of the kind that it needs. -/
  | missingOperand (mnemonic : Mnemonic)
  /-- A loop that has not ended after as many rounds as it may take. -/
  | unfinished
  deriving DecidableEq, Repr

/-- A result with the checks on the way to it. -/
abbrev Checked := Except Violation

namespace Checked

variable {α β : Type}

@[simp] theorem ok_bind (value : α) (f : α → Checked β) : (Except.ok value >>= f) = f value := rfl

@[simp] theorem pure_eq_ok (value : α) : (pure value : Checked α) = .ok value := rfl

/-! ## Words -/

def fit (limit n : Nat) : Checked Nat :=
  if n < limit then .ok n else .error (.overflow n limit)

/-- A number of a signed word, of which `limit` numbers are negative. -/
def fitSigned (limit : Nat) (n : Int) : Checked Int :=
  if -limit ≤ n ∧ n < limit then .ok n else .error (.overflow n limit)

def sub (a b : Nat) : Checked Nat :=
  if b ≤ a then .ok (a - b) else .error (.underflow a b)

def mod (a b : Nat) : Checked Nat :=
  if b = 0 then .error .divisionByZero else .ok (a % b)

def index (i length : Nat) : Checked Unit :=
  if i < length then .ok () else .error (.outOfBounds i length)

def slice (stop length : Nat) : Checked Unit :=
  if stop ≤ length then .ok () else .error (.outOfBounds stop length)

def shift (amount width : Nat) : Checked Unit :=
  if amount < width then .ok () else .error (.longShift amount width)

variable {n limit a b i length amount width : Nat}

theorem fit_eq_ok (h : n < limit) : fit limit n = .ok n :=
  if_pos h

-- The limit is a numeral here, so that `omega` can bound a sum of words.
theorem fit_word_eq_ok (h : n < 0x10000) : fit UInt16.size n = .ok n :=
  if_pos h

theorem fitSigned_eq_ok {z : Int} (hLow : -limit ≤ z) (hHigh : z < limit) :
    fitSigned limit z = .ok z :=
  if_pos ⟨hLow, hHigh⟩

theorem sub_eq_ok (h : b ≤ a) : sub a b = .ok (a - b) :=
  if_pos h

theorem mod_eq_ok (h : 0 < b) : mod a b = .ok (a % b) :=
  if_neg (Nat.ne_of_gt h)

theorem index_eq_ok (h : i < length) : index i length = .ok () :=
  if_pos h

theorem slice_eq_ok (h : i ≤ length) : slice i length = .ok () :=
  if_pos h

theorem shift_eq_ok (h : amount < width) : shift amount width = .ok () :=
  if_pos h

/-! ## Loops -/

/-- Rounds `0` to `count - 1`, one after another. -/
def loop (count : Nat) (round : Nat → α → Checked α) (state : α) : Checked α :=
  match count with
  | 0 => return state
  | count + 1 => do
    let state ← loop count round state
    round count state

/-- Checks in a row pass if each of them does. -/
theorem forM_eq_ok {items : List α} {round : α → Checked Unit}
    (h : ∀ item ∈ items, round item = .ok ()) : forM items round = .ok () := by
  induction items with
  | nil => rfl
  | cons item rest ih =>
    have hRest := ih fun other hMem => h other (List.mem_cons_of_mem item hMem)
    rw [List.forM_cons, h item List.mem_cons_self, ok_bind, hRest]

end Checked

/-- The dots of no more cycles than these can be counted in 64 bits. -/
theorem Clock.dots_lt_size {cycles : Nat} (h : cycles ≤ (UInt64.size - 1) / dotsPerCycle) :
    cycles * dotsPerCycle < UInt64.size :=
  calc
    cycles * dotsPerCycle ≤ (UInt64.size - 1) / dotsPerCycle * dotsPerCycle := Nat.mul_le_mul_right _ h
    _ ≤ UInt64.size - 1 := Nat.div_mul_le_self _ _
    _ < UInt64.size := by decide

end NesMachine
