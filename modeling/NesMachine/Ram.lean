/-!
# Byte stores

`Ram n` holds `2 ^ n` bytes as a perfect binary tree over the bits of an address. A write rebuilds one
path of the tree and shares the rest, so a saved copy of a machine costs nothing and never changes
under its holder. Addresses are natural numbers of which only the lowest `n` bits count.
-/

namespace NesMachine

-- Powers of two keep one reading, whichever algebra is in scope.
attribute [local instance (high)] instPowNat

/-- A store of `2 ^ n` bytes. -/
inductive Ram : Nat → Type
  | cell (value : UInt8) : Ram 0
  | split {n : Nat} (low high : Ram n) : Ram (n + 1)
  deriving DecidableEq

namespace Ram

def fill (value : UInt8) : (n : Nat) → Ram n
  | 0 => .cell value
  | n + 1 => let half := fill value n; .split half half

def zero (n : Nat) : Ram n :=
  fill 0 n

instance {n : Nat} : Inhabited (Ram n) := ⟨zero n⟩

/-- The store whose cell `i` holds `f (base + i)`. -/
def ofFnFrom (f : Nat → UInt8) : (n base : Nat) → Ram n
  | 0, base => .cell (f base)
  | n + 1, base => .split (ofFnFrom f n base) (ofFnFrom f n (base + 2 ^ n))

def ofFn (n : Nat) (f : Nat → UInt8) : Ram n :=
  ofFnFrom f n 0

def get : {n : Nat} → Ram n → Nat → UInt8
  | _, .cell value, _ => value
  | _, @split n low high, address => if address.testBit n then high.get address else low.get address

def set : {n : Nat} → Ram n → Nat → UInt8 → Ram n
  | _, .cell _, _, value => .cell value
  | _, @split n low high, address, value =>
    if address.testBit n then .split low (high.set address value)
    else .split (low.set address value) high

/-- Takes the cells at `start ≤ i < stop` from `top` and the others from `bottom`, where `base` is the
address of the first cell of both. -/
def overlayFrom (start stop : Nat) : {n : Nat} → (base : Nat) → (bottom top : Ram n) → Ram n
  | _, base, .cell b, .cell t => if start ≤ base ∧ base < stop then .cell t else .cell b
  | _, base, @split n bl bh, .split tl th =>
    if stop ≤ base ∨ base + 2 ^ (n + 1) ≤ start then .split bl bh
    else if start ≤ base ∧ base + 2 ^ (n + 1) ≤ stop then .split tl th
    else .split (overlayFrom start stop base bl tl) (overlayFrom start stop (base + 2 ^ n) bh th)

/-- Takes the cells at `start ≤ i < stop` from `top` and the others from `bottom`. -/
def overlay {n : Nat} (bottom top : Ram n) (start stop : Nat) : Ram n :=
  overlayFrom start stop 0 bottom top

def setBytes {n : Nat} (ram : Ram n) (start : Nat) : List UInt8 → Ram n
  | [] => ram
  | byte :: rest => (ram.set start byte).setBytes (start + 1) rest

def slice {n : Nat} (ram : Ram n) (start count : Nat) : List UInt8 :=
  (List.range count).map fun i => ram.get (start + i)

/-! ## Laws

A store is determined by the bytes that it answers with; each operation is described by them. -/

/-- The top bit of an address tells the half, and the bits below it tell the place within the half. -/
theorem mod_two_pow_succ (a n : Nat) :
    a % 2 ^ (n + 1) = a % 2 ^ n + 2 ^ n * (a.testBit n).toNat := by
  rw [Nat.mod_pow_succ, Nat.toNat_testBit]

theorem mod_two_pow_succ_eq_iff (a b n : Nat) :
    a % 2 ^ (n + 1) = b % 2 ^ (n + 1) ↔ a.testBit n = b.testBit n ∧ a % 2 ^ n = b % 2 ^ n := by
  have ha := Nat.mod_lt a (Nat.two_pow_pos n)
  have hb := Nat.mod_lt b (Nat.two_pow_pos n)
  rw [mod_two_pow_succ, mod_two_pow_succ]
  cases a.testBit n <;> cases b.testBit n <;> simp <;> omega

@[simp] theorem get_fill (value : UInt8) (n address : Nat) : (fill value n).get address = value := by
  induction n with
  | zero => rfl
  | succ n ih => simp [fill, get, ih]

@[simp] theorem get_zero (n address : Nat) : (zero n).get address = 0 :=
  get_fill 0 n address

/-- An address reaches the cell of its low `n` bits, and a byte is seen at all addresses that share them. -/
theorem get_set {n : Nat} (ram : Ram n) (a b : Nat) (value : UInt8) :
    (ram.set a value).get b = if a % 2 ^ n = b % 2 ^ n then value else ram.get b := by
  induction ram with
  | cell old => simp [set, get, Nat.mod_one]
  | @split n low high ihLow ihHigh =>
    simp only [mod_two_pow_succ_eq_iff]
    by_cases ha : a.testBit n <;> by_cases hb : b.testBit n <;> simp [set, get, ha, hb, ihLow, ihHigh]

/-- Bits of an address past the `n`th make no difference. -/
theorem get_mod {n : Nat} (ram : Ram n) (a : Nat) : ram.get (a % 2 ^ n) = ram.get a := by
  induction ram generalizing a with
  | cell old => rfl
  | @split n low high ihLow ihHigh =>
    have inner (half : Ram n) (ih : ∀ a, half.get (a % 2 ^ n) = half.get a) :
        half.get (a % 2 ^ (n + 1)) = half.get a := by
      rw [← ih (a % 2 ^ (n + 1)), Nat.mod_mod_of_dvd _ (Nat.pow_dvd_pow 2 (Nat.le_succ n)), ih]
    simp [get, Nat.testBit_mod_two_pow, inner low ihLow, inner high ihHigh]

theorem get_ofFnFrom (f : Nat → UInt8) (n base a : Nat) :
    (ofFnFrom f n base).get a = f (base + a % 2 ^ n) := by
  induction n generalizing base with
  | zero => simp [ofFnFrom, get, Nat.mod_one]
  | succ n ih =>
    rw [mod_two_pow_succ]
    by_cases high : a.testBit n
    · simp [ofFnFrom, get, high, ih, Nat.add_assoc, Nat.add_comm]
    · simp [ofFnFrom, get, high, ih]

theorem get_ofFn (f : Nat → UInt8) (n a : Nat) : (ofFn n f).get a = f (a % 2 ^ n) := by
  rw [ofFn, get_ofFnFrom, Nat.zero_add]

/-- Each cell comes from the store on top exactly when its address lies in the interval. -/
theorem get_overlayFrom (start stop : Nat) {n : Nat} (base : Nat) (bottom top : Ram n) (a : Nat) :
    (overlayFrom start stop base bottom top).get a =
      if start ≤ base + a % 2 ^ n ∧ base + a % 2 ^ n < stop then top.get a else bottom.get a := by
  -- The halves of both stores are taken one by one; a store that lies within or outside as a whole is taken
  -- as one.
  induction n generalizing base with
  | zero =>
    cases bottom with
    | cell b =>
      cases top with
      | cell t =>
        by_cases inside : start ≤ base ∧ base < stop <;> simp [overlayFrom, get, Nat.mod_one, inside]
  | succ n ih =>
    cases bottom with
    | split bl bh =>
      cases top with
      | split tl th =>
        have bound := Nat.mod_lt a (Nat.two_pow_pos (n + 1))
        rw [overlayFrom]
        split
        · rename_i outside
          rw [if_neg (by omega)]
        · split
          · rename_i inside
            rw [if_pos (by omega)]
          · -- Here the interval has a bound within the store, so the top bit says which half to look at.
            rw [mod_two_pow_succ]
            by_cases high : a.testBit n
            · simp [get, high, ih, Nat.add_assoc, Nat.add_comm]
            · simp [get, high, ih]

theorem get_overlay {n : Nat} (bottom top : Ram n) (start stop a : Nat) :
    (bottom.overlay top start stop).get a =
      if start ≤ a % 2 ^ n ∧ a % 2 ^ n < stop then top.get a else bottom.get a := by
  rw [overlay, get_overlayFrom, Nat.zero_add]

/-- A store is what it answers: no two stores hold the same bytes. -/
theorem ext_get {n : Nat} {ram other : Ram n} (same : ∀ a, ram.get a = other.get a) :
    ram = other := by
  induction ram with
  | cell value =>
    cases other with
    | cell value' => exact congrArg cell (same 0)
  | @split n low high ihLow ihHigh =>
    cases other with
    | split low' high' =>
      have lows : low = low' := ihLow fun a => by
        have := same (a % 2 ^ n)
        simpa [get, Nat.testBit_mod_two_pow, get_mod] using this
      have highs : high = high' := ihHigh fun a => by
        have := same (2 ^ n + a % 2 ^ n)
        have bit : (2 ^ n + a % 2 ^ n).testBit n = true := by
          rw [Nat.testBit_two_pow_add_eq, Nat.testBit_mod_two_pow]; simp
        rw [get, get, if_pos bit, if_pos bit, ← get_mod high, ← get_mod high'] at this
        simpa [get_mod] using this
      rw [lows, highs]

end Ram

end NesMachine
