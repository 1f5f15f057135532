/-!
# Results that may be refused

Constructors answer with `Except`. These facts take such an answer apart, so that no later proof opens the
monad.
-/

namespace NesMachine

variable {ε α β : Type}

/-- A chain succeeds when its first step does and the rest succeeds on what that gave. -/
theorem bind_eq_ok_iff {first : Except ε α} {next : α → Except ε β} {result : β} :
    first >>= next = .ok result ↔ ∃ value, first = .ok value ∧ next value = .ok result := by
  cases first with
  | error reason =>
    constructor
    · intro h
      cases h
    · rintro ⟨value, h, -⟩
      cases h
  | ok value =>
    constructor
    · intro h
      exact ⟨value, rfl, h⟩
    · rintro ⟨other, h, hNext⟩
      cases h
      exact hNext

/-- A mapped computation succeeds exactly when the computation does, with the image of its result. -/
theorem map_eq_ok_iff {f : α → β} {answer : Except ε α} {result : β} :
    f <$> answer = .ok result ↔ ∃ value, answer = .ok value ∧ f value = result := by
  cases answer with
  | error reason =>
    constructor
    · intro h
      cases h
    · rintro ⟨value, h, -⟩
      cases h
  | ok value =>
    constructor
    · intro h
      cases h
      exact ⟨value, rfl, rfl⟩
    · rintro ⟨other, h, rfl⟩
      cases h
      rfl

/-- The reason of a refusal may be put in other words. -/
theorem mapError_eq_ok_iff {ζ : Type} {f : ε → ζ} {answer : Except ε α} {result : α} :
    answer.mapError f = .ok result ↔ answer = .ok result := by
  cases answer with
  | error reason =>
    constructor
    · intro h
      cases h
    · intro h
      cases h
  | ok value =>
    constructor
    · intro h
      cases h
      rfl
    · intro h
      cases h
      rfl

end NesMachine
