/-!
This module contains how a block of steps that may fail is taken apart: it succeeds with what its
steps succeed with, and another wording of the errors changes no success.
-/

namespace TextGen

variable {ε ε' α β : Type}

@[simp]
theorem mapError_ok (f : ε → ε') (a : α) : (Except.ok a).mapError f = .ok a := rfl

@[simp]
theorem mapError_error (f : ε → ε') (e : ε)
    : (Except.error e : Except ε α).mapError f = .error (f e) := rfl

theorem eq_ok_of_mapError {f : ε → ε'} {result : Except ε α} {a : α}
    (h : result.mapError f = .ok a) : result = .ok a := by
  cases result with
  | error e => simp at h
  | ok a' =>
    cases h
    rfl

theorem bind_eq_ok_iff {result : Except ε α} {f : α → Except ε β} {b : β}
    : result >>= f = .ok b ↔ ∃ a, result = .ok a ∧ f a = .ok b := by
  cases result with
  | error e => simp [bind, Except.bind]
  | ok a => simp [bind, Except.bind]

theorem exists_of_bind {result : Except ε α} {f : α → Except ε β} {b : β}
    (h : result >>= f = .ok b) : ∃ a, result = .ok a ∧ f a = .ok b := bind_eq_ok_iff.mp h

theorem bind_of_ok {result : Except ε α} {a : α} (h : result = .ok a) (f : α → Except ε β)
    : result >>= f = f a := by
  rw [h]
  rfl

def okIf (condition : Bool) (e : ε) (a : α) : Except ε α := if condition then .ok a else .error e

theorem okIf_bind {condition next : Bool} {e : ε} {a : α} {b : β} {f : α → Except ε β}
    (h : f a = okIf next e b) : okIf condition e a >>= f = okIf (condition && next) e b := by
  cases condition with
  | false => rfl
  | true => exact h

theorem map_okIf (condition : Bool) (e : ε) (a : α) (f : α → β)
    : f <$> okIf condition e a = okIf condition e (f a) := by
  cases condition <;> rfl

end TextGen
