import Mathlib.Logic.Basic

/-!
# Computations that may fault

Pre- and postconditions for `Except`. `Ensures allowed x Q` says that `x` ends with
a value that has the property `Q`, or with a fault that is allowed. There is one
rule for each way to build a computation.
-/

namespace Checked

universe u v

variable {ε : Type u} {α β : Type v} {allowed : ε → Prop}

def Ensures (allowed : ε → Prop) (x : Except ε α) (Q : α → Prop) : Prop :=
  match x with
  | .ok a => Q a
  | .error e => allowed e

/-- Fault unless a condition holds. -/
def check (e : ε) (p : Prop) [Decidable p] : Except ε Unit :=
  if p then .ok () else .error e

variable {Q : α → Prop} {a : α}

theorem Ensures.ok (h : Q a) : Ensures allowed (.ok a) Q := h

theorem Ensures.pure (h : Q a) : Ensures allowed (Pure.pure a : Except ε α) Q := h

variable {e : ε}

theorem Ensures.error (h : allowed e) : Ensures allowed (.error e) Q := h

variable {x : Except ε α} {f : α → Except ε β} {P : α → Prop}

/-- The rule for sequences: the rest may use what the first part ensures. -/
theorem Ensures.bind {Q : β → Prop} (hx : Ensures allowed x P)
    (hf : ∀ a, P a → Ensures allowed (f a) Q) :
    Ensures allowed (x >>= f) Q := by
  cases x with
  | ok a => exact hf a hx
  | error e => exact hx

@[simp] theorem ok_bind : (Except.ok a >>= f) = f a := rfl

/-- Weaken the postcondition. -/
theorem Ensures.mono (hx : Ensures allowed x P) (h : ∀ a, P a → Q a) : Ensures allowed x Q := by
  cases x with
  | ok a => exact h a hx
  | error e => exact hx

/-- Allow more errors. -/
theorem Ensures.allow {allowed' : ε → Prop} (hx : Ensures allowed x Q)
    (h : ∀ e, allowed e → allowed' e) : Ensures allowed' x Q := by
  cases x with
  | ok a => exact hx
  | error e => exact h e hx

theorem Ensures.map {f : α → β} {Q : β → Prop} (hx : Ensures allowed x fun a => Q (f a)) :
    Ensures allowed (f <$> x) Q := by
  cases x with
  | ok a | error e => exact hx

variable {p : Prop}

/-- After a check its condition holds. -/
theorem Ensures.check [Decidable p] (he : allowed e) : Ensures allowed (check e p) fun _ => p := by
  unfold Checked.check
  split
  · assumption
  · exact he

/-- The fault has to be allowed only if the condition fails. -/
theorem Ensures.check_else [Decidable p] (he : ¬ p → allowed e) :
    Ensures allowed (Checked.check e p) fun _ => p := by
  unfold Checked.check
  split
  · assumption
  · exact he ‹_›

/-- A condition that holds. -/
theorem Ensures.check_of [Decidable p] (hp : p) :
    Ensures allowed (Checked.check e p) fun _ => p := by
  rw [Checked.check, if_pos hp]
  exact hp

/-- What a result shows about a computation. -/
theorem Ensures.of_ok (h : Ensures allowed x Q) (ha : x = .ok a) : Q a := by
  rw [ha] at h
  exact h

theorem Ensures.of_error (h : Ensures allowed x Q) (he : x = .error e) : allowed e := by
  rw [he] at h
  exact h

end Checked
