/-
Weakest preconditions of computations that may fail.

`Ends F x Q` says that `x` fails in `F` or returns in `Q`; there is a rule for
each way of building a computation.
-/
import Mathlib.Init

namespace Outcome

variable {ε α β : Type}

/-- A failure of `x` is in `F`, and a value of it in `Q`. -/
def Ends (F : ε → Prop) (x : Except ε α) (Q : α → Prop) : Prop :=
  match x with
  | .ok a => Q a
  | .error e => F e

variable {F : ε → Prop} {P Q : α → Prop}

@[simp] theorem ends_ok (a : α) : Ends F (.ok a) Q ↔ Q a := Iff.rfl

@[simp] theorem ends_error (e : ε) : Ends F (.error e) Q ↔ F e := Iff.rfl

@[simp] theorem ok_bind (a : α) (f : α → Except ε β) : (.ok a >>= f) = f a := rfl

@[simp] theorem error_bind (e : ε) (f : α → Except ε β) : (.error e >>= f) = .error e := rfl

theorem bind_eq_ok {x : Except ε α} {f : α → Except ε β} {b : β} : (x >>= f) = .ok b ↔ ∃ a, x = .ok a ∧ f a = .ok b := by
  cases x with
  | ok a => simp
  | error e => simp

/-- One after the other. -/
theorem ends_bind {x : Except ε α} {f : α → Except ε β} {R : β → Prop} :
    Ends F (x >>= f) R ↔ Ends F x fun a => Ends F (f a) R := by
  cases x <;> rfl

theorem ends_congr {x : Except ε α} (h : ∀ a, x = .ok a → (P a ↔ Q a)) : Ends F x P ↔ Ends F x Q := by
  cases x with
  | ok a => exact h a rfl
  | error e => exact Iff.rfl

theorem Ends.mono {x : Except ε α} (h : Ends F x P) (himp : ∀ a, P a → Q a) : Ends F x Q := by
  cases x with
  | ok a => exact himp a h
  | error e => exact h

theorem Ends.bind {x : Except ε α} {f : α → Except ε β} {R : β → Prop} (h : Ends F x P)
    (himp : ∀ a, P a → Ends F (f a) R) : Ends F (x >>= f) R :=
  ends_bind.mpr (h.mono himp)

/-- Nothing is asked of a failure, nor of a value. -/
theorem ends_true (x : Except ε α) : Ends (fun _ => True) x fun _ => True := by
  cases x <;> trivial

theorem Ends.map {x : Except ε α} {f : α → β} {R : β → Prop} (h : Ends F x P) (himp : ∀ a, P a → R (f a)) :
    Ends F (x.map f) R := by
  cases x with
  | ok a => exact himp a h
  | error e => exact h

theorem Ends.ite {c : Prop} [Decidable c] {x y : Except ε α} (hx : Ends F x Q) (hy : Ends F y Q) :
    Ends F (if c then x else y) Q := by
  split
  · exact hx
  · exact hy

theorem Ends.of_eq_ok {x : Except ε α} {a : α} (h : Ends F x Q) (hx : x = .ok a) : Q a := by
  rw [hx] at h
  exact h

end Outcome
