/-
Runs of a machine that takes labelled steps, and pools of threads.

`Run step s trace s'`: steps with these labels, oldest first, lead from `s` to
`s'`. An invariant may speak of the labels so far as well as of the state
(`Run.induct`). A pool gives each thread the place where it stands; one step
moves one thread.
-/
import Mathlib.Algebra.BigOperators.Group.Finset.Piecewise
import Mathlib.Data.Fintype.Card

namespace Labelled

variable {σ κ : Type}

inductive Run (step : σ → κ → σ → Prop) (s : σ) : List κ → σ → Prop
  | nil : Run step s [] s
  | snoc {trace : List κ} {t u : σ} {label : κ} (h : Run step s trace t) (hstep : step t label u) :
      Run step s (trace ++ [label]) u

variable {step : σ → κ → σ → Prop} {s t u : σ} {trace trace' : List κ}

theorem Run.single {label : κ} (h : step s label t) : Run step s [label] t := .snoc .nil h

theorem Run.append (h : Run step s trace t) (h' : Run step t trace' u) : Run step s (trace ++ trace') u := by
  induction h' with
  | nil => rwa [List.append_nil]
  | snoc _ hstep ih =>
    rw [← List.append_assoc]
    exact .snoc ih hstep

theorem Run.cons {label : κ} (h : step s label t) (h' : Run step t trace u) : Run step s (label :: trace) u :=
  (Run.single h).append h'

/-- **Invariants**: what holds at the start and is kept by every step holds
after every run. -/
@[elab_as_elim]
theorem Run.induct {inv : List κ → σ → Prop} (h : Run step s trace t) (hinit : inv [] s)
    (hstep : ∀ (trace : List κ) (t : σ) (label : κ) (u : σ), Run step s trace t → inv trace t → step t label u →
      inv (trace ++ [label]) u) : inv trace t := by
  induction h with
  | nil => exact hinit
  | snoc hrun hlast ih => exact hstep _ _ _ _ hrun ih hlast

end Labelled

namespace Pool

variable {ι κ : Type} [Fintype ι]

/-- How many threads stand at such a place. -/
def count (p : κ → Bool) (calls : ι → κ) : Nat := (Finset.univ.filter fun i => p (calls i) = true).card

theorem count_le_card (p : κ → Bool) (calls : ι → κ) : count p calls ≤ Fintype.card ι := Finset.card_filter_le _ _

/-- One thread moves. -/
theorem count_update [DecidableEq ι] (p : κ → Bool) (calls : ι → κ) (i : ι) (c : κ) :
    count p (Function.update calls i c) + (p (calls i)).toNat = count p calls + (p c).toNat := by
  have hsum : ∀ f : ι → κ, count p f = ∑ j, (p (f j)).toNat := by
    intro f
    rw [count, Finset.card_filter]
    exact Finset.sum_congr rfl fun j _ => by cases p (f j) <;> rfl
  have hsplit : ∀ f : ι → κ, ∑ j, (p (f j)).toNat = (p (f i)).toNat + ∑ j ∈ Finset.univ.erase i, (p (f j)).toNat :=
    fun f => (Finset.add_sum_erase _ _ (Finset.mem_univ i)).symm
  have hrest : ∑ j ∈ Finset.univ.erase i, (p (Function.update calls i c j)).toNat =
      ∑ j ∈ Finset.univ.erase i, (p (calls j)).toNat :=
    Finset.sum_congr rfl fun j hj => by rw [Function.update_of_ne (Finset.ne_of_mem_erase hj)]
  rw [hsum, hsum, hsplit, hsplit calls, hrest, Function.update_self]
  omega

end Pool
