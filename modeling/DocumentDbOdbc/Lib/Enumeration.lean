/-
Enumerations of rows, as their reader sees them.

An enumeration is closed, or it has its rows and the number of times the next
one was asked for. `run_induction` is the rule for a machine that follows one:
if each step of the machine keeps a relation to the step of the enumeration,
so does a run.
-/
import Mathlib.Init

/-- `none` is closed. -/
abbrev Enumeration (ρ : Type) := Option (List ρ × Nat)

namespace Enumeration

variable {ρ σ κ : Type}

/-- What can happen to an enumeration. -/
inductive Op (ρ : Type) where
  | start (rows : List ρ)
  | stop
  | next
  | stay

def step (e : Enumeration ρ) : Op ρ → Enumeration ρ
  | .start rows => some (rows, 0)
  | .stop => none
  | .next => e.map fun s => (s.1, s.2 + 1)
  | .stay => e

def run (ops : List (Op ρ)) : Enumeration ρ := ops.foldl step none

/-- The row the reader was given last, if it was given one. -/
def current (e : Enumeration ρ) : Option ρ := e.bind fun s => if s.2 = 0 then none else s.1[s.2 - 1]?

theorem run_induction {machine : σ → κ → σ} {op : κ → Op ρ} {r : σ → Enumeration ρ → Prop} {s : σ}
    (hinit : r s none) (hstep : ∀ s e call, r s e → r (machine s call) (step e (op call))) (calls : List κ) :
    r (calls.foldl machine s) (run (calls.map op)) := by
  suffices h : ∀ s e, r s e → r (calls.foldl machine s) ((calls.map op).foldl step e) from h s none hinit
  induction calls with
  | nil => exact fun s e h => h
  | cons call calls ih => exact fun s e h => ih _ _ (hstep s e call h)

end Enumeration
