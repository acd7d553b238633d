/-
Half-open intervals that follow one another without a gap.

`Contiguous a l b` says that the intervals of `l` are not empty, that each
begins where the one before it ends, and that together they lead from `a` to
`b`; every point from `a` up to `b` is then in exactly one of them
(`Contiguous.existsUnique`).
-/
import Mathlib.Order.Lattice

namespace Intervals

variable {α : Type*}

inductive Contiguous [LT α] : α → List (α × α) → α → Prop
  | nil (a : α) : Contiguous a [] a
  | cons {a m b : α} {l : List (α × α)} (hlt : a < m) (hl : Contiguous m l b) : Contiguous a ((a, m) :: l) b

theorem Contiguous.concat [LT α] {a b c : α} {l : List (α × α)} (h : Contiguous a l b) (hlt : b < c) :
    Contiguous a (l ++ [(b, c)]) c := by
  induction h with
  | nil b => exact .cons hlt (.nil c)
  | cons hm _ ih => exact .cons hm (ih hlt)

theorem Contiguous.head [LT α] {a b : α} {i : α × α} {l : List (α × α)} (h : Contiguous a (i :: l) b) :
    i.1 = a ∧ a < i.2 := by
  cases h with
  | cons hlt _ => exact ⟨rfl, hlt⟩

section

variable [LinearOrder α] {a b : α} {l : List (α × α)}

theorem Contiguous.le (h : Contiguous a l b) : a ≤ b := by
  induction h with
  | nil => exact le_rfl
  | cons hlt _ ih => exact hlt.le.trans ih

/-- Every interval is between the ends. -/
theorem Contiguous.bounds (h : Contiguous a l b) : ∀ i ∈ l, a ≤ i.1 ∧ i.1 < i.2 ∧ i.2 ≤ b := by
  induction h with
  | nil => simp
  | cons hlt hl ih =>
    simp only [List.forall_mem_cons]
    refine ⟨⟨le_rfl, hlt, hl.le⟩, fun i hi => ?_⟩
    obtain ⟨hfirst, hne, hlast⟩ := ih i hi
    exact ⟨hlt.le.trans hfirst, hne, hlast⟩

/-- Only the last interval reaches the end. -/
theorem Contiguous.stop_eq_iff (h : Contiguous a l b) : ∀ i (hi : i < l.length), l[i].2 = b ↔ i + 1 = l.length := by
  induction h with
  | nil => exact fun i hi => absurd hi (Nat.not_lt_zero i)
  | @cons a m b l hlt hl ih =>
    intro i hi
    cases i with
    | zero =>
      cases hl with
      | nil => simp
      | @cons _ m' _ l' hlt' hl' =>
        have hne : m ≠ b := (lt_of_lt_of_le hlt' hl'.le).ne
        simp [hne]
    | succ i => simpa using ih i (by simpa using hi)

/-- **The intervals partition** what is between the ends. -/
theorem Contiguous.existsUnique (h : Contiguous a l b) {x : α} (ha : a ≤ x) (hb : x < b) :
    ∃ i ∈ l, (i.1 ≤ x ∧ x < i.2) ∧ ∀ j ∈ l, j.1 ≤ x ∧ x < j.2 → j = i := by
  induction h with
  | nil => exact absurd (lt_of_le_of_lt ha hb) (lt_irrefl _)
  | @cons a m b l hlt hl ih =>
    rcases lt_or_ge x m with hx | hx
    · refine ⟨(a, m), List.mem_cons_self .., ⟨ha, hx⟩, List.forall_mem_cons.mpr ⟨fun _ => rfl, fun j hj hjx => ?_⟩⟩
      exact absurd (lt_of_lt_of_le hx ((hl.bounds j hj).1.trans hjx.1)) (lt_irrefl x)
    · obtain ⟨i, hi, hix, huniq⟩ := ih hx hb
      refine ⟨i, List.mem_cons_of_mem _ hi, hix, List.forall_mem_cons.mpr ⟨fun hjx => absurd (lt_of_lt_of_le hjx.2 hx) (lt_irrefl x), huniq⟩⟩

end

end Intervals
