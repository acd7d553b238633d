/-
Finite sets as the ascending lists they are walked through as.
-/
import Mathlib.Data.List.Sort

/-- A finite set of an ordered type. -/
structure SortedSet (α : Type) [LinearOrder α] where
  toList : List α
  ordered : toList.Pairwise (· < ·)
  deriving DecidableEq

namespace SortedSet

variable {α : Type} [LinearOrder α]

def empty : SortedSet α := ⟨[], .nil⟩

instance : Membership α (SortedSet α) := ⟨fun s x => x ∈ s.toList⟩

instance (x : α) (s : SortedSet α) : Decidable (x ∈ s) := inferInstanceAs (Decidable (x ∈ s.toList))

/-- A new element goes where the order wants it; one that is there changes
nothing. -/
def emplace (s : SortedSet α) (x : α) : SortedSet α :=
  if h : x ∈ s.toList then s
  else
    { toList := s.toList.orderedInsert (· ≤ ·) x
      ordered := by
        have hle : (s.toList.orderedInsert (· ≤ ·) x).Pairwise (· ≤ ·) := (s.ordered.imp le_of_lt).orderedInsert x _
        have hne : (s.toList.orderedInsert (· ≤ ·) x).Nodup :=
          (List.perm_orderedInsert _ x _).nodup_iff.mpr (List.nodup_cons.mpr ⟨h, s.ordered.imp ne_of_lt⟩)
        exact hle.imp₂ (fun _ _ hle hne => lt_of_le_of_ne hle hne) hne }

@[simp] theorem mem_toList {s : SortedSet α} {x : α} : x ∈ s.toList ↔ x ∈ s := .rfl

@[simp] theorem not_mem_empty (x : α) : x ∉ (empty : SortedSet α) := List.not_mem_nil

@[simp] theorem mem_emplace {s : SortedSet α} {x y : α} : y ∈ s.emplace x ↔ y = x ∨ y ∈ s := by
  unfold emplace
  split
  next h => exact ⟨.inr, fun hy => hy.elim (fun he => he ▸ h) id⟩
  next => exact List.mem_orderedInsert _

/-- The elements of a list, one after the other. -/
def emplaceAll (s : SortedSet α) (l : List α) : SortedSet α := l.foldl emplace s

@[simp] theorem mem_emplaceAll {s : SortedSet α} {l : List α} {y : α} : y ∈ s.emplaceAll l ↔ y ∈ s ∨ y ∈ l := by
  unfold emplaceAll
  induction l generalizing s with
  | nil => simp
  | cons x rest ih =>
    rw [List.foldl_cons, ih, mem_emplace, List.mem_cons]
    tauto

end SortedSet
