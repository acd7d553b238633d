/-
Pieces of a list at a position: what is there, what an overwrite leaves there.

`Holds mem pos l`: from `pos` on, `mem` goes on with `l`.
-/
import Mathlib.Data.List.Basic
import Mathlib.Tactic.Common

namespace Slice

variable {α : Type} {mem l l' : List α} {pos pos' : Nat}

def Holds (mem : List α) (pos : Nat) (l : List α) : Prop := l <+: mem.drop pos

/-- An overwrite in place. -/
def patch (mem : List α) (pos : Nat) (l : List α) : List α := mem.take pos ++ l ++ mem.drop (pos + l.length)

theorem Holds.take_drop (h : Holds mem pos l) : (mem.drop pos).take l.length = l := (List.prefix_iff_eq_take.mp h).symm

theorem Holds.length_le (h : Holds mem pos l) : l.length ≤ mem.length - pos := by
  have hle := List.IsPrefix.length_le h
  rwa [List.length_drop] at hle

theorem holds_append : Holds mem pos (l ++ l') ↔ Holds mem pos l ∧ Holds mem (pos + l.length) l' := by
  constructor
  · rintro ⟨rest, h⟩
    rw [List.append_assoc] at h
    refine ⟨⟨l' ++ rest, h⟩, ⟨rest, ?_⟩⟩
    rw [← List.drop_drop, ← h, List.drop_left]
  · rintro ⟨⟨rest, h⟩, h'⟩
    obtain ⟨rest', h'⟩ := h'
    refine ⟨rest', ?_⟩
    rw [← List.drop_drop, ← h, List.drop_left] at h'
    rw [List.append_assoc, h', h]

/-- A piece of a piece. -/
theorem Holds.sub (h : Holds mem pos l) (h' : Holds l pos' l') (hle : pos' ≤ l.length) : Holds mem (pos + pos') l' := by
  rw [← List.take_append_drop pos' l, holds_append, List.length_take, Nat.min_eq_left hle] at h
  exact List.IsPrefix.trans h' h.2

theorem holds_length_append (pre l : List α) : Holds (pre ++ l) pre.length l := by
  unfold Holds
  simp

/-- More may follow. -/
theorem Holds.append_right (h : Holds mem pos l) (hpos : pos ≤ mem.length) (more : List α) : Holds (mem ++ more) pos l := by
  rw [Holds, List.drop_append_of_le_length hpos]
  exact h.trans (List.prefix_append _ _)

theorem length_patch (h : pos + l.length ≤ mem.length) : (patch mem pos l).length = mem.length := by
  rw [patch, List.length_append, List.length_append, List.length_take, List.length_drop]
  omega

theorem holds_patch_self (h : pos + l.length ≤ mem.length) : Holds (patch mem pos l) pos l := by
  have hlength : (mem.take pos).length = pos := by rw [List.length_take]; omega
  have hheld := (holds_length_append (mem.take pos) (l ++ mem.drop (pos + l.length)))
  rw [hlength, ← List.append_assoc, holds_append] at hheld
  exact hheld.1

theorem patch_append (pre old rest : List α) (h : l.length = old.length) :
    patch (pre ++ (old ++ rest)) pre.length l = pre ++ (l ++ rest) := by
  rw [patch, List.take_left, ← List.drop_drop, List.drop_left, h, List.drop_left, List.append_assoc]

/-- An overwrite elsewhere. -/
theorem Holds.patch (h : Holds mem pos l) (hin : pos' + l'.length ≤ mem.length)
    (hapart : pos + l.length ≤ pos' ∨ pos' + l'.length ≤ pos) : Holds (patch mem pos' l') pos l := by
  have hlength : (mem.take pos').length = pos' := by rw [List.length_take]; omega
  rw [Slice.patch]
  obtain hbefore | hafter := hapart
  · -- the piece lies in what is kept before the overwrite
    obtain ⟨rest, hrest⟩ := h
    have htake : Holds (mem.take pos') pos l := by
      refine List.prefix_iff_eq_take.mpr ?_
      rw [List.drop_take, ← hrest, List.take_take, List.take_append_of_le_length (by omega)]
      rw [List.take_of_length_le (by omega)]
    refine (htake.append_right ?_ l').append_right ?_ _
    · omega
    · rw [List.length_append]
      omega
  · have hdrop : (mem.take pos' ++ l' ++ mem.drop (pos' + l'.length)).drop pos = mem.drop pos := by
      rw [List.drop_append, List.drop_eq_nil_of_le (by rw [List.length_append]; omega), List.nil_append, List.drop_drop,
        List.length_append, hlength]
      congr 1
      omega
    rwa [Holds, hdrop]

end Slice
