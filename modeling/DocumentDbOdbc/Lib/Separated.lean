/-
Lists cut at separators from the right, over any type of characters.

`rfind d s` is the position of the last `d` in `s`. A reader that peels the
last segment off and goes on with what is left of it sees the segments of
`List.splitOn d s` in reverse (`rfind_some_splitOn`, `rfind_none_splitOn`),
so what it does to a text joined by `d` is a fold over the joined pieces.
`trim p` drops the characters satisfying `p` at both ends.
-/
import Mathlib.Data.List.DropRight

namespace Separated

variable {α : Type*} [DecidableEq α]

/-- The position of the last `d`. -/
def rfind (d : α) : List α → Option Nat
  | [] => none
  | x :: s =>
    match rfind d s with
    | some i => some (i + 1)
    | none => if x = d then some 0 else none

theorem rfind_eq_none {d : α} {s : List α} : rfind d s = none ↔ d ∉ s := by
  induction s with
  | nil => simp [rfind]
  | cons x s ih =>
    simp only [rfind, List.mem_cons, not_or]
    cases h : rfind d s with
    | some i =>
      simp only [reduceCtorEq, false_iff, not_and, not_not]
      intro _
      by_contra hn
      rw [ih.mpr hn] at h
      cases h
    | none =>
      by_cases hx : x = d
      · simp [hx]
      · simp only [hx, if_false, true_iff]
        exact ⟨fun he => hx he.symm, ih.mp h⟩

theorem rfind_append (d : α) (t s : List α) : rfind d (s ++ t) =
    match rfind d t with
    | some i => some (s.length + i)
    | none => rfind d s := by
  induction s with
  | nil => cases h : rfind d t <;> simp [rfind, h]
  | cons x s ih =>
    rw [List.cons_append, rfind, ih]
    cases h : rfind d t with
    | some i => simp; omega
    | none => simp [rfind]

theorem rfind_append_cons_self {d : α} {r : List α} (l : List α) (h : d ∉ r) :
    rfind d (l ++ d :: r) = some l.length := by
  have hr : rfind d (d :: r) = some 0 := by simp [rfind, rfind_eq_none.mpr h]
  rw [rfind_append, hr]
  rfl

/-- A found position cuts the text in two, the second half free of `d`. -/
theorem rfind_eq_some {d : α} {s : List α} {i : Nat} (h : rfind d s = some i) :
    ∃ l r, s = l ++ d :: r ∧ d ∉ r ∧ l.length = i := by
  induction s generalizing i with
  | nil => simp [rfind] at h
  | cons x s ih =>
    simp only [rfind] at h
    cases hs : rfind d s with
    | some j =>
      obtain ⟨l, r, rfl, hr, hl⟩ := ih hs
      simp only [hs, Option.some.injEq] at h
      exact ⟨x :: l, r, rfl, hr, by simp [hl, h]⟩
    | none =>
      by_cases hx : x = d
      · simp only [hs, hx, if_true, Option.some.injEq] at h
        exact ⟨[], s, by simp [hx], rfind_eq_none.mp hs, h⟩
      · simp [hs, hx] at h

theorem rfind_lt {d : α} {s : List α} {i : Nat} (h : rfind d s = some i) : i < s.length := by
  obtain ⟨l, r, rfl, -, rfl⟩ := rfind_eq_some h
  simp

/-- Where a `d` is found, the last segment is what follows it and the other
segments are those of what precedes it. -/
theorem rfind_some_splitOn {d : α} {s : List α} {i : Nat} (h : rfind d s = some i) :
    s.splitOn d = (s.take i).splitOn d ++ [s.drop (i + 1)] := by
  obtain ⟨l, r, rfl, hr, rfl⟩ := rfind_eq_some h
  rw [List.splitOn_append_cons_self, List.splitOn_eq_singleton hr]
  simp [← List.drop_drop]

theorem rfind_none_splitOn {d : α} {s : List α} (h : rfind d s = none) : s.splitOn d = [s] :=
  List.splitOn_eq_singleton (rfind_eq_none.mp h)

omit [DecidableEq α] in
/-- A text joined by another separator. -/
theorem not_mem_intercalate {d sep : α} (hd : d ≠ sep) : ∀ {l : List (List α)}, (∀ s ∈ l, d ∉ s) → d ∉ [sep].intercalate l
  | [], _ => by simp
  | [s], h => by simpa using h s (by simp)
  | s :: t :: l, h => by
    have hs := h s (by simp)
    have ht := not_mem_intercalate hd (l := t :: l) fun u hu => h u (by simp [hu])
    rw [List.intercalate_cons_cons]
    simp [hs, hd, ht]

/-! ## Rows that stop -/

section

variable {p : α → Bool} {s t : List α}

omit [DecidableEq α] in
/-- Nothing is taken from what begins with a character that ends the row. -/
theorem takeWhile_append_of_stop (ht : ∀ x ∈ t.head?, p x = false) : (s ++ t).takeWhile p = s.takeWhile p := by
  induction s with
  | nil =>
    cases t with
    | nil => rfl
    | cons x t => simp [ht x rfl]
  | cons x s ih =>
    rw [List.cons_append, List.takeWhile_cons, List.takeWhile_cons, ih]

omit [DecidableEq α] in
theorem takeWhile_row (hs : ∀ x ∈ s, p x = true) (ht : ∀ x ∈ t.head?, p x = false) : (s ++ t).takeWhile p = s := by
  rw [takeWhile_append_of_stop ht]
  exact List.takeWhile_eq_self_iff.mpr hs

omit [DecidableEq α] in
theorem dropWhile_row (hs : ∀ x ∈ s, p x = true) (ht : ∀ x ∈ t.head?, p x = false) : (s ++ t).dropWhile p = t := by
  rw [List.dropWhile_append_of_pos hs]
  cases t with
  | nil => rfl
  | cons x t => simp [ht x rfl]

end

/-! ## Trimming -/

omit [DecidableEq α] in
/-- Drop the characters satisfying `p` at both ends. -/
def trim (p : α → Bool) (s : List α) : List α :=
  ((s.dropWhile p).reverse.dropWhile p).reverse

omit [DecidableEq α] in
/-- A text that neither starts nor ends with a trimmed character is kept. -/
theorem trim_eq_self {p : α → Bool} {s : List α} (hf : ∀ x ∈ s.head?, p x = false)
    (hl : ∀ x ∈ s.getLast?, p x = false) : trim p s = s := by
  have h1 : s.dropWhile p = s := by
    cases s with
    | nil => rfl
    | cons x s => simp [hf x (by simp)]
  have h2 : s.reverse.dropWhile p = s.reverse := by
    cases hs : s.reverse with
    | nil => rfl
    | cons x t =>
      have : p x = false := hl x (by rw [← List.head?_reverse, hs]; rfl)
      simp [this]
  rw [trim, h1, h2, List.reverse_reverse]

omit [DecidableEq α] in
theorem trim_eq_self_of_forall {p : α → Bool} {s : List α} (h : ∀ x ∈ s, p x = false) :
    trim p s = s :=
  trim_eq_self (fun x hx => h x (List.mem_of_mem_head? hx)) fun x hx => h x (List.mem_of_getLast? hx)

omit [DecidableEq α] in
/-- Trimming drops no character that is not trimmed. -/
theorem mem_trim {p : α → Bool} {s : List α} {x : α} (hx : x ∈ s) (hp : p x = false) : x ∈ trim p s := by
  have keep : ∀ t : List α, x ∈ t → x ∈ t.dropWhile p := by
    intro t ht
    rw [← List.takeWhile_append_dropWhile (p := p) (l := t), List.mem_append] at ht
    rcases ht with ht | ht
    · have := List.mem_takeWhile_imp ht
      simp [hp] at this
    · exact ht
  rw [trim, List.mem_reverse]
  exact keep _ (List.mem_reverse.mpr (keep s hx))

end Separated
