/-
Finite maps as the lists of entries, in the order of the keys, that they are
walked through as.
-/
import Mathlib.Order.Lattice

/-- A finite map from an ordered type. -/
structure SortedMap (κ ν : Type) [LinearOrder κ] where
  entries : List (κ × ν)
  ordered : entries.Pairwise fun a b => a.1 < b.1

namespace SortedMap

variable {κ ν : Type} [LinearOrder κ]

def empty : SortedMap κ ν := ⟨[], .nil⟩

def find (m : SortedMap κ ν) (k : κ) : Option ν := (m.entries.find? fun e => e.1 = k).map (·.2)

/-- The entry of a key computed anew, at its place in the order. -/
def upsertList (k : κ) (f : Option ν → ν) : List (κ × ν) → List (κ × ν)
  | [] => [(k, f none)]
  | e :: rest =>
    if k < e.1 then (k, f none) :: e :: rest
    else if k = e.1 then (k, f (some e.2)) :: rest
    else e :: upsertList k f rest

theorem key_of_mem_upsertList {k : κ} {f : Option ν → ν} : ∀ {l : List (κ × ν)} {x : κ × ν},
    x ∈ upsertList k f l → x.1 = k ∨ ∃ e ∈ l, e.1 = x.1
  | [], x, h => .inl (by rw [List.mem_singleton.mp h])
  | e :: rest, x, h => by
    unfold upsertList at h
    split at h
    · obtain rfl | h := List.mem_cons.mp h
      · exact .inl rfl
      · exact .inr ⟨x, h, rfl⟩
    · split at h
      · obtain rfl | h := List.mem_cons.mp h
        · exact .inl rfl
        · exact .inr ⟨x, List.mem_cons_of_mem e h, rfl⟩
      · obtain rfl | h := List.mem_cons.mp h
        · exact .inr ⟨x, List.mem_cons_self, rfl⟩
        · obtain hk | ⟨y, hy, hkey⟩ := key_of_mem_upsertList h
          · exact .inl hk
          · exact .inr ⟨y, List.mem_cons_of_mem e hy, hkey⟩

theorem pairwise_upsertList (k : κ) (f : Option ν → ν) {l : List (κ × ν)} (h : l.Pairwise fun a b => a.1 < b.1) :
    (upsertList k f l).Pairwise fun a b => a.1 < b.1 := by
  induction l with
  | nil => exact List.pairwise_singleton _ _
  | cons e rest ih =>
    obtain ⟨hfirst, hrest⟩ := List.pairwise_cons.mp h
    unfold upsertList
    split
    · next hlt =>
      refine List.pairwise_cons.mpr ⟨fun x hx => ?_, h⟩
      obtain rfl | hx := List.mem_cons.mp hx
      · exact hlt
      · exact hlt.trans (hfirst x hx)
    · next hge =>
      split
      · next heq => exact List.pairwise_cons.mpr ⟨fun x hx => heq ▸ hfirst x hx, hrest⟩
      · next hne =>
        refine List.pairwise_cons.mpr ⟨fun x hx => ?_, ih hrest⟩
        obtain hk | ⟨y, hy, hkey⟩ := key_of_mem_upsertList hx
        · rw [hk]
          exact lt_of_le_of_ne (not_lt.mp hge) (Ne.symm hne)
        · rw [← hkey]
          exact hfirst y hy

/-- `m[k] = …`, where the new value may depend on the old one. -/
def upsert (m : SortedMap κ ν) (k : κ) (f : Option ν → ν) : SortedMap κ ν :=
  ⟨upsertList k f m.entries, pairwise_upsertList k f m.ordered⟩

def erase (m : SortedMap κ ν) (k : κ) : SortedMap κ ν :=
  ⟨m.entries.filter fun e => e.1 ≠ k, m.ordered.filter _⟩

/-- The entries of another map whose keys are missing. -/
def insertRange (m other : SortedMap κ ν) : SortedMap κ ν :=
  other.entries.foldl (fun m e => m.upsert e.1 (·.getD e.2)) m

def mapWithKey (f : κ → ν → ν) (m : SortedMap κ ν) : SortedMap κ ν :=
  ⟨m.entries.map fun e => (e.1, f e.1 e.2), List.pairwise_map.mpr m.ordered⟩

variable (m : SortedMap κ ν) (k : κ)

theorem find_empty : (empty : SortedMap κ ν).find k = none := rfl

theorem find_upsert_self (f : Option ν → ν) : (m.upsert k f).find k = some (f (m.find k)) := by
  unfold find upsert
  dsimp only
  have hordered := m.ordered
  generalize m.entries = l at hordered
  induction l with
  | nil => simp [upsertList]
  | cons e rest ih =>
    obtain ⟨hfirst, hrest⟩ := List.pairwise_cons.mp hordered
    unfold upsertList
    split
    · next hlt =>
      have hnone : (e :: rest).find? (fun x => x.1 = k) = none := by
        refine List.find?_eq_none.mpr fun x hx => ?_
        obtain rfl | hx := List.mem_cons.mp hx
        · simpa using hlt.ne'
        · simpa using (hlt.trans (hfirst x hx)).ne'
      simp [hnone]
    · split
      · next heq => simp [heq]
      · next hne => simp [List.find?_cons_of_neg, Ne.symm hne, ih hrest]

theorem find_upsert_of_ne {k' : κ} (h : k' ≠ k) (f : Option ν → ν) : (m.upsert k f).find k' = m.find k' := by
  unfold find upsert
  dsimp only
  induction m.entries with
  | nil => simp [upsertList, h.symm]
  | cons e rest ih =>
    unfold upsertList
    split
    · simp [h.symm]
    · split
      · next heq => simp [h.symm, ← heq]
      · by_cases hk : e.1 = k'
        · simp [hk]
        · simpa [hk] using ih

theorem find_erase (k' : κ) : (m.erase k).find k' = if k' = k then none else m.find k' := by
  unfold find erase
  dsimp only
  rw [List.find?_filter]
  split
  · next heq =>
    subst heq
    simp
  · next hne =>
    have hpred : (fun e : κ × ν => decide (decide (e.1 ≠ k) = true ∧ decide (e.1 = k') = true)) =
        fun e => decide (e.1 = k') := by
      funext e
      by_cases hk : e.1 = k'
      · simp [hk, hne]
      · simp [hk]
    rw [hpred]

theorem find_mapWithKey (f : κ → ν → ν) : (m.mapWithKey f).find k = (m.find k).map (f k) := by
  unfold find mapWithKey
  dsimp only
  induction m.entries with
  | nil => rfl
  | cons e rest ih =>
    by_cases hk : e.1 = k
    · simp [hk]
    · simpa [hk] using ih

/-- The entries are those that are found. -/
theorem mem_entries {v : ν} : (k, v) ∈ m.entries ↔ m.find k = some v := by
  unfold find
  have hordered := m.ordered
  generalize m.entries = l at hordered
  induction l with
  | nil => simp
  | cons e rest ih =>
    obtain ⟨hfirst, hrest⟩ := List.pairwise_cons.mp hordered
    by_cases hk : e.1 = k
    · have hnot : (k, v) ∉ rest := fun hmem => (hfirst _ hmem).ne hk
      simp only [List.mem_cons, hnot, or_false, hk, decide_true, List.find?_cons_of_pos, Option.map_some, Option.some.injEq]
      exact ⟨fun h => by rw [← h], fun h => by rw [← h, ← hk]⟩
    · have hne : (k, v) ≠ e := fun h => hk (by rw [← h])
      simp only [List.mem_cons, hne, false_or]
      rw [List.find?_cons_of_neg (by simpa using hk)]
      exact ih hrest

theorem find_upsert (k' : κ) (f : Option ν → ν) :
    (m.upsert k f).find k' = if k' = k then some (f (m.find k)) else m.find k' := by
  split
  · next h =>
    subst h
    exact m.find_upsert_self k' f
  · next h => exact m.find_upsert_of_ne k h f

theorem find_insertRange (other : SortedMap κ ν) : (m.insertRange other).find k = (m.find k).or (other.find k) := by
  have hfold : ∀ l : List (κ × ν), ∀ m : SortedMap κ ν,
      (l.foldl (fun m e => m.upsert e.1 (·.getD e.2)) m).find k =
        (m.find k).or ((l.find? fun e => e.1 = k).map (·.2)) := by
    intro l
    induction l with
    | nil =>
      intro m
      exact (Option.or_none).symm
    | cons e rest ih =>
      intro m
      rw [List.foldl_cons, ih, find_upsert]
      by_cases hk : e.1 = k
      · subst hk
        cases h : m.find e.1 <;> simp
      · rw [if_neg (Ne.symm hk), List.find?_cons_of_neg (by simpa using hk)]
  exact hfold other.entries m

end SortedMap
