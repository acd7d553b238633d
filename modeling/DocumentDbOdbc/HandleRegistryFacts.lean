/-
What the handle registry promises to threads that use it at the same time.

`slot` is what is kept under a handle, in whichever of the arrays it is, and
`slot_advance` says once for all steps which slots a step writes. A handle is
taken from a counter before its slot is written, and the counters move past it
with the same step, so no two allocations ever hold the same one
(`allocated_nodup`).
-/
import DocumentDbOdbc.HandleRegistry
import Mathlib.Tactic

namespace DocumentDbOdbc

namespace Handles

open Labelled

variable {ι τ : Type}

/-! ## Slots -/

namespace HandleRegistry

/-- The arrays have the sizes the constructor gave them. -/
structure Shaped (cap cnt : Nat) (r : HandleRegistry τ) : Prop where
  fastCap : r.fastCap = cap
  slowSegmentCnt : r.slowSegmentCnt = cnt
  fast : r.fast.length = cap
  slow : r.slow.length = cnt

variable {cap cnt : Nat} {r : HandleRegistry τ} {hnd hnd' : Int} {target : Pointer τ}

/-- What is kept under a handle. -/
def slot (r : HandleRegistry τ) (hnd : Int) : Pointer τ := (r.get hnd).getD none

theorem Shaped.segmentIdx_lt (h : r.Shaped cap cnt) (hcnt : 0 < cnt) (hnd : Int) : r.segmentIdx hnd < cnt := by
  have hlt : hnd.tmod cnt < cnt := Int.tmod_lt_of_pos hnd (by omega)
  rw [segmentIdx, h.slowSegmentCnt]
  omega

/-- `Get` of a handle reads inside of the arrays. -/
theorem Shaped.get_eq (h : r.Shaped cap cnt) (hcnt : 0 < cnt) (hnonneg : 0 ≤ hnd) : r.get hnd = some (r.slot hnd) := by
  have hsome : (r.get hnd).isSome := by
    unfold get
    split
    · next hlt =>
      rw [h.fastCap] at hlt
      rw [List.getElem?_eq_getElem (by rw [h.fast]; omega)]
      rfl
    · rw [List.getElem?_eq_getElem (by rw [h.slow]; exact h.segmentIdx_lt hcnt hnd)]
      rfl
  obtain ⟨p, hp⟩ := Option.isSome_iff_exists.mp hsome
  rw [slot, hp]
  rfl

theorem slot_of_fast (h : hnd < r.fastCap) (hnonneg : 0 ≤ hnd) : r.slot hnd = (r.fast[hnd.toNat]?).getD none := by
  rw [slot, get, if_pos h, if_pos hnonneg]

theorem slot_of_slow (h : r.fastCap ≤ hnd) :
    r.slot hnd = ((r.slow[r.segmentIdx hnd]?).map (·.get hnd)).getD none := by
  rw [slot, get, if_neg (by omega)]

theorem Shaped.slot_setFast (h : r.Shaped cap cnt) (hnonneg : 0 ≤ hnd) (hlt : hnd < cap) (hnonneg' : 0 ≤ hnd') :
    (r.setFast target hnd).slot hnd' = if hnd' = hnd then target else r.slot hnd' := by
  by_cases hfast : hnd' < r.fastCap
  · rw [slot_of_fast hfast hnonneg', slot_of_fast (r := r.setFast target hnd) hfast hnonneg', setFast]
    dsimp only
    split
    · next heq =>
      subst heq
      rw [List.getElem?_set_self (by rw [h.fast]; omega)]
      rfl
    · rw [List.getElem?_set_ne (by omega)]
  · have hne : hnd' ≠ hnd := by
      rw [h.fastCap] at hfast
      omega
    rw [if_neg hne, slot_of_slow (not_lt.mp hfast), slot_of_slow (r := r.setFast target hnd) (not_lt.mp hfast)]
    rfl

/-- One segment changes. -/
theorem Shaped.slot_modify (h : r.Shaped cap cnt) (hcnt : 0 < cnt) (i : Nat)
    (f : HandleRegistrySegment τ → HandleRegistrySegment τ) (hnonneg : 0 ≤ hnd') :
    ∃ segment : HandleRegistrySegment τ, r.slot hnd' = (if hnd' < cap then r.slot hnd' else segment.get hnd') ∧
      HandleRegistry.slot { r with slow := r.slow.modify i f } hnd' =
        if cap ≤ hnd' ∧ r.segmentIdx hnd' = i then (f segment).get hnd' else r.slot hnd' := by
  by_cases hfast : hnd' < cap
  · refine ⟨{}, by rw [if_pos hfast], ?_⟩
    rw [if_neg (by omega), slot_of_fast (by rw [h.fastCap]; exact hfast) hnonneg, slot_of_fast ?_ hnonneg]
    exact lt_of_lt_of_eq hfast h.fastCap.symm
  · have hidx := h.segmentIdx_lt hcnt hnd'
    obtain ⟨segment, hsegment⟩ : ∃ segment, r.slow[r.segmentIdx hnd']? = some segment :=
      ⟨_, List.getElem?_eq_getElem (by rw [h.slow]; exact hidx)⟩
    have hslow : r.fastCap ≤ hnd' := by
      rw [h.fastCap]
      omega
    have hslot : r.slot hnd' = segment.get hnd' := by
      rw [slot_of_slow hslow, hsegment]
      rfl
    refine ⟨segment, by rw [if_neg hfast]; exact hslot, ?_⟩
    rw [slot_of_slow (r := { r with slow := r.slow.modify i f }) hslow]
    change (((r.slow.modify i f)[r.segmentIdx hnd']?).map (·.get hnd')).getD none = _
    rw [List.getElem?_modify, hsegment]
    by_cases hi : i = r.segmentIdx hnd'
    · rw [if_pos ⟨by omega, hi.symm⟩]
      simp [hi]
    · rw [if_neg (by tauto), hslot]
      simp [hi]

theorem Shaped.slot_putSlow (h : r.Shaped cap cnt) (hcnt : 0 < cnt) (hle : cap ≤ hnd) (hnonneg' : 0 ≤ hnd') :
    (r.putSlow hnd target).slot hnd' = if hnd' = hnd then target else r.slot hnd' := by
  obtain ⟨segment, hslot, hmodify⟩ := h.slot_modify hcnt (r.segmentIdx hnd) (·.put hnd target) hnonneg'
  rw [putSlow, hmodify, HandleRegistrySegment.get_put]
  by_cases heq : hnd' = hnd
  · subst heq
    simp only [hle, and_self, ite_true]
  · rw [if_neg heq, if_neg heq]
    split
    · next hseg => rw [hslot, if_neg (by omega)]
    · rfl

theorem Shaped.slot_removeSlow (h : r.Shaped cap cnt) (hcnt : 0 < cnt) (hle : cap ≤ hnd) (hnonneg' : 0 ≤ hnd') :
    (r.removeSlow hnd).slot hnd' = if hnd' = hnd then none else r.slot hnd' := by
  obtain ⟨segment, hslot, hmodify⟩ := h.slot_modify hcnt (r.segmentIdx hnd) (·.remove hnd) hnonneg'
  rw [removeSlow, hmodify, HandleRegistrySegment.get_remove]
  by_cases heq : hnd' = hnd
  · subst heq
    simp only [hle, and_self, ite_true]
  · rw [if_neg heq, if_neg heq]
    split
    · next hseg => rw [hslot, if_neg (by omega)]
    · rfl

theorem Shaped.slot_clearSegment (h : r.Shaped cap cnt) (hcnt : 0 < cnt) (i : Nat) (hnonneg' : 0 ≤ hnd') :
    (r.clearSegment i).slot hnd' = if cap ≤ hnd' ∧ r.segmentIdx hnd' = i then none else r.slot hnd' := by
  obtain ⟨segment, -, hmodify⟩ := h.slot_modify hcnt i (·.clear) hnonneg'
  rw [clearSegment, hmodify, HandleRegistrySegment.get_clear]

theorem Shaped.slot_release (h : r.Shaped cap cnt) (hcnt : 0 < cnt) (hnonneg' : 0 ≤ hnd') :
    (r.release hnd).slot hnd' = if hnd' = hnd then none else r.slot hnd' := by
  unfold release
  split
  · rw [if_neg (by omega)]
  · next hneg =>
    rw [h.fastCap]
    split
    · next hlt => exact h.slot_setFast (by omega) hlt hnonneg'
    · next hge => exact h.slot_removeSlow hcnt (by omega) hnonneg'

theorem shaped_create (cap cnt : Nat) : (create cap cnt : HandleRegistry τ).Shaped cap cnt where
  fastCap := rfl
  slowSegmentCnt := rfl
  fast := List.length_replicate
  slow := List.length_replicate

theorem slot_create (cap cnt : Nat) (hnd : Int) : (create cap cnt : HandleRegistry τ).slot hnd = none := by
  unfold slot get create
  dsimp only
  split
  · split
    · cases h : (List.replicate cap (none : Pointer τ))[hnd.toNat]? with
      | none => rfl
      | some p => exact List.eq_of_mem_replicate (List.mem_of_getElem? h)
    · rfl
  · generalize HandleRegistry.segmentIdx _ hnd = i
    cases h : (List.replicate cnt ({} : HandleRegistrySegment τ))[i]? with
    | none => rfl
    | some segment =>
      rw [List.eq_of_mem_replicate (List.mem_of_getElem? h)]
      rfl

end HandleRegistry

namespace Call

/-- The handle that an allocation has taken. -/
def owned : Call τ → Option Int
  | .fastStore _ _ idx | .fastRecheck _ _ idx | .fastUndo _ idx => some idx
  | .slowStore _ _ idx | .slowRecheck _ _ idx | .slowUndo _ idx => some idx
  | _ => none

/-- The handle whose slot an allocation has written, and with what. -/
def stored : Call τ → Option (Int × Pointer τ)
  | .fastRecheck target _ idx | .fastUndo target idx => some (idx, target)
  | .slowRecheck target _ idx | .slowUndo target idx => some (idx, target)
  | _ => none

/-- What the next step of a call writes, if it writes the slot. -/
def writes (fastCap : Int) (segmentIdx : Int → Nat) (hnd : Int) : Call τ → Option (Pointer τ)
  | .fastStore target _ idx | .slowStore target _ idx => if hnd = idx then some target else none
  | .fastUndo _ idx | .slowUndo _ idx | .release idx => if hnd = idx then some none else none
  | .sweepFast i => if hnd = i ∧ hnd < fastCap then some none else none
  | .sweepSlow i => if fastCap ≤ hnd ∧ segmentIdx hnd = i then some none else none
  | _ => none

/-- Fast handles are below the capacity and slow ones are not. -/
def Ranged (cap : Nat) : Call τ → Prop
  | .fastStore _ _ idx | .fastRecheck _ _ idx | .fastUndo _ idx => 0 ≤ idx ∧ idx < cap
  | .slowStore _ _ idx | .slowRecheck _ _ idx | .slowUndo _ idx => (cap : Int) ≤ idx
  | _ => True

end Call

section

variable {cap cnt : Nat} {r : HandleRegistry τ} {c : Call τ} {hnd : Int}

theorem shaped_advance (h : r.Shaped cap cnt) (c : Call τ) : (advance r c).1.Shaped cap cnt := by
  obtain ⟨hcap, hcnt, hfast, hslow⟩ := h
  have hset : ∀ target idx, (r.setFast target idx).Shaped cap cnt := fun target idx =>
    ⟨hcap, hcnt, by rw [HandleRegistry.setFast, List.length_set, hfast], hslow⟩
  have hmodify : ∀ i f, HandleRegistry.Shaped cap cnt { r with slow := r.slow.modify i f } := fun i f =>
    ⟨hcap, hcnt, hfast, by dsimp only; rw [List.length_modify, hslow]⟩
  cases c with
  | idle | get => exact ⟨hcap, hcnt, hfast, hslow⟩
  | allocate | fastCheck | fastTake | fastRecheck | slowRecheck | close =>
    simp only [advance]
    split_ifs <;> exact ⟨hcap, hcnt, hfast, hslow⟩
  | slowTake => exact ⟨hcap, hcnt, hfast, hslow⟩
  | fastStore target _ idx => exact hset target idx
  | fastUndo _ idx => exact hset none idx
  | slowStore _ _ idx => exact hmodify _ _
  | slowUndo _ idx => exact hmodify _ _
  | release hnd =>
    simp only [advance, HandleRegistry.release]
    split
    · exact ⟨hcap, hcnt, hfast, hslow⟩
    · split
      · exact hset none hnd
      · exact hmodify _ _
  | sweepFast i =>
    simp only [advance]
    split
    · exact hset none i
    · exact ⟨hcap, hcnt, hfast, hslow⟩
  | sweepSlow i =>
    simp only [advance]
    split
    · exact hmodify _ _
    · exact ⟨hcap, hcnt, hfast, hslow⟩

/-- **A step** writes the slots that `writes` names, and no other. -/
theorem slot_advance (h : r.Shaped cap cnt) (hcnt : 0 < cnt) (hranged : c.Ranged cap) (hnonneg : 0 ≤ hnd) :
    (advance r c).1.slot hnd = (c.writes r.fastCap r.segmentIdx hnd).getD (r.slot hnd) := by
  have hget : ∀ (p : Prop) [Decidable p] (target : Pointer τ),
      (if p then some target else none : Option (Pointer τ)).getD (r.slot hnd) = if p then target else r.slot hnd :=
    fun p _ target => by split <;> rfl
  cases c with
  | idle | get | slowTake => rfl
  | allocate | fastCheck | fastRecheck | slowRecheck | close =>
    simp only [advance]
    split_ifs <;> rfl
  | fastTake =>
    simp only [advance]
    split_ifs <;> rfl
  | fastStore target _ idx =>
    rw [Call.writes, hget]
    exact h.slot_setFast hranged.1 hranged.2 hnonneg
  | fastUndo _ idx =>
    rw [Call.writes, hget]
    exact h.slot_setFast hranged.1 hranged.2 hnonneg
  | slowStore target _ idx =>
    rw [Call.writes, hget]
    exact h.slot_putSlow hcnt hranged hnonneg
  | slowUndo _ idx =>
    rw [Call.writes, hget]
    exact h.slot_removeSlow hcnt hranged hnonneg
  | release idx =>
    rw [Call.writes, hget]
    exact h.slot_release hcnt hnonneg
  | sweepFast i =>
    rw [Call.writes, hget]
    simp only [advance, h.fastCap]
    split
    · next hlt =>
      rw [h.slot_setFast (by omega) (by omega) hnonneg]
      by_cases heq : hnd = i
      · rw [if_pos heq, if_pos ⟨heq, by omega⟩]
      · rw [if_neg heq, if_neg (by tauto)]
    · next hge => rw [if_neg (by omega)]
  | sweepSlow i =>
    rw [Call.writes, hget, h.fastCap]
    simp only [advance, h.slowSegmentCnt]
    split
    · exact h.slot_clearSegment hcnt i hnonneg
    · next hge =>
      have hlt := h.segmentIdx_lt hcnt hnd
      rw [if_neg (by omega)]

end

/-! ## No two allocations have the same handle -/

/-- The handle that an allocation returned, where it returned one. -/
def Event.handle : Event τ → Option Int
  | .allocated _ hnd => if 0 ≤ hnd then some hnd else none
  | _ => none

/-- The handles that were returned so far. -/
def handles (trace : List (Event τ)) : List Int := trace.filterMap Event.handle

/-- A thread that has seen room in the fast array and will take a slot of it. -/
def Call.takesFast : Call τ → Bool
  | .fastTake _ _ => true
  | _ => false

theorem Call.owned_start (request : Request τ) : request.start.owned = none := by cases request <;> rfl

theorem Call.takesFast_start (request : Request τ) : request.start.takesFast = false := by cases request <;> rfl

/-- What a step does to the counters and to the handle of its thread. -/
inductive Owning (r : HandleRegistry τ) (c : Call τ) (r' : HandleRegistry τ) (c' : Call τ) (e : Event τ) : Prop
  | keep (howned : c'.owned = c.owned) (he : e.handle = none) (htakes : c.takesFast = false)
      (htakes' : c'.takesFast = true → r.fastCtr < r.fastCap) (hfast : r'.fastCtr = r.fastCtr) (hslow : r'.slowCtr = r.slowCtr)
  | takeFast (hnone : c.owned = none)
      (howned : c'.owned = if r'.fastCtr - 1 < r.fastCap then some (r'.fastCtr - 1) else none) (he : e.handle = none)
      (htakes : c.takesFast = true) (htakes' : c'.takesFast = false) (hfast : r'.fastCtr = incrementAndGet 32 r.fastCtr)
      (hslow : r'.slowCtr = r.slowCtr)
  | takeSlow (hnone : c.owned = none) (howned : c'.owned = some (r'.slowCtr - 1)) (he : e.handle = none)
      (htakes : c.takesFast = false) (htakes' : c'.takesFast = false) (hfast : r'.fastCtr = r.fastCtr)
      (hslow : r'.slowCtr = incrementAndGet 64 r.slowCtr)
  | leave (hnd : Int) (hsome : c.owned = some hnd) (howned : c'.owned = none) (he : ∀ hnd', e.handle = some hnd' → hnd' = hnd)
      (htakes : c.takesFast = false) (htakes' : c'.takesFast = false) (hfast : r'.fastCtr = r.fastCtr)
      (hslow : r'.slowCtr = r.slowCtr)

theorem owning_advance (r : HandleRegistry τ) (c : Call τ) :
    Owning r c (advance r c).1 (advance r c).2.1 (advance r c).2.2 := by
  have hreturn : ∀ (target : Pointer τ) (hnd hnd' : Int), (Event.allocated target hnd).handle = some hnd' → hnd' = hnd := by
    intro target hnd hnd' h
    rw [Event.handle] at h
    split at h
    · exact (Option.some.inj h).symm
    · cases h
  have hfail : ∀ (target : Pointer τ) (hnd hnd' : Int), (Event.allocated target (-1)).handle = some hnd' → hnd' = hnd :=
    fun target hnd hnd' h => by cases h
  cases c with
  | idle | get | fastStore | slowStore => exact .keep rfl rfl rfl (fun h => by cases h) rfl rfl
  | allocate =>
    simp only [advance]
    split_ifs <;> exact .keep rfl rfl rfl (fun h => by cases h) rfl rfl
  | fastCheck =>
    simp only [advance]
    split
    · next hroom => exact .keep rfl rfl rfl (fun _ => hroom) rfl rfl
    · exact .keep rfl rfl rfl (fun h => by cases h) rfl rfl
  | fastTake target safe =>
    simp only [advance]
    split
    · next hlt => exact .takeFast rfl (by dsimp only; rw [if_pos hlt]; rfl) rfl rfl rfl rfl rfl
    · next hge => exact .takeFast rfl (by dsimp only; rw [if_neg hge]; rfl) rfl rfl rfl rfl rfl
  | slowTake => exact .takeSlow rfl rfl rfl rfl rfl rfl rfl
  | fastRecheck target safe idx | slowRecheck target safe idx =>
    simp only [advance]
    split
    · exact .keep rfl rfl rfl (fun h => by cases h) rfl rfl
    · exact .leave idx rfl rfl (hreturn target idx) rfl rfl rfl rfl
  | fastUndo target idx | slowUndo target idx => exact .leave idx rfl rfl (hfail target idx) rfl rfl rfl rfl
  | release =>
    simp only [advance, HandleRegistry.release]
    split_ifs <;> exact .keep rfl rfl rfl (fun h => by cases h) rfl rfl
  | close | sweepFast | sweepSlow =>
    simp only [advance]
    split_ifs <;> exact .keep rfl rfl rfl (fun h => by cases h) rfl rfl

theorem ranged_advance {cap : Nat} {r : HandleRegistry τ} {c : Call τ} (hcap : r.fastCap = cap) (hfast : 0 ≤ r.fastCtr)
    (hfast' : c.takesFast = true → r.fastCtr + 1 < 2 ^ 31) (hslow : cap ≤ r.slowCtr) (hslow' : r.slowCtr + 1 < 2 ^ 63)
    (h : c.Ranged cap) : (advance r c).2.1.Ranged cap := by
  cases c with
  | idle | get | release | fastUndo | slowUndo => trivial
  | fastStore | slowStore => exact h
  | allocate | fastCheck | close | sweepFast | sweepSlow =>
    simp only [advance]
    split_ifs <;> trivial
  | fastRecheck | slowRecheck =>
    simp only [advance]
    split
    · exact h
    · trivial
  | fastTake =>
    have hinc : incrementAndGet 32 r.fastCtr = r.fastCtr + 1 := incrementAndGet_eq hfast (hfast' rfl)
    simp only [advance, hinc, hcap]
    split
    · next hlt =>
      simp only [Call.Ranged]
      omega
    · trivial
  | slowTake =>
    have hinc : incrementAndGet 64 r.slowCtr = r.slowCtr + 1 := incrementAndGet_eq (by omega) hslow'
    simp only [advance, hinc, Call.Ranged]
    omega

/-- Handles that were given out and handles that threads have taken: all below
the counters, and all apart. -/
structure Distinct (cap : Nat) (fastCtr slowCtr : Int) (given : List Int) (owned : ι → Option Int) : Prop where
  taken : ∀ hnd, (hnd ∈ given ∨ ∃ i, owned i = some hnd) → 0 ≤ hnd ∧ hnd < slowCtr ∧ (hnd < cap → hnd < fastCtr)
  apart : ∀ i j hnd, owned i = some hnd → owned j = some hnd → i = j
  fresh : ∀ i hnd, owned i = some hnd → hnd ∉ given
  nodup : given.Nodup

section

variable [DecidableEq ι] {cap : Nat} {fastCtr fastCtr' slowCtr slowCtr' : Int} {given : List Int} {owned : ι → Option Int}

/-- A thread takes a handle that the counters had not reached. -/
theorem Distinct.take (h : Distinct cap fastCtr slowCtr given owned) (hfast : fastCtr ≤ fastCtr') (hslow : slowCtr ≤ slowCtr')
    (i : ι) {hnd : Int} (hnonneg : 0 ≤ hnd) (hnew : slowCtr ≤ hnd ∨ hnd < cap ∧ fastCtr ≤ hnd) (hlt : hnd < slowCtr')
    (hlt' : hnd < cap → hnd < fastCtr') : Distinct cap fastCtr' slowCtr' given (Function.update owned i (some hnd)) := by
  have hnot : ∀ hnd', (hnd' ∈ given ∨ ∃ i, owned i = some hnd') → hnd' ≠ hnd := by
    rintro hnd' h' rfl
    have := h.taken hnd' h'
    omega
  have hcases : ∀ j hnd', Function.update owned i (some hnd) j = some hnd' →
      j = i ∧ hnd' = hnd ∨ j ≠ i ∧ owned j = some hnd' := by
    intro j hnd' hj
    by_cases hji : j = i
    · subst hji
      rw [Function.update_self] at hj
      exact .inl ⟨rfl, (Option.some.inj hj).symm⟩
    · rw [Function.update_of_ne hji] at hj
      exact .inr ⟨hji, hj⟩
  refine ⟨?_, ?_, ?_, h.nodup⟩
  · intro hnd' h'
    have hold : (hnd' ∈ given ∨ ∃ i, owned i = some hnd') ∨ hnd' = hnd := by
      obtain hmem | ⟨j, hj⟩ := h'
      · exact .inl (.inl hmem)
      · obtain ⟨-, heq⟩ | ⟨-, hj⟩ := hcases j hnd' hj
        · exact .inr heq
        · exact .inl (.inr ⟨j, hj⟩)
    obtain hold | rfl := hold
    · have := h.taken hnd' hold
      omega
    · exact ⟨hnonneg, hlt, hlt'⟩
  · intro j k hnd' hj hk
    obtain ⟨rfl, rfl⟩ | ⟨-, hj⟩ := hcases j hnd' hj
    · obtain ⟨rfl, -⟩ | ⟨-, hk⟩ := hcases k hnd' hk
      · rfl
      · exact absurd rfl (hnot hnd' (.inr ⟨k, hk⟩))
    · obtain ⟨-, heq⟩ | ⟨-, hk⟩ := hcases k hnd' hk
      · exact absurd heq (hnot hnd' (.inr ⟨j, hj⟩))
      · exact h.apart j k hnd' hj hk
  · intro j hnd' hj hmem
    obtain ⟨-, rfl⟩ | ⟨-, hj⟩ := hcases j hnd' hj
    · exact hnot hnd' (.inl hmem) rfl
    · exact h.fresh j hnd' hj hmem

/-- A thread that has a handle returns it, or does not. -/
theorem Distinct.leave (h : Distinct cap fastCtr slowCtr given owned) {i : ι} {hnd : Int} (hi : owned i = some hnd)
    {given' : List Int} (hgiven : given' = given ∨ given' = given ++ [hnd]) :
    Distinct cap fastCtr slowCtr given' (Function.update owned i none) := by
  have hold : ∀ j hnd', Function.update owned i none j = some hnd' → j ≠ i ∧ owned j = some hnd' := by
    intro j hnd' hj
    by_cases hji : j = i
    · subst hji
      rw [Function.update_self] at hj
      cases hj
    · rw [Function.update_of_ne hji] at hj
      exact ⟨hji, hj⟩
  have hmem : ∀ hnd' ∈ given', hnd' ∈ given ∨ hnd' = hnd := by
    intro hnd' h'
    obtain rfl | rfl := hgiven
    · exact .inl h'
    · simpa using h'
  refine ⟨?_, ?_, ?_, ?_⟩
  · rintro hnd' (h' | ⟨j, hj⟩)
    · obtain h' | rfl := hmem hnd' h'
      · exact h.taken hnd' (.inl h')
      · exact h.taken hnd' (.inr ⟨i, hi⟩)
    · exact h.taken hnd' (.inr ⟨j, (hold j hnd' hj).2⟩)
  · exact fun j k hnd' hj hk => h.apart j k hnd' (hold j hnd' hj).2 (hold k hnd' hk).2
  · intro j hnd' hj h'
    obtain ⟨hji, hj⟩ := hold j hnd' hj
    obtain h' | rfl := hmem hnd' h'
    · exact h.fresh j hnd' hj h'
    · exact hji (h.apart j i hnd' hj hi)
  · obtain rfl | rfl := hgiven
    · exact h.nodup
    · rw [List.nodup_append]
      refine ⟨h.nodup, List.nodup_singleton _, ?_⟩
      rintro hnd' h' _ heq rfl
      rw [List.mem_singleton] at heq
      exact h.fresh i hnd hi (heq ▸ h')

end

section

variable [DecidableEq ι] [Fintype ι] {cap cnt : Nat} {trace : List (Event τ)} {s s' : State ι τ} {e : Event τ}

/-- The handles that are in use, by a thread or by the caller of one. -/
structure Owners (cap cnt : Nat) (trace : List (Event τ)) (s : State ι τ) : Prop where
  shaped : s.registry.Shaped cap cnt
  ranged : ∀ i, (s.calls i).Ranged cap
  fastCtr_nonneg : 0 ≤ s.registry.fastCtr
  fastCtr_le : s.registry.fastCtr + Pool.count Call.takesFast s.calls ≤ cap + Fintype.card ι
  le_slowCtr : cap ≤ s.registry.slowCtr
  slowCtr_le : s.registry.slowCtr ≤ cap + trace.length
  distinct : Distinct cap s.registry.fastCtr s.registry.slowCtr (handles trace) fun i => (s.calls i).owned

theorem owners_initial (ι : Type) [DecidableEq ι] [Fintype ι] (cap cnt : Nat) :
    Owners cap cnt ([] : List (Event τ)) (initial ι cap cnt) where
  shaped := HandleRegistry.shaped_create cap cnt
  ranged _ := trivial
  fastCtr_nonneg := le_refl 0
  fastCtr_le := by
    have hzero : Pool.count Call.takesFast (fun _ : ι => (.idle : Call τ)) = 0 := by
      rw [Pool.count, Finset.card_eq_zero, Finset.filter_eq_empty_iff]
      intro i _ h
      cases h
    have hstart : (0 : Int) + ((0 : Nat) : Int) ≤ cap + Fintype.card ι := by omega
    rw [← hzero] at hstart
    exact hstart
  le_slowCtr := le_refl _
  slowCtr_le := by simp [initial, HandleRegistry.create]
  distinct := by
    have hnone : ∀ i hnd, ((initial ι cap cnt : State ι τ).calls i).owned ≠ some hnd := fun i hnd h => by cases h
    refine ⟨?_, fun i _ hnd h => absurd h (hnone i hnd), fun i hnd h => absurd h (hnone i hnd), List.nodup_nil⟩
    rintro hnd (h | ⟨i, h⟩)
    · cases h
    · exact absurd h (hnone i hnd)

theorem handles_append (trace : List (Event τ)) (e : Event τ) : handles (trace ++ [e]) = handles trace ++ e.handle.toList := by
  rw [handles, List.filterMap_append]
  cases h : e.handle <;> simp [h, handles]

omit [Fintype ι] in
theorem owned_update (calls : ι → Call τ) (i : ι) (c : Call τ) :
    (fun j => (Function.update calls i c j).owned) = Function.update (fun j => (calls j).owned) i c.owned :=
  funext fun j => Function.apply_update (fun _ => Call.owned) calls i c j

omit [Fintype ι] in
/-- A thread moves without a change to its handle. -/
theorem Distinct.stay {fastCtr slowCtr : Int} {given : List Int} {calls : ι → Call τ}
    (h : Distinct cap fastCtr slowCtr given fun i => (calls i).owned) (i : ι) {c : Call τ} (hc : c.owned = (calls i).owned) :
    Distinct cap fastCtr slowCtr given fun j => (Function.update calls i c j).owned := by
  rw [owned_update, hc, Function.update_eq_self i fun j => (calls j).owned]
  exact h

/-- One step. -/
theorem owners_step (hthreads : cap + Fintype.card ι < 2 ^ 31) (hlength : cap + trace.length + 1 < 2 ^ 63)
    (h : Owners cap cnt trace s) (hstep : Step s e s') : Owners cap cnt (trace ++ [e]) s' := by
  obtain ⟨hshaped, hranged, hnonneg, hfast, hle, hslow, hdistinct⟩ := h
  cases hstep with
  | call i request hidle =>
    have hcount := Pool.count_update Call.takesFast s.calls i request.start
    rw [hidle, Call.takesFast_start] at hcount
    simp only [Call.takesFast, Bool.toNat_false] at hcount
    refine ⟨hshaped, fun j => ?_, hnonneg, ?_, hle, ?_, ?_⟩
    · dsimp only
      by_cases hji : j = i
      · subst hji
        rw [Function.update_self]
        cases request <;> trivial
      · rw [Function.update_of_ne hji]
        exact hranged j
    · dsimp only
      omega
    · rw [List.length_append, List.length_singleton]
      push_cast
      omega
    · rw [handles_append]
      simp only [Event.handle, Option.toList_none, List.append_nil]
      exact hdistinct.stay i (by rw [hidle, Call.owned_start]; rfl)
  | advance i hbusy =>
    have hcount := Pool.count_update Call.takesFast s.calls i (advance s.registry (s.calls i)).2.1
    have hthread : (s.calls i).takesFast = true → s.registry.fastCtr + 1 < 2 ^ 31 := by
      intro htakes
      have hpos : 0 < Pool.count Call.takesFast s.calls :=
        Finset.card_pos.mpr ⟨i, Finset.mem_filter.mpr ⟨Finset.mem_univ i, htakes⟩⟩
      omega
    have hall := Pool.count_le_card Call.takesFast (Function.update s.calls i (advance s.registry (s.calls i)).2.1)
    have hslowFit : s.registry.slowCtr + 1 < 2 ^ 63 := by omega
    have hranged' := ranged_advance hshaped.fastCap hnonneg hthread hle hslowFit (hranged i)
    have howning := owning_advance s.registry (s.calls i)
    have hshaped' := shaped_advance hshaped (s.calls i)
    generalize (advance s.registry (s.calls i)).1 = r' at howning hshaped' ⊢
    generalize (advance s.registry (s.calls i)).2.1 = c' at hcount hall hranged' howning ⊢
    generalize (advance s.registry (s.calls i)).2.2 = e at howning ⊢
    have hranged'' : ∀ j, (Function.update s.calls i c' j).Ranged cap := by
      intro j
      by_cases hji : j = i
      · subst hji
        rw [Function.update_self]
        exact hranged'
      · rw [Function.update_of_ne hji]
        exact hranged j
    have hlen : ((trace ++ [e]).length : Int) = trace.length + 1 := by simp
    have hslowInc : incrementAndGet 64 s.registry.slowCtr = s.registry.slowCtr + 1 :=
      incrementAndGet_eq (by omega) hslowFit
    cases howning with
    | keep howned he htakes htakes' hfastCtr hslowCtr =>
      refine ⟨hshaped', hranged'', by rw [hfastCtr]; exact hnonneg, ?_, by rw [hslowCtr]; exact hle, ?_, ?_⟩
      · dsimp only
        rw [hfastCtr]
        rw [htakes, Bool.toNat_false] at hcount
        cases hc : c'.takesFast with
        | false =>
          rw [hc, Bool.toNat_false] at hcount
          omega
        | true =>
          have hroom := htakes' hc
          rw [hshaped.fastCap] at hroom
          omega
      · dsimp only
        rw [hslowCtr, hlen]
        omega
      · rw [handles_append, he, Option.toList_none, List.append_nil, hfastCtr, hslowCtr]
        exact hdistinct.stay i howned
    | takeFast hnone howned he htakes htakes' hfastCtr hslowCtr =>
      have hinc : r'.fastCtr = s.registry.fastCtr + 1 := by rw [hfastCtr, incrementAndGet_eq hnonneg (hthread htakes)]
      rw [htakes, htakes', Bool.toNat_false, Bool.toNat_true] at hcount
      refine ⟨hshaped', hranged'', by dsimp only; omega, by dsimp only; omega, by rw [hslowCtr]; exact hle, ?_, ?_⟩
      · dsimp only
        rw [hslowCtr, hlen]
        omega
      · rw [handles_append, he, Option.toList_none, List.append_nil, owned_update]
        dsimp only
        rw [howned, hinc, hslowCtr, hshaped.fastCap, Int.add_sub_cancel]
        split
        · next hlt => exact hdistinct.take (by omega) (le_refl _) i hnonneg (.inr ⟨hlt, le_refl _⟩) (by omega) (by omega)
        · rw [← hnone, Function.update_eq_self i fun j => (s.calls j).owned]
          refine ⟨fun hnd hin => ?_, hdistinct.apart, hdistinct.fresh, hdistinct.nodup⟩
          have := hdistinct.taken hnd hin
          omega
    | takeSlow hnone howned he htakes htakes' hfastCtr hslowCtr =>
      rw [hslowInc] at hslowCtr
      rw [htakes, htakes'] at hcount
      refine ⟨hshaped', hranged'', by rw [hfastCtr]; exact hnonneg, by dsimp only; omega, by dsimp only; omega, ?_, ?_⟩
      · dsimp only
        rw [hlen]
        omega
      · rw [handles_append, he, Option.toList_none, List.append_nil, owned_update]
        dsimp only
        rw [howned, hfastCtr, hslowCtr, Int.add_sub_cancel]
        exact hdistinct.take (le_refl _) (by omega) i (by omega) (.inl (le_refl _)) (by omega) (by omega)
    | leave hnd hsome howned he htakes htakes' hfastCtr hslowCtr =>
      rw [htakes, htakes'] at hcount
      refine ⟨hshaped', hranged'', by rw [hfastCtr]; exact hnonneg, by dsimp only; omega, by rw [hslowCtr]; exact hle, ?_, ?_⟩
      · dsimp only
        rw [hslowCtr, hlen]
        omega
      · rw [handles_append, owned_update]
        dsimp only
        rw [howned, hfastCtr, hslowCtr]
        refine hdistinct.leave hsome ?_
        cases hhandle : e.handle with
        | none => exact .inl (List.append_nil _)
        | some hnd' => exact .inr (by rw [he hnd' hhandle]; rfl)

/-- Runs of a registry that was just made. -/
abbrev Runs (ι : Type) [DecidableEq ι] (cap cnt : Nat) (trace : List (Event τ)) (s : State ι τ) : Prop :=
  Run Step (initial ι cap cnt) trace s

theorem owners_run (hthreads : cap + Fintype.card ι < 2 ^ 31) (hlength : cap + trace.length < 2 ^ 63)
    (h : Runs ι cap cnt trace s) : Owners cap cnt trace s := by
  revert hlength
  refine h.induct (fun _ => owners_initial ι cap cnt) fun trace t e u _ ih hstep => ?_
  intro hlength
  rw [List.length_append, List.length_singleton] at hlength
  exact owners_step hthreads (by omega) (ih (by omega)) hstep

end

/-- A step of the only thread. -/
theorem step_of_advance {r r' : HandleRegistry τ} {c c' : Call τ} {e : Event τ} (hbusy : c ≠ .idle)
    (h : advance r c = (r', c', e)) : Step (⟨r, fun _ => c⟩ : State Unit τ) e ⟨r', fun _ => c'⟩ := by
  have hstep := Step.advance (s := (⟨r, fun _ => c⟩ : State Unit τ)) () hbusy
  dsimp only at hstep
  rw [h] at hstep
  exact hstep

/-- One thread allocates the pointer `7` in a registry with one fast slot and
one segment. -/
theorem run_allocate : Runs Unit 1 1 [.call (.allocate (some 7) true true), .internal, .internal, .internal, .internal,
    .allocated (some 7) 0] ⟨{ HandleRegistry.create 1 1 with fastCtr := 1, fast := [some 7] }, fun _ => .idle⟩ := by
  refine .cons (.call () _ rfl) ?_
  exact .cons (step_of_advance (c := .allocate (some 7) true true) (by simp) rfl) (.cons (step_of_advance (by simp) rfl)
    (.cons (step_of_advance (by simp) rfl) (.cons (step_of_advance (by simp) rfl) (.single (step_of_advance (by simp) rfl)))))

end Handles

end DocumentDbOdbc
