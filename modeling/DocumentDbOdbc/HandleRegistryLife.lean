/-
What the handle registry holds while threads use it, and after it was closed.

A slot is written by the allocation that took its handle, and cleared by that
allocation, by `Release` and by the sweep of `Close` only (`slot_advance`); so
an allocated pointer stays where it is until one of the last two comes
(`get_of_allocated`). A safe allocation looks at `closed` again after its
store, so the sweep and the allocation cannot both miss the pointer
(`get_of_swept`).
-/
import DocumentDbOdbc.HandleRegistryFacts

namespace DocumentDbOdbc

namespace Handles

open Labelled

variable {ι τ : Type}

/-! ## Closing -/

namespace Call

/-- The sweep of a `Close`. -/
def sweeping : Call τ → Bool
  | .sweepFast _ | .sweepSlow _ => true
  | _ => false

def isClose : Call τ → Bool
  | .close => true
  | _ => false

theorem sweeping_start (request : Request τ) : request.start.sweeping = false := by cases request <;> rfl

theorem stored_start (request : Request τ) : request.start.stored = none := by cases request <;> rfl

theorem owned_of_stored {c : Call τ} {hnd : Int} {target : Pointer τ} (h : c.stored = some (hnd, target)) :
    c.owned = some hnd := by
  cases c <;> cases h <;> rfl

end Call

theorem closed_advance (r : HandleRegistry τ) (c : Call τ) : (advance r c).1.closed = (r.closed || c.isClose) := by
  cases c with
  | close =>
    simp only [advance, Call.isClose, Bool.or_true]
    split
    · assumption
    · rfl
  | idle | get | fastStore | fastUndo | slowTake | slowStore | slowUndo => simp [advance, Call.isClose, HandleRegistry.setFast,
      HandleRegistry.putSlow, HandleRegistry.removeSlow]
  | release =>
    simp only [advance, Call.isClose, Bool.or_false, HandleRegistry.release]
    split_ifs <;> rfl
  | allocate | fastCheck | fastTake | fastRecheck | slowRecheck | sweepFast | sweepSlow =>
    simp only [advance, Call.isClose, Bool.or_false]
    split_ifs <;> rfl

/-- Who sweeps has swept before, or has just closed the registry. -/
theorem sweeping_advance {r : HandleRegistry τ} {c : Call τ} (h : (advance r c).2.1.sweeping = true) :
    c.sweeping = true ∨ c.isClose = true ∧ r.closed = false := by
  cases c with
  | sweepFast | sweepSlow => exact .inl rfl
  | close =>
    simp only [advance] at h
    split at h
    · cases h
    · next hopen => exact .inr ⟨rfl, Bool.eq_false_iff.mpr hopen⟩
  | idle | get | fastStore | fastUndo | slowTake | slowStore | slowUndo | release => cases h
  | allocate | fastCheck | fastTake | fastRecheck | slowRecheck =>
    simp only [advance] at h
    split_ifs at h <;> cases h

/-- The `Close` that returns from its sweep sweeps no more. -/
theorem swept_advance {r : HandleRegistry τ} {c : Call τ} (h : (advance r c).2.2 = .swept) :
    c.sweeping = true ∧ (advance r c).2.1.sweeping = false := by
  cases c with
  | sweepSlow i =>
    simp only [advance] at h ⊢
    split at h
    · cases h
    · next hge => exact ⟨rfl, by rw [if_neg hge]; rfl⟩
  | idle | get | fastStore | fastUndo | slowTake | slowStore | slowUndo | release => cases h
  | allocate | fastCheck | fastTake | fastRecheck | slowRecheck | close | sweepFast =>
    simp only [advance] at h
    split_ifs at h

section

variable [DecidableEq ι] {cap cnt : Nat} {trace : List (Event τ)} {s s' : State ι τ} {e : Event τ}

/-- The registry is closed once, and swept by the one thread that closed it. -/
structure Sweeper (trace : List (Event τ)) (s : State ι τ) : Prop where
  closed : ∀ i, (s.calls i).sweeping = true → s.registry.closed = true
  one : ∀ i j, (s.calls i).sweeping = true → (s.calls j).sweeping = true → i = j
  swept : Event.swept ∈ trace → s.registry.closed = true ∧ ∀ i, (s.calls i).sweeping = false

theorem sweeper_step (h : Sweeper trace s) (hstep : Step s e s') : Sweeper (trace ++ [e]) s' := by
  obtain ⟨hclosed, hone, hswept⟩ := h
  cases hstep with
  | call i request hidle =>
    have hsame : ∀ j, (Function.update s.calls i request.start j).sweeping = (s.calls j).sweeping := by
      intro j
      by_cases hji : j = i
      · subst hji
        rw [Function.update_self, Call.sweeping_start, hidle]
        rfl
      · rw [Function.update_of_ne hji]
    refine ⟨fun j hj => hclosed j (hsame j ▸ hj), fun j k hj hk => hone j k (hsame j ▸ hj) (hsame k ▸ hk), fun hmem => ?_⟩
    have hold : Event.swept ∈ trace := by simpa using hmem
    exact ⟨(hswept hold).1, fun j => (hsame j).trans ((hswept hold).2 j)⟩
  | advance i hbusy =>
    have hkeep : s.registry.closed = true → (advance s.registry (s.calls i)).1.closed = true := by
      intro h
      rw [closed_advance, h, Bool.true_or]
    have hnow : (advance s.registry (s.calls i)).2.1.sweeping = true → (advance s.registry (s.calls i)).1.closed = true := by
      intro h
      obtain hsweep | ⟨hclose, -⟩ := sweeping_advance h
      · exact hkeep (hclosed i hsweep)
      · rw [closed_advance, hclose, Bool.or_true]
    -- whoever else sweeps, the registry is closed already, so this thread has not just closed it
    have hother : ∀ j, j ≠ i → (s.calls j).sweeping = true → (advance s.registry (s.calls i)).2.1.sweeping = false := by
      intro j hji hj
      by_contra hcontra
      obtain hsweep | ⟨-, hopen⟩ := sweeping_advance (Bool.eq_true_of_not_eq_false hcontra)
      · exact hji (hone j i hj hsweep)
      · rw [hclosed j hj] at hopen
        cases hopen
    have hcases : ∀ j, (Function.update s.calls i (advance s.registry (s.calls i)).2.1 j).sweeping = true →
        j = i ∧ (advance s.registry (s.calls i)).2.1.sweeping = true ∨ j ≠ i ∧ (s.calls j).sweeping = true := by
      intro j hj
      by_cases hji : j = i
      · subst hji
        rw [Function.update_self] at hj
        exact .inl ⟨rfl, hj⟩
      · rw [Function.update_of_ne hji] at hj
        exact .inr ⟨hji, hj⟩
    refine ⟨fun j hj => ?_, fun j k hj hk => ?_, fun hmem => ?_⟩
    · obtain ⟨-, hj⟩ | ⟨-, hj⟩ := hcases j hj
      · exact hnow hj
      · exact hkeep (hclosed j hj)
    · obtain ⟨rfl, hnew⟩ | ⟨hji, hold⟩ := hcases j hj
      · obtain ⟨rfl, -⟩ | ⟨hki, hold⟩ := hcases k hk
        · rfl
        · rw [hother k hki hold] at hnew
          cases hnew
      · obtain ⟨rfl, hnew⟩ | ⟨-, hold'⟩ := hcases k hk
        · rw [hother j hji hold] at hnew
          cases hnew
        · exact hone j k hold hold'
    · have hstart : s.registry.closed = true ∧ ∀ j, j ≠ i → (s.calls j).sweeping = false := by
        obtain hold | hlast := List.mem_append.mp hmem
        · exact ⟨(hswept hold).1, fun j _ => (hswept hold).2 j⟩
        · obtain ⟨hsweep, -⟩ := swept_advance (List.mem_singleton.mp hlast).symm
          refine ⟨hclosed i hsweep, fun j hji => ?_⟩
          by_contra hcontra
          exact hji (hone j i (Bool.eq_true_of_not_eq_false hcontra) hsweep)
      refine ⟨hkeep hstart.1, fun j => ?_⟩
      by_contra hcontra
      obtain ⟨rfl, hj⟩ | ⟨hji, hj⟩ := hcases j (Bool.eq_true_of_not_eq_false hcontra)
      · obtain hold | hlast := List.mem_append.mp hmem
        · obtain hsweep | ⟨-, hopen⟩ := sweeping_advance hj
          · rw [(hswept hold).2 j] at hsweep
            cases hsweep
          · rw [hstart.1] at hopen
            cases hopen
        · rw [(swept_advance (List.mem_singleton.mp hlast).symm).2] at hj
          cases hj
      · rw [hstart.2 j hji] at hj
        cases hj

theorem sweeper_run [Fintype ι] (h : Runs ι cap cnt trace s) : Sweeper trace s := by
  refine h.induct ?_ fun _ _ _ _ _ ih hstep => sweeper_step ih hstep
  have hidle : ∀ i, ((initial ι cap cnt : State ι τ).calls i).sweeping = false := fun _ => rfl
  refine ⟨fun i h => ?_, fun i _ h => ?_, fun h => ?_⟩
  · rw [hidle i] at h
    cases h
  · rw [hidle i] at h
    cases h
  · cases h

end

/-! ## What is kept -/

section

variable [DecidableEq ι] [Fintype ι] {cap cnt : Nat} {trace : List (Event τ)} {s s' : State ι τ} {e : Event τ}
  {hnd : Int} {target : Pointer τ}

/-- Under the handle is the pointer or, once somebody has removed it, nothing. -/
def Keeps (trace : List (Event τ)) (r : HandleRegistry τ) (hnd : Int) (target : Pointer τ) : Prop :=
  (r.slot hnd = target ∨ r.slot hnd = none) ∧ (.released hnd ∉ trace → r.closed = false → r.slot hnd = target)

/-- Every handle that was returned, and every handle whose slot was written. -/
structure Contents (trace : List (Event τ)) (s : State ι τ) : Prop where
  given : ∀ target hnd, .allocated target hnd ∈ trace → 0 ≤ hnd → Keeps trace s.registry hnd target
  stored : ∀ i hnd target, (s.calls i).stored = some (hnd, target) → Keeps trace s.registry hnd target

/-- What a step may do to a slot that some other thread does not own. -/
theorem keeps_advance {r : HandleRegistry τ} {c : Call τ} (hcnt : 0 < cnt) (hshaped : r.Shaped cap cnt) (hranged : c.Ranged cap)
    (hnonneg : 0 ≤ hnd) (hsweep : c.sweeping = true → r.closed = true) (hother : c.owned ≠ some hnd)
    (h : Keeps trace r hnd target) : Keeps (trace ++ [(advance r c).2.2]) (advance r c).1 hnd target := by
  have hslot := slot_advance hshaped hcnt hranged hnonneg
  have hclosed : (advance r c).1.closed = false → r.closed = false := by
    rw [closed_advance]
    intro h
    exact (Bool.or_eq_false_iff.mp h).1
  -- nothing is written, or nothing is left
  have hwrites : c.writes r.fastCap r.segmentIdx hnd = none ∨ c.writes r.fastCap r.segmentIdx hnd = some none ∧
      (c.sweeping = true ∨ (advance r c).2.2 = .released hnd) := by
    cases c with
    | fastStore t _ idx | slowStore t _ idx =>
      left
      rw [Call.writes, if_neg]
      rintro rfl
      exact hother rfl
    | fastUndo t idx | slowUndo t idx =>
      left
      rw [Call.writes, if_neg]
      rintro rfl
      exact hother rfl
    | release idx =>
      rw [Call.writes]
      by_cases heq : hnd = idx
      · exact .inr ⟨if_pos heq, .inr (by rw [heq]; rfl)⟩
      · exact .inl (if_neg heq)
    | sweepFast | sweepSlow =>
      rw [Call.writes]
      split
      · exact .inr ⟨rfl, .inl rfl⟩
      · exact .inl rfl
    | idle | allocate | fastCheck | fastTake | fastRecheck | slowTake | slowRecheck | get | close => exact .inl rfl
  obtain hnone | ⟨hsome, hwhy⟩ := hwrites
  · rw [hnone, Option.getD_none] at hslot
    rw [Keeps, hslot]
    refine ⟨h.1, fun hnot hopen => h.2 (fun hmem => hnot (List.mem_append_left _ hmem)) (hclosed hopen)⟩
  · rw [hsome, Option.getD_some] at hslot
    refine ⟨.inr hslot, fun hnot hopen => ?_⟩
    obtain hcall | hlast := hwhy
    · rw [hsweep hcall] at hclosed
      cases hclosed hopen
    · rw [hlast] at hnot
      exact absurd (List.mem_append_right _ (List.mem_singleton_self _)) hnot

/-- The slot that a step has written is written with the target. -/
theorem stored_advance {r : HandleRegistry τ} {c : Call τ} (hcnt : 0 < cnt) (hshaped : r.Shaped cap cnt)
    (hranged : c.Ranged cap) (h : (advance r c).2.1.stored = some (hnd, target)) :
    (c.stored = some (hnd, target) ∧ (advance r c).1.slot hnd = r.slot hnd ∧ (advance r c).1.closed = r.closed) ∨
      (advance r c).1.slot hnd = target := by
  cases c with
  | fastStore t safe idx =>
    obtain ⟨rfl, rfl⟩ := Prod.mk.inj (Option.some.inj h)
    right
    rw [slot_advance hshaped hcnt hranged hranged.1, Call.writes, if_pos rfl]
    rfl
  | slowStore t safe idx =>
    obtain ⟨rfl, rfl⟩ := Prod.mk.inj (Option.some.inj h)
    right
    have hle : (cap : Int) ≤ idx := hranged
    rw [slot_advance hshaped hcnt hranged (by omega), Call.writes, if_pos rfl]
    rfl
  | fastRecheck t safe idx | slowRecheck t safe idx =>
    left
    simp only [advance] at h ⊢
    split at h
    · next hsafe => exact ⟨h, by rw [if_pos hsafe], by rw [if_pos hsafe]⟩
    · cases h
  | idle | get | fastUndo | slowTake | slowUndo | release => cases h
  | allocate | fastCheck | fastTake | close | sweepFast | sweepSlow =>
    simp only [advance] at h
    split_ifs at h <;> cases h

/-- The pointer that an allocation returns a handle for is the one it has
stored. -/
theorem allocated_advance {r : HandleRegistry τ} {c : Call τ} (hnonneg : 0 ≤ hnd)
    (h : (advance r c).2.2 = .allocated target hnd) : c.stored = some (hnd, target) ∧ (advance r c).1 = r := by
  cases c with
  | fastRecheck t safe idx | slowRecheck t safe idx =>
    simp only [advance] at h ⊢
    split at h
    · cases h
    · next hsafe =>
      obtain ⟨rfl, rfl⟩ := Event.allocated.inj h
      exact ⟨rfl, by rw [if_neg hsafe]⟩
  | fastUndo | slowUndo =>
    simp only [advance] at h
    cases h
    omega
  | allocate =>
    simp only [advance] at h
    split_ifs at h
    cases h
    omega
  | idle | get | fastStore | slowTake | slowStore | release => cases h
  | fastCheck | fastTake | close | sweepFast | sweepSlow =>
    simp only [advance] at h
    split_ifs at h

theorem contents_step (hcnt : 0 < cnt) (howners : Owners cap cnt trace s) (hsweeper : Sweeper trace s)
    (h : Contents trace s) (hstep : Step s e s') : Contents (trace ++ [e]) s' := by
  obtain ⟨hgiven, hstored⟩ := h
  cases hstep with
  | call i request hidle =>
    have hkeeps : ∀ {hnd target}, Keeps trace s.registry hnd target →
        Keeps (trace ++ [.call request]) s.registry hnd target := fun h =>
      ⟨h.1, fun hnot => h.2 fun hmem => hnot (List.mem_append_left _ hmem)⟩
    refine ⟨fun target hnd hmem hnonneg => ?_, fun j hnd target hj => ?_⟩
    · exact hkeeps (hgiven target hnd (by simpa using hmem) hnonneg)
    · dsimp only at hj
      by_cases hji : j = i
      · subst hji
        rw [Function.update_self, Call.stored_start] at hj
        cases hj
      · rw [Function.update_of_ne hji] at hj
        exact hkeeps (hstored j hnd target hj)
  | advance i hbusy =>
    have hranged := howners.ranged i
    have hsweep := hsweeper.closed i
    have hnonneg_of : ∀ {j hnd target}, (s.calls j).stored = some (hnd, target) → 0 ≤ hnd := fun {j hnd _} hj =>
      (howners.distinct.taken hnd (.inr ⟨j, Call.owned_of_stored hj⟩)).1
    refine ⟨fun target hnd hmem hnonneg => ?_, fun j hnd target hj => ?_⟩
    · obtain hold | hlast := List.mem_append.mp hmem
      · refine keeps_advance hcnt howners.shaped hranged hnonneg hsweep (fun hmine => ?_) (hgiven target hnd hold hnonneg)
        have hhandle : hnd ∈ handles trace :=
          List.mem_filterMap.mpr ⟨_, hold, by rw [Event.handle, if_pos hnonneg]⟩
        exact howners.distinct.fresh i hnd hmine hhandle
      · obtain ⟨hmine, hsame⟩ := allocated_advance hnonneg (List.mem_singleton.mp hlast).symm
        have hkeep := hstored i hnd target hmine
        rw [hsame]
        exact ⟨hkeep.1, fun hnot => hkeep.2 fun hmem => hnot (List.mem_append_left _ hmem)⟩
    · dsimp only at hj
      by_cases hji : j = i
      · subst hji
        rw [Function.update_self] at hj
        obtain ⟨hmine, hslot, hclosed⟩ | hslot := stored_advance hcnt howners.shaped hranged hj
        · have hkeep := hstored j hnd target hmine
          dsimp only [Keeps]
          rw [hslot, hclosed]
          exact ⟨hkeep.1, fun hnot => hkeep.2 fun hmem => hnot (List.mem_append_left _ hmem)⟩
        · exact ⟨.inl hslot, fun _ _ => hslot⟩
      · rw [Function.update_of_ne hji] at hj
        refine keeps_advance hcnt howners.shaped hranged (hnonneg_of hj) hsweep (fun hmine => ?_) (hstored j hnd target hj)
        exact hji (howners.distinct.apart j i hnd (Call.owned_of_stored hj) hmine)

/-- An allocation that looks at `closed` again after its store. -/
def Call.Safe : Call τ → Prop
  | .allocate _ _ safe | .fastCheck _ safe | .fastTake _ safe | .slowTake _ safe => safe = true
  | .fastStore _ safe _ | .fastRecheck _ safe _ | .slowStore _ safe _ | .slowRecheck _ safe _ => safe = true
  | _ => True

/-- The event does not start an allocation other than a safe one. -/
def Event.Safe : Event τ → Prop
  | .call (.allocate _ _ safe) => safe = true
  | _ => True

/-- The sweep has not come to this handle yet. -/
def Call.Ahead (cap cnt : Nat) (hnd : Int) : Call τ → Prop
  | .sweepFast i => (i : Int) ≤ hnd
  | .sweepSlow i => (cap : Int) ≤ hnd ∧ i ≤ (hnd.tmod cnt).toNat
  | _ => False

theorem Call.safe_advance {r : HandleRegistry τ} {c : Call τ} (h : c.Safe) : (advance r c).2.1.Safe := by
  cases c with
  | idle | get | release | fastUndo | slowUndo => trivial
  | fastStore | slowTake | slowStore => exact h
  | allocate | fastCheck | fastTake | fastRecheck | slowRecheck =>
    simp only [advance]
    split_ifs <;> first | exact h | trivial
  | close | sweepFast | sweepSlow =>
    simp only [advance]
    split_ifs <;> trivial

/-- In a closed registry every pointer has somebody who will remove it: the
allocation that has stored it, or the sweep. -/
def Attended (cap cnt : Nat) (s : State ι τ) : Prop :=
  s.registry.closed = true → ∀ hnd, 0 ≤ hnd → s.registry.slot hnd ≠ none →
    ∃ i, (∃ target, (s.calls i).stored = some (hnd, target)) ∨ (s.calls i).Ahead cap cnt hnd

/-- Who attends to a pointer does so until it is removed. -/
theorem attended_advance {r : HandleRegistry τ} {c : Call τ} (hcnt : 0 < cnt) (hshaped : r.Shaped cap cnt)
    (hranged : c.Ranged cap) (hsafe : c.Safe) (hclosed : r.closed = true) (hnonneg : 0 ≤ hnd)
    (hslot : (advance r c).1.slot hnd ≠ none) (h : (∃ target, c.stored = some (hnd, target)) ∨ c.Ahead cap cnt hnd) :
    (∃ target, (advance r c).2.1.stored = some (hnd, target)) ∨ (advance r c).2.1.Ahead cap cnt hnd := by
  rw [slot_advance hshaped hcnt hranged hnonneg] at hslot
  cases c with
  | fastRecheck target safe idx | slowRecheck target safe idx =>
    have hundo : (safe && r.closed) = true := by
      rw [hclosed, Bool.and_true]
      exact hsafe
    simp only [advance, hundo, if_true]
    exact h
  | fastUndo target idx | slowUndo target idx =>
    obtain ⟨target', h⟩ | h := h
    · obtain ⟨rfl, -⟩ := Prod.mk.inj (Option.some.inj h)
      rw [Call.writes, if_pos rfl] at hslot
      exact absurd rfl hslot
    · exact h.elim
  | sweepFast i =>
    obtain ⟨_, h⟩ | h := h
    · cases h
    · right
      have hle : (i : Int) ≤ hnd := h
      simp only [advance, hshaped.fastCap]
      split
      · next hlt =>
        have hne : hnd ≠ i := by
          rintro rfl
          rw [Call.writes, hshaped.fastCap, if_pos ⟨rfl, hlt⟩] at hslot
          exact hslot rfl
        simp only [Call.Ahead]
        push_cast
        omega
      · exact ⟨by omega, Nat.zero_le _⟩
  | sweepSlow i =>
    obtain ⟨_, h⟩ | h := h
    · cases h
    · right
      obtain ⟨hcap, hle⟩ : (cap : Int) ≤ hnd ∧ i ≤ (hnd.tmod cnt).toNat := h
      have hidx : r.segmentIdx hnd = (hnd.tmod cnt).toNat := by rw [HandleRegistry.segmentIdx, hshaped.slowSegmentCnt]
      have hlt := hshaped.segmentIdx_lt hcnt hnd
      have hne : (hnd.tmod cnt).toNat ≠ i := by
        rintro heq
        rw [Call.writes, hshaped.fastCap, if_pos ⟨hcap, hidx.trans heq⟩] at hslot
        exact hslot rfl
      simp only [advance, hshaped.slowSegmentCnt]
      rw [if_pos (by omega)]
      exact ⟨hcap, by omega⟩
  | idle | allocate | fastCheck | fastTake | fastStore | slowTake | slowStore | release | get | close =>
    obtain ⟨_, h⟩ | h := h
    · cases h
    · exact h.elim

theorem attended_step (hcnt : 0 < cnt) (howners : Owners cap cnt trace s) (hsafe : ∀ i, (s.calls i).Safe)
    (h : Attended cap cnt s) (hstep : Step s e s') : Attended cap cnt s' := by
  cases hstep with
  | call i request hidle =>
    intro hclosed hnd hnonneg hslot
    obtain ⟨j, hj⟩ := h hclosed hnd hnonneg hslot
    refine ⟨j, ?_⟩
    have hji : j ≠ i := by
      rintro rfl
      rw [hidle] at hj
      obtain ⟨_, hj⟩ | hj := hj
      · cases hj
      · exact hj
    dsimp only
    rw [Function.update_of_ne hji]
    exact hj
  | advance i hbusy =>
    intro hclosed hnd hnonneg hslot
    dsimp only at hclosed hslot ⊢
    have hranged := howners.ranged i
    by_cases hwas : s.registry.closed = true
    · by_cases hold : s.registry.slot hnd = none
      · -- the pointer has come with this step
        rw [slot_advance howners.shaped hcnt hranged hnonneg, hold] at hslot
        refine ⟨i, .inl ?_⟩
        rw [Function.update_self]
        cases hc : s.calls i with
        | fastStore target safe idx | slowStore target safe idx =>
          rw [hc, Call.writes] at hslot
          split at hslot
          · next heq =>
            subst heq
            exact ⟨target, rfl⟩
          · exact absurd rfl hslot
        | fastUndo | slowUndo | release | sweepFast | sweepSlow =>
          rw [hc, Call.writes] at hslot
          split at hslot <;> exact absurd rfl hslot
        | idle | allocate | fastCheck | fastTake | fastRecheck | slowTake | slowRecheck | get | close =>
          rw [hc] at hslot
          exact absurd rfl hslot
      · obtain ⟨j, hj⟩ := h hwas hnd hnonneg hold
        refine ⟨j, ?_⟩
        by_cases hji : j = i
        · subst hji
          rw [Function.update_self]
          exact attended_advance hcnt howners.shaped hranged (hsafe j) hwas hnonneg hslot hj
        · rw [Function.update_of_ne hji]
          exact hj
    · -- this step has closed the registry, and the sweep begins
      refine ⟨i, .inr ?_⟩
      rw [Function.update_self]
      rw [closed_advance, Bool.eq_false_iff.mpr hwas, Bool.false_or] at hclosed
      cases hc : s.calls i with
      | close =>
        simp only [advance, Bool.eq_false_iff.mpr hwas]
        exact hnonneg
      | _ =>
        rw [hc] at hclosed
        cases hclosed

end

/-- The only thread closes the registry. -/
theorem run_close : Runs Unit 1 1 ([.call .close, .closed, .internal, .internal, .internal, .swept] : List (Event Nat))
    ⟨{ HandleRegistry.create 1 1 with closed := true }, fun _ => .idle⟩ := by
  refine .cons (.call () _ rfl) ?_
  exact .cons (step_of_advance (c := .close) (by simp) rfl) (.cons (step_of_advance (by simp) rfl)
    (.cons (step_of_advance (by simp) rfl) (.cons (step_of_advance (by simp) rfl) (.single (step_of_advance (by simp) rfl)))))

end Handles

end DocumentDbOdbc
