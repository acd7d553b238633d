/-
Null pointers among the snapshots.

A flush that stops half-way leaves elements of `pending` that hold nothing, and
a type the other side does not have is cached as nothing; lookups and handlers
follow such pointers. Without either no step does (`crash_needs`).
-/
import DocumentDbOdbc.TypeManagerFacts

namespace DocumentDbOdbc

namespace BinaryTypes

open Labelled

variable {ι : Type} {resolver : Int → String → Int} {trace : List (Event ι)} {s s' : State ι} {e : Event ι}

/-- A flush that stopped after it had taken something, or a type that the other
side does not have. -/
def Event.LeavesNull : Event ι → Prop
  | .flushed _ sent ok => ok = false ∧ sent ≠ []
  | .gotMeta _ _ (.fetched none) _ => True
  | _ => False

def Call.frames : Call → List Frame
  | .writing _ frames _ => frames
  | _ => []

/-- No pointer that is going to be followed is null. -/
structure NoNull (s : State ι) : Prop where
  pending : none ∉ s.manager.pending
  map : ∀ t, s.manager.snapshots.find t ≠ some none
  frames : ∀ i, ∀ frame ∈ (s.calls i).frames, frame.handler.origin ≠ none

theorem findPending_isSome {store : Store} {typeId : Int} : ∀ {pending : List SPSnap}, none ∉ pending →
    findPending store typeId pending ≠ none
  | [], _ => Option.some_ne_none _
  | none :: _, h => absurd List.mem_cons_self h
  | some r :: rest, h => by
    rw [findPending]
    split
    · exact Option.some_ne_none _
    · exact findPending_isSome fun hmem => h (List.mem_cons_of_mem _ hmem)

theorem flushLoop_map (update : Nat → Bool) (rest : List SPSnap) : ∀ x : Flush, (∀ t, x.snapshots.find t ≠ some none) →
    ∀ t, (flushLoop update rest x).1.snapshots.find t ≠ some none := by
  induction rest with
  | nil => exact fun _ h => h
  | cons sp rest ih =>
    intro x h
    cases sp with
    | none => exact ih { x with passed := x.passed ++ [none] } h
    | some r =>
      rw [flushLoop]
      split
      · refine ih _ fun t => ?_
        rw [Flush.find_take]
        split
        · intro hnull
          cases hnull
        · exact h t
      · exact h

/-- As long as nothing was sent, `pending` is what it was. -/
theorem flushLoop_unsent (update : Nat → Bool) : ∀ (rest : List SPSnap) (x : Flush),
    x.sent.length ≤ (flushLoop update rest x).1.sent.length ∧
      ((flushLoop update rest x).1.sent.length = x.sent.length →
        (flushLoop update rest x).1.passed ++ (flushLoop update rest x).2 = x.passed ++ rest)
  | [], _ => ⟨Nat.le_refl _, fun _ => rfl⟩
  | none :: rest, x => by
    obtain ⟨hle, hsame⟩ := flushLoop_unsent update rest { x with passed := x.passed ++ [none] }
    refine ⟨hle, fun h => (hsame h).trans ?_⟩
    exact List.append_assoc _ _ _
  | some r :: rest, x => by
    rw [flushLoop]
    split
    · obtain ⟨hle, -⟩ := flushLoop_unsent update rest (x.take r)
      have hlength : (x.take r).sent.length = x.sent.length + 1 := List.length_append
      exact ⟨by omega, fun h => by omega⟩
    · exact ⟨Nat.le_refl _, fun _ => rfl⟩

theorem NoNull.flush (h : NoNull s) {update : Nat → Bool} {ok : Bool} {sent : List BinaryTypeSnapshot} {store : Store}
    {manager : BinaryTypeManager} (hflush : s.manager.processPendingUpdates s.store update = (ok, sent, store, manager))
    (hwhole : ¬(ok = false ∧ sent ≠ [])) : none ∉ manager.pending ∧ ∀ t, manager.snapshots.find t ≠ some none := by
  unfold BinaryTypeManager.processPendingUpdates at hflush
  split at hflush
  · have hmap := flushLoop_map update s.manager.pending { store := s.store, snapshots := s.manager.snapshots } h.map
    have hunsent := (flushLoop_unsent update s.manager.pending { store := s.store, snapshots := s.manager.snapshots }).2
    split at hflush
    · next x hx =>
      cases hflush
      rw [hx] at hmap
      exact ⟨List.not_mem_nil, hmap⟩
    · next x rest _ hx =>
      cases hflush
      rw [hx] at hmap hunsent
      have hnil : x.sent = [] := by
        by_contra hne
        exact hwhole ⟨rfl, hne⟩
      refine ⟨?_, hmap⟩
      change none ∉ x.passed ++ rest
      rw [hunsent (by rw [hnil]), List.nil_append]
      exact h.pending
  · cases hflush
    exact ⟨h.pending, h.map⟩

theorem NoNull.getMeta (h : NoNull s) {typeId : Int} {reply : Reply} {result : MetaResult} {store : Store}
    {manager : BinaryTypeManager} (hmeta : s.manager.getMeta s.store typeId reply = (result, store, manager)) :
    result ≠ .crashed ∧ manager.pending = s.manager.pending ∧
      (result ≠ .fetched none → ∀ t, manager.snapshots.find t ≠ some none) := by
  unfold BinaryTypeManager.getMeta at hmeta
  split at hmeta
  · cases hmeta
    exact ⟨nofun, rfl, fun _ => h.map⟩
  · split at hmeta
    · next hcrash => exact absurd hcrash (findPending_isSome h.pending)
    · cases hmeta
      exact ⟨nofun, rfl, fun _ => h.map⟩
    · split at hmeta
      · split at hmeta
        · cases hmeta
          exact ⟨nofun, rfl, fun _ => h.map⟩
        · cases hmeta
          exact ⟨nofun, rfl, fun hne => absurd rfl hne⟩
        · cases hmeta
          refine ⟨nofun, rfl, fun _ t => ?_⟩
          rw [SortedMap.find_upsert]
          split
          · cases hold : s.manager.snapshots.find typeId with
            | none => exact nofun
            | some old =>
              rw [Option.getD_some]
              exact fun heq => h.map typeId (hold.trans heq)
          · exact h.map t
      · cases hmeta
        exact ⟨nofun, rfl, fun _ => h.map⟩

theorem onFieldWritten_origin {hnd hnd' : BinaryTypeHandler} {store : Store} {f tid : Int} {name : String}
    (h : hnd.onFieldWritten store f name tid = some hnd') : hnd'.origin = hnd.origin := by
  unfold BinaryTypeHandler.onFieldWritten at h
  split at h
  · split at h
    · cases h
      rfl
    · obtain ⟨_, -, rfl⟩ := Option.map_eq_some_iff.mp h
      rfl
  · cases h
    rfl

theorem onFieldWritten_isSome {hnd : BinaryTypeHandler} (store : Store) (f tid : Int) (name : String)
    (h : hnd.origin ≠ none) : hnd.onFieldWritten store f name tid ≠ none := by
  obtain ⟨r, hr⟩ := Option.ne_none_iff_exists'.mp h
  unfold BinaryTypeHandler.onFieldWritten
  rw [hr]
  split
  · split
    · exact Option.some_ne_none _
    · exact Option.some_ne_none _
  · exact Option.some_ne_none _

variable [DecidableEq ι]

theorem NoNull.go (h : NoNull s) {store : Store} {i : ι} {c : Call} (hc : ∀ frame ∈ c.frames, frame.handler.origin ≠ none) :
    NoNull (State.go { s with store } i c) where
  pending := h.pending
  map := h.map
  frames j := by
    by_cases hj : j = i
    · subst hj
      rw [State.calls_go_self]
      exact hc
    · rw [State.calls_go_of_ne hj]
      exact h.frames j

/-- A step from a state without null pointers crashes nobody, and leaves none
unless its event says so. -/
theorem NoNull.step (h : NoNull s) (hstep : Step resolver s e s') (hleaves : ¬e.LeavesNull) :
    NoNull s' ∧ ∀ i, e ≠ .crashed i := by
  have hframes : ∀ {i : ι} {c : Call}, s.calls i = c → ∀ frame ∈ c.frames, frame.handler.origin ≠ none :=
    fun hc => hc ▸ h.frames _
  have hlooked : ∀ typeId, s.manager.lookup s.store typeId ≠ none := by
    intro typeId
    unfold BinaryTypeManager.lookup
    split
    · exact Option.some_ne_none _
    · exact fun hnone => findPending_isSome h.pending (Option.map_eq_none_iff.mp hnone)
  cases hstep with
  | begin i hidle => exact ⟨h.go nofun, nofun⟩
  | openKnown i typeId hwriting hlookup =>
    refine ⟨h.go (List.forall_mem_cons.mpr ⟨?_, hframes hwriting⟩), nofun⟩
    rintro rfl
    unfold BinaryTypeManager.lookup at hlookup
    split at hlookup
    · next p hp =>
      cases hlookup
      exact h.map typeId hp
    · obtain ⟨p, -, heq⟩ := Option.map_eq_some_iff.mp hlookup
      obtain ⟨_, -, heq⟩ := Option.map_eq_some_iff.mp heq
      cases heq
  | openNew i typeName affFieldName typeId hwriting =>
    exact ⟨h.go (List.forall_mem_cons.mpr ⟨nofun, hframes hwriting⟩), nofun⟩
  | openCrash i typeId hwriting hlookup => exact absurd hlookup (hlooked typeId)
  | write i fieldName fieldTypeId hwriting hwrite =>
    obtain ⟨hfirst, hrest⟩ := List.forall_mem_cons.mp (hframes hwriting)
    refine ⟨h.go (List.forall_mem_cons.mpr ⟨?_, hrest⟩), nofun⟩
    rw [onFieldWritten_origin hwrite]
    exact hfirst
  | writeCrash i fieldName fieldTypeId hwriting hwrite =>
    exact absurd hwrite (onFieldWritten_isSome _ _ _ _ (hframes hwriting _ List.mem_cons_self))
  | submit i hwriting hupdate =>
    have hkept : NoNull { s with manager := s.manager.submit s.store.next } :=
      ⟨fun hmem => (List.mem_append.mp hmem).elim h.pending fun hmem => (nomatch List.mem_singleton.mp hmem), h.map, h.frames⟩
    exact ⟨hkept.go fun frame hframe => hframes hwriting frame (List.mem_cons_of_mem _ hframe), nofun⟩
  | close i hwriting => exact ⟨h.go fun frame hframe => hframes hwriting frame (List.mem_cons_of_mem _ hframe), nofun⟩
  | check i hwriting =>
    refine ⟨h.go ?_, nofun⟩
    split <;> exact nofun
  | flush i update hflushing hflush =>
    obtain ⟨hpending, hmap⟩ := h.flush hflush hleaves
    have hkept : NoNull { s with manager := _ } := ⟨hpending, hmap, h.frames⟩
    refine ⟨hkept.go ?_, nofun⟩
    split <;> exact nofun
  | getMeta i typeId reply hcall hmeta hresult =>
    obtain ⟨-, hpending, hmap⟩ := h.getMeta hmeta
    refine ⟨⟨fun hmem => h.pending (hpending ▸ hmem), hmap ?_, h.frames⟩, nofun⟩
    rintro rfl
    exact hleaves trivial
  | getMetaCrash i typeId reply hcall hmeta => exact absurd rfl (h.getMeta hmeta).1
  | setUpdater updater => exact ⟨⟨h.pending, h.map, h.frames⟩, nofun⟩
  | abort | handOver => exact ⟨h.go nofun, nofun⟩

/-- **An access through a null pointer** comes after a flush that took some
pending snapshot and then failed, or after the other side was asked for a type
it does not have. -/
theorem crash_needs (h : Run (Step resolver) (initial ι) trace s) {i : ι} (hcrash : .crashed i ∈ trace) :
    ∃ e ∈ trace, e.LeavesNull := by
  have hinv : (∀ e ∈ trace, ¬e.LeavesNull) → NoNull s ∧ ∀ i, Event.crashed i ∉ trace := by
    refine h.induct (fun _ => ⟨⟨List.not_mem_nil, nofun, fun _ _ hmem => absurd hmem List.not_mem_nil⟩, fun _ => List.not_mem_nil⟩)
      fun trace t e u _ ih hstep hquiet => ?_
    obtain ⟨hnull, hold⟩ := ih fun e he => hquiet e (List.mem_append_left _ he)
    obtain ⟨hnull, hnew⟩ := hnull.step hstep (hquiet e (List.mem_append_right _ (List.mem_singleton_self _)))
    refine ⟨hnull, fun i hmem => ?_⟩
    obtain hmem | hmem := List.mem_append.mp hmem
    · exact hold i hmem
    · exact hnew i (List.mem_singleton.mp hmem).symm
  by_contra hnot
  push Not at hnot
  exact (hinv hnot).2 i hcrash

/-- The second of two pending snapshots is not taken, the first was. -/
theorem crash_needs_one : ∃ trace : List (Event Unit), ∃ s : State Unit, Run (Step fun _ _ => 7) (initial Unit) trace s ∧
    s.calls () = .crashed ∧ ∃ e ∈ trace, e.LeavesNull := by
  have hstart : Run (Step fun _ _ => 7) (initial Unit) [] (initial Unit) := .nil
  have hrun := ((((((((((((hstart.snoc
    (.setUpdater true)).snoc
    (.begin () rfl)).snoc
    (.openNew () "T" "" 1 rfl rfl)).snoc
    (.getMeta () 1 (.found "T" "" []) nofun rfl nofun)).snoc
    (.write () "a" 3 rfl rfl)).snoc
    (.submit () rfl rfl)).snoc
    (.openNew () "U" "" 2 rfl rfl)).snoc
    (.write () "a" 3 rfl rfl)).snoc
    (.submit () rfl rfl)).snoc
    (.check () rfl)).snoc
    (.flush () (fun n => n = 0) rfl rfl)).snoc
    (.begin () rfl)).snoc
    (.openCrash () 3 rfl rfl)
  exact ⟨_, _, hrun, rfl, crash_needs hrun (i := ()) (by simp)⟩

end BinaryTypes

end DocumentDbOdbc
