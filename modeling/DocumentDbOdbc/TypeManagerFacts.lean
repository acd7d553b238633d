/-
What the other side knows of the binary types while threads write objects.

Whatever snapshot a shared pointer may lead to, its fields are known to the
other side or are waiting in `pending` (`View.covered`), and `pending` holds one
element for each submission since the last flush that went through; so a thread
that finds no update since it began has nothing to send, and one that flushes
sends what it needs (`told_of_sending`).
-/
import DocumentDbOdbc.TypeManager

namespace DocumentDbOdbc

namespace BinaryTypes

open Labelled

/-! ## What is known -/

/-- An update with this field of this type is among those that were sent. -/
def ToldBy (sent : List BinaryTypeSnapshot) (t f : Int) : Prop := ∃ snap ∈ sent, snap.typeId = t ∧ snap.Tells f

/-- The manager as the invariants see it; `told` is what the other side knows of
fields of types. -/
structure View where
  told : Int → Int → Prop
  store : Store
  snapshots : SortedMap Int SPSnap
  pending : List SPSnap

namespace View

/-- The other side knows the field, or a pending snapshot tells of it. -/
def Covered (v : View) (t f : Int) : Prop :=
  v.told t f ∨ ∃ r, some r ∈ v.pending ∧ (v.store.cell r).typeId = t ∧ (v.store.cell r).Tells f

structure Kept (v : View) : Prop where
  pending_lt : ∀ r, some r ∈ v.pending → r < v.store.next
  map_lt : ∀ t r, v.snapshots.find t = some (some r) → r < v.store.next
  map_type : ∀ t r, v.snapshots.find t = some (some r) → (v.store.cell r).typeId = t
  map_told : ∀ t r, v.snapshots.find t = some (some r) → ∀ f, (v.store.cell r).Tells f → v.told t f
  covered : ∀ r, r < v.store.next → ∀ f ∈ (v.store.cell r).fieldIds, v.Covered (v.store.cell r).typeId f

/-- What may become of a view: nothing that was known or pending is forgotten,
and what is pointed to keeps its type. -/
structure Le (v w : View) : Prop where
  covered : ∀ t f, v.Covered t f → w.Covered t f
  told : ∀ t f, v.told t f → w.told t f
  next : v.store.next ≤ w.store.next
  typeId : ∀ r, r < v.store.next → (w.store.cell r).typeId = (v.store.cell r).typeId

theorem Le.refl (v : View) : v.Le v := ⟨fun _ _ h => h, fun _ _ h => h, Nat.le_refl _, fun _ _ => rfl⟩

theorem Le.trans {u v w : View} (h : u.Le v) (h' : v.Le w) : u.Le w where
  covered t f hc := h'.covered t f (h.covered t f hc)
  told t f ht := h'.told t f (h.told t f ht)
  next := h.next.trans h'.next
  typeId r hr := (h'.typeId r (hr.trans_le h.next)).trans (h.typeId r hr)

/-- A new snapshot whose fields are covered. -/
def alloc (v : View) (snap : BinaryTypeSnapshot) : View := { v with store := v.store.alloc snap }

theorem cell_alloc_of_lt {store : Store} {snap : BinaryTypeSnapshot} {r : Nat} (h : r < store.next) :
    (store.alloc snap).cell r = store.cell r := Function.update_of_ne h.ne _ _

theorem cell_alloc_next {store : Store} {snap : BinaryTypeSnapshot} : (store.alloc snap).cell store.next = snap :=
  Function.update_self _ _ _

variable {v : View} {snap : BinaryTypeSnapshot}

theorem Kept.le_alloc (h : v.Kept) : v.Le (v.alloc snap) where
  covered t f hc := by
    refine hc.imp_right fun ⟨r, hr, ht, hf⟩ => ⟨r, hr, ?_⟩
    rw [alloc, cell_alloc_of_lt (h.pending_lt r hr)]
    exact ⟨ht, hf⟩
  told _ _ ht := ht
  next := Nat.le_succ _
  typeId r hr := by rw [alloc, cell_alloc_of_lt hr]

theorem Kept.alloc (h : v.Kept) (hsnap : ∀ f ∈ snap.fieldIds, v.Covered snap.typeId f) : (v.alloc snap).Kept where
  pending_lt r hr := Nat.lt_succ_of_lt (h.pending_lt r hr)
  map_lt t r hr := Nat.lt_succ_of_lt (h.map_lt t r hr)
  map_type t r hr := by
    rw [View.alloc, cell_alloc_of_lt (h.map_lt t r hr)]
    exact h.map_type t r hr
  map_told t r hr := by
    rw [View.alloc, cell_alloc_of_lt (h.map_lt t r hr)]
    exact h.map_told t r hr
  covered r hr f hf := by
    refine h.le_alloc.covered _ f ?_
    change r < v.store.next + 1 at hr
    by_cases heq : r = v.store.next
    · subst heq
      rw [View.alloc, cell_alloc_next] at hf ⊢
      exact hsnap f hf
    · have hlt : r < v.store.next := by omega
      rw [View.alloc, cell_alloc_of_lt hlt] at hf ⊢
      exact h.covered r hlt f hf

/-- The other side knows more. -/
theorem Le.tell {told : Int → Int → Prop} (h : ∀ t f, v.told t f → told t f) : v.Le { v with told } where
  covered t f hc := hc.imp_left (h t f)
  told := h
  next := Nat.le_refl _
  typeId _ _ := rfl

theorem Kept.tell {told : Int → Int → Prop} (h : v.Kept) (htold : ∀ t f, v.told t f → told t f) :
    Kept { v with told } where
  pending_lt := h.pending_lt
  map_lt := h.map_lt
  map_type := h.map_type
  map_told t r hr f hf := htold t f (h.map_told t r hr f hf)
  covered r hr f hf := (Le.tell htold).covered _ f (h.covered r hr f hf)

theorem Le.map (snapshots : SortedMap Int SPSnap) : v.Le { v with snapshots } :=
  ⟨fun _ _ h => h, fun _ _ h => h, Nat.le_refl _, fun _ _ => rfl⟩

/-- A type that was looked up elsewhere goes into the map. -/
theorem Kept.insert (h : v.Kept) {t : Int} {p : SPSnap}
    (hp : ∀ r, p = some r → r < v.store.next ∧ (v.store.cell r).typeId = t ∧ ∀ f, (v.store.cell r).Tells f → v.told t f) :
    Kept { v with snapshots := v.snapshots.upsert t (·.getD p) } := by
  have hfind : ∀ t' r, (v.snapshots.upsert t (·.getD p)).find t' = some (some r) →
      v.snapshots.find t' = some (some r) ∨ t' = t ∧ p = some r := by
    intro t' r hr
    rw [SortedMap.find_upsert] at hr
    split at hr
    · next ht =>
      subst ht
      cases hold : v.snapshots.find t' with
      | none =>
        rw [hold] at hr
        exact .inr ⟨rfl, Option.some.inj hr⟩
      | some old =>
        rw [hold] at hr
        exact .inl hr
    · exact .inl hr
  refine ⟨h.pending_lt, fun t' r hr => ?_, fun t' r hr => ?_, fun t' r hr => ?_, h.covered⟩
  · exact (hfind t' r hr).elim (h.map_lt t' r) fun ⟨_, hr⟩ => (hp r hr).1
  · obtain hold | ⟨rfl, hnew⟩ := hfind t' r hr
    · exact h.map_type t' r hold
    · exact (hp r hnew).2.1
  · obtain hold | ⟨rfl, hnew⟩ := hfind t' r hr
    · exact h.map_told t' r hold
    · exact (hp r hnew).2.2

end View

/-! ## The flush -/

/-- The flush at some place in `pending`. -/
def Flush.view (x : Flush) (told : Int → Int → Prop) (rest : List SPSnap) : View where
  told := fun t f => told t f ∨ ToldBy x.sent t f
  store := x.store
  snapshots := x.snapshots
  pending := x.passed ++ rest

/-- Besides, what the loop went over is known to the other side. -/
structure Flush.Kept (x : Flush) (told : Int → Int → Prop) (rest : List SPSnap) : Prop where
  kept : (x.view told rest).Kept
  passed : ∀ r, some r ∈ x.passed → ∀ f, (x.store.cell r).Tells f → (x.view told rest).told (x.store.cell r).typeId f

section

variable {told : Int → Int → Prop} {x : Flush} {r : Nat} {rest : List SPSnap}

theorem Flush.kept_skip (h : x.Kept told (none :: rest)) : Flush.Kept { x with passed := x.passed ++ [none] } told rest := by
  have hview : Flush.view { x with passed := x.passed ++ [none] } told rest = x.view told (none :: rest) := by
    simp [Flush.view]
  refine ⟨hview ▸ h.kept, fun r hr => ?_⟩
  rw [hview]
  exact h.passed r (by simpa using hr)

/-- The element that is taken is told of. -/
theorem Flush.toldBy_take (f : Int) (h : (x.store.cell r).Tells f) : ToldBy (x.take r).sent (x.store.cell r).typeId f :=
  ⟨_, List.mem_append_right _ (List.mem_singleton_self _), rfl, h⟩

theorem Flush.told_take {t f : Int} (h : told t f ∨ ToldBy x.sent t f) : told t f ∨ ToldBy (x.take r).sent t f :=
  h.imp_right fun ⟨snap, hmem, hsnap⟩ => ⟨snap, List.mem_append_left _ hmem, hsnap⟩

theorem Flush.store_take : (x.take r).store =
    match x.snapshots.find (x.store.cell r).typeId with
    | none => x.store
    | some old => x.store.set r ((x.store.cell r).copyFieldsFrom (x.store.get old)) := rfl

/-- Every cell after a snapshot was taken: the same, or the one taken with the
fields of the map's snapshot of its type. -/
theorem Flush.cell_take (r' : Nat) : ((x.take r).store.cell r') = x.store.cell r' ∨
    r' = r ∧ ∃ old, x.snapshots.find (x.store.cell r).typeId = some old ∧
      (x.take r).store.cell r' = (x.store.cell r).copyFieldsFrom (x.store.get old) := by
  rw [store_take]
  cases hold : x.snapshots.find (x.store.cell r).typeId with
  | none => exact .inl rfl
  | some old =>
    by_cases hr : r' = r
    · subst hr
      exact .inr ⟨rfl, old, rfl, Function.update_self _ _ _⟩
    · exact .inl (Function.update_of_ne hr _ x.store.cell)

theorem Flush.next_take : (x.take r).store.next = x.store.next := by
  rw [store_take]
  split <;> rfl

theorem Flush.typeId_take (r' : Nat) : ((x.take r).store.cell r').typeId = (x.store.cell r').typeId := by
  obtain hsame | ⟨rfl, old, -, hcell⟩ := x.cell_take (r := r) r'
  · rw [hsame]
  · rw [hcell, BinaryTypeSnapshot.typeId_copyFieldsFrom]

theorem Flush.tells_take {f : Int} (r' : Nat) (h : (x.store.cell r').Tells f) : ((x.take r).store.cell r').Tells f := by
  obtain hsame | ⟨rfl, old, -, hcell⟩ := x.cell_take (r := r) r'
  · rwa [hsame]
  · rw [hcell]
    exact h.copyFieldsFrom

theorem Flush.find_take (t : Int) : (x.take r).snapshots.find t =
    if t = (x.store.cell r).typeId then some (some r) else x.snapshots.find t :=
  SortedMap.find_upsert _ _ _ _

/-- What is among the passed elements was there before, or is the one taken. -/
theorem Flush.mem_passed_take {r' : Nat} (h : some r' ∈ (x.take r).passed) : some r' ∈ x.passed ∨ r' = r := by
  obtain h | h := List.mem_append.mp h
  · exact .inl h
  · rw [List.mem_singleton] at h
    split at h <;> cases h
    exact .inr rfl

/-- Every field that the taken snapshot tells of now was told of. -/
theorem Flush.told_of_tells_take {t f : Int} (h : x.Kept told (some r :: rest)) (r' : Nat)
    (hold : ∀ f, (x.store.cell r').Tells f → (x.view told (some r :: rest)).told (x.store.cell r').typeId f ∨ r' = r)
    (ht : ((x.take r).store.cell r').typeId = t) (hf : ((x.take r).store.cell r').Tells f) :
    told t f ∨ ToldBy (x.take r).sent t f := by
  rw [typeId_take] at ht
  subst ht
  have hown : (x.store.cell r').Tells f → told (x.store.cell r').typeId f ∨ ToldBy (x.take r).sent (x.store.cell r').typeId f := by
    intro hmine
    obtain htold | rfl := hold f hmine
    · exact told_take htold
    · exact .inr (toldBy_take f hmine)
  obtain hsame | ⟨rfl, old, hfind, hcell⟩ := x.cell_take (r := r) r'
  · exact hown (hsame ▸ hf)
  · rw [hcell] at hf
    obtain hf | ⟨a, ha, hf⟩ := BinaryTypeSnapshot.tells_of_copyFieldsFrom hf
    · exact hown hf
    · obtain ⟨o, rfl, rfl⟩ := Option.map_eq_some_iff.mp ha
      exact told_take (h.kept.map_told _ _ hfind f hf)

theorem Flush.le_take (h : x.Kept told (some r :: rest)) : (x.view told (some r :: rest)).Le ((x.take r).view told rest) where
  covered t f hc := by
    obtain htold | ⟨r', hr', rfl, hf⟩ := hc
    · exact .inl (told_take htold)
    · -- the one that is taken is told of, the others wait where they were
      by_cases hr : r' = r
      · subst hr
        exact .inl (.inr (toldBy_take f hf))
      · refine .inr ⟨r', ?_, typeId_take r', tells_take r' hf⟩
        obtain hr' | hr' := List.mem_append.mp hr'
        · exact List.mem_append_left _ (List.mem_append_left _ hr')
        · obtain heq | hr' := List.mem_cons.mp hr'
          · cases heq
            exact absurd rfl hr
          · exact List.mem_append_right _ hr'
  told t f ht := told_take ht
  next := next_take.ge
  typeId r' _ := typeId_take r'

theorem Flush.kept_take (h : x.Kept told (some r :: rest)) : (x.take r).Kept told rest := by
  have hr : r < x.store.next := h.kept.pending_lt r (List.mem_append_right _ List.mem_cons_self)
  have hfind : ∀ t o, (x.take r).snapshots.find t = some (some o) → t = (x.store.cell r).typeId ∧ o = r ∨
      x.snapshots.find t = some (some o) := by
    intro t o ho
    rw [find_take] at ho
    split at ho
    · next ht =>
      cases ho
      exact .inl ⟨ht, rfl⟩
    · exact .inr ho
  refine ⟨⟨fun r' hr' => ?_, fun t o ho => ?_, fun t o ho => ?_, fun t o ho f hf => ?_, fun r' hr' f hf => ?_⟩,
    fun r' hr' f hf => ?_⟩
  · change r' < (x.take r).store.next
    rw [next_take]
    obtain hr' | hr' := List.mem_append.mp hr'
    · obtain hr' | rfl := mem_passed_take hr'
      · exact h.kept.pending_lt r' (List.mem_append_left _ hr')
      · exact hr
    · exact h.kept.pending_lt r' (List.mem_append_right _ (List.mem_cons_of_mem _ hr'))
  · change o < (x.take r).store.next
    rw [next_take]
    obtain ⟨-, rfl⟩ | ho := hfind t o ho
    · exact hr
    · exact h.kept.map_lt t o ho
  · change ((x.take r).store.cell o).typeId = t
    rw [typeId_take]
    obtain ⟨rfl, rfl⟩ | ho := hfind t o ho
    · rfl
    · exact h.kept.map_type t o ho
  · obtain ⟨rfl, rfl⟩ | ho := hfind t o ho
    · exact told_of_tells_take h o (fun _ _ => .inr rfl) (typeId_take o) hf
    · refine told_of_tells_take h o (fun f hf => .inl ?_) ((typeId_take o).trans (h.kept.map_type t o ho)) hf
      exact h.kept.map_type t o ho ▸ h.kept.map_told t o ho f hf
  · change r' < (x.take r).store.next at hr'
    rw [next_take] at hr'
    refine (le_take h).covered _ f ?_
    change (x.view told (some r :: rest)).Covered ((x.take r).store.cell r').typeId f
    rw [typeId_take]
    obtain hsame | ⟨rfl, old, hold, hcell⟩ := x.cell_take (r := r) r'
    · exact h.kept.covered r' hr' f (hsame ▸ hf)
    · change f ∈ ((x.take r').store.cell r').fieldIds at hf
      rw [hcell] at hf
      obtain hf | ⟨a, ha, hf⟩ := BinaryTypeSnapshot.mem_copyFieldsFrom hf
      · exact h.kept.covered r' hr' f hf
      · obtain ⟨o, rfl, rfl⟩ := Option.map_eq_some_iff.mp ha
        rw [← h.kept.map_type _ _ hold]
        exact h.kept.covered o (h.kept.map_lt _ _ hold) f hf
  · refine told_of_tells_take h r' (fun f hf => ?_) rfl hf
    obtain hr' | rfl := mem_passed_take hr'
    · exact .inl (h.passed r' hr' f hf)
    · exact .inr rfl

/-- **The loop** keeps what was known or pending; where it went to the end,
what is left in `pending` is known. -/
theorem flushLoop_kept (update : Nat → Bool) : ∀ (rest : List SPSnap) (x : Flush), x.Kept told rest →
    (flushLoop update rest x).1.Kept told (flushLoop update rest x).2 ∧
      (x.view told rest).Le ((flushLoop update rest x).1.view told (flushLoop update rest x).2)
  | [], x, h => ⟨h, .refl _⟩
  | none :: rest, x, h => by
    obtain ⟨hkept, hle⟩ := flushLoop_kept update rest _ (Flush.kept_skip h)
    refine ⟨hkept, .trans ?_ hle⟩
    have hview : Flush.view { x with passed := x.passed ++ [none] } told rest = x.view told (none :: rest) := by
      simp [Flush.view]
    exact hview ▸ .refl _
  | some r :: rest, x, h => by
    rw [flushLoop]
    split
    · obtain ⟨hkept, hle⟩ := flushLoop_kept update rest _ (Flush.kept_take h)
      exact ⟨hkept, (Flush.le_take h).trans hle⟩
    · exact ⟨h, .refl _⟩

theorem flushLoop_length (update : Nat → Bool) : ∀ (rest : List SPSnap) (x : Flush),
    (flushLoop update rest x).1.passed.length + (flushLoop update rest x).2.length = x.passed.length + rest.length
  | [], x => rfl
  | none :: rest, x => by
    rw [flushLoop, flushLoop_length]
    simp only [List.length_append, List.length_cons, List.length_nil]
    omega
  | some r :: rest, x => by
    rw [flushLoop]
    split
    · rw [flushLoop_length]
      simp only [Flush.take, List.length_append, List.length_cons, List.length_nil]
      omega
    · rfl

theorem processPendingUpdates_kept {m m' : BinaryTypeManager} {store store' : Store} {update : Nat → Bool} {ok : Bool}
    {sent : List BinaryTypeSnapshot} (h : (View.mk told store m.snapshots m.pending).Kept)
    (hflush : m.processPendingUpdates store update = (ok, sent, store', m')) :
    (View.mk (fun t f => told t f ∨ ToldBy sent t f) store' m'.snapshots m'.pending).Kept ∧
      (View.mk told store m.snapshots m.pending).Le
        (View.mk (fun t f => told t f ∨ ToldBy sent t f) store' m'.snapshots m'.pending) := by
  have hnone : (fun t f => told t f ∨ ToldBy [] t f) = told := by
    funext t f
    simp [ToldBy]
  unfold BinaryTypeManager.processPendingUpdates at hflush
  split at hflush
  · have hstart : Flush.Kept { store := store, snapshots := m.snapshots } told m.pending :=
      ⟨by rw [Flush.view, hnone]; exact h, fun r hr => absurd hr List.not_mem_nil⟩
    have hview : Flush.view { store := store, snapshots := m.snapshots } told m.pending =
        View.mk told store m.snapshots m.pending := by rw [Flush.view, hnone]; rfl
    obtain ⟨hkept, hle⟩ := flushLoop_kept update m.pending _ hstart
    rw [hview] at hle
    split at hflush
    · next x hx =>
      cases hflush
      rw [hx] at hkept hle
      -- nothing is left to wait, so what was covered is known
      have htold : ∀ t f, (x.view told []).Covered t f → told t f ∨ ToldBy x.sent t f := by
        rintro t f (htold | ⟨r, hr, rfl, hf⟩)
        · exact htold
        · exact hkept.passed r (by simpa [Flush.view] using hr) f hf
      refine ⟨⟨fun r hr => absurd hr List.not_mem_nil, hkept.kept.map_lt, hkept.kept.map_type, hkept.kept.map_told,
        fun r hr f hf => .inl (htold _ f (hkept.kept.covered r hr f hf))⟩, ?_⟩
      exact ⟨fun t f hc => .inl (htold t f (hle.covered t f hc)), hle.told, hle.next, hle.typeId⟩
    · next x rest _ hx =>
      cases hflush
      rw [hx] at hkept hle
      exact ⟨hkept.kept, hle⟩
  · cases hflush
    rw [hnone]
    exact ⟨h, .refl _⟩

theorem processPendingUpdates_ver {m m' : BinaryTypeManager} {store store' : Store} {update : Nat → Bool} {ok : Bool}
    {sent : List BinaryTypeSnapshot} (hflush : m.processPendingUpdates store update = (ok, sent, store', m')) :
    m'.pendingVer = m.pendingVer ∧
      (ok = true ∧ m'.pending = [] ∧ m'.ver = m.pendingVer ∨
        ok = false ∧ m'.pending.length = m.pending.length ∧ m'.ver = m.ver) := by
  unfold BinaryTypeManager.processPendingUpdates at hflush
  split at hflush
  · have hlength := flushLoop_length update m.pending { store := store, snapshots := m.snapshots }
    split at hflush
    · cases hflush
      exact ⟨rfl, .inl ⟨rfl, rfl, rfl⟩⟩
    · next x rest _ hx =>
      cases hflush
      rw [hx] at hlength
      refine ⟨rfl, .inr ⟨rfl, ?_, rfl⟩⟩
      rw [List.length_append, hlength]
      exact Nat.zero_add _
  · cases hflush
    exact ⟨rfl, .inr ⟨rfl, rfl, rfl⟩⟩

end

/-! ## Handlers -/

/-- The handler has noted a field with this id. -/
def BinaryTypeHandler.Drafts (hnd : BinaryTypeHandler) (f : Int) : Prop := ∃ snap, hnd.updated = some snap ∧ snap.Tells f

/-- What a writer's handler points to and what it has noted. The id of a field
that it noted is the resolver's, or the other side hears of that id anyway. -/
structure Frame.Fits (resolver : Int → String → Int) (v : View) (frame : Frame) : Prop where
  origin : ∀ r, frame.handler.origin = some r → r < v.store.next ∧ (v.store.cell r).typeId = frame.typeId
  typeId : ∀ snap, frame.handler.updated = some snap → snap.typeId = frame.typeId
  ids : ∀ snap, frame.handler.updated = some snap → ∀ f ∈ snap.fieldIds, v.Covered frame.typeId f ∨ snap.Tells f
  names : ∀ snap, frame.handler.updated = some snap → ∀ name field, snap.fields.find name = some field →
    field.fieldId = resolver frame.typeId name ∨ v.Covered frame.typeId field.fieldId

section

variable {resolver : Int → String → Int} {v w : View} {frame : Frame}

theorem Frame.Fits.mono (h : frame.Fits resolver v) (hle : v.Le w) : frame.Fits resolver w where
  origin r hr := by
    obtain ⟨hlt, ht⟩ := h.origin r hr
    exact ⟨hlt.trans_le hle.next, (hle.typeId r hlt).trans ht⟩
  typeId := h.typeId
  ids snap hsnap f hf := (h.ids snap hsnap f hf).imp_left (hle.covered _ f)
  names snap hsnap name field hfind := (h.names snap hsnap name field hfind).imp_right (hle.covered _ _)

/-- A snapshot that fits takes a field under the resolver's id. -/
theorem Frame.Fits.addField {snap : BinaryTypeSnapshot} {t : Int} (name : String) (tid : Int)
    (hids : ∀ f ∈ snap.fieldIds, v.Covered t f ∨ snap.Tells f)
    (hnames : ∀ n field, snap.fields.find n = some field → field.fieldId = resolver t n ∨ v.Covered t field.fieldId) :
    (∀ f ∈ (snap.addField (resolver t name) name tid).fieldIds,
        v.Covered t f ∨ (snap.addField (resolver t name) name tid).Tells f) ∧
      (∀ n field, (snap.addField (resolver t name) name tid).fields.find n = some field →
        field.fieldId = resolver t n ∨ v.Covered t field.fieldId) ∧
      ∀ f, snap.Tells f → v.Covered t f ∨ (snap.addField (resolver t name) name tid).Tells f := by
  have hkeep : ∀ f, snap.Tells f → v.Covered t f ∨ (snap.addField (resolver t name) name tid).Tells f := by
    rintro f ⟨n, field, hfind, rfl⟩
    by_cases hn : n = name
    · -- the entry is replaced: by one with the same id, or it was not needed
      subst hn
      obtain hid | hc := hnames n field hfind
      · rw [hid]
        exact .inr (snap.tells_addField _ _ _)
      · exact .inl hc
    · exact .inr ⟨n, field, by rw [snap.find_addField, if_neg hn, hfind], rfl⟩
  refine ⟨fun f hf => ?_, fun n field hfind => ?_, hkeep⟩
  · obtain rfl | hf := snap.mem_addField.mp hf
    · exact .inr (snap.tells_addField _ _ _)
    · exact (hids f hf).elim .inl (hkeep f)
  · rw [snap.find_addField] at hfind
    split at hfind
    · next hn =>
      cases hfind
      exact .inl (by rw [hn])
    · exact hnames n field hfind

/-- **A field that is written** is known, waits, or is noted in the handler,
and what the handler had noted stays so. -/
theorem Frame.Fits.write (hkept : v.Kept) (h : frame.Fits resolver v) {name : String} {tid : Int} {hnd : BinaryTypeHandler}
    (hwrite : frame.handler.onFieldWritten v.store (resolver frame.typeId name) name tid = some hnd) :
    Frame.Fits resolver v ⟨frame.typeId, hnd⟩ ∧
      (v.Covered frame.typeId (resolver frame.typeId name) ∨ hnd.Drafts (resolver frame.typeId name)) ∧
      ∀ f, frame.handler.Drafts f → v.Covered frame.typeId f ∨ hnd.Drafts f := by
  unfold BinaryTypeHandler.onFieldWritten at hwrite
  split at hwrite
  · split at hwrite
    · next updated hupdated =>
      cases hwrite
      obtain ⟨hids, hnames, hkeep⟩ := Frame.Fits.addField name tid (h.ids _ hupdated) (h.names _ hupdated)
      refine ⟨⟨h.origin, ?_, ?_, ?_⟩, .inr ⟨_, rfl, updated.tells_addField _ _ _⟩, ?_⟩
      · rintro _ ⟨⟩
        exact h.typeId updated hupdated
      · rintro _ ⟨⟩
        exact hids
      · rintro _ ⟨⟩
        exact hnames
      · rintro f ⟨snap, hsnap, hf⟩
        cases hupdated.symm.trans hsnap
        exact (hkeep f hf).imp_right fun hf => ⟨_, rfl, hf⟩
    · next hupdated =>
      obtain ⟨origin, horigin, rfl⟩ := Option.map_eq_some_iff.mp hwrite
      obtain ⟨r, hr, rfl⟩ := Option.map_eq_some_iff.mp horigin
      obtain ⟨hlt, ht⟩ := h.origin r hr
      have hcovered : ∀ f ∈ (v.store.cell r).fieldIds, v.Covered frame.typeId f := fun f hf => ht ▸ hkept.covered r hlt f hf
      have hnames : ∀ n field, (v.store.cell r).fields.find n = some field →
          field.fieldId = resolver frame.typeId n ∨ v.Covered frame.typeId field.fieldId :=
        fun n field hfind => .inr (hcovered _ ((v.store.cell r).known n field hfind))
      obtain ⟨hids, hnames, -⟩ := Frame.Fits.addField name tid (fun f hf => .inl (hcovered f hf)) hnames
      refine ⟨⟨h.origin, ?_, ?_, ?_⟩, .inr ⟨_, rfl, (v.store.cell r).tells_addField _ _ _⟩, ?_⟩
      · rintro _ ⟨⟩
        exact ht
      · rintro _ ⟨⟩
        exact hids
      · rintro _ ⟨⟩
        exact hnames
      · rintro f ⟨snap, hsnap, -⟩
        cases hupdated.symm.trans hsnap
  · next hknown =>
    cases hwrite
    refine ⟨h, .inl ?_, fun f hf => .inr hf⟩
    -- the origin has the field
    rw [Option.all_eq_true] at hknown
    push Not at hknown
    obtain ⟨origin, horigin, hmem⟩ := hknown
    obtain ⟨r, hr, rfl⟩ := Option.map_eq_some_iff.mp horigin
    obtain ⟨hlt, ht⟩ := h.origin r hr
    rw [← ht]
    exact hkept.covered r hlt _ (by simpa [BinaryTypeSnapshot.containsFieldId, ht] using hmem)

end

/-! ## Runs -/

/-- What the other side learns of a field, or has told of it. -/
def Event.Tells {ι : Type} : Event ι → Int → Int → Prop
  | .flushed _ sent _, t, f => ToldBy sent t f
  | .gotMeta _ typeId (.fetched _) (.found _ _ fields), t, f => typeId = t ∧ ∃ x ∈ fields, x.2.fieldId = f
  | _, _, _ => False

def Told {ι : Type} (trace : List (Event ι)) (t f : Int) : Prop := ∃ e ∈ trace, e.Tells t f

def Event.isSubmission {ι : Type} : Event ι → Bool
  | .closed _ submitted => submitted
  | _ => false

def submissions {ι : Type} (trace : List (Event ι)) : Nat := trace.countP (·.isSubmission)

/-- An event that neither tells nor submits anything. -/
def Event.quiet {ι : Type} : Event ι → Bool
  | .flushed .. | .gotMeta .. | .closed _ true => false
  | _ => true

theorem Event.not_tells {ι : Type} {e : Event ι} (h : e.quiet = true) (t f : Int) : ¬e.Tells t f := by
  cases e with
  | flushed | gotMeta => cases h
  | _ => exact fun h => h

theorem Event.not_isSubmission {ι : Type} {e : Event ι} (h : e.quiet = true) : e.isSubmission = false := by
  cases e with
  | closed i submitted =>
    cases submitted with
    | true => cases h
    | false => rfl
  | _ => rfl

/-- Where a thread may stand. -/
def Call.Fits (resolver : Int → String → Int) (v : View) (ver : Int) : Call → Prop
  | .writing metaVer frames written =>
    metaVer ≤ ver ∧ (∀ frame ∈ frames, frame.Fits resolver v) ∧
      ∀ p ∈ written, v.Covered p.1 p.2 ∨ ∃ frame ∈ frames, frame.typeId = p.1 ∧ frame.handler.Drafts p.2
  | .flushing written => ∀ p ∈ written, v.Covered p.1 p.2
  | .sending written => ∀ p ∈ written, v.told p.1 p.2
  | .idle | .crashed => True

theorem Call.Fits.mono {resolver : Int → String → Int} {v w : View} {ver ver' : Int} {c : Call} (h : c.Fits resolver v ver)
    (hle : v.Le w) (hver : ver ≤ ver') : c.Fits resolver w ver' := by
  cases c with
  | writing metaVer frames written =>
    obtain ⟨hmeta, hframes, hwritten⟩ := h
    exact ⟨hmeta.trans hver, fun frame hframe => (hframes frame hframe).mono hle,
      fun p hp => (hwritten p hp).imp_left (hle.covered _ _)⟩
  | flushing written => exact fun p hp => hle.covered _ _ (h p hp)
  | sending written => exact fun p hp => hle.told _ _ (h p hp)
  | idle | crashed => trivial

section

variable {ι : Type} {resolver : Int → String → Int} {trace : List (Event ι)} {s s' : State ι} {e : Event ι}

def State.view (s : State ι) (trace : List (Event ι)) : View :=
  ⟨Told trace, s.store, s.manager.snapshots, s.manager.pending⟩

theorem told_snoc {t f : Int} : Told (trace ++ [e]) t f ↔ Told trace t f ∨ e.Tells t f := by
  simp only [Told, List.mem_append, List.mem_singleton]
  constructor
  · rintro ⟨e', he' | rfl, h⟩
    · exact .inl ⟨e', he', h⟩
    · exact .inr h
  · rintro (⟨e', he', h⟩ | h)
    · exact ⟨e', .inl he', h⟩
    · exact ⟨e, .inr rfl, h⟩

theorem told_quiet (h : ∀ t f, ¬e.Tells t f) : Told (trace ++ [e]) = Told trace := by
  funext t f
  rw [told_snoc, eq_iff_iff, or_iff_left (h t f)]

theorem submissions_snoc : submissions (trace ++ [e]) = submissions trace + e.isSubmission.toNat := by
  rw [submissions, List.countP_append, List.countP_singleton]
  cases e.isSubmission <;> rfl

structure Inv (resolver : Int → String → Int) (trace : List (Event ι)) (s : State ι) : Prop where
  kept : (s.view trace).Kept
  waiting : s.manager.ver + s.manager.pending.length = s.manager.pendingVer
  count : s.manager.pendingVer = submissions trace
  calls : ∀ i, (s.calls i).Fits resolver (s.view trace) s.manager.ver

/-- `GetHandler` gives a snapshot of the type. -/
theorem findPending_eq {store : Store} {typeId : Int} {r : Nat} : ∀ {pending : List SPSnap},
    findPending store typeId pending = some (some r) → some r ∈ pending ∧ (store.cell r).typeId = typeId
  | [], h => nomatch h
  | none :: _, h => nomatch h
  | some r' :: rest, h => by
    rw [findPending] at h
    split at h
    · next ht =>
      cases h
      exact ⟨List.mem_cons_self, ht⟩
    · obtain ⟨hmem, ht⟩ := findPending_eq h
      exact ⟨List.mem_cons_of_mem _ hmem, ht⟩

theorem Inv.lookup (h : Inv resolver trace s) {typeId : Int} {r : Nat}
    (hlookup : s.manager.lookup s.store typeId = some (some (some r))) :
    r < s.store.next ∧ (s.store.cell r).typeId = typeId := by
  unfold BinaryTypeManager.lookup at hlookup
  split at hlookup
  · next p hp =>
    cases hlookup
    exact ⟨h.kept.map_lt _ _ hp, h.kept.map_type _ _ hp⟩
  · obtain ⟨p, hp, heq⟩ := Option.map_eq_some_iff.mp hlookup
    obtain ⟨r', rfl, heq⟩ := Option.map_eq_some_iff.mp heq
    cases heq
    obtain ⟨hmem, ht⟩ := findPending_eq hp
    exact ⟨h.kept.pending_lt _ hmem, ht⟩

theorem typeId_readSnapshot (typeName affFieldName : String) (typeId : Int) (fields : List (String × BinaryFieldMeta)) :
    (readSnapshot typeName affFieldName typeId fields).typeId = typeId := by
  have hfold : ∀ snap : BinaryTypeSnapshot,
      (fields.foldl (fun snap f => snap.addField f.2.fieldId f.1 f.2.typeId) snap).typeId = snap.typeId := by
    induction fields with
    | nil => exact fun _ => rfl
    | cons x rest ih => exact fun snap => ih (snap.addField x.2.fieldId x.1 x.2.typeId)
  exact hfold _

theorem mem_readSnapshot {typeName affFieldName : String} {typeId f : Int} {fields : List (String × BinaryFieldMeta)}
    (h : f ∈ (readSnapshot typeName affFieldName typeId fields).fieldIds) : ∃ x ∈ fields, x.2.fieldId = f := by
  have hfold : ∀ (fields : List (String × BinaryFieldMeta)) (snap : BinaryTypeSnapshot),
      f ∈ (fields.foldl (fun snap f => snap.addField f.2.fieldId f.1 f.2.typeId) snap).fieldIds →
        f ∈ snap.fieldIds ∨ ∃ x ∈ fields, x.2.fieldId = f := by
    intro fields
    induction fields with
    | nil => exact fun _ h => .inl h
    | cons x rest ih =>
      intro snap hf
      obtain hf | ⟨y, hy, hid⟩ := ih _ hf
      · obtain rfl | hf := snap.mem_addField.mp hf
        · exact .inr ⟨x, List.mem_cons_self, rfl⟩
        · exact .inl hf
      · exact .inr ⟨y, List.mem_cons_of_mem _ hy, hid⟩
  exact (hfold fields _ h).resolve_left (SortedSet.not_mem_empty f)

theorem Inv.getMeta (h : Inv resolver trace s) (i : ι) (typeId : Int) (reply : Reply) {result : MetaResult} {store : Store}
    {manager : BinaryTypeManager} (hmeta : s.manager.getMeta s.store typeId reply = (result, store, manager)) :
    Inv resolver (trace ++ [.gotMeta i typeId result reply]) { s with store, manager } := by
  have hmono : ∀ t f, Told trace t f → Told (trace ++ [.gotMeta i typeId result reply]) t f :=
    fun t f ht => told_snoc.mpr (.inl ht)
  have hsub : submissions (trace ++ [.gotMeta i typeId result reply]) = submissions trace := submissions_snoc
  -- nothing is found out: the manager stays, and the view with it
  have hsame : store = s.store → manager = s.manager →
      Inv resolver (trace ++ [.gotMeta i typeId result reply]) { s with store, manager } := by
    rintro rfl rfl
    exact ⟨h.kept.tell hmono, h.waiting, hsub ▸ h.count, fun j => (h.calls j).mono (.tell hmono) (Int.le_refl _)⟩
  unfold BinaryTypeManager.getMeta at hmeta
  split at hmeta
  · cases hmeta
    exact hsame rfl rfl
  · split at hmeta
    · cases hmeta
      exact hsame rfl rfl
    · cases hmeta
      exact hsame rfl rfl
    · split at hmeta
      · split at hmeta
        · cases hmeta
          exact hsame rfl rfl
        · cases hmeta
          refine ⟨?_, h.waiting, hsub ▸ h.count, fun j => (h.calls j).mono ((View.Le.tell hmono).trans (.map _)) (Int.le_refl _)⟩
          exact (h.kept.tell hmono).insert fun r hr => nomatch hr
        · next typeName affFieldName fields =>
          cases hmeta
          have hknown : ∀ f ∈ (readSnapshot typeName affFieldName typeId fields).fieldIds,
              Told (trace ++ [.gotMeta i typeId (.fetched (some s.store.next)) (.found typeName affFieldName fields)]) typeId f :=
            fun f hf => told_snoc.mpr (.inr ⟨rfl, mem_readSnapshot hf⟩)
          have htold := h.kept.tell hmono
          refine ⟨(htold.alloc fun f hf => .inl ?_).insert ?_, h.waiting, hsub ▸ h.count, fun j => ?_⟩
          · rw [typeId_readSnapshot]
            exact hknown f hf
          · rintro _ ⟨⟩
            refine ⟨Nat.lt_succ_self _, ?_⟩
            change ((s.store.alloc _).cell s.store.next).typeId = typeId ∧
              ∀ f, ((s.store.alloc _).cell s.store.next).Tells f → Told _ typeId f
            rw [View.cell_alloc_next, typeId_readSnapshot]
            exact ⟨rfl, fun f hf => hknown f (BinaryTypeSnapshot.mem_of_tells _ hf)⟩
          · exact (h.calls j).mono (((View.Le.tell hmono).trans htold.le_alloc).trans (.map _)) (Int.le_refl _)
      · cases hmeta
        exact hsame rfl rfl

theorem inv_initial : Inv resolver [] (initial ι) where
  kept :=
    { pending_lt := fun _ hr => absurd hr List.not_mem_nil
      map_lt := fun _ _ hr => nomatch hr
      map_type := fun _ _ hr => nomatch hr
      map_told := fun _ _ hr => nomatch hr
      covered := fun _ hr => absurd hr (Nat.not_lt_zero _) }
  waiting := rfl
  count := rfl
  calls _ := trivial

variable [DecidableEq ι]

theorem State.calls_go_self {i : ι} {c : Call} : (s.go i c).calls i = c := Function.update_self _ _ _

theorem State.calls_go_of_ne {i j : ι} {c : Call} (h : j ≠ i) : (s.go i c).calls j = s.calls j := Function.update_of_ne h _ _

/-- A step that moves one thread and leaves the manager alone. -/
theorem Inv.go (h : Inv resolver trace s) (hquiet : e.quiet = true) {i : ι} {c : Call}
    (hc : c.Fits resolver (s.view trace) s.manager.ver) : Inv resolver (trace ++ [e]) (s.go i c) where
  kept := by
    rw [State.view, told_quiet (Event.not_tells hquiet)]
    exact h.kept
  waiting := h.waiting
  count := by
    rw [submissions_snoc, Event.not_isSubmission hquiet]
    exact h.count
  calls j := by
    rw [State.view, told_quiet (Event.not_tells hquiet)]
    by_cases hj : j = i
    · subst hj
      rw [State.calls_go_self]
      exact hc
    · rw [State.calls_go_of_ne hj]
      exact h.calls j

/-- A step that moves one thread, and the manager on. -/
theorem Inv.move (h : Inv resolver trace s) {store : Store} {manager : BinaryTypeManager} {i : ι} {c : Call}
    (hkept : (State.view { s with store, manager } (trace ++ [e])).Kept)
    (hle : (s.view trace).Le (State.view { s with store, manager } (trace ++ [e]))) (hver : s.manager.ver ≤ manager.ver)
    (hwaiting : manager.ver + manager.pending.length = manager.pendingVer)
    (hcount : manager.pendingVer = submissions (trace ++ [e]))
    (hc : c.Fits resolver (State.view { s with store, manager } (trace ++ [e])) manager.ver) :
    Inv resolver (trace ++ [e]) (State.go { s with store, manager } i c) where
  kept := hkept
  waiting := hwaiting
  count := hcount
  calls j := by
    by_cases hj : j = i
    · subst hj
      rw [State.calls_go_self]
      exact hc
    · rw [State.calls_go_of_ne hj]
      exact (h.calls j).mono hle hver

/-- A submission: the snapshot waits, and with it what it tells of. -/
theorem Inv.submit (h : Inv resolver trace s) (i : ι) {metaVer : Int} {frame : Frame} {frames : List Frame}
    {written : List (Int × Int)} {snap : BinaryTypeSnapshot} (hcall : s.calls i = .writing metaVer (frame :: frames) written)
    (hupdate : frame.handler.updated = some snap) (hfew : submissions (trace ++ [.closed i true]) < 2 ^ 31) :
    Inv resolver (trace ++ [.closed i true])
      (State.go { s with store := s.store.alloc snap, manager := s.manager.submit s.store.next } i
        (.writing metaVer frames written)) := by
  obtain ⟨hmeta, hframes, hwritten⟩ : Call.Fits resolver (s.view trace) s.manager.ver (.writing metaVer (frame :: frames) written) :=
    hcall ▸ h.calls i
  have hfits := hframes frame List.mem_cons_self
  have htype := hfits.typeId _ hupdate
  have hcount : s.manager.pendingVer + 1 = submissions (trace ++ [.closed i true]) := by
    rw [submissions_snoc, h.count]
    rfl
  have hver : (s.manager.submit s.store.next).pendingVer = s.manager.pendingVer + 1 := by
    have hpos : 0 ≤ s.manager.pendingVer := by rw [h.count]; exact Int.natCast_nonneg _
    refine Int.bmod_eq_of_le ?_ ?_ <;> omega
  have htold : Told (trace ++ [.closed i true]) = Told trace := told_quiet fun _ _ h => h
  -- the view with the new snapshot in the store and its pointer in `pending`
  have hcell : ∀ r, r < s.store.next → (s.store.alloc snap).cell r = s.store.cell r := fun r hr => View.cell_alloc_of_lt hr
  have hview : State.view { s with store := s.store.alloc snap, manager := s.manager.submit s.store.next }
      (trace ++ [.closed i true]) =
      ⟨Told trace, s.store.alloc snap, s.manager.snapshots, s.manager.pending ++ [some s.store.next]⟩ := by
    rw [State.view, htold]
    rfl
  have hle : (s.view trace).Le (State.view { s with store := s.store.alloc snap, manager := s.manager.submit s.store.next }
      (trace ++ [.closed i true])) := by
    rw [hview]
    refine ⟨fun t f hc => ?_, fun _ _ ht => ht, Nat.le_succ _, fun r hr => by rw [hcell r hr]; rfl⟩
    refine hc.imp_right fun ⟨r, hr, ht, hf⟩ => ⟨r, List.mem_append_left _ hr, ?_⟩
    change ((s.store.alloc snap).cell r).typeId = t ∧ ((s.store.alloc snap).cell r).Tells f
    rw [hcell r (h.kept.pending_lt r hr)]
    exact ⟨ht, hf⟩
  have hnew : ∀ f, snap.Tells f → (State.view { s with store := s.store.alloc snap, manager := s.manager.submit s.store.next }
      (trace ++ [.closed i true])).Covered frame.typeId f := by
    intro f hf
    rw [hview]
    refine .inr ⟨s.store.next, List.mem_append_right _ (List.mem_singleton_self _), ?_⟩
    change ((s.store.alloc snap).cell s.store.next).typeId = frame.typeId ∧ ((s.store.alloc snap).cell s.store.next).Tells f
    rw [View.cell_alloc_next]
    exact ⟨htype, hf⟩
  refine h.move ?_ hle (Int.le_refl _) ?_ (hver.trans hcount) ⟨hmeta, fun x hx => (hframes x (List.mem_cons_of_mem _ hx)).mono hle,
    fun p hp => ?_⟩
  · rw [hview] at hle hnew ⊢
    refine ⟨fun r hr => ?_, fun t r hr => Nat.lt_succ_of_lt (h.kept.map_lt t r hr), fun t r hr => ?_, fun t r hr => ?_,
      fun r hr f hf => ?_⟩
    · obtain hr | hr := List.mem_append.mp hr
      · exact Nat.lt_succ_of_lt (h.kept.pending_lt r hr)
      · cases List.mem_singleton.mp hr
        exact Nat.lt_succ_self _
    · change ((s.store.alloc snap).cell r).typeId = t
      rw [hcell r (h.kept.map_lt t r hr)]
      exact h.kept.map_type t r hr
    · change ∀ f, ((s.store.alloc snap).cell r).Tells f → Told trace t f
      rw [hcell r (h.kept.map_lt t r hr)]
      exact h.kept.map_told t r hr
    · change f ∈ ((s.store.alloc snap).cell r).fieldIds at hf
      by_cases heq : r = s.store.next
      · subst heq
        rw [View.cell_alloc_next] at hf ⊢
        rw [htype]
        exact (hfits.ids snap hupdate f hf).elim (hle.covered _ f) (hnew f)
      · have hlt : r < s.store.next := by
          have : r < s.store.next + 1 := hr
          omega
        rw [hcell r hlt] at hf ⊢
        exact hle.covered _ f (h.kept.covered r hlt f hf)
  · change s.manager.ver + ((s.manager.pending ++ [some s.store.next]).length : Int) = _
    rw [hver, List.length_append, ← h.waiting]
    push_cast
    rw [List.length_singleton]
    omega
  · obtain hc | ⟨x, hx, ht, hdraft⟩ := hwritten p hp
    · exact .inl (hle.covered _ _ hc)
    · obtain rfl | hx := List.mem_cons.mp hx
      · obtain ⟨u, hu, hf⟩ := hdraft
        cases hupdate.symm.trans hu
        exact .inl (ht ▸ hnew _ hf)
      · exact .inr ⟨x, hx, ht, hdraft⟩

theorem Inv.flush (h : Inv resolver trace s) (i : ι) {update : Nat → Bool} {written : List (Int × Int)} {ok : Bool}
    {sent : List BinaryTypeSnapshot} {store : Store} {manager : BinaryTypeManager} (hcall : s.calls i = .flushing written)
    (hflush : s.manager.processPendingUpdates s.store update = (ok, sent, store, manager)) :
    Inv resolver (trace ++ [.flushed i sent ok])
      (State.go { s with store, manager } i (if ok then .sending written else .idle)) := by
  have hwritten : ∀ p ∈ written, (s.view trace).Covered p.1 p.2 := by
    have hfits := h.calls i
    rwa [hcall] at hfits
  have htold : Told (trace ++ [.flushed i sent ok]) = fun t f => Told trace t f ∨ ToldBy sent t f := by
    funext t f
    exact propext told_snoc
  obtain ⟨hkept, hle⟩ := processPendingUpdates_kept h.kept hflush
  obtain ⟨hpending, hver⟩ := processPendingUpdates_ver hflush
  have hview : State.view { s with store, manager } (trace ++ [.flushed i sent ok]) =
      ⟨fun t f => Told trace t f ∨ ToldBy sent t f, store, manager.snapshots, manager.pending⟩ := by
    rw [State.view, htold]
  have hsub : submissions (trace ++ [.flushed i sent ok]) = submissions trace := submissions_snoc
  refine h.move (hview ▸ hkept) (hview ▸ hle) ?_ ?_ (hpending.trans (hsub ▸ h.count)) ?_
  · obtain ⟨-, -, hver⟩ | ⟨-, -, hver⟩ := hver
    · rw [hver, ← h.waiting]
      omega
    · rw [hver]
  · rw [hpending]
    obtain ⟨-, hnil, hver⟩ | ⟨-, hlength, hver⟩ := hver
    · rw [hver, hnil]
      exact Int.add_zero _
    · rw [hver, hlength]
      exact h.waiting
  · obtain ⟨rfl, hnil, -⟩ | ⟨rfl, -⟩ := hver
    · -- nothing waits any more, so what was covered is known
      intro p hp
      obtain hc | ⟨r, hr, -⟩ := (hview ▸ hle).covered p.1 p.2 (hwritten p hp)
      · exact hc
      · change some r ∈ manager.pending at hr
        rw [hnil] at hr
        exact absurd hr List.not_mem_nil
    · exact trivial

/-- The thread looks whether something was submitted since it began. -/
theorem Inv.check (h : Inv resolver trace s) (i : ι) {metaVer : Int} {written : List (Int × Int)}
    (hcall : s.calls i = .writing metaVer [] written) : Inv resolver (trace ++ [.checked i])
      (s.go i (if s.manager.isUpdatedSince metaVer then .flushing written else .sending written)) := by
  obtain ⟨hmeta, -, hwritten⟩ : Call.Fits resolver (s.view trace) s.manager.ver (.writing metaVer [] written) :=
    hcall ▸ h.calls i
  have hcovered : ∀ p ∈ written, (s.view trace).Covered p.1 p.2 := fun p hp =>
    (hwritten p hp).resolve_right fun ⟨_, hmem, _⟩ => List.not_mem_nil hmem
  refine h.go rfl ?_
  split
  · exact hcovered
  · next hnot =>
    -- the version is what it was, so no submission waits
    have hnil : s.manager.pending = [] := by
      have hle : s.manager.pendingVer ≤ metaVer := by simpa [BinaryTypeManager.isUpdatedSince] using hnot
      have hwaiting := h.waiting
      exact List.length_eq_zero_iff.mp (by omega)
    intro p hp
    refine (hcovered p hp).resolve_right fun ⟨r, hr, _⟩ => ?_
    change some r ∈ s.manager.pending at hr
    rw [hnil] at hr
    exact List.not_mem_nil hr

theorem inv_step (h : Inv resolver trace s) (hstep : Step resolver s e s') (hfew : submissions (trace ++ [e]) < 2 ^ 31) :
    Inv resolver (trace ++ [e]) s' := by
  have hcall : ∀ {i : ι} {c : Call}, s.calls i = c → c.Fits resolver (s.view trace) s.manager.ver :=
    fun hc => hc ▸ h.calls _
  cases hstep with
  | begin i hidle =>
    refine h.go rfl ⟨Int.le_refl _, ?_, ?_⟩
    · exact fun frame hframe => absurd hframe List.not_mem_nil
    · exact fun p hp => absurd hp List.not_mem_nil
  | openKnown i typeId hwriting hlookup =>
    obtain ⟨hmeta, hframes, hwritten⟩ := hcall hwriting
    refine h.go rfl ⟨hmeta, ?_, fun p hp => (hwritten p hp).imp_right ?_⟩
    · refine List.forall_mem_cons.mpr ⟨⟨?_, ?_, ?_, ?_⟩, hframes⟩
      · rintro r rfl
        exact h.lookup hlookup
      all_goals exact fun _ hsnap => nomatch hsnap
    · exact fun ⟨frame, hframe, hdraft⟩ => ⟨frame, List.mem_cons_of_mem _ hframe, hdraft⟩
  | openNew i typeName affFieldName typeId hwriting hlookup =>
    obtain ⟨hmeta, hframes, hwritten⟩ := hcall hwriting
    have htold : Told (trace ++ [.opened i typeId]) = Told trace := told_quiet fun _ _ h => h
    have hview : State.view { s with store := s.store.alloc { typeName, affFieldName, typeId } } (trace ++ [.opened i typeId]) =
        (s.view trace).alloc { typeName, affFieldName, typeId } := by
      rw [State.view, htold]
      rfl
    have hle : (s.view trace).Le ((s.view trace).alloc { typeName, affFieldName, typeId }) := h.kept.le_alloc
    have hkept : ((s.view trace).alloc { typeName, affFieldName, typeId }).Kept :=
      h.kept.alloc fun f hf => absurd hf (SortedSet.not_mem_empty f)
    refine h.move (hview ▸ hkept) (hview ▸ hle) (Int.le_refl _) h.waiting ?_ ⟨hmeta, ?_, fun p hp => ?_⟩
    · rw [submissions_snoc, h.count]
      rfl
    · rw [hview]
      refine List.forall_mem_cons.mpr ⟨⟨?_, ?_, ?_, ?_⟩, fun frame hframe => (hframes frame hframe).mono hle⟩
      · rintro _ ⟨⟩
        refine ⟨Nat.lt_succ_self _, ?_⟩
        change ((s.store.alloc _).cell s.store.next).typeId = typeId
        rw [View.cell_alloc_next]
      all_goals exact fun _ hsnap => nomatch hsnap
    · rw [hview]
      exact (hwritten p hp).imp (hle.covered _ _) fun ⟨frame, hframe, hdraft⟩ => ⟨frame, List.mem_cons_of_mem _ hframe, hdraft⟩
  | write i fieldName fieldTypeId hwriting hwrite =>
    obtain ⟨hmeta, hframes, hwritten⟩ := hcall hwriting
    obtain ⟨hfits, hnew, hold⟩ := Frame.Fits.write h.kept (hframes _ List.mem_cons_self) hwrite
    refine h.go rfl ⟨hmeta, ?_, List.forall_mem_cons.mpr ⟨?_, fun p hp => ?_⟩⟩
    · exact List.forall_mem_cons.mpr ⟨hfits, fun x hx => hframes x (List.mem_cons_of_mem _ hx)⟩
    · exact hnew.imp_right fun hdraft => ⟨_, List.mem_cons_self, rfl, hdraft⟩
    · obtain hc | ⟨x, hx, ht, hdraft⟩ := hwritten p hp
      · exact .inl hc
      · obtain rfl | hx := List.mem_cons.mp hx
        · exact (hold _ hdraft).imp (fun hc => ht ▸ hc) fun hdraft => ⟨_, List.mem_cons_self, ht, hdraft⟩
        · exact .inr ⟨x, List.mem_cons_of_mem _ hx, ht, hdraft⟩
  | submit i hwriting hupdate => exact h.submit i hwriting hupdate hfew
  | close i hwriting hupdate =>
    obtain ⟨hmeta, hframes, hwritten⟩ := hcall hwriting
    refine h.go rfl ⟨hmeta, fun x hx => hframes x (List.mem_cons_of_mem _ hx), fun p hp => ?_⟩
    refine (hwritten p hp).imp_right fun ⟨x, hx, ht, hdraft⟩ => ?_
    obtain rfl | hx := List.mem_cons.mp hx
    · obtain ⟨snap, hsnap, -⟩ := hdraft
      cases hupdate.symm.trans hsnap
    · exact ⟨x, hx, ht, hdraft⟩
  | check i hwriting => exact h.check i hwriting
  | flush i update hflushing hflush => exact h.flush i hflushing hflush
  | getMeta i typeId reply _ hmeta _ => exact h.getMeta i typeId reply hmeta
  | setUpdater updater =>
    have htold : Told (trace ++ [.updaterSet updater]) = Told trace := told_quiet fun _ _ h => h
    refine ⟨?_, h.waiting, ?_, fun j => ?_⟩
    · rw [State.view, htold]
      exact h.kept
    · rw [submissions_snoc]
      exact h.count
    · rw [State.view, htold]
      exact h.calls j
  | openCrash | writeCrash | abort | handOver | getMetaCrash => exact h.go rfl trivial

theorem inv_of_run (h : Run (Step resolver) (initial ι) trace s) : submissions trace < 2 ^ 31 → Inv resolver trace s := by
  refine h.induct (fun _ => inv_initial) fun trace t e u _ ih hstep hfew => ?_
  refine inv_step (ih ?_) hstep hfew
  rw [submissions_snoc] at hfew
  omega

/-- **Metadata goes first**: in every run of the threads, whoever is about to
hand over the memory it wrote has told the other side of every field in it, or
someone else has. -/
theorem told_of_sending (h : Run (Step resolver) (initial ι) trace s) (hfew : submissions trace < 2 ^ 31) {i : ι}
    {written : List (Int × Int)} (hsending : s.calls i = .sending written) {t f : Int} (hmem : (t, f) ∈ written) :
    Told trace t f := by
  have hfits := (inv_of_run h hfew).calls i
  rw [hsending] at hfits
  exact hfits (t, f) hmem

theorem told_of_sending_one : ∃ trace : List (Event Unit), ∃ s : State Unit,
    Run (Step fun _ _ => 7) (initial Unit) trace s ∧ s.calls () = .sending [(1, 7)] ∧ Told trace 1 7 := by
  have hstart : Run (Step fun _ _ => 7) (initial Unit) [] (initial Unit) := .nil
  have hrun := ((((((hstart.snoc
    (.setUpdater true)).snoc
    (.begin () rfl)).snoc
    (.openNew () "T" "" 1 rfl rfl)).snoc
    (.write () "a" 3 rfl rfl)).snoc
    (.submit () rfl rfl)).snoc
    (.check () rfl)).snoc
    (.flush () (fun _ => true) rfl rfl)
  exact ⟨_, _, hrun, rfl, told_of_sending hrun (by decide) (i := ()) rfl List.mem_cons_self⟩

end

end BinaryTypes

end DocumentDbOdbc
