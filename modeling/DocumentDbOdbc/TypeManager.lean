/-
The metadata of binary types, and the threads that write objects at the same
time.

What a type's objects have for fields is kept in snapshots that shared pointers
hand around: a thread notes the fields it writes in a snapshot of its own and
submits it, a flush sends what was submitted to the other side. A step is one
section under the manager's lock, one atomic read of a version, or a write into
what is the thread's own.
-/
import DocumentDbOdbc.Lib.Run
import DocumentDbOdbc.Lib.SortedMap
import DocumentDbOdbc.Lib.SortedSet
import Mathlib.Data.String.Basic

namespace DocumentDbOdbc

namespace BinaryTypes

structure BinaryFieldMeta where
  typeId : Int
  fieldId : Int

/-- `BinaryTypeSnapshot`; the ids of its fields are among those it knows. -/
structure BinaryTypeSnapshot where
  typeName : String
  affFieldName : String
  typeId : Int
  fieldIds : SortedSet Int := .empty
  fields : SortedMap String BinaryFieldMeta := .empty
  known : ∀ name field, fields.find name = some field → field.fieldId ∈ fieldIds := by intro _ _ h; cases h

namespace BinaryTypeSnapshot

variable (snap : BinaryTypeSnapshot)

def containsFieldId (fieldId : Int) : Bool := decide (fieldId ∈ snap.fieldIds)

def hasFields : Bool := !snap.fieldIds.toList.isEmpty

def addField (fieldId : Int) (fieldName : String) (fieldTypeId : Int) : BinaryTypeSnapshot :=
  { snap with
    fieldIds := snap.fieldIds.emplace fieldId
    fields := snap.fields.upsert fieldName fun _ => ⟨fieldTypeId, fieldId⟩
    known := by
      intro name field h
      rw [SortedMap.find_upsert] at h
      rw [SortedSet.mem_emplace]
      split at h
      · cases h
        exact .inl rfl
      · exact .inr (snap.known name field h) }

/-- What is there already is kept. -/
def copyFieldsFrom (another : Option BinaryTypeSnapshot) : BinaryTypeSnapshot :=
  match another with
  | some another =>
    if another.hasFields then
      { snap with
        fieldIds := snap.fieldIds.emplaceAll another.fieldIds.toList
        fields := snap.fields.insertRange another.fields
        known := by
          intro name field h
          rw [SortedMap.find_insertRange, Option.or_eq_some_iff] at h
          rw [SortedSet.mem_emplaceAll, SortedSet.mem_toList]
          exact h.imp (snap.known name field) fun h => another.known name field h.2 }
    else snap
  | none => snap

/-- A field with this id is among the fields, which is what an update sends. -/
def Tells (fieldId : Int) : Prop := ∃ name, ∃ field, snap.fields.find name = some field ∧ field.fieldId = fieldId

theorem mem_of_tells {fieldId : Int} (h : snap.Tells fieldId) : fieldId ∈ snap.fieldIds := by
  obtain ⟨name, field, hfind, rfl⟩ := h
  exact snap.known name field hfind

theorem mem_addField {f f' tid : Int} {name : String} :
    f' ∈ (snap.addField f name tid).fieldIds ↔ f' = f ∨ f' ∈ snap.fieldIds := SortedSet.mem_emplace

theorem find_addField {f tid : Int} {name name' : String} :
    (snap.addField f name tid).fields.find name' = if name' = name then some ⟨tid, f⟩ else snap.fields.find name' :=
  SortedMap.find_upsert _ _ _ _

theorem tells_addField (f tid : Int) (name : String) : (snap.addField f name tid).Tells f :=
  ⟨name, ⟨tid, f⟩, by rw [find_addField, if_pos rfl], rfl⟩

variable {snap} {another : Option BinaryTypeSnapshot} {f : Int}

theorem typeId_copyFieldsFrom : (snap.copyFieldsFrom another).typeId = snap.typeId := by
  unfold copyFieldsFrom
  split
  · split <;> rfl
  · rfl

theorem mem_copyFieldsFrom (h : f ∈ (snap.copyFieldsFrom another).fieldIds) :
    f ∈ snap.fieldIds ∨ ∃ a, another = some a ∧ f ∈ a.fieldIds := by
  unfold copyFieldsFrom at h
  split at h
  · next a =>
    split at h
    · rw [SortedSet.mem_emplaceAll, SortedSet.mem_toList] at h
      exact h.imp_right fun h => ⟨a, rfl, h⟩
    · exact .inl h
  · exact .inl h

theorem Tells.copyFieldsFrom (h : snap.Tells f) : (snap.copyFieldsFrom another).Tells f := by
  obtain ⟨name, field, hfind, hid⟩ := h
  unfold BinaryTypeSnapshot.copyFieldsFrom
  split
  · split
    · exact ⟨name, field, by rw [SortedMap.find_insertRange, hfind, Option.some_or], hid⟩
    · exact ⟨name, field, hfind, hid⟩
  · exact ⟨name, field, hfind, hid⟩

theorem tells_of_copyFieldsFrom (h : (snap.copyFieldsFrom another).Tells f) :
    snap.Tells f ∨ ∃ a, another = some a ∧ a.Tells f := by
  unfold copyFieldsFrom at h
  split at h
  · next a =>
    split at h
    · obtain ⟨name, field, hfind, hid⟩ := h
      rw [SortedMap.find_insertRange, Option.or_eq_some_iff] at hfind
      exact hfind.imp (fun hfind => ⟨name, field, hfind, hid⟩) fun hfind => ⟨a, rfl, name, field, hfind.2, hid⟩
    · exact .inl h
  · exact .inl h

end BinaryTypeSnapshot

/-- `SPSnap`; `none` points to nothing. -/
abbrev SPSnap := Option Nat

/-- The snapshots that shared pointers point to. -/
structure Store where
  cell : Nat → BinaryTypeSnapshot
  next : Nat := 0

namespace Store

variable (store : Store)

/-- `new Snap`; the pointer to it is the old `next`. -/
def alloc (snap : BinaryTypeSnapshot) : Store := ⟨Function.update store.cell store.next snap, store.next + 1⟩

def set (r : Nat) (snap : BinaryTypeSnapshot) : Store := { store with cell := Function.update store.cell r snap }

def get (p : SPSnap) : Option BinaryTypeSnapshot := p.map store.cell

end Store

/-- What is noted in `updated` is the handler's own until it is submitted. -/
structure BinaryTypeHandler where
  origin : SPSnap
  updated : Option BinaryTypeSnapshot := none

/-- `OnFieldWritten`; `none` is an access through a null pointer. -/
def BinaryTypeHandler.onFieldWritten (hnd : BinaryTypeHandler) (store : Store) (fieldId : Int) (fieldName : String)
    (fieldTypeId : Int) : Option BinaryTypeHandler :=
  if (store.get hnd.origin).all fun origin => !origin.containsFieldId fieldId then
    match hnd.updated with
    | some updated => some { hnd with updated := updated.addField fieldId fieldName fieldTypeId }
    | none => (store.get hnd.origin).map fun origin => { hnd with updated := origin.addField fieldId fieldName fieldTypeId }
  else some hnd

structure BinaryTypeManager where
  snapshots : SortedMap Int SPSnap := .empty
  pending : List SPSnap := []
  /-- Whether there is an updater. -/
  updater : Bool := false
  pendingVer : Int := 0
  ver : Int := 0

/-- The loop over `pending` that `GetHandler` and `GetMeta` have: the outer
`none` is an access through a null pointer, the inner one that no snapshot has
the type. -/
def findPending (store : Store) (typeId : Int) : List SPSnap → Option (Option Nat)
  | [] => some none
  | none :: _ => none
  | some r :: rest => if (store.cell r).typeId = typeId then some (some r) else findPending store typeId rest

/-- How far `ProcessPendingUpdates` is: `passed` is what the elements of
`pending` it went over hold now, `sent` what the updater took. -/
structure Flush where
  store : Store
  snapshots : SortedMap Int SPSnap
  passed : List SPSnap := []
  sent : List BinaryTypeSnapshot := []

/-- A pending snapshot that the updater took goes into the map; where the type
has a snapshot there, the fields of that one are added to it first and the
element of `pending` is left with nothing. -/
def Flush.take (x : Flush) (r : Nat) : Flush :=
  let snap := x.store.cell r
  let elem := x.snapshots.find snap.typeId
  { store :=
      match elem with
      | none => x.store
      | some old => x.store.set r (snap.copyFieldsFrom (x.store.get old))
    snapshots := x.snapshots.upsert snap.typeId fun _ => some r
    passed := x.passed ++ [if elem.isSome then none else some r]
    sent := x.sent ++ [snap] }

/-- The loop of `ProcessPendingUpdates`; `update` is what the updater answers
to the calls in turn. Whether it went through, and what is left to go over. -/
def flushLoop (update : Nat → Bool) : List SPSnap → Flush → Flush × List SPSnap
  | [], x => (x, [])
  | none :: rest, x => flushLoop update rest { x with passed := x.passed ++ [none] }
  | some r :: rest, x => if update x.sent.length then flushLoop update rest (x.take r) else (x, some r :: rest)

namespace BinaryTypeManager

variable (m : BinaryTypeManager)

/-- `GetHandler` under the lock. -/
def lookup (store : Store) (typeId : Int) : Option (Option SPSnap) :=
  match m.snapshots.find typeId with
  | some p => some (some p)
  | none => (findPending store typeId m.pending).map (·.map some)

/-- `SubmitHandler` of a handler with an update, which is the new snapshot. -/
def submit (r : Nat) : BinaryTypeManager :=
  { m with pending := m.pending ++ [some r], pendingVer := (m.pendingVer + 1).bmod (2 ^ 32) }

def isUpdatedSince (oldVer : Int) : Bool := decide (m.pendingVer > oldVer)

/-- `ProcessPendingUpdates`: its result, and what the updater took. -/
def processPendingUpdates (store : Store) (update : Nat → Bool) :
    Bool × List BinaryTypeSnapshot × Store × BinaryTypeManager :=
  if m.updater then
    match flushLoop update m.pending { store := store, snapshots := m.snapshots } with
    | (x, []) => (true, x.sent, x.store, { m with snapshots := x.snapshots, pending := [], ver := m.pendingVer })
    | (x, rest) => (false, x.sent, x.store, { m with snapshots := x.snapshots, pending := x.passed ++ rest })
  else (false, [], store, m)

end BinaryTypeManager

/-! ## The threads -/

/-- What the updater answers to `GetMeta`. -/
inductive Reply where
  | error
  | notFound
  | found (typeName affFieldName : String) (fields : List (String × BinaryFieldMeta))

/-- What comes of a `GetMeta`. -/
inductive MetaResult where
  | crashed
  | threw
  | cached (p : SPSnap)
  /-- From the updater. -/
  | fetched (p : SPSnap)

/-- The snapshot made of a reply. -/
def readSnapshot (typeName affFieldName : String) (typeId : Int) (fields : List (String × BinaryFieldMeta)) :
    BinaryTypeSnapshot :=
  fields.foldl (fun snap f => snap.addField f.2.fieldId f.1 f.2.typeId) { typeName, affFieldName, typeId }

def BinaryTypeManager.getMeta (m : BinaryTypeManager) (store : Store) (typeId : Int) (reply : Reply) :
    MetaResult × Store × BinaryTypeManager :=
  match m.snapshots.find typeId with
  | some (some r) => (.cached (some r), store, m)
  | _ =>
    match findPending store typeId m.pending with
    | none => (.crashed, store, m)
    | some (some r) => (.cached (some r), store, m)
    | some none =>
      if m.updater then
        match reply with
        | .error => (.threw, store, m)
        -- a type that the other side does not know is cached as nothing
        | .notFound => (.fetched none, store, { m with snapshots := m.snapshots.upsert typeId (·.getD none) })
        | .found typeName affFieldName fields =>
          (.fetched (some store.next), store.alloc (readSnapshot typeName affFieldName typeId fields),
            { m with snapshots := m.snapshots.upsert typeId (·.getD (some store.next)) })
      else (.threw, store, m)

/-- A `WriteTopObject0` that is at its object: the type id of its writer, and
its handler. -/
structure Frame where
  typeId : Int
  handler : BinaryTypeHandler

/-- Where a thread is in `WriteTo`. An object is written inside the one that
has it as a field, the innermost first in `frames`; `written` are the fields
written so far, with the type of their object. -/
inductive Call where
  | idle
  | writing (metaVer : Int) (frames : List Frame) (written : List (Int × Int))
  /-- About to call `ProcessPendingUpdates`. -/
  | flushing (written : List (Int × Int))
  /-- `WriteTo` went well, the memory is handed over. -/
  | sending (written : List (Int × Int))
  | crashed

/-- What an observer sees of a step. -/
inductive Event (ι : Type) where
  | began (i : ι)
  | opened (i : ι) (typeId : Int)
  | wrote (i : ι) (typeId fieldId : Int)
  /-- `SubmitHandler`, and whether there was something to submit. -/
  | closed (i : ι) (submitted : Bool)
  | checked (i : ι)
  | flushed (i : ι) (sent : List BinaryTypeSnapshot) (ok : Bool)
  | handedOver (i : ι)
  | aborted (i : ι)
  | gotMeta (i : ι) (typeId : Int) (result : MetaResult) (reply : Reply)
  | updaterSet (updater : Bool)
  /-- An access through a null pointer. -/
  | crashed (i : ι)

structure State (ι : Type) where
  store : Store
  manager : BinaryTypeManager
  calls : ι → Call

variable {ι : Type} [DecidableEq ι]

def State.go (s : State ι) (i : ι) (c : Call) : State ι := { s with calls := Function.update s.calls i c }

/-- A step of one thread. `resolver` gives the id of a field by the type and
the name, as the types' resolvers do. -/
inductive Step (resolver : Int → String → Int) : State ι → Event ι → State ι → Prop
  | begin {s : State ι} (i : ι) (h : s.calls i = .idle) :
      Step resolver s (.began i) (s.go i (.writing s.manager.ver [] []))
  | openKnown {s : State ι} (i : ι) (typeId : Int) {metaVer : Int} {frames : List Frame} {written : List (Int × Int)}
      {p : SPSnap} (h : s.calls i = .writing metaVer frames written)
      (hlookup : s.manager.lookup s.store typeId = some (some p)) :
      Step resolver s (.opened i typeId) (s.go i (.writing metaVer (⟨typeId, { origin := p }⟩ :: frames) written))
  | openNew {s : State ι} (i : ι) (typeName affFieldName : String) (typeId : Int) {metaVer : Int}
      {frames : List Frame} {written : List (Int × Int)} (h : s.calls i = .writing metaVer frames written)
      (hlookup : s.manager.lookup s.store typeId = some none) :
      Step resolver s (.opened i typeId)
        (State.go { s with store := s.store.alloc { typeName, affFieldName, typeId } } i
          (.writing metaVer (⟨typeId, { origin := some s.store.next }⟩ :: frames) written))
  | openCrash {s : State ι} (i : ι) (typeId : Int) {metaVer : Int} {frames : List Frame} {written : List (Int × Int)}
      (h : s.calls i = .writing metaVer frames written) (hlookup : s.manager.lookup s.store typeId = none) :
      Step resolver s (.crashed i) (s.go i .crashed)
  | write {s : State ι} (i : ι) (fieldName : String) (fieldTypeId : Int) {metaVer : Int} {frame : Frame}
      {frames : List Frame} {written : List (Int × Int)} {handler : BinaryTypeHandler}
      (h : s.calls i = .writing metaVer (frame :: frames) written)
      (hwrite : frame.handler.onFieldWritten s.store (resolver frame.typeId fieldName) fieldName fieldTypeId = some handler) :
      Step resolver s (.wrote i frame.typeId (resolver frame.typeId fieldName))
        (s.go i (.writing metaVer (⟨frame.typeId, handler⟩ :: frames)
          ((frame.typeId, resolver frame.typeId fieldName) :: written)))
  | writeCrash {s : State ι} (i : ι) (fieldName : String) (fieldTypeId : Int) {metaVer : Int} {frame : Frame}
      {frames : List Frame} {written : List (Int × Int)} (h : s.calls i = .writing metaVer (frame :: frames) written)
      (hwrite : frame.handler.onFieldWritten s.store (resolver frame.typeId fieldName) fieldName fieldTypeId = none) :
      Step resolver s (.crashed i) (s.go i .crashed)
  | submit {s : State ι} (i : ι) {metaVer : Int} {frame : Frame} {frames : List Frame} {written : List (Int × Int)}
      {snap : BinaryTypeSnapshot} (h : s.calls i = .writing metaVer (frame :: frames) written)
      (hupdate : frame.handler.updated = some snap) :
      Step resolver s (.closed i true)
        (State.go { s with store := s.store.alloc snap, manager := s.manager.submit s.store.next } i
          (.writing metaVer frames written))
  | close {s : State ι} (i : ι) {metaVer : Int} {frame : Frame} {frames : List Frame} {written : List (Int × Int)}
      (h : s.calls i = .writing metaVer (frame :: frames) written) (hupdate : frame.handler.updated = none) :
      Step resolver s (.closed i false) (s.go i (.writing metaVer frames written))
  | check {s : State ι} (i : ι) {metaVer : Int} {written : List (Int × Int)} (h : s.calls i = .writing metaVer [] written) :
      Step resolver s (.checked i)
        (s.go i (if s.manager.isUpdatedSince metaVer then .flushing written else .sending written))
  | flush {s : State ι} (i : ι) (update : Nat → Bool) {written : List (Int × Int)} {ok : Bool}
      {sent : List BinaryTypeSnapshot} {store : Store} {manager : BinaryTypeManager}
      (h : s.calls i = .flushing written)
      (hflush : s.manager.processPendingUpdates s.store update = (ok, sent, store, manager)) :
      Step resolver s (.flushed i sent ok)
        (State.go { s with store, manager } i (if ok then .sending written else .idle))
  | handOver {s : State ι} (i : ι) {written : List (Int × Int)} (h : s.calls i = .sending written) :
      Step resolver s (.handedOver i) (s.go i .idle)
  /-- The object's `Write` throws. -/
  | abort {s : State ι} (i : ι) {metaVer : Int} {frames : List Frame} {written : List (Int × Int)}
      (h : s.calls i = .writing metaVer frames written) : Step resolver s (.aborted i) (s.go i .idle)
  | getMeta {s : State ι} (i : ι) (typeId : Int) (reply : Reply) {result : MetaResult} {store : Store}
      {manager : BinaryTypeManager} (h : s.calls i ≠ .crashed)
      (hmeta : s.manager.getMeta s.store typeId reply = (result, store, manager)) (hresult : result ≠ .crashed) :
      Step resolver s (.gotMeta i typeId result reply) { s with store, manager }
  | getMetaCrash {s : State ι} (i : ι) (typeId : Int) (reply : Reply) {store : Store} {manager : BinaryTypeManager}
      (h : s.calls i ≠ .crashed) (hmeta : s.manager.getMeta s.store typeId reply = (.crashed, store, manager)) :
      Step resolver s (.crashed i) (s.go i .crashed)
  | setUpdater {s : State ι} (updater : Bool) :
      Step resolver s (.updaterSet updater) { s with manager := { s.manager with updater } }

/-- Nothing is known of any type yet. -/
def initial (ι : Type) : State ι where
  store := { cell := fun _ => { typeName := "", affFieldName := "", typeId := 0 } }
  manager := {}
  calls := fun _ => .idle

end BinaryTypes

end DocumentDbOdbc
