/-
The offset of the bound columns and the pointer it is read from.

The pointer is an attribute of the statement and the offset a field of every
bound buffer; a fetch copies the one to the other while the pointer is not
null, and leaves the buffers alone when it is. `History` is what the
application can know: what it bound, and the last offset it had a fetch read.
The buffers hold that offset, or zero if they were bound since
(`run_follows`), so a fetch under a null pointer finds the right offset
exactly if that is zero (`internalFetchRow_tracks_iff`).
-/
import DocumentDbOdbc.StatementFacts

namespace DocumentDbOdbc

open Effect

/-! ## Buffers that are alike -/

namespace ApplicationDataBuffer

/-- The buffer bound `offset` bytes further. -/
def movedBy (b : ApplicationDataBuffer) (offset : Int) : ApplicationDataBuffer :=
  { b with buffer := b.buffer.map (· + offset), reslen := b.reslen.map (· + offset), byteOffset := 0 }

/-- Reads do the same with the two buffers, at the same addresses. -/
structure Alike (P : Platform) (b b' : ApplicationDataBuffer) : Prop where
  read_eq : ∀ c : DocumentDbColumn, c.readToBuffer P b = c.readToBuffer P b'
  resolve_eq : ∀ s, b.resolve s = b'.resolve s

theorem alike_movedBy (P : Platform) (b : ApplicationDataBuffer) (offset : Int) (i : Nat) :
    Alike P { b with byteOffset := offset, elementOffset := i } { b.movedBy offset with elementOffset := i } := by
  obtain ⟨type, buffer, buflen, reslen, byteOffset, elementOffset, hrange⟩ := b
  constructor
  · intro c
    -- a read asks only whether the pointers are null
    cases buffer <;> cases reslen <;> rfl
  · intro s
    have hptr : ∀ (p : Option Int) (size : Int),
        p.map (· + (offset + size * i)) = (p.map (· + offset)).map (· + (0 + size * i)) := by
      intro p size
      cases p with
      | none => rfl
      | some p => simp only [Option.map_some, Option.some.injEq]; omega
    obtain ⟨region, at_, bytes⟩ := s
    cases region with
    | data => exact congrArg (Option.map _) (hptr buffer _)
    | indicator => exact congrArg (Option.map _) (hptr reslen 8)

end ApplicationDataBuffer

namespace ColumnBindingMap

/-- Every column bound `offset` bytes further. -/
def movedBy (m : ColumnBindingMap) (offset : Int) : ColumnBindingMap := fun k => (m k).map (·.movedBy offset)

/-- The same columns are bound, to buffers that are alike. -/
def Alike (P : Platform) (m m' : ColumnBindingMap) : Prop :=
  ∀ k, Option.Rel (ApplicationDataBuffer.Alike P) (m k) (m' k)

theorem alike_movedBy (P : Platform) (m : ColumnBindingMap) (offset : Int) (i : Nat) :
    Alike P ((m.setByteOffset offset).setElementOffset i) ((m.movedBy offset).setElementOffset i) := by
  intro k
  unfold setByteOffset setElementOffset movedBy
  dsimp only
  cases m k with
  | none => exact .none
  | some b => exact .some (b.alike_movedBy P offset i)

end ColumnBindingMap

/-! ## Fetches into buffers that are alike -/

namespace DataQuery

variable {P : Platform} {m m' : ColumnBindingMap}

theorem readColumn_alike {result : ResultColumns} (row : DocumentDbRow result) (i : Nat)
    {b b' : ApplicationDataBuffer} (h : b.Alike P b') : readColumn P row i b = readColumn P row i b' := by
  have hread : row.readColumnToBuffer P i b = row.readColumnToBuffer P i b' := by
    unfold DocumentDbRow.readColumnToBuffer
    split
    · rfl
    · cases row.ensureColumnDiscovered i with
      | error e => rfl
      | ok row =>
        dsimp only
        cases row.columns[i - 1]? with
        | none => rfl
        | some c => exact congrArg (Prod.mk row) (h.read_eq c)
  have hwrites : ∀ x, b.writesOf x = b'.writesOf x := by
    intro x
    unfold ApplicationDataBuffer.writesOf
    rw [funext h.resolve_eq]
  simp only [readColumn, hread, hwrites]

theorem fetchColumns_alike {result : ResultColumns} (h : m.Alike P m') (is : List Nat)
    (row : DocumentDbRow result) : fetchColumns P m is row = fetchColumns P m' is row := by
  induction is generalizing row with
  | nil => rfl
  | cons i is ih =>
    have hk := h (UInt16.ofNat i)
    unfold fetchColumns
    generalize m (UInt16.ofNat i) = x at hk
    generalize m' (UInt16.ofNat i) = y at hk
    cases hk with
    | none => exact ih row
    | some hb =>
      dsimp only
      rw [readColumn_alike row i hb, ih]

theorem fetchNextRow_alike (h : m.Alike P m') (q : DataQuery) : q.fetchNextRow P m = q.fetchNextRow P m' := by
  unfold fetchNextRow
  simp only [fetchColumns_alike h]

end DataQuery

namespace Statement

variable {P : Platform}

theorem fetchRows_alike {m m' : ColumnBindingMap}
    (h : ∀ i, (m.setElementOffset i).Alike P (m'.setElementOffset i)) (rowStatuses : Option Int)
    (rows i : Nat) (fetched errors : Int) (q : DataQuery) :
    fetchRows P rowStatuses m rows i fetched errors q = fetchRows P rowStatuses m' rows i fetched errors q := by
  induction rows generalizing i fetched errors q with
  | zero => rfl
  | succ rows ih =>
    unfold fetchRows
    rw [DataQuery.fetchNextRow_alike (h i)]
    simp only [ih]

/-! ## What the application does and knows -/

/-- A call of the application. Preparing, executing and closing replace the
query. -/
inductive AppCall where
  | call (call : Call)
  | setAttribute (a : RowAttribute)
  | unbindAllColumns
  | resetQuery (query : Option DataQuery)

def appStep (P : Platform) (st : Statement) : AppCall → Statement
  | .call call => st.step P call
  | .setAttribute a => (st.internalSetAttribute a).1
  | .unbindAllColumns => st.safeUnbindAllColumns
  | .resetQuery query => { st with currentQuery := query }

/-- The offset the attribute designates when the fetch reads it, right after it
has cleared the number of rows. -/
def designatedOffset (st : Statement) (m : Memory.Mem) : Int :=
  st.columnBindOffset.elim 0 (readInt32 (memoryAfter m (st.storeRowsFetched 0)))

/-- The columns as they were bound; the offset of the last fetch that had a
pointer to read it from; and the columns that were bound since. -/
structure History where
  bound : ColumnBindingMap := fun _ => none
  lastOffset : Int := 0
  boundSince : UInt16 → Bool := fun _ => true

/-- `BindColumn` takes the arguments. -/
def accepts (targetType : Int) (bufferLength : Int64) : Bool :=
  toDriverType targetType != .unsupported && !(bufferLength < 0)

/-- What the application knows after a call, from what it knew and the statement
before. -/
def History.step (h : History) (st : Statement) : AppCall → History
  | .call (.bindColumn columnIdx targetType targetValue bufferLength strLengthOrIndicator) =>
    { h with
      bound := ({ st with columnBindings := h.bound }.internalBindColumn columnIdx targetType targetValue
        bufferLength strLengthOrIndicator).1.columnBindings
      boundSince := fun k =>
        h.boundSince k || (k = columnIdx && accepts targetType bufferLength) }
  | .call (.fetchRow m) =>
    if st.currentQuery.isSome && st.columnBindOffset.isSome then
      { h with lastOffset := st.designatedOffset m, boundSince := fun _ => false }
    else h
  | .setAttribute _ | .resetQuery _ => h
  | .unbindAllColumns => { h with bound := fun _ => none }

/-- The statement and what the application knows of it after these calls. -/
def appRun (P : Platform) (s : Statement × History) (calls : List AppCall) : Statement × History :=
  calls.foldl (fun s call => (s.1.appStep P call, s.2.step s.1 call)) s

/-! ## The offset in the buffers -/

/-- The buffers are those that were bound, with the last offset in those that
were not bound since. -/
structure Follows (st : Statement) (h : History) : Prop where
  binding_eq : ∀ k, st.columnBindings k =
    (h.bound k).map fun b => { b with byteOffset := if h.boundSince k then 0 else h.lastOffset }
  bound_some : ∀ k b, h.bound k = some b → b.byteOffset = 0 ∧ (b.buffer.isSome ∨ b.reslen.isSome)

section

variable {st : Statement} {h : History}

/-- A refused `BindColumn` leaves the bindings, an accepted one replaces one. -/
theorem internalBindColumn_cases (columnIdx : UInt16) (targetType : Int) (targetValue : Option Int)
    (bufferLength : Int64) (strLengthOrIndicator : Option Int) :
    (accepts targetType bufferLength = false ∧ ∀ st : Statement,
      (st.internalBindColumn columnIdx targetType targetValue bufferLength strLengthOrIndicator).1 = st) ∨
    (accepts targetType bufferLength = true ∧ ∃ binding : Option ApplicationDataBuffer,
      (∀ b, binding = some b → b.byteOffset = 0 ∧ (b.buffer.isSome ∨ b.reslen.isSome)) ∧
      ∀ st : Statement,
        (st.internalBindColumn columnIdx targetType targetValue bufferLength strLengthOrIndicator).1 =
          { st with columnBindings := fun k => if k = columnIdx then binding else st.columnBindings k }) := by
  unfold internalBindColumn accepts
  by_cases htype : toDriverType targetType = .unsupported
  · refine .inl ⟨by simp [htype], fun st => ?_⟩
    rw [if_pos htype]
  by_cases hlen : bufferLength < 0
  · refine .inl ⟨by simp [hlen], fun st => ?_⟩
    rw [if_neg htype, if_pos hlen]
  refine .inr ⟨by simp [htype, hlen], _, ?_, fun st => by rw [if_neg htype, if_neg hlen]⟩
  intro b hb
  split at hb
  · next hptr =>
    obtain rfl := Option.some.inj hb
    exact ⟨rfl, by simpa using hptr⟩
  · cases hb

theorem Follows.bindColumn (hf : Follows st h) (columnIdx : UInt16) (targetType : Int)
    (targetValue : Option Int) (bufferLength : Int64) (strLengthOrIndicator : Option Int) :
    Follows (st.internalBindColumn columnIdx targetType targetValue bufferLength strLengthOrIndicator).1
      (h.step st (.call (.bindColumn columnIdx targetType targetValue bufferLength strLengthOrIndicator))) := by
  unfold History.step
  dsimp only
  rcases internalBindColumn_cases columnIdx targetType targetValue bufferLength strLengthOrIndicator with
    ⟨hrefused, hkeep⟩ | ⟨haccepted, binding, hbinding, hbind⟩
  · rw [hkeep, hkeep, hrefused]
    simpa using hf
  · rw [hbind, hbind, haccepted]
    constructor
    · intro k
      by_cases hk : k = columnIdx
      · simp only [hk, if_true, decide_true, Bool.and_true, Bool.or_true]
        cases binding with
        | none => rfl
        | some b =>
          have hzero := (hbinding b rfl).1
          simp only [Option.map_some, ← hzero]
      · simp only [hk, if_false, decide_false, Bool.false_and, Bool.or_false]
        exact hf.binding_eq k
    · intro k b hb
      dsimp only at hb
      split at hb
      · exact hbinding b hb
      · exact hf.bound_some k b hb

theorem rowsetBindings_eq (m : Memory.Mem) {p : Int} (hp : st.columnBindOffset = some p) :
    st.rowsetBindings m = st.columnBindings.setByteOffset (st.designatedOffset m) := by
  unfold rowsetBindings offsetBindings designatedOffset
  rw [hp, Option.elim_some, Option.elim_some]

theorem rowsetBindings_of_null (m : Memory.Mem) (hp : st.columnBindOffset = none) :
    st.rowsetBindings m = st.columnBindings := by
  unfold rowsetBindings offsetBindings
  rw [hp]
  rfl

theorem designatedOffset_of_null (m : Memory.Mem) (hp : st.columnBindOffset = none) :
    st.designatedOffset m = 0 := by
  unfold designatedOffset
  rw [hp]
  rfl

theorem Follows.fetchRow (hf : Follows st h) (m : Memory.Mem) :
    Follows (st.internalFetchRow P m).1 (h.step st (.call (.fetchRow m))) := by
  unfold internalFetchRow History.step
  cases st.currentQuery with
  | none => exact hf
  | some q =>
    cases hp : st.columnBindOffset with
    | none =>
      refine ⟨fun k => ?_, hf.bound_some⟩
      exact (congrFun (rowsetBindings_of_null m hp) k).trans (hf.binding_eq k)
    | some p =>
      refine ⟨fun k => ?_, hf.bound_some⟩
      show st.rowsetBindings m k = (h.bound k).map fun b => { b with byteOffset := st.designatedOffset m }
      rw [rowsetBindings_eq m hp, ColumnBindingMap.setByteOffset, hf.binding_eq k]
      cases h.bound k <;> rfl

theorem Follows.appStep (hf : Follows st h) (call : AppCall) :
    Follows (st.appStep P call) (h.step st call) := by
  cases call with
  | call call =>
    cases call with
    | bindColumn columnIdx targetType targetValue bufferLength strLengthOrIndicator =>
      exact hf.bindColumn columnIdx targetType targetValue bufferLength strLengthOrIndicator
    | fetchRow m => exact hf.fetchRow m
  | setAttribute a =>
    -- no attribute touches the bindings
    have hkeep : (st.internalSetAttribute a).1.columnBindings = st.columnBindings := by
      unfold internalSetAttribute
      cases a <;> first | rfl | (dsimp only; split <;> rfl)
    exact ⟨fun k => (congrFun hkeep k).trans (hf.binding_eq k), hf.bound_some⟩
  | unbindAllColumns => exact ⟨fun k => rfl, fun k b hb => by cases hb⟩
  | resetQuery query => exact ⟨hf.binding_eq, hf.bound_some⟩

theorem run_follows (hf : Follows st h) (calls : List AppCall) :
    Follows (appRun P (st, h) calls).1 (appRun P (st, h) calls).2 := by
  induction calls generalizing st h with
  | nil => exact hf
  | cons call calls ih => exact ih (hf.appStep call)

end

/-! ## The offset of a fetch -/

/-- Every store of the fetch to a bound column goes where it would go if the
column were bound further by the offset the attribute designates, and all in
all the fetch does what it would do then without a pointer. -/
def TracksOffset (P : Platform) (s : Statement × History) (m : Memory.Mem) : Prop :=
  let moved := s.2.bound.movedBy (s.1.designatedOffset m)
  (s.1.currentQuery.isSome → ∀ (k : UInt16) (i : Nat) (store : Store),
    ((s.1.rowsetBindings m).setElementOffset i k).bind (·.resolve store) =
      (moved.setElementOffset i k).bind (·.resolve store)) ∧
  (s.1.internalFetchRow P m).2 =
    ({ s.1 with columnBindings := moved, columnBindOffset := none }.internalFetchRow P m).2

/-- The cursor is closed, the pointer is not null, the last offset that was read
is zero, or no column is bound from before it was read. -/
def OffsetFresh (s : Statement × History) : Prop :=
  s.1.currentQuery = none ∨ s.1.columnBindOffset.isSome ∨ s.2.lastOffset = 0 ∨
    ∀ k, (s.2.bound k).isSome → s.2.boundSince k = true

theorem Follows.rowsetBindings_of_fresh {s : Statement × History} (hf : Follows s.1 s.2) (m : Memory.Mem)
    (hfresh : s.1.columnBindOffset.isSome ∨ s.2.lastOffset = 0 ∨
      ∀ k, (s.2.bound k).isSome → s.2.boundSince k = true) :
    s.1.rowsetBindings m = s.2.bound.setByteOffset (s.1.designatedOffset m) := by
  funext k
  cases hp : s.1.columnBindOffset with
  | some p =>
    rw [rowsetBindings_eq m hp, ColumnBindingMap.setByteOffset, hf.binding_eq k, ColumnBindingMap.setByteOffset]
    cases s.2.bound k <;> rfl
  | none =>
    rw [rowsetBindings_of_null m hp, designatedOffset_of_null m hp, hf.binding_eq k, ColumnBindingMap.setByteOffset]
    rcases hfresh with hp' | hlast | hsince
    · rw [hp] at hp'
      cases hp'
    · rw [hlast, ite_self]
    · cases hb : s.2.bound k with
      | none => rfl
      | some b => rw [hsince k (by rw [hb]; rfl)]; rfl

theorem Follows.tracks_of_fresh {s : Statement × History} (hf : Follows s.1 s.2) (m : Memory.Mem)
    (hfresh : OffsetFresh s) : TracksOffset P s m := by
  rcases hfresh with hq | hfresh
  · refine ⟨fun h => absurd h (by simp [hq]), ?_⟩
    unfold internalFetchRow
    rw [hq]
    rfl
  have halike : ∀ i, ((s.1.rowsetBindings m).setElementOffset i).Alike P
      ((s.2.bound.movedBy (s.1.designatedOffset m)).setElementOffset i) := by
    intro i
    rw [hf.rowsetBindings_of_fresh m hfresh]
    exact ColumnBindingMap.alike_movedBy P s.2.bound _ i
  constructor
  · intro _ k i store
    have hk := halike i k
    generalize (s.1.rowsetBindings m).setElementOffset i k = x at hk ⊢
    generalize (s.2.bound.movedBy (s.1.designatedOffset m)).setElementOffset i k = y at hk ⊢
    cases hk with
    | none => rfl
    | some hb => exact hb.resolve_eq store
  · unfold internalFetchRow
    cases s.1.currentQuery with
    | none => rfl
    | some q =>
      dsimp only
      rw [fetchRows_alike halike]
      rfl

theorem Follows.fresh_of_tracks {s : Statement × History} (hf : Follows s.1 s.2) {m : Memory.Mem}
    (htracks : TracksOffset P s m) : OffsetFresh s := by
  obtain ⟨hplaces, -⟩ := htracks
  cases hq : s.1.currentQuery with
  | none => exact .inl hq
  | some q =>
    refine .inr ?_
    cases hp : s.1.columnBindOffset with
    | some p => exact .inl rfl
    | none =>
      refine .inr (or_iff_not_imp_left.mpr fun hlast k hbound => ?_)
      obtain ⟨b, hb⟩ := Option.isSome_iff_exists.mp hbound
      cases hsince : s.2.boundSince k with
      | true => rfl
      | false =>
        -- the stale offset shows at whichever pointer of the column is not null
        have hplace : ∀ store, ({ b with byteOffset := s.2.lastOffset, elementOffset := 0 }).resolve store =
            ({ b.movedBy 0 with elementOffset := 0 }).resolve store := by
          intro store
          have hstore := hplaces (by rw [hq]; rfl) k 0 store
          rw [ColumnBindingMap.setElementOffset, rowsetBindings_of_null m hp, hf.binding_eq k,
            ColumnBindingMap.setElementOffset, ColumnBindingMap.movedBy, hb, hsince, designatedOffset_of_null m hp] at hstore
          exact hstore
        rcases (hf.bound_some k b hb).2 with hptr | hptr
        · obtain ⟨p, hptr⟩ := Option.isSome_iff_exists.mp hptr
          have hdata := hplace ⟨.data, 0, []⟩
          simp [ApplicationDataBuffer.resolve, ApplicationDataBuffer.getData,
            ApplicationDataBuffer.applyOffset, ApplicationDataBuffer.movedBy, hptr] at hdata
          exact absurd hdata hlast
        · obtain ⟨p, hptr⟩ := Option.isSome_iff_exists.mp hptr
          have hind := hplace ⟨.indicator, 0, []⟩
          simp [ApplicationDataBuffer.resolve, ApplicationDataBuffer.getResLen,
            ApplicationDataBuffer.applyOffset, ApplicationDataBuffer.movedBy, hptr] at hind
          exact absurd hind hlast

/-- **The row bind offset.** After any calls, the next fetch writes the columns
at their bound addresses and the offset the attribute designates if and only if
no column is bound from before a fetch that read another offset than zero while
the pointer has since become null. -/
theorem internalFetchRow_tracks_iff (P : Platform) (st : Statement) (calls : List AppCall) (m : Memory.Mem) :
    let s := appRun P ({ st with columnBindings := fun _ => none }, {}) calls
    TracksOffset P s m ↔ OffsetFresh s := by
  intro s
  have hf : Follows s.1 s.2 := run_follows ⟨fun k => rfl, fun k b hb => by cases hb⟩ calls
  exact ⟨hf.fresh_of_tracks, hf.tracks_of_fresh m⟩

/-- A column bound at 100, a row fetched at offset 8, the pointer set to null:
the next row goes to 108. -/
theorem internalFetchRow_stale_offset :
    let query : DataQuery := ((DataQuery.mk none).execute
      (.opened [[(ascii "a", .binary [1])], [(ascii "a", .binary [2])]] ⟨[.varbinary], [ascii "a"]⟩)).1
    let m : Memory.Mem := fun a => if a = 0 then 8 else 0
    let s := appRun .unixOdbc ({ currentQuery := some query }, {})
      [.call (.bindColumn 1 (-2) (some 100) 4 none), .setAttribute (.bindOffsetPtr (some 0)),
        .call (.fetchRow m), .setAttribute (.bindOffsetPtr none)]
    s.1.columnBindOffset = none ∧ (s.1.internalFetchRow .unixOdbc m).2.log = [.write ⟨108, [2]⟩] ∧
      ¬ TracksOffset .unixOdbc s m := by
  refine ⟨rfl, by decide, fun htracks => ?_⟩
  obtain ⟨hplaces, -⟩ := htracks
  exact absurd (hplaces rfl 1 0 ⟨.data, 0, []⟩) (by decide)

end Statement

end DocumentDbOdbc
