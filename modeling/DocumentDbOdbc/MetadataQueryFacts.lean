/-
What a run of a metadata query delivers, and when `GetColumn` has a row.

`Stands` relates a query to the enumeration its calls describe: the iterator is
one into the rows of the last execution, and it is where so many fetches bring
it (`step_stands`). So a fetch delivers the next row or none, and never uses the
iterator where it must not (`run_enumerates`). `GetColumn` does not look at
`fetched`: between `Execute` and the first fetch it reads the first row
(`getColumn_needsRow_iff`).
-/
import DocumentDbOdbc.MetadataQuery
import DocumentDbOdbc.DataQueryFacts
import DocumentDbOdbc.Lib.Enumeration

namespace DocumentDbOdbc

open Effect

namespace MetadataQuery

variable {P : Platform} {c : MetadataClass}

/-! ## The rows of an execution -/

/-- What a call does to the enumeration. -/
def Call.op : Call c → Enumeration.Op c.Row
  | .execute (.rows metaVector) => .start metaVector
  | .execute (.failed _) | .close => .stop
  | .fetchNextRow _ => .next
  | .getColumn _ _ => .stay

/-- What `GetColumn` does with a row. -/
def columnOf (P : Platform) (row : c.Row) (columnIdx : UInt16) (b : ApplicationDataBuffer) :
    Action SqlResult :=
  match c.call P row columnIdx with
  | none => c.noColumn
  | some call => do
    let _ ← b.writesOf (b.put P call)
    pure .success

/-- The bound columns of a row, one after the other. -/
def deliver (P : Platform) (row : c.Row) (columnBindings : ColumnBindingMap) : List Nat → Action SqlResult
  | [] => pure .success
  | i :: is =>
    match columnBindings (UInt16.ofNat i) with
    | none => deliver P row columnBindings is
    | some b => do
      let _ ← columnOf P row (UInt16.ofNat i) b
      deliver P row columnBindings is

/-- The fetch of an enumeration: an error if it is closed, the row that is next,
or no data. -/
def fetchOf (P : Platform) (columnBindings : ColumnBindingMap) : Enumeration c.Row → Action SqlResult
  | none => diagnosed .sHY010SequenceError "Query was not executed." 0 0 .error
  | some (rows, k) =>
    match rows[k]? with
    | none => pure .noData
    | some row => deliver P row columnBindings bindingKeys

/-! ## The iterator -/

/-- The iterator of an open query is into its rows, where `k` fetches bring it. -/
structure StandsAt (q : MetadataQuery c) (rows : List c.Row) (k : Nat) : Prop where
  executed : q.executed = true
  meta_eq : q.metaVector = rows
  fetched_iff : q.fetched = true ↔ k ≠ 0
  cursor_eq : q.cursor = some ⟨q.filling, min (k - 1) rows.length⟩

def Stands (q : MetadataQuery c) : Enumeration c.Row → Prop
  | none => q.executed = false
  | some (rows, k) => q.StandsAt rows k

section

variable {q : MetadataQuery c} {rows : List c.Row} {k : Nat}

theorem StandsAt.position_eq (h : q.StandsAt rows k) : q.position = .ok (min (k - 1) rows.length) := by
  unfold position
  rw [h.cursor_eq]
  dsimp only
  rw [if_pos ⟨rfl, h.meta_eq ▸ Nat.min_le_right _ _⟩]

theorem StandsAt.atEnd_eq (h : q.StandsAt rows k) : q.atEnd = .ok (decide (rows.length ≤ k - 1)) := by
  unfold atEnd
  rw [h.position_eq, h.meta_eq]
  show Except.ok _ = _
  congr 1
  rw [Bool.eq_iff_iff, beq_iff_eq, decide_eq_true_iff]
  omega

theorem StandsAt.current_eq (h : q.StandsAt rows k) {row : c.Row} (hrow : rows[k - 1]? = some row) :
    q.current = .ok row := by
  have hlt := (List.getElem?_eq_some_iff.mp hrow).1
  have hmin : min (k - 1) rows.length = k - 1 := by omega
  unfold current
  rw [h.position_eq, h.meta_eq, hmin]
  simp only [bind, Except.bind, hrow]
  rfl

/-- The iterator goes where one fetch more brings it. -/
theorem StandsAt.moveCursor (h : q.StandsAt rows k) : ∃ q', q.moveCursor = .ok q' ∧ q'.StandsAt rows (k + 1) := by
  unfold MetadataQuery.moveCursor
  by_cases hk : k = 0
  · have hf : q.fetched = false := by
      rw [← Bool.not_eq_true, h.fetched_iff]
      exact fun hne => hne hk
    rw [hf]
    refine ⟨_, rfl, h.executed, h.meta_eq, by simp, ?_⟩
    rw [h.cursor_eq, hk]
  · have hf : q.fetched = true := h.fetched_iff.mpr hk
    rw [hf, h.atEnd_eq]
    by_cases hend : rows.length ≤ k - 1
    · refine ⟨q, ?_, h.executed, h.meta_eq, ⟨fun _ => by omega, fun _ => hf⟩, ?_⟩
      · show (if decide (rows.length ≤ k - 1) = true then _ else _) = _
        rw [decide_eq_true hend]
        rfl
      · rw [h.cursor_eq]
        congr 2
        omega
    · refine ⟨{ q with cursor := some ⟨q.filling, min (k - 1) rows.length + 1⟩ }, ?_, h.executed, h.meta_eq,
        ⟨fun _ => by omega, fun _ => hf⟩, ?_⟩
      · show (if decide (rows.length ≤ k - 1) = true then _ else _) = _
        rw [decide_eq_false hend, if_neg Bool.false_ne_true, advance, h.position_eq, h.meta_eq]
        show (if _ then _ else _) = _
        rw [if_pos (by omega)]
        rfl
      · dsimp only
        congr 2
        omega

theorem StandsAt.getColumn_eq (h : q.StandsAt rows k) {row : c.Row} (hrow : rows[k - 1]? = some row)
    (columnIdx : UInt16) (b : ApplicationDataBuffer) : q.getColumn P columnIdx b = columnOf P row columnIdx b := by
  have hlt := (List.getElem?_eq_some_iff.mp hrow).1
  unfold getColumn columnOf
  rw [h.executed, h.atEnd_eq, decide_eq_false (by omega), h.current_eq hrow]
  rfl

theorem StandsAt.getColumns_eq (h : q.StandsAt rows k) {row : c.Row} (hrow : rows[k - 1]? = some row)
    (columnBindings : ColumnBindingMap) (is : List Nat) :
    q.getColumns P columnBindings is = deliver P row columnBindings is := by
  induction is with
  | nil => rfl
  | cons i is ih =>
    unfold getColumns deliver
    cases columnBindings (UInt16.ofNat i) with
    | none => exact ih
    | some b =>
      dsimp only
      rw [h.getColumn_eq hrow, ih]

/-- One fetch: the next row is delivered, or there is none. -/
theorem StandsAt.fetchNextRow (h : q.StandsAt rows k) (columnBindings : ColumnBindingMap) :
    (q.fetchNextRow P columnBindings).1.StandsAt rows (k + 1) ∧
      (q.fetchNextRow P columnBindings).2 = fetchOf P columnBindings (some (rows, k)) := by
  obtain ⟨q', hmove, h'⟩ := h.moveCursor
  unfold MetadataQuery.fetchNextRow fetchOf
  rw [h.executed, hmove]
  simp only [Bool.not_true, Bool.false_eq_true, if_false]
  rw [h'.atEnd_eq, Nat.add_sub_cancel]
  cases hrow : rows[k]? with
  | none =>
    rw [decide_eq_true (List.getElem?_eq_none_iff.mp hrow)]
    exact ⟨h', rfl⟩
  | some row =>
    rw [decide_eq_false (Nat.not_le.mpr (List.getElem?_eq_some_iff.mp hrow).1)]
    have hnext : rows[k + 1 - 1]? = some row := hrow
    dsimp only
    rw [h'.getColumns_eq hnext]
    exact ⟨h', rfl⟩

end

/-- `Execute` starts with the rows it reads; otherwise the query is not
executed. -/
theorem execute_stands (q : MetadataQuery c) (o : MetadataOutcome c) :
    (q.execute o).1.Stands (Enumeration.step none (Call.execute o).op) := by
  have hclosed : (if q.executed then q.close.1 else q).executed = false := by
    cases hq : q.executed with
    | true => rfl
    | false => exact hq
  unfold execute
  cases o with
  | failed text => exact hclosed
  | rows metaVector => exact ⟨rfl, rfl, iff_of_false Bool.false_ne_true (fun h => h rfl), rfl⟩

/-- One step. -/
theorem step_stands (q : MetadataQuery c) (e : Enumeration c.Row) (call : Call c) (h : q.Stands e) :
    (q.step P call).Stands (e.step call.op) := by
  cases call with
  | execute o =>
    have hexec := q.execute_stands o
    cases o <;> exact hexec
  | fetchNextRow columnBindings =>
    rcases e with _ | ⟨rows, k⟩
    · have hkeep : (q.fetchNextRow P columnBindings).1 = q := by
        unfold fetchNextRow
        rw [show q.executed = false from h]
        rfl
      show (q.fetchNextRow P columnBindings).1.executed = false
      rw [hkeep]
      exact h
    · exact (StandsAt.fetchNextRow h columnBindings).1
  | getColumn columnIdx b => exact h
  | close => exact rfl

/-- A run. -/
theorem run_stands (P : Platform) (calls : List (Call c)) :
    (({} : MetadataQuery c).run P calls).Stands (Enumeration.run (calls.map Call.op)) := by
  have hinit : ({} : MetadataQuery c).Stands none := rfl
  exact Enumeration.run_induction hinit step_stands calls

/-- In a fetch of an executed query the iterator is one into the rows, it is
advanced only before their end and dereferenced only there. -/
def IteratorSafe (q : MetadataQuery c) : Prop :=
  q.executed = true → ∃ q', q.moveCursor = .ok q' ∧ ∃ atEnd, q'.atEnd = .ok atEnd ∧
    (atEnd = false → ∃ row, q'.current = .ok row)

theorem Stands.iteratorSafe {q : MetadataQuery c} {e : Enumeration c.Row} (h : q.Stands e) :
    q.IteratorSafe := by
  intro hexec
  rcases e with _ | ⟨rows, k⟩
  · rw [show q.executed = false from h] at hexec
    cases hexec
  · obtain ⟨q', hmove, h'⟩ := StandsAt.moveCursor h
    refine ⟨q', hmove, _, h'.atEnd_eq, fun hend => ?_⟩
    have hlt : k < rows.length := by
      rw [decide_eq_false_iff_not] at hend
      omega
    exact ⟨rows[k], h'.current_eq (List.getElem?_eq_getElem hlt)⟩

/-- **Metadata cursors.** After any calls on a query of any of the four classes,
a fetch delivers the row after those delivered since the last successful
`Execute`, and `AI_NO_DATA` behind the last row; it is an error if there was no
such `Execute` since the last `Close` or failed `Execute`; and it uses the
iterator only where it may. -/
theorem run_enumerates (c : MetadataClass) (P : Platform) (calls : List (Call c))
    (columnBindings : ColumnBindingMap) :
    let q := ({} : MetadataQuery c).run P calls
    (q.fetchNextRow P columnBindings).2 = fetchOf P columnBindings (Enumeration.run (calls.map Call.op)) ∧
      q.IteratorSafe := by
  intro q
  have h : q.Stands (Enumeration.run (calls.map Call.op)) := run_stands P calls
  refine ⟨?_, h.iteratorSafe⟩
  generalize Enumeration.run (calls.map Call.op) = e at h
  rcases e with _ | ⟨rows, k⟩
  · unfold fetchNextRow
    rw [show q.executed = false from h]
    rfl
  · exact (StandsAt.fetchNextRow h columnBindings).2

end MetadataQuery

/-! ## The row `GetColumn` reads -/

/-- `GetColumn` succeeds only on a row that was fetched; without one it is an
error, with a record and no write. -/
def NeedsRow {ρ : Type} (e : Enumeration ρ) (x : Action SqlResult) : Prop :=
  (x.value = .ok .success → e.current.isSome) ∧
    (e.current = none → x.value = .ok .error ∧ ∃ r, x.log = [.record r])

theorem needsRow_diagnosed {ρ : Type} (e : Enumeration ρ) (state : SqlState) (message : String)
    (rowNum columnNum : Int) : NeedsRow e (diagnosed state message rowNum columnNum .error) :=
  ⟨fun h => (by cases h), fun _ => ⟨rfl, _, rfl⟩⟩

theorem needsRow_of_row {ρ : Type} (e : Enumeration ρ) {row : ρ} (h : e.current = some row)
    (x : Action SqlResult) : NeedsRow e x :=
  ⟨fun _ => by rw [h]; rfl, fun hnone => by rw [h] at hnone; cases hnone⟩

namespace DataQuery

variable {P : Platform}

/-- What a call does to the enumeration of the documents. -/
def Call.op : Call → Enumeration.Op Document
  | .execute (.opened documents _) => .start documents
  | .execute _ | .close => .stop
  | .fetchNextRow _ => .next
  | .getColumn _ _ | .dataAvailable => .stay

def Stands (q : DataQuery) : Enumeration Document → Prop
  | none => q.cursor = none
  | some (documents, k) => ∃ c result, q.cursor = some c ∧ Placed documents result k c

theorem execute_stands (q : DataQuery) (o : RequestOutcome) :
    (q.execute o).1.Stands (Enumeration.step none (Call.execute o).op) := by
  cases o with
  | opened documents result =>
    rw [execute_opened]
    exact ⟨_, result, rfl, rfl, rfl, fun _ => by simp, rfl⟩
  | contextError sqlException text => rfl
  | mongoException text => rfl
  | exception => rfl

theorem step_stands (q : DataQuery) (e : Enumeration Document) (call : Call) (h : q.Stands e) :
    (q.step P call).Stands (e.step call.op) := by
  cases call with
  | execute o =>
    have hexec := q.execute_stands o
    cases o <;> exact hexec
  | close =>
    show q.internalClose.1.cursor = none
    unfold internalClose
    split
    · next hnone => exact Option.isNone_iff_eq_none.mp hnone
    · rfl
  | fetchNextRow columnBindings =>
    rcases e with _ | ⟨documents, k⟩
    · show (q.fetchNextRow P columnBindings).1.cursor = none
      unfold fetchNextRow
      rw [show q.cursor = none from h]
      exact h
    · obtain ⟨c, result, hc, hplaced⟩ := h
      obtain ⟨-, c', hc', hplaced'⟩ := fetchNextRow_placed (P := P) hc hplaced columnBindings
      exact ⟨c', result, hc', hplaced'⟩
  | getColumn columnIdx b =>
    rcases e with _ | ⟨documents, k⟩
    · show (q.getColumn P columnIdx b).1.cursor = none
      unfold getColumn
      rw [show q.cursor = none from h]
      exact h
    · obtain ⟨c, result, hc, hplaced⟩ := h
      obtain ⟨c', hc', hplaced'⟩ := getColumn_placed (P := P) hc hplaced columnIdx b
      exact ⟨c', result, hc', hplaced'⟩
  | dataAvailable => exact h

theorem run_stands (P : Platform) (calls : List Call) :
    ((DataQuery.mk none).run P calls).Stands (Enumeration.run (calls.map Call.op)) := by
  have hinit : (DataQuery.mk none).Stands none := rfl
  exact Enumeration.run_induction hinit step_stands calls

theorem Stands.getColumn_needsRow {q : DataQuery} {e : Enumeration Document} (h : q.Stands e)
    (columnIdx : UInt16) (b : ApplicationDataBuffer) : NeedsRow e (q.getColumn P columnIdx b).2 := by
  unfold getColumn
  rcases e with _ | ⟨documents, k⟩
  · rw [show q.cursor = none from h]
    exact needsRow_diagnosed _ _ _ _ _
  · obtain ⟨c, result, hc, hplaced⟩ := h
    rw [hc]
    dsimp only
    cases hrow : c.getRow with
    | none => exact needsRow_diagnosed _ _ _ _ _
    | some row =>
      have hcurrent := hplaced.row_eq
      rw [hrow] at hcurrent
      exact needsRow_of_row (some (documents, k)) hcurrent.symm _

end DataQuery

namespace MetadataQuery

variable {P : Platform} {c : MetadataClass}

/-- The query is executed, its rows are not fetched yet and there are some, and
`GetColumn` knows the column or does not mind. -/
def ReadsUnfetched (c : MetadataClass) (e : Enumeration c.Row) (columnIdx : UInt16) : Prop :=
  (∃ row rows, e = some (row :: rows, 0)) ∧ (c = .column → 1 ≤ columnIdx ∧ columnIdx ≤ 18)

theorem call_column_eq_none_iff (P : Platform) (row : ColumnMeta) (columnIdx : UInt16) :
    ColumnMeta.call P row columnIdx = none ↔ ¬ (1 ≤ columnIdx ∧ columnIdx ≤ 18) := by
  constructor
  · intro h hrange
    have hnat : 1 ≤ columnIdx.toNat ∧ columnIdx.toNat ≤ 18 :=
      ⟨UInt16.le_iff_toNat_le.mp hrange.1, UInt16.le_iff_toNat_le.mp hrange.2⟩
    have hidx : columnIdx = UInt16.ofNat columnIdx.toNat := (UInt16.ofNat_toNat).symm
    generalize columnIdx.toNat = n at hnat hidx
    subst hidx
    obtain ⟨h1, h2⟩ := hnat
    interval_cases n <;> cases h
  · intro hrange
    unfold ColumnMeta.call
    split <;> first | rfl | exact absurd (by decide) hrange

/-- Without a row that was fetched, `GetColumn` of a row is no error unless the
column is one that `ColumnMetadataQuery` does not know. -/
theorem columnOf_needsRow_iff (hc : c = .table ∨ c = .column) {e : Enumeration c.Row} (he : e.current = none)
    (row : c.Row) (columnIdx : UInt16) (b : ApplicationDataBuffer) :
    NeedsRow e (columnOf P row columnIdx b) ↔ ¬ (c = .column → 1 ≤ columnIdx ∧ columnIdx ≤ 18) := by
  have hput : ∀ call, ¬ NeedsRow e (b.writesOf (b.put P call) >>= fun _ => pure SqlResult.success) := by
    intro call hneeds
    obtain ⟨r, -, hr⟩ := value_bind_eq_ok.mp (hneeds.2 he).1
    cases hr
  unfold columnOf
  rcases hc with rfl | rfl
  · refine iff_of_false (fun hneeds => ?_) (fun h => h fun hne => by cases hne)
    split at hneeds
    · have hsome := hneeds.1 rfl
      rw [he] at hsome
      cases hsome
    · exact hput _ hneeds
  · rw [show (MetadataClass.column = .column → 1 ≤ columnIdx ∧ columnIdx ≤ 18) ↔
      1 ≤ columnIdx ∧ columnIdx ≤ 18 from ⟨fun h => h rfl, fun h _ => h⟩, ← call_column_eq_none_iff P row]
    show NeedsRow e (match ColumnMeta.call P row columnIdx with | none => _ | some call => _) ↔ _
    cases hcall : ColumnMeta.call P row columnIdx with
    | none => exact iff_of_true (needsRow_diagnosed _ _ _ _ _) rfl
    | some call => exact iff_of_false (hput call) (fun h => by cases h)

theorem Stands.needsRow_iff (hc : c = .table ∨ c = .column) {q : MetadataQuery c}
    {e : Enumeration c.Row} (h : q.Stands e) (columnIdx : UInt16) (b : ApplicationDataBuffer) :
    NeedsRow e (q.getColumn P columnIdx b) ↔ ¬ ReadsUnfetched c e columnIdx := by
  rcases e with _ | ⟨rows, k⟩
  · refine iff_of_true ?_ ?_
    · unfold getColumn
      rw [show q.executed = false from h]
      exact needsRow_diagnosed _ _ _ _ _
    · rintro ⟨⟨row, rows, he⟩, -⟩
      cases he
  have hstands : q.StandsAt rows k := h
  cases hrow : rows[k - 1]? with
  | none =>
    have hlen := List.getElem?_eq_none_iff.mp hrow
    refine iff_of_true ?_ ?_
    · unfold getColumn
      rw [hstands.executed, hstands.atEnd_eq, decide_eq_true hlen]
      rcases hc with rfl | rfl <;> exact needsRow_diagnosed _ _ _ _ _
    · rintro ⟨⟨row, rows', he⟩, -⟩
      cases he
      cases hlen
  | some row =>
    rw [hstands.getColumn_eq hrow]
    by_cases hk : k = 0
    · subst hk
      rw [columnOf_needsRow_iff hc rfl]
      obtain ⟨row', rows', rfl⟩ : ∃ row' rows', rows = row' :: rows' := by
        cases rows with
        | nil => cases hrow
        | cons row' rows' => exact ⟨row', rows', rfl⟩
      exact not_congr ⟨fun hidx => ⟨⟨row', rows', rfl⟩, hidx⟩, fun hreads => hreads.2⟩
    · have hcurrent : Enumeration.current (some (rows, k)) = some row := by
        show (if k = 0 then none else rows[k - 1]?) = some row
        rw [if_neg hk, hrow]
      refine iff_of_true (needsRow_of_row _ hcurrent _) ?_
      rintro ⟨⟨row', rows', he⟩, -⟩
      cases he
      exact hk rfl

end MetadataQuery

/-- **`GetColumn` needs a row.** After any calls: `DataQuery::GetColumn` succeeds
only on a row that was fetched last and is an error otherwise;
`TableMetadataQuery::GetColumn` and `ColumnMetadataQuery::GetColumn` do so if
and only if it is not the time between a successful `Execute` that found rows
and the first fetch, or the latter does not know the column. -/
theorem getColumn_needsRow_iff (P : Platform) (columnIdx : UInt16) (b : ApplicationDataBuffer) :
    (∀ calls : List DataQuery.Call, NeedsRow (Enumeration.run (calls.map DataQuery.Call.op))
      (((DataQuery.mk none).run P calls).getColumn P columnIdx b).2) ∧
    (∀ calls : List (MetadataQuery.Call .table),
      NeedsRow (Enumeration.run (calls.map MetadataQuery.Call.op))
          ((({} : TableMetadataQuery).run P calls).getColumn P columnIdx b) ↔
        ¬ MetadataQuery.ReadsUnfetched .table (Enumeration.run (calls.map MetadataQuery.Call.op)) columnIdx) ∧
    (∀ calls : List (MetadataQuery.Call .column),
      NeedsRow (Enumeration.run (calls.map MetadataQuery.Call.op))
          ((({} : ColumnMetadataQuery).run P calls).getColumn P columnIdx b) ↔
        ¬ MetadataQuery.ReadsUnfetched .column (Enumeration.run (calls.map MetadataQuery.Call.op)) columnIdx) := by
  refine ⟨fun calls => ?_, fun calls => ?_, fun calls => ?_⟩
  · exact (DataQuery.run_stands P calls).getColumn_needsRow columnIdx b
  · exact (MetadataQuery.run_stands P calls).needsRow_iff (.inl rfl) columnIdx b
  · exact (MetadataQuery.run_stands P calls).needsRow_iff (.inr rfl) columnIdx b

/-- One table, no fetch, and its name is read with success. -/
theorem getColumn_before_fetch :
    let calls : List (MetadataQuery.Call .table) := [.execute (.rows [{ tableName := some (ascii "t") }])]
    let x := (({} : TableMetadataQuery).run .unixOdbc calls).getColumn .unixOdbc 3
      ⟨.char, some 0, 4, none, 0, 0, by decide⟩
    x.value = .ok .success ∧ x.log = [.write ⟨0, ascii "t"⟩, .write ⟨1, [0]⟩] ∧
      ¬ NeedsRow (Enumeration.run (calls.map MetadataQuery.Call.op)) x := by
  refine ⟨by decide, by decide, fun hneeds => ?_⟩
  exact absurd (hneeds.1 (by decide)) (by decide)

end DocumentDbOdbc
