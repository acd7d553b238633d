/-
What a run of a query delivers.

The columns a row keeps do not show: reading a row is reading its document
(`readColumnToBuffer_spec`, `fetchColumns_spec`). `Placed` relates a cursor to the
result it was made for and the number of fetches since; every operation but
`Execute` and `Close` keeps it (`step_placed`), so the fetches of a run read
the documents one after the other (`run_fetchNextRow`).
-/
import DocumentDbOdbc.DataQuery

namespace DocumentDbOdbc

open Effect

/-! ## Rows -/

/-- The read of a column of a document. -/
def ResultColumns.read (P : Platform) (r : ResultColumns) (d : Document) (columnIdx : Nat)
    (b : ApplicationDataBuffer) : Put :=
  if r.columnMetadata.length < columnIdx ∨ columnIdx < 1 then pure .failure
  else
    match (r.columns d)[columnIdx - 1]? with
    | some column => column.readToBuffer P b
    | none => raise .outOfRange

namespace DocumentDbRow

variable {P : Platform} {result : ResultColumns}

theorem length_columns_le (row : DocumentDbRow result) :
    row.columns.length ≤ (result.columns row.document).length := by
  have h := congrArg List.length row.columns_eq
  rw [List.length_take] at h
  omega

theorem getElem?_columns (row : DocumentDbRow result) {i : Nat} (h : i < row.columns.length) :
    row.columns[i]? = (result.columns row.document)[i]? := by
  conv => lhs; rw [row.columns_eq]
  rw [List.getElem?_take_of_lt h]

/-- The loop makes columns as long as there are any. -/
theorem discover_spec (n : Nat) (row : DocumentDbRow result) :
    if row.columns.length + n ≤ (result.columns row.document).length then
      ∃ row', row.discover n = .ok row' ∧ row'.document = row.document ∧
        row'.columns.length = row.columns.length + n
    else row.discover n = .error .outOfRange := by
  induction n generalizing row with
  | zero =>
    rw [Nat.add_zero, if_pos row.length_columns_le]
    exact ⟨row, rfl, rfl, rfl⟩
  | succ n ih =>
    by_cases hlt : row.columns.length < (result.columns row.document).length
    · obtain ⟨next, hnext, hdoc, hlen⟩ : ∃ next, row.discoverNext = .ok next ∧
          next.document = row.document ∧ next.columns.length = row.columns.length + 1 := by
        rw [discoverNext, dif_pos hlt]
        exact ⟨_, rfl, rfl, List.length_append⟩
      have hstep : row.discover (n + 1) = next.discover n := by
        rw [discover, hnext]
        rfl
      have ih := ih next
      rw [hdoc, hlen] at ih
      rw [hstep, show row.columns.length + (n + 1) = row.columns.length + 1 + n by omega]
      exact ih
    · rw [if_neg (by omega), discover, discoverNext, dif_neg hlt]
      rfl

/-- Afterwards the row has the column, or there is no path for it. -/
theorem ensureColumnDiscovered_spec (row : DocumentDbRow result) {columnIdx : Nat}
    (h : columnIdx ≤ result.columnMetadata.length) :
    (∃ row', row.ensureColumnDiscovered columnIdx = .ok row' ∧ row'.document = row.document ∧
        columnIdx ≤ row'.columns.length) ∨
      (row.ensureColumnDiscovered columnIdx = .error .outOfRange ∧
        (result.columns row.document).length < columnIdx) := by
  unfold ensureColumnDiscovered getSize
  split
  · next hall => exact .inl ⟨row, rfl, rfl, by omega⟩
  · have hspec := discover_spec (columnIdx - row.columns.length) row
    split at hspec
    · obtain ⟨row', hok, hdoc, hlen⟩ := hspec
      exact .inl ⟨row', hok, hdoc, by omega⟩
    · have := row.length_columns_le
      exact .inr ⟨hspec, by omega⟩

/-- Reading a row is reading its document, whatever columns it has made. -/
theorem readColumnToBuffer_spec (row : DocumentDbRow result) (columnIdx : Nat) (b : ApplicationDataBuffer) :
    (row.readColumnToBuffer P columnIdx b).1.document = row.document ∧
      (row.readColumnToBuffer P columnIdx b).2 = result.read P row.document columnIdx b := by
  unfold readColumnToBuffer ResultColumns.read getSize
  by_cases hrange : result.columnMetadata.length < columnIdx ∨ columnIdx < 1
  · rw [if_pos hrange, if_pos hrange]
    exact ⟨rfl, rfl⟩
  rw [if_neg hrange, if_neg hrange]
  obtain ⟨row', hok, hdoc, hlen⟩ | ⟨herr, hlen⟩ :=
    row.ensureColumnDiscovered_spec (Nat.le_of_not_lt fun h => hrange (.inl h))
  · have hcol : row'.columns[columnIdx - 1]? = (result.columns row.document)[columnIdx - 1]? := by
      rw [row'.getElem?_columns (by omega), hdoc]
    rw [hok]
    dsimp only
    rw [hcol]
    cases (result.columns row.document)[columnIdx - 1]? with
    | none => exact ⟨hdoc, rfl⟩
    | some column => exact ⟨hdoc, rfl⟩
  · rw [herr, List.getElem?_eq_none (by omega)]
    exact ⟨rfl, rfl⟩

/-- The document the calls install last, or the one before them. -/
def installed (document : Document) : List Call → Document
  | [] => document
  | .readColumnToBuffer _ _ :: calls => installed document calls
  | .update document :: calls => installed document calls

theorem run_document (row : DocumentDbRow result) (calls : List Call) :
    (row.run P calls).document = installed row.document calls := by
  induction calls generalizing row with
  | nil => rfl
  | cons call calls ih =>
    cases call with
    | readColumnToBuffer columnIdx b =>
      have hrun := ih (row.readColumnToBuffer P columnIdx b).1
      rw [(row.readColumnToBuffer_spec columnIdx b).1] at hrun
      exact hrun
    | update document => exact ih (row.update document)

/-- What a row has of its document: the columns made so far are those of the
metadata and the paths, in order, and there are not more of them. -/
structure Coherent (row : DocumentDbRow result) (document : Document) : Prop where
  length_le : row.columns.length ≤ result.columnMetadata.length
  column_eq : ∀ (i : Nat) (column : DocumentDbColumn), row.columns[i]? = some column →
    ∃ type path, result.columnMetadata[i]? = some type ∧ result.paths[i]? = some path ∧
      column = DocumentDbColumn.mk type document path

theorem coherent (row : DocumentDbRow result) : Coherent row row.document := by
  have hlen : (result.columns row.document).length ≤ result.columnMetadata.length := by
    simp only [ResultColumns.columns, List.length_map, List.length_zip]
    omega
  refine ⟨Nat.le_trans row.length_columns_le hlen, fun i column h => ?_⟩
  have hi : i < row.columns.length := (List.getElem?_eq_some_iff.mp h).1
  rw [row.getElem?_columns hi, ResultColumns.columns, List.getElem?_map] at h
  obtain ⟨⟨type, path⟩, hzip, rfl⟩ := Option.map_eq_some_iff.mp h
  obtain ⟨htype, hpath⟩ := List.getElem?_zip_eq_some.mp hzip
  exact ⟨type, path, htype, hpath, rfl⟩

theorem read_of_range {document : Document} {columnIdx : Nat} {type : JdbcType} {path : Str}
    (hidx : 1 ≤ columnIdx) (htype : result.columnMetadata[columnIdx - 1]? = some type)
    (hpath : result.paths[columnIdx - 1]? = some path) (b : ApplicationDataBuffer) :
    result.read P document columnIdx b = (DocumentDbColumn.mk type document path).readToBuffer P b := by
  have hlt := (List.getElem?_eq_some_iff.mp htype).1
  have hzip : (result.columnMetadata.zip result.paths)[columnIdx - 1]? = some (type, path) :=
    List.getElem?_zip_eq_some.mpr ⟨htype, hpath⟩
  rw [ResultColumns.read, if_neg (by omega), ResultColumns.columns, List.getElem?_map, hzip]
  rfl

/-- **The columns of a row.** With a path for each column of the metadata, after
any reads and updates in any order: the columns made so far are those of the
document installed last; the read of a column in the range reads its path with
its type from that document; any other index is refused and changes nothing. -/
theorem run_coherent (P : Platform) (result : ResultColumns)
    (hpaths : result.paths.length = result.columnMetadata.length) (document : Document) (calls : List Call) :
    let row := (DocumentDbRow.new result document).run P calls
    Coherent row (installed document calls) ∧
      ∀ (columnIdx : Nat) (b : ApplicationDataBuffer),
        (1 ≤ columnIdx ∧ columnIdx ≤ result.columnMetadata.length →
          ∃ type path, result.columnMetadata[columnIdx - 1]? = some type ∧
            result.paths[columnIdx - 1]? = some path ∧
            (row.readColumnToBuffer P columnIdx b).2 =
              (DocumentDbColumn.mk type (installed document calls) path).readToBuffer P b) ∧
        (columnIdx < 1 ∨ result.columnMetadata.length < columnIdx →
          row.readColumnToBuffer P columnIdx b = (row, pure .failure)) := by
  intro row
  have hdoc : row.document = installed document calls := run_document (new result document) calls
  refine ⟨hdoc ▸ row.coherent, fun columnIdx b => ⟨fun ⟨hpos, hle⟩ => ?_, fun hout => ?_⟩⟩
  · have hlt : columnIdx - 1 < result.columnMetadata.length := by omega
    refine ⟨result.columnMetadata[columnIdx - 1], result.paths[columnIdx - 1],
      List.getElem?_eq_getElem hlt, List.getElem?_eq_getElem (hpaths ▸ hlt), ?_⟩
    rw [(row.readColumnToBuffer_spec columnIdx b).2, hdoc]
    exact read_of_range hpos (List.getElem?_eq_getElem hlt) (List.getElem?_eq_getElem (hpaths ▸ hlt)) b
  · unfold readColumnToBuffer getSize
    rw [if_pos hout.symm]

/-- Two columns, read from the last on, with a new document in between. -/
theorem run_coherent_two_columns :
    let result : ResultColumns := ⟨[.varchar, .integer], [ascii "a", ascii "b"]⟩
    let b : ApplicationDataBuffer := ⟨.signedLong, some 0, 4, none, 0, 0, by decide⟩
    let row := (DocumentDbRow.new result []).run .unixOdbc
      [.readColumnToBuffer 2 b, .update [(ascii "b", .int32 7)]]
    Coherent row [(ascii "b", .int32 7)] ∧ row.columns.length = 2 ∧
      (row.readColumnToBuffer .unixOdbc 2 b).2 =
        (DocumentDbColumn.mk .integer [(ascii "b", .int32 7)] (ascii "b")).readToBuffer .unixOdbc b := by
  intro result b row
  obtain ⟨hcoherent, hread⟩ := run_coherent .unixOdbc result rfl []
    [.readColumnToBuffer 2 b, .update [(ascii "b", .int32 7)]]
  obtain ⟨type, path, htype, hpath, heq⟩ := (hread 2 b).1 ⟨by decide, by decide⟩
  obtain rfl := Option.some.inj htype
  obtain rfl := Option.some.inj hpath
  exact ⟨hcoherent, rfl, heq⟩

end DocumentDbRow

namespace DataQuery

variable {P : Platform}

/-- The read of a column of a document and what is made of its result. -/
def readDocument (P : Platform) (result : ResultColumns) (d : Document) (columnIdx : Nat)
    (b : ApplicationDataBuffer) : Action SqlResult := do
  let convRes ← b.writesOf (result.read P d columnIdx b)
  processConversionResult convRes 0 columnIdx

/-- The fetch of a document, column by column. -/
def fetchDocument (P : Platform) (result : ResultColumns) (columnBindings : ColumnBindingMap) (d : Document) :
    List Nat → Action SqlResult
  | [] => pure .success
  | i :: is =>
    match columnBindings (UInt16.ofNat i) with
    | none => fetchDocument P result columnBindings d is
    | some b => do
      let r ← readDocument P result d i b
      if r = .error then pure .error else fetchDocument P result columnBindings d is

section

variable {result : ResultColumns} {columnBindings : ColumnBindingMap}

theorem fetchDocument_cons_none {i : Nat} (h : columnBindings (UInt16.ofNat i) = none) (d : Document)
    (is : List Nat) :
    fetchDocument P result columnBindings d (i :: is) = fetchDocument P result columnBindings d is := by
  rw [fetchDocument, h]

theorem fetchDocument_cons_some {i : Nat} {b : ApplicationDataBuffer}
    (h : columnBindings (UInt16.ofNat i) = some b) (d : Document) (is : List Nat) :
    fetchDocument P result columnBindings d (i :: is) = (do
      let r ← readDocument P result d i b
      if r = .error then pure .error else fetchDocument P result columnBindings d is) := by
  rw [fetchDocument, h]

end

theorem readColumn_spec {result : ResultColumns} (row : DocumentDbRow result) (i : Nat)
    (b : ApplicationDataBuffer) :
    (readColumn P row i b).1.document = row.document ∧
      (readColumn P row i b).2 = readDocument P result row.document i b := by
  obtain ⟨hdoc, hread⟩ := row.readColumnToBuffer_spec (P := P) i b
  refine ⟨hdoc, ?_⟩
  unfold readColumn readDocument
  dsimp only
  rw [hread]

theorem fetchColumns_spec {result : ResultColumns} (columnBindings : ColumnBindingMap) (is : List Nat)
    (row : DocumentDbRow result) :
    (fetchColumns P columnBindings is row).1.document = row.document ∧
      (fetchColumns P columnBindings is row).2 = fetchDocument P result columnBindings row.document is := by
  induction is generalizing row with
  | nil => exact ⟨rfl, rfl⟩
  | cons i is ih =>
    unfold fetchColumns fetchDocument
    cases columnBindings (UInt16.ofNat i) with
    | none => exact ih row
    | some b =>
    obtain ⟨hdoc, hread⟩ := readColumn_spec (P := P) row i b
    obtain ⟨ihdoc, ih⟩ := ih (readColumn P row i b).1
    dsimp only
    split
    · next hstop =>
      refine ⟨hdoc, ?_⟩
      rw [← hread, bind_eq_self]
      intro r hr
      rw [hr] at hstop
      cases r <;> first | rfl | cases hstop
    · next hgo =>
      refine ⟨ihdoc.trans hdoc, ?_⟩
      rw [ih, hdoc, ← hread]
      refine bind_congr_value fun r hr => ?_
      rw [hr] at hgo
      cases r <;> first | rfl | exact absurd rfl hgo

/-! ## The cursor -/

/-- The cursor of a result after `k` fetches. -/
structure Placed (documents : List Document) (result : ResultColumns) (k : Nat) (c : DocumentDbCursor) :
    Prop where
  result_eq : c.result = result
  rest_eq : c.rest = documents.drop (k - 1)
  first_iff : documents ≠ [] → (c.isFirstRow = true ↔ k = 0)
  row_eq : c.getRow.map (·.document) = if k = 0 then none else documents[k - 1]?

theorem setRow_cons {c : DocumentDbCursor} {d : Document} {ds : List Document} (h : c.rest = d :: ds) :
    ∃ row : DocumentDbRow c.result, row.document = d ∧
      c.setRow = (true, { c with currentRow := some row }) := by
  unfold DocumentDbCursor.setRow
  rw [h]
  refine ⟨_, ?_, rfl⟩
  cases c.currentRow <;> rfl

theorem setRow_nil {c : DocumentDbCursor} (h : c.rest = []) :
    c.setRow = (false, { c with currentRow := none }) := by
  unfold DocumentDbCursor.setRow
  rw [h]

/-- `GetRow` is not null exactly if the last `Increment` said so. -/
theorem getRow_increment (c : DocumentDbCursor) : c.increment.2.getRow.isSome = c.increment.1 := by
  have hset : ∀ c : DocumentDbCursor, c.setRow.2.getRow.isSome = c.setRow.1 := by
    intro c
    cases h : c.rest with
    | nil => rw [setRow_nil h]; rfl
    | cons d ds =>
      obtain ⟨row, -, heq⟩ := setRow_cons h
      rw [heq]
      rfl
  obtain ⟨next, hnext⟩ : ∃ next : DocumentDbCursor, c.increment = next.setRow := by
    unfold DocumentDbCursor.increment
    split
    · split
      · exact ⟨_, rfl⟩
      · exact ⟨_, rfl⟩
    · exact ⟨_, rfl⟩
  rw [hnext]
  exact hset next

/-- The columns of a result, by their numbers. -/
def allColumns (result : ResultColumns) : List Nat := List.range' 1 result.columnMetadata.length

/-- What the `k`th fetch does: it reads the document of that number. -/
def fetchOf (P : Platform) (result : ResultColumns) (columnBindings : ColumnBindingMap) (d : Option Document) :
    Action SqlResult :=
  d.elim (pure .noData) fun d => fetchDocument P result columnBindings d (allColumns result)

theorem fetchNextRow_row {q : DataQuery} {c : DocumentDbCursor} {d : Document} {ds : List Document}
    {next : DocumentDbCursor} (hc : q.cursor = some c) (hdata : c.hasData = true)
    (hinc : c.increment = next.setRow) (hrest : next.rest = d :: ds) (columnBindings : ColumnBindingMap) :
    (q.fetchNextRow P columnBindings).2 = fetchOf P next.result columnBindings (some d) ∧
      ∃ row : DocumentDbRow next.result, row.document = d ∧
        (q.fetchNextRow P columnBindings).1.cursor = some { next with currentRow := some row } := by
  obtain ⟨row, hdoc, hset⟩ := setRow_cons hrest
  obtain ⟨hfdoc, hfetch⟩ := fetchColumns_spec (P := P) columnBindings (List.range' 1 row.getSize) row
  unfold fetchNextRow
  rw [hc]
  dsimp only
  rw [hdata, hinc, hset]
  refine ⟨?_, _, hfdoc.trans hdoc, rfl⟩
  rw [hdoc] at hfetch
  exact hfetch

theorem fetchNextRow_end {q : DataQuery} {c next : DocumentDbCursor} (hc : q.cursor = some c)
    (hdata : c.hasData = true) (hinc : c.increment = next.setRow) (hrest : next.rest = [])
    (columnBindings : ColumnBindingMap) :
    q.fetchNextRow P columnBindings =
      ({ q with cursor := some { next with currentRow := none } }, pure .noData) := by
  unfold fetchNextRow
  rw [hc]
  dsimp only
  rw [hdata, hinc, setRow_nil hrest]
  rfl

/-- `Increment` brings the iterator to document `k`: on the first row it is
there already. -/
theorem Placed.increment {documents : List Document} {result : ResultColumns} {k : Nat} {c : DocumentDbCursor}
    (h : Placed documents result k c) (hdata : c.hasData = true) :
    ∃ next : DocumentDbCursor, c.increment = next.setRow ∧ next.result = result ∧
      next.rest = documents.drop k ∧ next.isFirstRow = false := by
  obtain ⟨hresult, hrest, hfirst, -⟩ := h
  have hne : documents ≠ [] := by
    rintro rfl
    simp [DocumentDbCursor.hasData, hrest] at hdata
  cases hf : c.isFirstRow with
  | true =>
    have hk : k = 0 := (hfirst hne).mp hf
    subst hk
    refine ⟨{ c with isFirstRow := false }, ?_, hresult, hrest, rfl⟩
    simp [DocumentDbCursor.increment, hdata, hf]
  | false =>
    have hk : k ≠ 0 := fun hk => by simp [(hfirst hne).mpr hk] at hf
    refine ⟨{ c with rest := c.rest.tail }, ?_, hresult, ?_, hf⟩
    · simp [DocumentDbCursor.increment, hdata, hf]
    · show c.rest.tail = documents.drop k
      rw [hrest, List.tail_drop, Nat.sub_add_cancel (by omega)]

/-- Past the end a cursor stays where it is. -/
theorem Placed.succ_of_rest_nil {documents : List Document} {result : ResultColumns} {k : Nat}
    {c : DocumentDbCursor} (h : Placed documents result k c) (hnil : c.rest = []) :
    documents[k]? = none ∧ Placed documents result (k + 1) c := by
  obtain ⟨hresult, hrest, hfirst, hrow⟩ := h
  have hlen : documents.length ≤ k - 1 := List.drop_eq_nil_iff.mp (hrest.symm.trans hnil)
  have hnone : documents[k]? = none := List.getElem?_eq_none (by omega)
  refine ⟨hnone, hresult, ?_, ?_, ?_⟩
  · rw [hnil, List.drop_eq_nil_of_le (by omega)]
  · intro hne
    have := List.length_pos_of_ne_nil hne
    rw [hfirst hne]
    omega
  · rw [hrow]
    by_cases hk : k = 0
    · simp [hk, hk ▸ hnone]
    · simp [hk, hnone, List.getElem?_eq_none hlen]

/-- One fetch: the next document is read, or there is none. -/
theorem fetchNextRow_placed {q : DataQuery} {c : DocumentDbCursor} {documents : List Document}
    {result : ResultColumns} {k : Nat} (hc : q.cursor = some c) (h : Placed documents result k c)
    (columnBindings : ColumnBindingMap) :
    (q.fetchNextRow P columnBindings).2 = fetchOf P result columnBindings documents[k]? ∧
      ∃ c', (q.fetchNextRow P columnBindings).1.cursor = some c' ∧ Placed documents result (k + 1) c' := by
  by_cases hnil : c.rest = []
  · obtain ⟨hnone, hplaced⟩ := h.succ_of_rest_nil hnil
    have hfetch : q.fetchNextRow P columnBindings = (q, pure .noData) := by
      unfold fetchNextRow
      rw [hc]
      simp [DocumentDbCursor.hasData, hnil]
    rw [hfetch, hnone]
    exact ⟨rfl, c, hc, hplaced⟩
  · have hdata : c.hasData = true := by simp [DocumentDbCursor.hasData, hnil]
    obtain ⟨next, hinc, rfl, hrest, hfirst⟩ := h.increment hdata
    cases hd : documents.drop k with
    | nil =>
      have hnone : documents[k]? = none := List.getElem?_eq_none (List.drop_eq_nil_iff.mp hd)
      rw [fetchNextRow_end hc hdata hinc (hrest.trans hd) columnBindings, hnone]
      refine ⟨rfl, _, rfl, rfl, hrest, ?_, ?_⟩
      · simp [hfirst]
      · simp [DocumentDbCursor.getRow, hnone]
    | cons d ds =>
      have hsome : documents[k]? = some d := by
        rw [← List.head?_drop, hd]
        rfl
      obtain ⟨heff, row, hdoc, hcur⟩ := fetchNextRow_row (P := P) hc hdata hinc (hrest.trans hd) columnBindings
      rw [hsome]
      refine ⟨heff, _, hcur, rfl, hrest, ?_, ?_⟩
      · simp [hfirst]
      · simp [DocumentDbCursor.getRow, hdoc, hsome]

/-! ## Runs -/

/-- The call leaves the result it finds. -/
def Call.KeepsResult : Call → Prop
  | .execute _ | .close => False
  | _ => True

def Call.isFetch : Call → Bool
  | .fetchNextRow _ => true
  | _ => false

theorem getColumn_placed {q : DataQuery} {c : DocumentDbCursor} {documents : List Document}
    {result : ResultColumns} {k : Nat} (hc : q.cursor = some c) (h : Placed documents result k c)
    (columnIdx : UInt16) (b : ApplicationDataBuffer) :
    ∃ c', (q.getColumn P columnIdx b).1.cursor = some c' ∧ Placed documents result k c' := by
  unfold getColumn
  rw [hc]
  dsimp only
  cases hrow : c.getRow with
  | none => exact ⟨c, hc, h⟩
  | some row =>
    obtain ⟨hresult, hrest, hfirst, hdoc⟩ := h
    refine ⟨_, rfl, hresult, hrest, hfirst, ?_⟩
    rw [hrow] at hdoc
    show some (readColumn P row columnIdx.toNat b).1.document = _
    rw [(readColumn_spec row columnIdx.toNat b).1]
    exact hdoc

/-- One step. -/
theorem step_placed {q : DataQuery} {c : DocumentDbCursor} {documents : List Document}
    {result : ResultColumns} {k : Nat} (hc : q.cursor = some c) (h : Placed documents result k c) {call : Call}
    (hcall : call.KeepsResult) :
    ∃ c', (q.step P call).cursor = some c' ∧ Placed documents result (k + if call.isFetch then 1 else 0) c' := by
  cases call with
  | execute o => cases hcall
  | fetchNextRow columnBindings => exact (fetchNextRow_placed hc h columnBindings).2
  | getColumn columnIdx b => exact getColumn_placed hc h columnIdx b
  | dataAvailable => exact ⟨c, hc, h⟩
  | close => cases hcall

/-- A run. -/
theorem run_placed {documents : List Document} {result : ResultColumns} (calls : List Call) {q : DataQuery}
    {c : DocumentDbCursor} {k : Nat} (hc : q.cursor = some c) (h : Placed documents result k c)
    (hkeeps : ∀ call ∈ calls, call.KeepsResult) :
    ∃ c', (q.run P calls).cursor = some c' ∧ Placed documents result (k + calls.countP Call.isFetch) c' := by
  induction calls generalizing q c k with
  | nil => exact ⟨c, hc, h⟩
  | cons call calls ih =>
    obtain ⟨c', hc', h'⟩ := step_placed (P := P) hc h (hkeeps call (List.mem_cons_self ..))
    obtain ⟨c'', hc'', h''⟩ := ih hc' h' fun x hx => hkeeps x (List.mem_cons_of_mem call hx)
    refine ⟨c'', hc'', ?_⟩
    rw [List.countP_cons, Nat.add_comm (calls.countP _), ← Nat.add_assoc]
    exact h''

theorem execute_opened (q : DataQuery) (documents : List Document) (result : ResultColumns) :
    q.execute (.opened documents result) = (⟨some { rest := documents, result := result }⟩, pure .success) := by
  unfold execute
  split <;> rfl

/-- The cursor after a run. -/
theorem run_opened_placed (q : DataQuery) (documents : List Document) (result : ResultColumns)
    (calls : List Call) (hkeeps : ∀ call ∈ calls, call.KeepsResult) :
    ∃ c, ((q.execute (.opened documents result)).1.run P calls).cursor = some c ∧
      Placed documents result (calls.countP Call.isFetch) c := by
  have hstart : Placed documents result 0 { rest := documents, result := result } :=
    ⟨rfl, rfl, fun _ => by simp, rfl⟩
  rw [execute_opened]
  obtain ⟨c, hc, hplaced⟩ := run_placed (P := P) calls (q := ⟨some _⟩) rfl hstart hkeeps
  rw [Nat.zero_add] at hplaced
  exact ⟨c, hc, hplaced⟩

/-- **Cursor.** After a successful `Execute` and until the next `Execute` or
`Close`, whatever operations are called between, the `k`th `FetchNextRow` reads
the document number `k` of the result and those behind the last return
`AI_NO_DATA`; `GetRow` is the row of the document fetched last, null before the
first fetch and behind the last document, and is not null exactly if the last
`Increment` found a document. -/
theorem run_fetchNextRow (P : Platform) (q : DataQuery) (documents : List Document) (result : ResultColumns)
    (calls : List Call) (hkeeps : ∀ call ∈ calls, call.KeepsResult) (columnBindings : ColumnBindingMap) :
    let q' := (q.execute (.opened documents result)).1.run P calls
    let k := calls.countP Call.isFetch
    (q'.fetchNextRow P columnBindings).2 = fetchOf P result columnBindings documents[k]? ∧
      (∃ c, q'.cursor = some c ∧
        c.getRow.map (·.document) = if k = 0 then none else documents[k - 1]?) ∧
      ∀ c : DocumentDbCursor, c.increment.2.getRow.isSome = c.increment.1 := by
  obtain ⟨c, hc, hplaced⟩ := run_opened_placed (P := P) q documents result calls hkeeps
  exact ⟨(fetchNextRow_placed hc hplaced columnBindings).1, ⟨c, hc, hplaced.row_eq⟩, getRow_increment⟩

/-- A fetch, `DataAvailable`, `GetColumn`, and the second fetch. -/
theorem run_fetchNextRow_second :
    (((DataQuery.mk none).execute (.opened [[], [(ascii "a", .null)]] ⟨[.integer], [ascii "a"]⟩)).1.run .unixOdbc
        [.fetchNextRow fun _ => none, .dataAvailable, .getColumn 1 ⟨.bit, none, 0, none, 0, 0, by decide⟩]
      |>.fetchNextRow .unixOdbc fun _ => none).2 =
      fetchOf .unixOdbc ⟨[.integer], [ascii "a"]⟩ (fun _ => none) (some [(ascii "a", .null)]) :=
  (run_fetchNextRow .unixOdbc _ _ _ _ (by simp [Call.KeepsResult]) _).1

/-- The documents that so many fetches in a row deliver with success. -/
def delivered (P : Platform) (columnBindings : ColumnBindingMap) : Nat → DataQuery → List Document
  | 0, _ => []
  | n + 1, q =>
    let fetch := q.fetchNextRow P columnBindings
    let row := fetch.1.cursor.bind fun c => c.getRow.map (·.document)
    (if fetch.2.value matches .ok .success then row.toList else []) ++ delivered P columnBindings n fetch.1

/-- The first document has a number that is too large for its column: its fetch
is an error, and the fetches that succeed start with the second document. -/
theorem delivered_skips_error :
    delivered .unixOdbc (fun i => if i = 1 then some ⟨.signedLong, some 0, 4, none, 0, 0, by decide⟩ else none) 3
        ((DataQuery.mk none).execute (.opened
          [[(ascii "a", .int64 5000000000)], [(ascii "a", .int32 7)]] ⟨[.integer], [ascii "a"]⟩)).1 ≠
      [[(ascii "a", .int64 5000000000)], [(ascii "a", .int32 7)]] := by
  decide +kernel

end DataQuery

end DocumentDbOdbc
