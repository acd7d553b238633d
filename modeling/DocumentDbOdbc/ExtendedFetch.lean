/-
`SQLExtendedFetch`: the number of rows and the row statuses of a rowset.

The function calls `SQLFetchScroll` and makes up its two results from the code
that is returned: one row of the status `SQL_ROW_SUCCESS` for a success, no rows
where there is no data. The query is of any class, by its `FetchNextRow`;
`Statement.fetchRows` is the loop for a `DataQuery` (`fetchRows_eq`).
-/
import DocumentDbOdbc.DiagnosticRecord
import DocumentDbOdbc.RowSlots

namespace DocumentDbOdbc

open Effect

/-- `SqlResultToReturnCode`. -/
def sqlResultToReturnCode : SqlResult → SqlReturn
  | .success => .success
  | .successWithInfo => .successWithInfo
  | .noData => .noData
  | .needData => .needData
  | .error => .error

namespace Statement

/-- The virtual `Query::FetchNextRow`: the query it leaves, and what it does. -/
abbrev FetchNextRow (Q : Type) := Q → ColumnBindingMap → Q × Action SqlResult

section

variable {Q : Type} (fetchNextRow : FetchNextRow Q)

/-- The loop of `InternalFetchRow` from row `i` on, for a query of any class. -/
def fetchRowsOf (rowStatuses : Option Int) (columnBindings : ColumnBindingMap) :
    (rows : Nat) → (i : Nat) → (fetched errors : Int) → Q → Q × Action (Int × Int)
  | 0, _, fetched, errors, q => (q, pure (fetched, errors))
  | rows + 1, i, fetched, errors, q =>
    let row := fetchNextRow q (columnBindings.setElementOffset i)
    match row.2.value with
    | .error _ => (row.1, do
      let _ ← row.2
      pure (fetched, errors))
    | .ok res =>
      let rest := fetchRowsOf rowStatuses columnBindings rows (i + 1) (count fetched (isFetched res))
        (count errors (isError res)) row.1
      (rest.1, do
        let _ ← row.2
        storeRowStatus rowStatuses i res
        rest.2)

/-- `InternalFetchRow` with the current query. -/
def internalFetchRowOf (st : Statement) (m : Memory.Mem) (currentQuery : Option Q) : Option Q × Action SqlResult :=
  match currentQuery with
  | none =>
    (none, do
      st.storeRowsFetched 0
      diagnosed .s24000InvalidCursorState "Cursor is not in the open state" 0 0 .error)
  | some q =>
    let rows := fetchRowsOf fetchNextRow st.rowStatuses (st.rowsetBindings m) st.rowArraySize.toNat 0 0 0 q
    (some rows.1, do
      st.storeRowsFetched 0
      let counts ← rows.2
      st.storeRowsFetched (if counts.1 < 0 then int32Cast st.rowArraySize.toNat else counts.1)
      pure (rowsetResult counts.1 counts.2))

/-- `InternalFetchScroll`; `SQL_FETCH_NEXT` is 1, and the offset is not used. -/
def internalFetchScroll (st : Statement) (m : Memory.Mem) (currentQuery : Option Q) (orientation : Int16) :
    Option Q × Action SqlResult :=
  if orientation ≠ 1 then
    (currentQuery, diagnosed .sHYC00OptionalFeatureNotImplemented
      "Only SQL_FETCH_NEXT FetchOrientation type is supported" 0 0 .error)
  else internalFetchRowOf fetchNextRow st m currentQuery

/-- `if (ptr) *ptr = value`, of a number of that many bytes. -/
def storeAt (ptr : Option Int) (bytes : Nat) (value : Int) : Action Unit :=
  ptr.elim (pure ()) fun p => emit (.write ⟨p, leBytes bytes value⟩)

/-- `SQLExtendedFetch`, after `SQLFetchScroll` has returned a code. -/
def reportRowset (rowCount rowStatusArray : Option Int) (res : SqlReturn) : Action SqlReturn := do
  if res = .success then
    storeAt rowCount 8 1
    storeAt rowStatusArray 2 (sqlResultToRowResult .success)
  else if res = .noData then
    storeAt rowCount 8 0
  pure res

/-- `SQLExtendedFetch`, of a statement unless the handle is null. -/
def sqlExtendedFetch (stmt : Option (Statement × Option Q)) (m : Memory.Mem) (orientation : UInt16)
    (rowCount rowStatusArray : Option Int) : Action SqlReturn :=
  match stmt with
  | none => reportRowset rowCount rowStatusArray .invalidHandle
  | some (st, currentQuery) => do
    let res ← (internalFetchScroll fetchNextRow st m currentQuery orientation.toInt16).2
    reportRowset rowCount rowStatusArray (sqlResultToReturnCode res)

end

/-! ## The queries over documents -/

theorem fetchRows_eq (P : Platform) (rowStatuses : Option Int) (columnBindings : ColumnBindingMap) (rows i : Nat)
    (fetched errors : Int) (q : DataQuery) :
    fetchRows P rowStatuses columnBindings rows i fetched errors q =
      fetchRowsOf (fun q b => q.fetchNextRow P b) rowStatuses columnBindings rows i fetched errors q := by
  induction rows generalizing i fetched errors q with
  | zero => rfl
  | succ rows ih =>
    rw [fetchRows, fetchRowsOf]
    cases h : (q.fetchNextRow P (columnBindings.setElementOffset i)).2.value with
    | error e => simp only
    | ok res => simp only [ih]

theorem internalFetchRow_eq (P : Platform) (st : Statement) (m : Memory.Mem) :
    (st.internalFetchRow P m).2 = (internalFetchRowOf (fun q b => q.fetchNextRow P b) st m st.currentQuery).2 := by
  unfold internalFetchRow internalFetchRowOf
  cases st.currentQuery with
  | none => rfl
  | some q => simp only [fetchRows_eq]

/-! ## The results of the rows -/

section

variable {Q : Type} {fetchNextRow : FetchNextRow Q} {columnBindings : ColumnBindingMap}

variable (fetchNextRow) (columnBindings) in
/-- The results of the rows of the loop, up to an exception. -/
def rowResults : (rows : Nat) → (i : Nat) → Q → List SqlResult
  | 0, _, _ => []
  | rows + 1, i, q =>
    let row := fetchNextRow q (columnBindings.setElementOffset i)
    match row.2.value with
    | .error _ => []
    | .ok res => res :: rowResults rows (i + 1) row.1

/-- A counter of the loop: the number, as an `SQLINTEGER`. -/
def counter (n : Nat) : Int := (n : Int).bmod 4294967296

theorem counter_succ (n : Nat) : (counter n + 1).bmod 4294967296 = counter (n + 1) := by
  unfold counter
  rw [Int.bmod_add_bmod]
  push_cast
  with_reducible rfl

theorem count_counter (n : Nat) (counts : Bool) : count (counter n) counts = counter (n + counts.toNat) := by
  unfold count
  split
  · next h => rw [h, Bool.toNat_true, counter_succ]
  · next h =>
    rw [Bool.not_eq_true] at h
    rw [h, Bool.toNat_false, Nat.add_zero]

theorem countP_cons_toNat (kind : SqlResult → Bool) (res : SqlResult) (l : List SqlResult) :
    (res :: l).countP kind = (kind res).toNat + l.countP kind := by
  rw [List.countP_cons, Nat.add_comm]
  cases kind res <;> rfl

/-- The loop counts the rows that were fetched and those with an error. -/
theorem fetchRowsOf_value (rowStatuses : Option Int) {rows i : Nat} (fetched errors : Nat) {q : Q}
    (h : (rowResults fetchNextRow columnBindings rows i q).length = rows) :
    (fetchRowsOf fetchNextRow rowStatuses columnBindings rows i (counter fetched) (counter errors) q).2.value =
      .ok (counter (fetched + (rowResults fetchNextRow columnBindings rows i q).countP isFetched),
        counter (errors + (rowResults fetchNextRow columnBindings rows i q).countP isError)) := by
  induction rows generalizing i fetched errors q with
  | zero => simp only [fetchRowsOf, rowResults, value_pure, List.countP_nil, Nat.add_zero]
  | succ rows ih =>
    rw [fetchRowsOf]
    rw [rowResults] at h ⊢
    cases hrow : (fetchNextRow q (columnBindings.setElementOffset i)).2.value with
    | error e => simp [hrow] at h
    | ok res =>
      have hstatus : (storeRowStatus rowStatuses i res).value = .ok () := by cases rowStatuses <;> rfl
      simp only [hrow] at h ⊢
      rw [value_bind, hrow]
      show (storeRowStatus rowStatuses i res >>= _).value = _
      rw [value_bind, hstatus]
      show (fetchRowsOf fetchNextRow rowStatuses columnBindings rows (i + 1) _ _ _).2.value = _
      rw [count_counter, count_counter, ih _ _ (by simpa using h), countP_cons_toNat, countP_cons_toNat, Nat.add_assoc,
        Nat.add_assoc]

/-- The results of a rowset. -/
def rowsetResults (fetchNextRow : FetchNextRow Q) (st : Statement) (m : Memory.Mem) (q : Q) : List SqlResult :=
  rowResults fetchNextRow (st.rowsetBindings m) st.rowArraySize.toNat 0 q

theorem internalFetchScroll_value {st : Statement} {m : Memory.Mem} {q : Q}
    (h : (rowsetResults fetchNextRow st m q).length = st.rowArraySize.toNat) :
    (internalFetchScroll fetchNextRow st m (some q) 1).2.value =
      .ok (rowsetResult (counter ((rowsetResults fetchNextRow st m q).countP isFetched))
        (counter ((rowsetResults fetchNextRow st m q).countP isError))) := by
  have hrows := fetchRowsOf_value st.rowStatuses 0 0 h
  have hstore : ∀ n, (st.storeRowsFetched n).value = .ok () := fun n => by
    unfold storeRowsFetched
    cases st.rowsFetched <;> rfl
  rw [internalFetchScroll, if_neg (by decide), internalFetchRowOf]
  simp only
  rw [value_bind, hstore]
  show (_ >>= _ : Action SqlResult).value = _
  have hzero : counter 0 = 0 := Int.zero_bmod
  rw [hzero, Nat.zero_add, Nat.zero_add] at hrows
  rw [value_bind, hrows]
  show (_ >>= _ : Action SqlResult).value = _
  rw [value_bind, hstore]
  simp only [Except.bind, value_pure, rowsetResults]

end

/-! ## The report -/

/-- The number of rows and each row's status are stored, whatever was there before. -/
structure ReportsRowset (ws : List Memory.Write) (results : List SqlResult) (rowCount rowStatusArray : Option Int) :
    Prop where
  rows : ∀ p, rowCount = some p → Memory.Leaves ws p (leBytes 8 (results.countP isFetched : Nat))
  statuses : ∀ p, rowStatusArray = some p → ∀ (i : Nat) r, results[i]? = some r →
    Memory.Leaves ws (p + 2 * i) (leBytes 2 (sqlResultToRowResult r : Nat))

/-- The two results have objects of their own, which the fetch does not store to. -/
structure OwnObjects (fetch : List Memory.Write) (rows : Nat) (rowCount rowStatusArray : Option Int) : Prop where
  count : ∀ p, rowCount = some p → Memory.Outside fetch p 8
  statuses : ∀ p, rowStatusArray = some p → Memory.Outside fetch p (2 * rows)
  apart : ∀ p q, rowCount = some p → rowStatusArray = some q → p + 8 ≤ q ∨ q + (2 * rows : Nat) ≤ p

section

variable {fetch : List Memory.Write} {rows : Nat} {rowCount rowStatusArray : Option Int} {code : SqlReturn}

/-- The stores of the wrapper. -/
def reportWrites (rowCount rowStatusArray : Option Int) (code : SqlReturn) : List Memory.Write :=
  if code = .success then
    (rowCount.elim [] fun p => [⟨p, leBytes 8 1⟩]) ++ rowStatusArray.elim [] fun p => [⟨p, leBytes 2 0⟩]
  else if code = .noData then rowCount.elim [] fun p => [⟨p, leBytes 8 0⟩]
  else []

theorem writesIn_reportRowset (rowCount rowStatusArray : Option Int) (code : SqlReturn) :
    writesIn (reportRowset rowCount rowStatusArray code) = reportWrites rowCount rowStatusArray code := by
  cases code <;> cases rowCount <;> cases rowStatusArray <;> rfl

theorem leBytes_natCast_inj {n a b : Nat} (ha : a < 256 ^ n) (hb : b < 256 ^ n)
    (h : leBytes n (a : Int) = leBytes n (b : Int)) : a = b := by
  have hvalue := congrArg Bytes.value h
  rwa [value_leBytes_natCast, value_leBytes_natCast, Nat.mod_eq_of_lt ha, Nat.mod_eq_of_lt hb] at hvalue

theorem leBytes_ne_nil {n : Nat} (hn : 0 < n) (v : Int) : leBytes n v ≠ [] := by
  rw [← List.length_pos_iff, length_leBytes]
  exact hn

/-- The last store of a place decides what is left there. -/
theorem leaves_append_self_iff (l : List Memory.Write) (p : Int) {n a b : Nat} (ha : a < 256 ^ n) (hb : b < 256 ^ n) :
    Memory.Leaves (l ++ [⟨p, leBytes n a⟩]) p (leBytes n b) ↔ b = a := by
  constructor
  · intro h
    exact leBytes_natCast_inj hb ha (h.unique (Memory.leaves_append_self l p _) (by simp))
  · rintro rfl
    exact Memory.leaves_append_self l p _

/-- The number of rows is right if it is the one that the code stands for. -/
theorem leaves_rowCount_iff {p : Int} (h : OwnObjects fetch rows (some p) rowStatusArray)
    (hrows : code = .success → 1 ≤ rows) {n : Nat} (hn : n < 256 ^ 8) :
    Memory.Leaves (fetch ++ reportWrites (some p) rowStatusArray code) p (leBytes 8 n) ↔
      code = .success ∧ n = 1 ∨ code = .noData ∧ n = 0 := by
  by_cases hsuccess : code = .success
  · have hstatus : Memory.Outside (rowStatusArray.elim [] fun q => [⟨q, leBytes 2 0⟩]) p (leBytes 8 n).length := by
      intro x hx
      cases hq : rowStatusArray with
      | none => simp [hq] at hx
      | some q =>
        rw [hq] at hx
        obtain rfl := List.mem_singleton.mp hx
        have hapart := h.apart p q rfl hq
        have := hrows hsuccess
        simp only [length_leBytes]
        omega
    have hnodata : code ≠ .noData := by
      rintro rfl
      cases hsuccess
    have hlast := leaves_append_self_iff fetch p (n := 8) (a := 1) (b := n) (by decide) hn
    rw [reportWrites, if_pos hsuccess, ← List.append_assoc, Memory.leaves_append_iff hstatus, Option.elim_some]
    simpa [hsuccess, hnodata] using hlast
  · by_cases hnodata : code = .noData
    · have hlast := leaves_append_self_iff fetch p (n := 8) (a := 0) (b := n) (by decide) hn
      rw [reportWrites, if_neg hsuccess, if_pos hnodata, Option.elim_some]
      simpa [hsuccess, hnodata] using hlast
    · rw [reportWrites, if_neg hsuccess, if_neg hnodata, List.append_nil]
      refine iff_of_false (Memory.not_leaves_of_outside ?_ (leBytes_ne_nil (by decide) _)) (by simp [hsuccess, hnodata])
      rw [length_leBytes]
      exact h.count p rfl

/-- Only the status of the first row is ever stored. -/
theorem leaves_rowStatus_iff {p : Int} (h : OwnObjects fetch rows rowCount (some p)) {i n : Nat} (hi : i < rows)
    (hn : n < 256 ^ 2) :
    Memory.Leaves (fetch ++ reportWrites rowCount (some p) code) (p + 2 * i) (leBytes 2 n) ↔
      code = .success ∧ i = 0 ∧ n = 0 := by
  have hfetch : Memory.Outside fetch (p + 2 * i) (leBytes 2 (n : Int)).length :=
    (h.statuses p rfl).mono (by omega) (by rw [length_leBytes]; omega)
  have hcount : ∀ v : Int, Memory.Outside (rowCount.elim [] fun q => [⟨q, leBytes 8 v⟩]) (p + 2 * i)
      (leBytes 2 (n : Int)).length := by
    intro v x hx
    cases hq : rowCount with
    | none => simp [hq] at hx
    | some q =>
      rw [hq] at hx
      obtain rfl := List.mem_singleton.mp hx
      have hapart := h.apart q p hq rfl
      simp only [length_leBytes]
      omega
  have hne : leBytes 2 (n : Int) ≠ [] := leBytes_ne_nil (by decide) _
  by_cases hsuccess : code = .success
  · rw [reportWrites, if_pos hsuccess, Option.elim_some, ← List.append_assoc]
    by_cases hi0 : i = 0
    · subst hi0
      have hlast := leaves_append_self_iff (fetch ++ rowCount.elim [] fun q => [⟨q, leBytes 8 1⟩]) p (n := 2) (a := 0)
        (b := n)
        (by decide) hn
      simpa [hsuccess] using hlast
    · have hfirst : Memory.Outside [⟨p, leBytes 2 0⟩] (p + 2 * i) (leBytes 2 (n : Int)).length := by
        intro x hx
        obtain rfl := List.mem_singleton.mp hx
        simp only [length_leBytes]
        omega
      exact iff_of_false (Memory.not_leaves_of_outside ((hfetch.append (hcount 1)).append hfirst) hne) (by simp [hi0])
  · refine iff_of_false (Memory.not_leaves_of_outside ?_ hne) (by simp [hsuccess])
    rw [reportWrites, if_neg hsuccess]
    split
    · exact hfetch.append (hcount 0)
    · rwa [List.append_nil]

/-- The code of a rowset. -/
theorem code_eq_success_iff (c e : Nat) :
    sqlResultToReturnCode (rowsetResult (counter c) (counter e)) = .success ↔ 0 < counter c ∧ counter e = 0 := by
  unfold rowsetResult
  split
  · next hc => split <;> simp_all [sqlResultToReturnCode]
  · next hc => split <;> simp_all [sqlResultToReturnCode]

theorem code_eq_noData_iff (c e : Nat) :
    sqlResultToReturnCode (rowsetResult (counter c) (counter e)) = .noData ↔ ¬ 0 < counter c ∧ counter e = 0 := by
  unfold rowsetResult
  split
  · next hc => split <;> simp_all [sqlResultToReturnCode]
  · next hc => split <;> simp_all [sqlResultToReturnCode]

theorem counter_zero : counter 0 = 0 := Int.zero_bmod

theorem counter_one : counter 1 = 1 := Int.bmod_eq_of_le (by decide) (by decide)

theorem counter_eq_zero_iff (n : Nat) : counter n = 0 ↔ n % 4294967296 = 0 := by
  unfold counter
  exact Int.dvd_iff_bmod_eq_zero.symm.trans (Int.natCast_dvd_natCast.trans (Nat.dvd_iff_mod_eq_zero ..))

/-- A code that says one row or none, and the rows that were fetched. -/
theorem code_agrees_iff (c e : Nat) :
    (sqlResultToReturnCode (rowsetResult (counter c) (counter e)) = .success ∧ c = 1 ∨
        sqlResultToReturnCode (rowsetResult (counter c) (counter e)) = .noData ∧ c = 0) ↔
      c ≤ 1 ∧ e % 4294967296 = 0 := by
  rw [code_eq_success_iff, code_eq_noData_iff, counter_eq_zero_iff]
  constructor
  · rintro (⟨⟨-, he⟩, rfl⟩ | ⟨⟨-, he⟩, rfl⟩)
    · exact ⟨Nat.le_refl 1, he⟩
    · exact ⟨Nat.zero_le 1, he⟩
  · rintro ⟨hc, he⟩
    obtain rfl | rfl : c = 1 ∨ c = 0 := by omega
    · exact .inl ⟨⟨by rw [counter_one]; decide, he⟩, rfl⟩
    · exact .inr ⟨⟨by rw [counter_zero]; decide, he⟩, rfl⟩

theorem sqlResultToRowResult_lt (r : SqlResult) : sqlResultToRowResult r < 256 ^ 2 := by
  cases r <;> decide

theorem sqlResultToRowResult_eq_zero_iff (r : SqlResult) : sqlResultToRowResult r = 0 ↔ r = .success := by
  cases r <;> decide

/-- What the wrapper makes of the code, against the results of the rows. -/
theorem reportsRowset_iff {results : List SqlResult} (hlen : results.length = rows) (hsize : rows < 256 ^ 8)
    (hown : OwnObjects fetch rows rowCount rowStatusArray) :
    ReportsRowset (fetch ++ reportWrites rowCount rowStatusArray (sqlResultToReturnCode
        (rowsetResult (counter (results.countP isFetched)) (counter (results.countP isError)))))
        results rowCount rowStatusArray ↔
      (rowCount.isSome → results.countP isFetched ≤ 1 ∧ results.countP isError % 4294967296 = 0) ∧
        (rowStatusArray.isSome → results = [] ∨ results = [.success]) := by
  have hfetched : results.countP isFetched ≤ results.length := List.countP_le_length
  generalize hcode : sqlResultToReturnCode
    (rowsetResult (counter (results.countP isFetched)) (counter (results.countP isError))) = code
  have hrows : code = .success → 1 ≤ rows := by
    rintro rfl
    have hpos := ((code_eq_success_iff _ _).mp hcode).1
    by_contra hnone
    have hzero : results.countP isFetched = 0 := by omega
    rw [hzero, counter_zero] at hpos
    exact absurd hpos (Int.lt_irrefl 0)
  have hrowPart : (∀ p, rowCount = some p → Memory.Leaves (fetch ++ reportWrites rowCount rowStatusArray code) p
      (leBytes 8 (results.countP isFetched : Nat))) ↔
      (rowCount.isSome → results.countP isFetched ≤ 1 ∧ results.countP isError % 4294967296 = 0) := by
    cases rowCount with
    | none => simp
    | some p =>
      rw [← code_agrees_iff, hcode, ← leaves_rowCount_iff hown hrows (hfetched.trans_lt (hlen ▸ hsize))]
      simp
  have hstatusPart : (∀ p, rowStatusArray = some p → ∀ (i : Nat) r, results[i]? = some r →
      Memory.Leaves (fetch ++ reportWrites rowCount rowStatusArray code) (p + 2 * i)
        (leBytes 2 (sqlResultToRowResult r : Nat))) ↔
      (rowStatusArray.isSome → results = [] ∨ results = [.success]) := by
    cases rowStatusArray with
    | none => simp
    | some p =>
      have hplace : ∀ (i : Nat) r, results[i]? = some r →
          (Memory.Leaves (fetch ++ reportWrites rowCount (some p) code) (p + 2 * i)
            (leBytes 2 (sqlResultToRowResult r : Nat)) ↔ code = .success ∧ i = 0 ∧ r = .success) := by
        intro i r hr
        rw [← sqlResultToRowResult_eq_zero_iff]
        exact leaves_rowStatus_iff hown (hlen ▸ (List.getElem?_eq_some_iff.mp hr).1) (sqlResultToRowResult_lt r)
      constructor
      · intro h _
        cases results with
        | nil => exact .inl rfl
        | cons r rest =>
          obtain ⟨-, -, rfl⟩ := (hplace 0 r rfl).mp (h p rfl 0 r rfl)
          cases rest with
          | nil => exact .inr rfl
          | cons r' rest => exact absurd ((hplace 1 r' rfl).mp (h p rfl 1 r' rfl)).2.1 (by decide)
      · rintro h p' ⟨rfl⟩ i r hr
        refine (hplace i r hr).mpr ?_
        rcases h rfl with rfl | rfl
        · simp at hr
        · have hcode' := (code_eq_success_iff 1 0).mpr ⟨by rw [counter_one]; decide, counter_zero⟩
          obtain ⟨hi, hr⟩ := List.getElem?_eq_some_iff.mp hr
          obtain rfl : i = 0 := Nat.lt_one_iff.mp hi
          exact ⟨hcode ▸ hcode', rfl, hr.symm⟩
  exact ⟨fun h => ⟨hrowPart.mp h.rows, hstatusPart.mp h.statuses⟩, fun h => ⟨hrowPart.mpr h.1, hstatusPart.mpr h.2⟩⟩

end

section

variable {Q : Type} {fetchNextRow : FetchNextRow Q} {st : Statement} {m : Memory.Mem} {q : Q}
  {rowCount rowStatusArray : Option Int}

/-- **The rowset** is reported for the rows that the wrapper makes up: one row without an error, and nothing else. -/
theorem sqlExtendedFetch_reports_iff (hall : (rowsetResults fetchNextRow st m q).length = st.rowArraySize.toNat)
    (hown : OwnObjects (writesIn (internalFetchScroll fetchNextRow st m (some q) 1).2) st.rowArraySize.toNat rowCount
      rowStatusArray) :
    ReportsRowset (writesIn (sqlExtendedFetch fetchNextRow (some (st, some q)) m 1 rowCount rowStatusArray))
        (rowsetResults fetchNextRow st m q) rowCount rowStatusArray ↔
      (rowCount.isSome → (rowsetResults fetchNextRow st m q).countP isFetched ≤ 1 ∧
          (rowsetResults fetchNextRow st m q).countP isError % 4294967296 = 0) ∧
        (rowStatusArray.isSome →
          rowsetResults fetchNextRow st m q = [] ∨ rowsetResults fetchNextRow st m q = [.success]) := by
  have hsize : st.rowArraySize.toNat < 256 ^ 8 := st.rowArraySize.toNat_lt
  rw [← reportsRowset_iff hall hsize hown, ← writesIn_reportRowset]
  have hwrites := writesIn_bind_ok (internalFetchScroll_value hall) fun res =>
    reportRowset rowCount rowStatusArray (sqlResultToReturnCode res)
  rw [← hwrites]
  exact Iff.rfl

end

/-- A query with so many documents, none of which is bound to a column. -/
def plainQuery (documents : Nat) : DataQuery :=
  { cursor := some { rest := List.replicate documents [], result := ⟨[], []⟩ } }

def plainFetch : FetchNextRow DataQuery := fun q b => q.fetchNextRow .unixOdbc b

theorem sqlExtendedFetch_reports_iff_one :
    ReportsRowset (writesIn (sqlExtendedFetch plainFetch (some ({ rowArraySize := 1 }, some (plainQuery 1))) (fun _ => 0) 1
      (some 0) (some 8))) (rowsetResults plainFetch { rowArraySize := 1 } (fun _ => 0) (plainQuery 1)) (some 0) (some 8) := by
  have hresults : rowsetResults plainFetch { rowArraySize := 1 } (fun _ => 0) (plainQuery 1) = [.success] := by decide
  have hsilent : writesIn (internalFetchScroll plainFetch { rowArraySize := 1 } (fun _ => 0)
    (some (plainQuery 1)) 1).2 = [] := by
    decide
  refine (sqlExtendedFetch_reports_iff (by rw [hresults]; decide) ?_).mpr ?_
  · rw [hsilent]
    exact ⟨nofun, nofun, fun p q hp hq => by cases hp; cases hq; decide⟩
  · rw [hresults]
    decide

/-- Two rows are fetched, and one is reported. -/
theorem sqlExtendedFetch_not_reports :
    rowsetResults plainFetch { rowArraySize := 2 } (fun _ => 0) (plainQuery 2) = [.success, .success] ∧
      ¬ ReportsRowset (writesIn (sqlExtendedFetch plainFetch (some ({ rowArraySize := 2 }, some (plainQuery 2)))
        (fun _ => 0) 1 (some 0) (some 8))) (rowsetResults plainFetch { rowArraySize := 2 } (fun _ => 0) (plainQuery 2))
        (some 0) (some 8) := by
  refine ⟨by decide, fun h => ?_⟩
  have hrows := h.rows 0 rfl fun _ => 0
  revert hrows
  decide

end Statement

end DocumentDbOdbc
