/-
A rowset fetched at once and row by row.

`internalFetchRow_spec` says what the fetch of a rowset writes: each document
to the slots of its row, a status for each row, and the number of rows.
`internalFetchRow_block_iff` compares the slot of a row with what a fetch of
that document alone leaves in the first slot. What spoils it, beside a row that
throws and a counter that overflows: a buffer of type default has elements of
size zero, so its rows overlap, and a wide date that does not fit runs into
the next slot.
-/
import DocumentDbOdbc.RowSlots

namespace DocumentDbOdbc

open Effect

namespace Statement

variable {P : Platform} {result : ResultColumns}

/-! ## The loop -/

/-- The fetch of row `i`. -/
def rowAction (P : Platform) (result : ResultColumns) (columnBindings : ColumnBindingMap)
    (documents : List Document) (i : Nat) : Action SqlResult :=
  DataQuery.fetchOf P result (columnBindings.setElementOffset i) documents[i]?

/-- The result of the fetch of row `i`, if it returns. -/
def rowResult (P : Platform) (result : ResultColumns) (columnBindings : ColumnBindingMap)
    (documents : List Document) (i : Nat) : SqlResult :=
  match (rowAction P result columnBindings documents i).value with
  | .ok r => r
  | .error _ => .error

/-- What row `i` writes. -/
def rowWrites (P : Platform) (result : ResultColumns) (columnBindings : ColumnBindingMap)
    (rowStatuses : Option Int) (documents : List Document) (i : Nat) : List Memory.Write :=
  writesIn (rowAction P result columnBindings documents i) ++
    writesIn (storeRowStatus rowStatuses i (rowResult P result columnBindings documents i))

/-- What a rowset writes: no rows are fetched yet, the rows, and the number of
them. -/
def rowsetWrites (P : Platform) (st : Statement) (m : Memory.Mem) (result : ResultColumns)
    (documents : List Document) (n : Int) : List Memory.Write :=
  writesIn (st.storeRowsFetched 0) ++
    (List.range' 0 st.rowArraySize.toNat).flatMap
      (rowWrites P result (st.rowsetBindings m) st.rowStatuses documents) ++
    writesIn (st.storeRowsFetched n)

/-- The counter of the rows of a kind after these rows. -/
def counted (kind : SqlResult → Bool) (res : Nat → SqlResult) (rows : List Nat) (n : Int) : Int :=
  rows.foldl (fun n i => count n (kind (res i))) n

theorem storeRowStatus_value (rowStatuses : Option Int) (i : Nat) (r : SqlResult) :
    (storeRowStatus rowStatuses i r).value = .ok () := by
  cases rowStatuses <;> rfl

theorem storeRowsFetched_value (st : Statement) (n : Int) : (st.storeRowsFetched n).value = .ok () := by
  unfold storeRowsFetched
  cases st.rowsFetched <;> rfl

/-- The next row of a cursor before document `k + i` is the row `i` behind `k`. -/
theorem fetchNextRow_row (columnBindings : ColumnBindingMap) {documents : List Document} {k i : Nat} {q : DataQuery}
    {c : DocumentDbCursor} (hc : q.cursor = some c) (hplaced : DataQuery.Placed documents result (k + i) c) :
    (q.fetchNextRow P (columnBindings.setElementOffset i)).2 =
        rowAction P result columnBindings (documents.drop k) i ∧
      ∃ c', (q.fetchNextRow P (columnBindings.setElementOffset i)).1.cursor = some c' ∧
        DataQuery.Placed documents result (k + i + 1) c' := by
  obtain ⟨hrow, hnext⟩ := DataQuery.fetchNextRow_placed (P := P) hc hplaced (columnBindings.setElementOffset i)
  rw [hrow, rowAction, List.getElem?_drop]
  exact ⟨rfl, hnext⟩

theorem fetchRows_spec {columnBindings : ColumnBindingMap} {documents : List Document} {k : Nat}
    (rowStatuses : Option Int) (rows i : Nat) (fetched errors : Int) {q : DataQuery} {c : DocumentDbCursor}
    (hc : q.cursor = some c) (hplaced : DataQuery.Placed documents result (k + i) c)
    (hret : ∀ j, i ≤ j → j < i + rows →
      ∃ r, (rowAction P result columnBindings (documents.drop k) j).value = .ok r) :
    (fetchRows P rowStatuses columnBindings rows i fetched errors q).2.value =
        .ok (counted isFetched (rowResult P result columnBindings (documents.drop k)) (List.range' i rows)
            fetched,
          counted isError (rowResult P result columnBindings (documents.drop k)) (List.range' i rows)
            errors) ∧
      writesIn (fetchRows P rowStatuses columnBindings rows i fetched errors q).2 =
        (List.range' i rows).flatMap (rowWrites P result columnBindings rowStatuses (documents.drop k)) := by
  -- on the rows still to fetch; the cursor stands before document `k + i`
  induction rows generalizing i fetched errors q c with
  | zero => exact ⟨rfl, rfl⟩
  | succ rows ih =>
    obtain ⟨hact, c', hc', hplaced'⟩ := fetchNextRow_row (P := P) columnBindings hc hplaced
    obtain ⟨r, hr⟩ := hret i (Nat.le_refl i) (by omega)
    have hres : rowResult P result columnBindings (documents.drop k) i = r := by
      rw [rowResult, hr]
    obtain ⟨ihv, ihw⟩ := ih (i + 1) (count fetched (isFetched r))
      (count errors (isError r)) hc' hplaced' fun j h1 h2 => hret j (by omega) (by omega)
    have hstep : (fetchRows P rowStatuses columnBindings (rows + 1) i fetched errors q).2 = (do
        let _ ← rowAction P result columnBindings (documents.drop k) i
        storeRowStatus rowStatuses i r
        (fetchRows P rowStatuses columnBindings rows (i + 1) (count fetched (isFetched r))
          (count errors (isError r)) (q.fetchNextRow P (columnBindings.setElementOffset i)).1).2) := by
      rw [fetchRows]
      dsimp only
      rw [hact, hr]
    rw [hstep, List.range'_succ]
    constructor
    · rw [value_bind, hr]
      show (storeRowStatus rowStatuses i r >>= _).value = _
      rw [value_bind, storeRowStatus_value]
      show (fetchRows P rowStatuses columnBindings rows (i + 1) _ _ _).2.value = _
      rw [ihv, counted, counted, counted, counted, List.foldl_cons, List.foldl_cons, hres]
    · rw [writesIn_bind_ok hr, writesIn_bind_ok (storeRowStatus_value rowStatuses i r), ihw,
        List.flatMap_cons, rowWrites, hres, List.append_assoc]

/-! ## The fetch -/

/-- What the fetch of a rowset returns and writes. -/
theorem internalFetchRow_spec {st : Statement} {m : Memory.Mem} {q : DataQuery} {c : DocumentDbCursor}
    {documents : List Document} {k : Nat} (hq : st.currentQuery = some q) (hc : q.cursor = some c)
    (hplaced : DataQuery.Placed documents result k c)
    (hret : ∀ i, i < st.rowArraySize.toNat →
      ∃ r, (rowAction P result (st.rowsetBindings m) (documents.drop k) i).value = .ok r) :
    let res := rowResult P result (st.rowsetBindings m) (documents.drop k)
    let fetched := counted isFetched res (List.range' 0 st.rowArraySize.toNat) 0
    let errors := counted isError res (List.range' 0 st.rowArraySize.toNat) 0
    (st.internalFetchRow P m).2.value = .ok (rowsetResult fetched errors) ∧
      writesIn (st.internalFetchRow P m).2 = rowsetWrites P st m result (documents.drop k)
        (if fetched < 0 then int32Cast st.rowArraySize.toNat else fetched) := by
  obtain ⟨hv, hw⟩ := fetchRows_spec (P := P) st.rowStatuses st.rowArraySize.toNat 0 0 0 hc hplaced
    fun i _ hi => hret i (by omega)
  have hstep : (st.internalFetchRow P m).2 = (do
      st.storeRowsFetched 0
      let counts ← (fetchRows P st.rowStatuses (st.rowsetBindings m) st.rowArraySize.toNat 0 0 0 q).2
      st.storeRowsFetched (if counts.1 < 0 then int32Cast st.rowArraySize.toNat else counts.1)
      pure (rowsetResult counts.1 counts.2)) := by
    rw [internalFetchRow, hq]
  rw [hstep]
  constructor
  · rw [value_bind, storeRowsFetched_value]
    show (_ >>= _ : Action SqlResult).value = _
    rw [value_bind, hv]
    show (_ >>= _ : Action SqlResult).value = _
    rw [value_bind, storeRowsFetched_value]
    rfl
  · rw [writesIn_bind_ok (storeRowsFetched_value st 0), writesIn_bind_ok hv,
      writesIn_bind_ok (storeRowsFetched_value st _), hw]
    simp [rowsetWrites]

/-! ## The counters -/

/-- A counter that does not overflow counts. -/
theorem counted_eq (kind : SqlResult → Bool) (res : Nat → SqlResult) (rows : List Nat) {n : Nat}
    (h : n + rows.countP (fun i => kind (res i)) < 2147483648) :
    counted kind res rows n = (n + rows.countP (fun i => kind (res i)) : Nat) := by
  induction rows generalizing n with
  | nil => rfl
  | cons i rows ih =>
    rw [List.countP_cons] at h ⊢
    rw [counted, List.foldl_cons]
    cases hk : kind (res i) with
    | false =>
      rw [hk] at h
      exact ih h
    | true =>
      rw [hk] at h
      simp only [if_true] at h ⊢
      have hone : count n true = ((n + 1 : Nat) : Int) := by
        rw [count, if_pos rfl, Int.bmod_eq_of_le (by omega) (by omega)]
        rfl
      rw [hone]
      have ih := ih (n := n + 1) (by omega)
      rw [counted] at ih
      omega

/-- Four bytes read back. -/
theorem readInt32_leBytes {m : Memory.Mem} {p : Int} {n : Nat} (hn : n < 2147483648)
    (hm : ∀ x : Nat, x < 4 → m (p + x) = (leBytes 4 (n : Int)).getD x 0) : readInt32 m p = n := by
  have hbyte : ∀ x : Nat, x < 4 → (m (p + x)).toNat = n / 256 ^ x % 256 := by
    intro x hx
    rw [hm x hx, leBytes, List.getD_eq_getElem?_getD, List.getElem?_map, List.getElem?_range hx]
    show (UInt8.ofNat ((n : Int) / 256 ^ x % 256).toNat).toNat = _
    have hcast : ((n : Int) / 256 ^ x % 256).toNat = n / 256 ^ x % 256 := by
      have : ((n : Int) / 256 ^ x % 256) = ((n / 256 ^ x % 256 : Nat) : Int) := by push_cast; rfl
      rw [this, Int.toNat_natCast]
    rw [hcast, UInt8.toNat_ofNat']
    omega
  have h0 := hbyte 0 (by decide)
  have h1 := hbyte 1 (by decide)
  have h2 := hbyte 2 (by decide)
  have h3 := hbyte 3 (by decide)
  simp only [Nat.cast_zero, Int.add_zero, Nat.cast_one, Nat.cast_ofNat, Nat.pow_zero, Nat.div_one, Nat.reducePow]
    at h0 h1 h2 h3
  unfold readInt32
  rw [h0, h1, h2, h3]
  have hsum : n % 256 + 256 * (n / 256 % 256) + 65536 * (n / 65536 % 256) +
      16777216 * (n / 16777216 % 256) = n := by
    omega
  rw [hsum, Int.bmod_eq_of_le (by omega) (by omega)]

theorem readInt32_lt (m : Memory.Mem) (p : Int) : readInt32 m p < 2147483648 := by
  unfold readInt32
  have := Int.bmod_lt (x := (((m p).toNat + 256 * (m (p + 1)).toNat + 65536 * (m (p + 2)).toNat +
    16777216 * (m (p + 3)).toNat : Nat) : Int)) (m := 4294967296) (by decide)
  omega

/-! ## The arrays of the application -/

/-- What a fetch writes to. -/
inductive Place where
  | column (i : Nat) (region : Region)
  | rowStatuses
  | rowsFetched
  deriving DecidableEq

/-- The address is in the memory the application gave for it. -/
def InArea (st : Statement) (m : Memory.Mem) (result : ResultColumns) : Place → Int → Prop
  | .column i region, a => ∃ b row, BoundColumn result (st.rowsetBindings m) i b ∧
    row < st.rowArraySize.toNat ∧ b.InSlot region row a
  | .rowStatuses, a => ∃ p, st.rowStatuses = some p ∧ p ≤ a ∧ a < p + 2 * st.rowArraySize.toNat
  | .rowsFetched, a => ∃ p, st.rowsFetched = some p ∧ p ≤ a ∧ a < p + 4

/-- What `BindColumn` sees to, and what the application has to: the arrays do
not overlap. -/
structure ArraysOk (st : Statement) (m : Memory.Mem) (result : ResultColumns) : Prop where
  bindings : st.BindingsOk
  disjoint : ∀ x y a, st.InArea m result x a → st.InArea m result y a → x = y

theorem ArraysOk.buflen {st : Statement} {m : Memory.Mem} (h : ArraysOk st m result) (i : Nat)
    (b : ApplicationDataBuffer) (hb : BoundColumn result (st.rowsetBindings m) i b) : 0 ≤ b.buflen :=
  (h.bindings.rowsetBindings m hb.bound).1

/-- No date or time of these documents is put into wide characters that are too
few for it. -/
def NoWideOverrun (P : Platform) (result : ResultColumns) (columnBindings : ColumnBindingMap)
    (documents : List Document) : Prop :=
  ∀ d ∈ documents, ∀ i b, BoundColumn result columnBindings i b →
    ∀ c call len, (result.columns d)[i - 1]? = some c → (c.read P).call? = some call →
      call.tmLength P = some len → ApplicationDataBuffer.WideRoom P b len

/-- The reads stay in their buffers then. -/
theorem NoWideOverrun.within {columnBindings : ColumnBindingMap} {documents : List Document} {d : Document}
    {i : Nat} {b : ApplicationDataBuffer} (h : NoWideOverrun P result columnBindings documents)
    (hd : d ∈ documents) (hb : BoundColumn result columnBindings i b) (h0 : 0 ≤ b.buflen) :
    All (Store.Within b.extent) (result.read P d i b) := by
  rw [ResultColumns.read_of_bound hb]
  cases hc : (result.columns d)[i - 1]? with
  | none => exact all_raise _
  | some c =>
    have hcall : ∀ call, (c.read P).call? = some call → All (Store.Within b.extent) (b.put P call) :=
      fun call hcall => ApplicationDataBuffer.put_within call h0 fun len hlen =>
        h d hd i b hb c call len hc hcall hlen
    show All _ ((c.read P).run P b)
    cases hread : c.read P with
    | returns r => exact all_pure _
    | throws => exact all_raise _
    | forwards call => exact hcall call (by rw [hread]; rfl)
    | drops call => exact (hcall call (by rw [hread]; rfl)).bind fun _ _ => all_pure _

/-! ## The property -/

/-- The query fetches this document next. -/
def NextIs (result : ResultColumns) (q : DataQuery) (d : Document) : Prop :=
  ∃ c documents k, q.cursor = some c ∧ DataQuery.Placed documents result k c ∧ documents[k]? = some d

/-- Memory after the fetch of one row. -/
def singleFetch (P : Platform) (st : Statement) (q : DataQuery) (m : Memory.Mem) : Memory.Mem :=
  memoryAfter m ({ st with currentQuery := some q, rowArraySize := 1 }.internalFetchRow P m).2

/-- The fetch of the row returns with success. -/
def isDelivered : Except Fault SqlResult → Bool
  | .ok r => isFetched r
  | .error _ => false

/-- The documents of a rowset that are delivered. -/
def deliveredRows (P : Platform) (st : Statement) (m : Memory.Mem) (result : ResultColumns)
    (documents : List Document) : Nat :=
  (documents.take st.rowArraySize.toNat).countP fun d =>
    isDelivered (DataQuery.fetchDocument P result (st.rowsetBindings m) d (DataQuery.allColumns result)).value

/-- The fetch of a rowset does what as many fetches of one row do, each in its
own slots. -/
structure EqualsSingleFetches (P : Platform) (st : Statement) (m : Memory.Mem) (result : ResultColumns)
    (documents : List Document) : Prop where
  returns : ∃ r, (st.internalFetchRow P m).2.value = .ok r
  /-- The slot of a row holds what the fetch of its document alone leaves in
  the first slot, if that looked before as the slot of the row. -/
  slots : ∀ i d, i < st.rowArraySize.toNat → documents[i]? = some d →
    ∀ k b region p p₀, BoundColumn result (st.rowsetBindings m) k b → b.slot region i = some p →
      b.slot region 0 = some p₀ →
    ∀ q m₀, NextIs result q d → (∀ o, st.columnBindOffset = some o → ∀ x, o ≤ x → x < o + 4 → m₀ x = m x) →
      (∀ x : Nat, x < b.slotSize region → m₀ (p₀ + x) = m (p + x)) →
    ∀ x : Nat, x < b.slotSize region →
      memoryAfter m (st.internalFetchRow P m).2 (p + x) = singleFetch P st q m₀ (p₀ + x)
  no_overlap : ∀ k b region i j a, BoundColumn result (st.rowsetBindings m) k b →
    i < st.rowArraySize.toNat → j < st.rowArraySize.toNat → b.InSlot region i a → b.InSlot region j a → i = j
  unchanged : ∀ i, documents.length ≤ i → i < st.rowArraySize.toNat →
    ∀ k b region a, BoundColumn result (st.rowsetBindings m) k b → b.InSlot region i a →
      memoryAfter m (st.internalFetchRow P m).2 a = m a
  no_row : ∀ i p, documents.length ≤ i → i < st.rowArraySize.toNat → st.rowStatuses = some p →
    readRowStatus (memoryAfter m (st.internalFetchRow P m).2) p i = sqlResultToRowResult .noData
  rows_fetched : ∀ p, st.rowsFetched = some p →
    readInt32 (memoryAfter m (st.internalFetchRow P m).2) p = deliveredRows P st m result documents

/-- No fetch throws, no rows share the elements of a default buffer, and the
counter does not overflow. -/
structure BlockOk (P : Platform) (st : Statement) (m : Memory.Mem) (result : ResultColumns)
    (documents : List Document) : Prop where
  returns : ∀ i d, i < st.rowArraySize.toNat → documents[i]? = some d →
    ¬ RowFaulty P result (st.rowsetBindings m) d
  no_default : ∀ i b, BoundColumn result (st.rowsetBindings m) i b → b.type = .default → b.buffer.isSome →
    b.buflen = 0 ∨ st.rowArraySize.toNat ≤ 1
  rows : ∀ p, st.rowsFetched = some p → deliveredRows P st m result documents < 2147483648

/-! ## Reading back a slot -/

theorem memoryAfter_eq {α : Type} (m : Memory.Mem) (x : Action α) (a : Int) :
    memoryAfter m x a = (Memory.written (writesIn x) a).getLastD (m a) :=
  Memory.writes_eq _ m a

section

variable {columnBindings : ColumnBindingMap} {documents : List Document} {i : Nat}

theorem rowAction_of_some {d : Document} (h : documents[i]? = some d) :
    rowAction P result columnBindings documents i =
      DataQuery.fetchDocument P result (columnBindings.setElementOffset i) d (DataQuery.allColumns result) := by
  rw [rowAction, h]
  rfl

theorem rowAction_of_none (h : documents.length ≤ i) :
    rowAction P result columnBindings documents i = pure .noData := by
  rw [rowAction, List.getElem?_eq_none h]
  rfl

theorem rowAction_value {d : Document} (h : documents[i]? = some d) :
    (rowAction P result columnBindings documents i).value =
      (DataQuery.fetchDocument P result columnBindings d (DataQuery.allColumns result)).value := by
  rw [rowAction_of_some h]
  exact DataQuery.fetchDocument_value_row d i _

end

theorem BlockOk.rowAction_returns {st : Statement} {m : Memory.Mem} {documents : List Document}
    (h : BlockOk P st m result documents) {i : Nat} (hi : i < st.rowArraySize.toNat) :
    ∃ r, (rowAction P result (st.rowsetBindings m) documents i).value = .ok r := by
  cases hd : documents[i]? with
  | none =>
    rw [rowAction, hd]
    exact ⟨.noData, rfl⟩
  | some d =>
    rw [rowAction_value hd, fetchDocument_returns_iff]
    exact h.returns i d hi hd

/-- No two rows share a slot. -/
theorem BlockOk.row_unique {st : Statement} {m : Memory.Mem} {documents : List Document}
    (h : BlockOk P st m result documents) (harr : ArraysOk st m result) {k : Nat} {b : ApplicationDataBuffer}
    (hb : BoundColumn result (st.rowsetBindings m) k b) {region : Region} {i j : Nat} {a : Int}
    (hi : i < st.rowArraySize.toNat) (hj : j < st.rowArraySize.toNat) (hai : b.InSlot region i a)
    (haj : b.InSlot region j a) : i = j := by
  by_cases hdef : region = .data ∧ b.type = .default
  · obtain ⟨rfl, ht⟩ := hdef
    obtain ⟨p, hp, hle, hlt⟩ := hai
    have hsome : b.buffer.isSome := by
      obtain ⟨x, hx, -⟩ := Option.map_eq_some_iff.mp hp
      exact Option.isSome_iff_exists.mpr ⟨x, hx⟩
    rcases h.no_default k b hb ht hsome with hzero | hone
    · have : b.slotSize .data = 0 := by
        simp [ApplicationDataBuffer.slotSize, ApplicationDataBuffer.extent, ht, hzero]
      omega
    · omega
  · exact ApplicationDataBuffer.InSlot.row_unique (harr.buflen k b hb) (fun hr ht => hdef ⟨hr, ht⟩) hai haj

section

variable {st : Statement} {m : Memory.Mem} {documents : List Document}

theorem written_storeRowsFetched {a : Int} (ha : ¬ st.InArea m result .rowsFetched a) (n : Int) :
    Memory.written (writesIn (st.storeRowsFetched n)) a = [] := by
  unfold storeRowsFetched
  cases hp : st.rowsFetched with
  | none => rfl
  | some p =>
    show Memory.written [⟨p, leBytes 4 n⟩] a = []
    rw [Memory.written_eq_nil, List.forall_mem_singleton]
    intro hc
    simp only [Memory.Write.Covers, length_leBytes] at hc
    exact ha ⟨p, hp, by omega, by omega⟩

theorem written_storeRowStatus {a : Int} (ha : ¬ st.InArea m result .rowStatuses a) {i : Nat}
    (hi : i < st.rowArraySize.toNat) (r : SqlResult) :
    Memory.written (writesIn (storeRowStatus st.rowStatuses i r)) a = [] := by
  unfold storeRowStatus
  cases hp : st.rowStatuses with
  | none => rfl
  | some p =>
    show Memory.written [⟨p + 2 * i, leBytes 2 (sqlResultToRowResult r)⟩] a = []
    rw [Memory.written_eq_nil, List.forall_mem_singleton]
    intro hc
    simp only [Memory.Write.Covers, length_leBytes] at hc
    exact ha ⟨p, hp, by omega, by omega⟩

/-- A row writes nothing where none of its slots is. -/
theorem written_rowAction_nil (harr : ArraysOk st m result)
    (hwide : NoWideOverrun P result (st.rowsetBindings m) (documents.take st.rowArraySize.toNat))
    {j : Nat} {a : Int} (hj : j < st.rowArraySize.toNat)
    (ha : ∀ k b region, BoundColumn result (st.rowsetBindings m) k b → ¬ b.InSlot region j a) :
    Memory.written (writesIn (rowAction P result (st.rowsetBindings m) documents j)) a = [] := by
  unfold rowAction
  cases hd : documents[j]? with
  | none => rfl
  | some d =>
    have hmem : d ∈ documents.take st.rowArraySize.toNat :=
      List.mem_of_getElem? ((List.getElem?_take_of_lt hj).trans hd)
    refine DataQuery.written_fetchDocument_nil _ fun i hi b hb => ?_
    have hbound : BoundColumn result (st.rowsetBindings m) i b := ⟨hi, hb⟩
    exact DataQuery.written_readDocument_nil (hwide.within hmem hbound (harr.buflen i b hbound))
      fun region => ha i b region hbound

/-- Of a list of rows one writes. -/
theorem flatMap_eq_of_unique {α : Type} {f : Nat → List α} {i : Nat} {l : List Nat} (hnd : l.Nodup) (hi : i ∈ l)
    (h : ∀ j ∈ l, j ≠ i → f j = []) : l.flatMap f = f i := by
  induction l with
  | nil => cases hi
  | cons j l ih =>
    obtain ⟨hj, hnd⟩ := List.nodup_cons.mp hnd
    rw [List.flatMap_cons]
    by_cases hji : j = i
    · subst hji
      have hrest : l.flatMap f = [] := by
        rw [List.flatMap_eq_nil_iff]
        intro x hx
        exact h x (List.mem_cons_of_mem j hx) fun hxj => hj (hxj ▸ hx)
      rw [hrest, List.append_nil]
    · have hil : i ∈ l := (List.mem_cons.mp hi).resolve_left fun hij => hji hij.symm
      rw [h j (List.mem_cons_self ..) hji, List.nil_append]
      exact ih hnd hil fun x hx => h x (List.mem_cons_of_mem j hx)

/-- Where the number of rows is not, the rows write. -/
theorem written_rowsetWrites_rows {a : Int} (ha : ¬ st.InArea m result .rowsFetched a) (n : Int) :
    Memory.written (rowsetWrites P st m result documents n) a = (List.range' 0 st.rowArraySize.toNat).flatMap
      fun i => Memory.written (rowWrites P result (st.rowsetBindings m) st.rowStatuses documents i) a := by
  rw [rowsetWrites, Memory.written_append, Memory.written_append, written_storeRowsFetched ha,
    written_storeRowsFetched ha, List.nil_append, List.append_nil, Memory.written_flatMap]

/-- In the slot of a row, what its fetch writes is all that the rowset writes. -/
theorem written_rowsetWrites (harr : ArraysOk st m result) (hok : BlockOk P st m result documents)
    (hwide : NoWideOverrun P result (st.rowsetBindings m) (documents.take st.rowArraySize.toNat)) (n : Int)
    {k : Nat} {b : ApplicationDataBuffer} (hb : BoundColumn result (st.rowsetBindings m) k b) {region : Region}
    {i : Nat} {a : Int} (hi : i < st.rowArraySize.toNat) (ha : b.InSlot region i a) :
    Memory.written (rowsetWrites P st m result documents n) a =
      Memory.written (writesIn (rowAction P result (st.rowsetBindings m) documents i)) a := by
  have harea : st.InArea m result (.column k region) a := ⟨b, i, hb, hi, ha⟩
  have hfetched : ¬ st.InArea m result .rowsFetched a := fun h => by cases harr.disjoint _ _ a harea h
  have hstatus : ¬ st.InArea m result .rowStatuses a := fun h => by cases harr.disjoint _ _ a harea h
  have hrow : ∀ j ∈ List.range' 0 st.rowArraySize.toNat,
      Memory.written (rowWrites P result (st.rowsetBindings m) st.rowStatuses documents j) a =
        Memory.written (writesIn (rowAction P result (st.rowsetBindings m) documents j)) a := by
    intro j hj
    rw [rowWrites, Memory.written_append, written_storeRowStatus hstatus (by simp at hj; omega), List.append_nil]
  have hother : ∀ j ∈ List.range' 0 st.rowArraySize.toNat, j ≠ i →
      Memory.written (rowWrites P result (st.rowsetBindings m) st.rowStatuses documents j) a = [] := by
    intro j hj hji
    have hjlt : j < st.rowArraySize.toNat := by
      simp at hj
      omega
    rw [hrow j hj]
    refine written_rowAction_nil harr hwide hjlt fun k' b' region' hb' haj => hji ?_
    -- an address of two slots is one of one column and region, hence of one row
    have harea' : st.InArea m result (.column k' region') a := ⟨b', j, hb', hjlt, haj⟩
    obtain ⟨rfl, rfl⟩ := Place.column.inj (harr.disjoint _ _ a harea harea')
    obtain rfl : b = b' := Option.some.inj (hb.bound.symm.trans hb'.bound)
    exact hok.row_unique harr hb hjlt hi haj ha
  rw [written_rowsetWrites_rows hfetched, flatMap_eq_of_unique List.nodup_range' (by simp; omega) hother]
  exact hrow i (by simp; omega)

theorem readInt32_congr {m m' : Memory.Mem} {o : Int} (h : ∀ x, o ≤ x → x < o + 4 → m x = m' x) :
    readInt32 m o = readInt32 m' o := by
  unfold readInt32
  rw [h o (by omega) (by omega), h (o + 1) (by omega) (by omega), h (o + 2) (by omega) (by omega),
    h (o + 3) (by omega) (by omega)]

/-- The offset cell is read alike in memories that agree there. -/
theorem rowsetBindings_congr {m₀ : Memory.Mem}
    (h : ∀ o, st.columnBindOffset = some o → ∀ x, o ≤ x → x < o + 4 → m₀ x = m x) :
    st.rowsetBindings m₀ = st.rowsetBindings m := by
  have hread : ∀ o, st.columnBindOffset = some o →
      readInt32 (memoryAfter m₀ (st.storeRowsFetched 0)) o =
        readInt32 (memoryAfter m (st.storeRowsFetched 0)) o := by
    intro o ho
    refine readInt32_congr fun x h1 h2 => ?_
    rw [memoryAfter_eq, memoryAfter_eq, h o ho x h1 h2]
  rw [rowsetBindings, rowsetBindings, offsetBindings, offsetBindings]
  cases ho : st.columnBindOffset with
  | none => rw [Option.elim_none, Option.elim_none]
  | some o => rw [Option.elim_some, Option.elim_some, hread o ho]

/-- In the first slot, what the fetch of its document writes is all that the
fetch of one row writes. -/
theorem written_singleFetch (harr : ArraysOk st m result) (hrows : 0 < st.rowArraySize.toNat) {m₀ : Memory.Mem}
    (hm₀ : st.rowsetBindings m₀ = st.rowsetBindings m) {q : DataQuery} {d : Document} (hq : NextIs result q d)
    {r : SqlResult}
    (hr : (DataQuery.fetchDocument P result (st.rowsetBindings m) d (DataQuery.allColumns result)).value = .ok r)
    {k : Nat} {b : ApplicationDataBuffer} (hb : BoundColumn result (st.rowsetBindings m) k b) {region : Region}
    {a : Int} (ha : b.InSlot region 0 a) :
    singleFetch P st q m₀ a =
      (Memory.written (writesIn (DataQuery.fetchDocument P result ((st.rowsetBindings m).setElementOffset 0) d
        (DataQuery.allColumns result))) a).getLastD (m₀ a) := by
  obtain ⟨c, docs, n, hc, hplaced, hd⟩ := hq
  have hd0 : (docs.drop n)[0]? = some d := by
    rw [List.getElem?_drop]
    exact hd
  have hsame : { st with currentQuery := some q, rowArraySize := 1 }.rowsetBindings m₀ =
      st.rowsetBindings m := hm₀
  have hone : { st with currentQuery := some q, rowArraySize := 1 }.currentQuery = some q := rfl
  obtain ⟨-, hw⟩ := internalFetchRow_spec (P := P) (m := m₀) hone hc hplaced fun i hi => by
    obtain rfl : i = 0 := by
      have : i < 1 := hi
      omega
    rw [hsame, rowAction_value hd0]
    exact ⟨r, hr⟩
  have harea : st.InArea m result (.column k region) a := ⟨b, 0, hb, hrows, ha⟩
  have hfetched : ¬ { st with currentQuery := some q, rowArraySize := 1 }.InArea m₀ result .rowsFetched a := by
    intro h
    have hst : st.InArea m result .rowsFetched a := h
    cases harr.disjoint _ _ a harea hst
  have hstatus : ¬ st.InArea m result .rowStatuses a := fun h => by cases harr.disjoint _ _ a harea h
  rw [singleFetch, memoryAfter_eq, hw, written_rowsetWrites_rows hfetched, hsame]
  show (List.flatMap (fun i => Memory.written (rowWrites P result (st.rowsetBindings m) st.rowStatuses
    (docs.drop n) i) a) [0]).getLastD (m₀ a) = _
  rw [List.flatMap_singleton, rowWrites, Memory.written_append, rowAction_of_some hd0,
    written_storeRowStatus hstatus hrows, List.append_nil]

/-- The fetch of a document writes to the slots of a row what it writes to
those of the first. -/
theorem written_row_shift (harr : ArraysOk st m result)
    (hwide : NoWideOverrun P result (st.rowsetBindings m) (documents.take st.rowArraySize.toNat)) {i : Nat}
    {d : Document} (hi : i < st.rowArraySize.toNat) (hd : documents[i]? = some d) {k : Nat}
    {b : ApplicationDataBuffer} (hb : BoundColumn result (st.rowsetBindings m) k b) {region : Region} {a : Int}
    (ha : b.InSlot region 0 a) (hai : b.InSlot region i (a + b.stride region * i)) :
    Memory.written (writesIn (DataQuery.fetchDocument P result ((st.rowsetBindings m).setElementOffset i) d
        (DataQuery.allColumns result))) (a + b.stride region * i) =
      Memory.written (writesIn (DataQuery.fetchDocument P result ((st.rowsetBindings m).setElementOffset 0) d
        (DataQuery.allColumns result))) a := by
  have harea : st.InArea m result (.column k region) a := ⟨b, 0, hb, by omega, ha⟩
  have hareai : st.InArea m result (.column k region) (a + b.stride region * i) := ⟨b, i, hb, hi, hai⟩
  have hmem : d ∈ documents.take st.rowArraySize.toNat :=
    List.mem_of_getElem? ((List.getElem?_take_of_lt hi).trans hd)
  refine DataQuery.written_fetchDocument_congr _ fun j hj b' hb' => ?_
  have hbound : BoundColumn result (st.rowsetBindings m) j b' := ⟨hj, hb'⟩
  have hwithin := hwide.within hmem hbound (harr.buflen j b' hbound)
  -- another slot of the rowset contains neither address
  have helse : ∀ region', Place.column k region ≠ .column j region' →
      ¬ b'.InSlot region' i (a + b.stride region * i) ∧ ¬ b'.InSlot region' 0 a := by
    intro region' hne
    refine ⟨fun h => hne ?_, fun h => hne ?_⟩
    · exact harr.disjoint _ _ _ hareai ⟨b', i, hbound, hi, h⟩
    · exact harr.disjoint _ _ _ harea ⟨b', 0, hbound, by omega, h⟩
  by_cases hjk : j = k
  · subst hjk
    obtain rfl : b = b' := Option.some.inj (hb.bound.symm.trans hb')
    exact DataQuery.written_readDocument_shift hwithin fun r hr =>
      helse r fun h => hr (Place.column.inj h).2.symm
  · rw [DataQuery.written_readDocument_nil hwithin fun r => (helse r fun h => hjk (Place.column.inj h).1.symm).1,
      DataQuery.written_readDocument_nil hwithin fun r => (helse r fun h => hjk (Place.column.inj h).1.symm).2]

/-! ## Statuses and the number of rows -/

/-- In the cells of the row statuses, a row writes its own status and nothing
else. -/
theorem written_rowStatus (harr : ArraysOk st m result)
    (hwide : NoWideOverrun P result (st.rowsetBindings m) (documents.take st.rowArraySize.toNat)) {p : Int}
    (hp : st.rowStatuses = some p) {i j : Nat} (hi : i < st.rowArraySize.toNat) (hj : j < st.rowArraySize.toNat)
    {y : Nat} (hy : y < 2) :
    Memory.written (rowWrites P result (st.rowsetBindings m) st.rowStatuses documents j) (p + 2 * i + y) =
      if j = i then
        [(leBytes 2 (sqlResultToRowResult (rowResult P result (st.rowsetBindings m) documents j))).getD y 0]
      else [] := by
  have harea : st.InArea m result .rowStatuses (p + 2 * i + y) := ⟨p, hp, by omega, by omega⟩
  have hnil : Memory.written (writesIn (rowAction P result (st.rowsetBindings m) documents j)) (p + 2 * i + y) =
      [] := by
    refine written_rowAction_nil harr hwide hj fun k b region hb ha => ?_
    have hcol : st.InArea m result (.column k region) (p + 2 * i + y) := ⟨b, j, hb, hj, ha⟩
    cases harr.disjoint _ _ _ harea hcol
  rw [rowWrites, Memory.written_append, hnil, List.nil_append, storeRowStatus, hp]
  show Memory.written [⟨p + 2 * j, leBytes 2 _⟩] _ = _
  rw [Memory.written_singleton]
  split
  · next hji =>
    rw [hji, Memory.byteAt_offset _ (by rwa [length_leBytes])]
    rfl
  · next hji =>
    have hcovers : ¬ Memory.Write.Covers ⟨p + 2 * j, leBytes 2 (sqlResultToRowResult
        (rowResult P result (st.rowsetBindings m) documents j))⟩ (p + 2 * i + y) := by
      simp only [Memory.Write.Covers, length_leBytes]
      omega
    rw [Memory.byteAt_eq_none.mpr hcovers]
    rfl

/-- The status of a row is what is found in its cell. -/
theorem readRowStatus_rowsetWrites (harr : ArraysOk st m result)
    (hwide : NoWideOverrun P result (st.rowsetBindings m) (documents.take st.rowArraySize.toNat))
    (n : Int) {p : Int} (hp : st.rowStatuses = some p) {i : Nat} (hi : i < st.rowArraySize.toNat) :
    readRowStatus (Memory.writes m (rowsetWrites P st m result documents n)) p i =
      sqlResultToRowResult (rowResult P result (st.rowsetBindings m) documents i) := by
  have hcell : ∀ y : Nat, y < 2 → Memory.writes m (rowsetWrites P st m result documents n) (p + 2 * i + y) =
      (leBytes 2 (sqlResultToRowResult (rowResult P result (st.rowsetBindings m) documents i))).getD y 0 := by
    intro y hy
    have harea : st.InArea m result .rowStatuses (p + 2 * i + y) := ⟨p, hp, by omega, by omega⟩
    have hfetched : ¬ st.InArea m result .rowsFetched (p + 2 * i + y) := fun h => by
      cases harr.disjoint _ _ _ harea h
    have hother : ∀ j ∈ List.range' 0 st.rowArraySize.toNat, j ≠ i →
        Memory.written (rowWrites P result (st.rowsetBindings m) st.rowStatuses documents j) (p + 2 * i + y) =
          [] := by
      intro j hj hji
      rw [written_rowStatus harr hwide hp hi (by simp at hj; omega) hy, if_neg hji]
    rw [Memory.writes_eq, written_rowsetWrites_rows hfetched,
      flatMap_eq_of_unique List.nodup_range' (by simp; omega) hother, written_rowStatus harr hwide hp hi hi hy,
      if_pos rfl]
    rfl
  have h0 := hcell 0 (by decide)
  have h1 := hcell 1 (by decide)
  simp only [Nat.cast_zero, Int.add_zero, Nat.cast_one] at h0 h1
  rw [readRowStatus, h0, h1]
  cases rowResult P result (st.rowsetBindings m) documents i <;> rfl

/-- The number of rows is the last thing that is written at all. -/
theorem readInt32_rowsetWrites {n : Nat} (hn : n < 2147483648) {p : Int} (hp : st.rowsFetched = some p) :
    readInt32 (Memory.writes m (rowsetWrites P st m result documents n)) p = n := by
  refine readInt32_leBytes hn fun y hy => ?_
  have hlast : Memory.written (writesIn (st.storeRowsFetched n)) (p + y) = [(leBytes 4 n).getD y 0] := by
    rw [storeRowsFetched, hp]
    show Memory.written [⟨p, leBytes 4 n⟩] (p + y) = _
    rw [Memory.written_singleton, Memory.byteAt_offset _ (by rwa [length_leBytes])]
    rfl
  rw [Memory.writes_eq, rowsetWrites, Memory.written_append, hlast, List.getLastD_concat]

/-- Counting rows is counting documents. -/
theorem countP_range_getElem? {α : Type} (f : Option α → Bool) (hf : f none = false) (n : Nat) (l : List α) :
    (List.range n).countP (fun i => f l[i]?) = (l.take n).countP fun x => f (some x) := by
  induction n generalizing l with
  | zero => simp
  | succ n ih =>
    cases l with
    | nil =>
      rw [List.take_nil, List.countP_nil, List.countP_eq_zero]
      intro i _
      rw [List.getElem?_nil, hf]
      exact Bool.false_ne_true
    | cons x l =>
      rw [List.range_succ_eq_map, List.countP_cons, List.take_succ_cons, List.countP_cons, List.countP_map]
      congr 1
      exact ih l

theorem deliveredRows_eq (documents : List Document) :
    (List.range' 0 st.rowArraySize.toNat).countP
        (fun i => isFetched (rowResult P result (st.rowsetBindings m) documents i)) =
      deliveredRows P st m result documents := by
  have hrow : ∀ i, isFetched (rowResult P result (st.rowsetBindings m) documents i) =
      documents[i]?.elim false fun d => isDelivered
        (DataQuery.fetchDocument P result (st.rowsetBindings m) d (DataQuery.allColumns result)).value := by
    intro i
    cases hd : documents[i]? with
    | none =>
      rw [rowResult, rowAction, hd]
      rfl
    | some d =>
      rw [rowResult, rowAction_value hd, Option.elim_some]
      cases (DataQuery.fetchDocument P result (st.rowsetBindings m) d (DataQuery.allColumns result)).value <;> rfl
  simp only [hrow]
  rw [← List.range_eq_range']
  exact countP_range_getElem? (fun o => o.elim false fun d => isDelivered
    (DataQuery.fetchDocument P result (st.rowsetBindings m) d (DataQuery.allColumns result)).value)
    rfl _ documents

end

/-! ## The two directions -/

section

variable {st : Statement} {m : Memory.Mem} {documents : List Document}

/-- The slot of a row after the rowset, and the first slot after the fetch of
its document. -/
theorem writes_slot_eq_singleFetch (harr : ArraysOk st m result) (hok : BlockOk P st m result documents)
    (hwide : NoWideOverrun P result (st.rowsetBindings m) (documents.take st.rowArraySize.toNat))
    (n : Int) {i : Nat} {d : Document} (hi : i < st.rowArraySize.toNat) (hd : documents[i]? = some d) {k : Nat}
    {b : ApplicationDataBuffer} {region : Region} {p p₀ : Int} (hb : BoundColumn result (st.rowsetBindings m) k b)
    (hp : b.slot region i = some p) (hp₀ : b.slot region 0 = some p₀) {q : DataQuery} {m₀ : Memory.Mem}
    (hnext : NextIs result q d) (hbindings : st.rowsetBindings m₀ = st.rowsetBindings m)
    (hbefore : ∀ x : Nat, x < b.slotSize region → m₀ (p₀ + x) = m (p + x)) {x : Nat}
    (hx : x < b.slotSize region) :
    Memory.writes m (rowsetWrites P st m result documents n) (p + x) = singleFetch P st q m₀ (p₀ + x) := by
  obtain ⟨r, hr⟩ := (fetchDocument_returns_iff ..).mpr (hok.returns i d hi hd)
  have hpi : p = p₀ + b.stride region * i := by
    rw [ApplicationDataBuffer.slot_eq, hp₀] at hp
    exact (Option.some.inj hp).symm
  have ha : b.InSlot region 0 (p₀ + x) := ⟨p₀, hp₀, by omega, by omega⟩
  have hai : b.InSlot region i (p + x) := ⟨p, hp, by omega, by omega⟩
  have hpx : p + (x : Int) = p₀ + x + b.stride region * i := by omega
  rw [Memory.writes_eq, written_rowsetWrites harr hok hwide n hb hi hai, rowAction_of_some hd, ← hbefore x hx,
    written_singleFetch harr (by omega) hbindings hnext hr hb ha, hpx,
    written_row_shift harr hwide hi hd hb ha (hpx ▸ hai)]

/-- The counter does not overflow, so it holds the number of rows. -/
theorem counted_deliveredRows (h : deliveredRows P st m result documents < 2147483648) :
    counted isFetched (rowResult P result (st.rowsetBindings m) documents)
      (List.range' 0 st.rowArraySize.toNat) 0 = deliveredRows P st m result documents := by
  rw [← deliveredRows_eq] at h ⊢
  have hcount := counted_eq isFetched (rowResult P result (st.rowsetBindings m) documents)
    (List.range' 0 st.rowArraySize.toNat) (n := 0) (by omega)
  rwa [Nat.zero_add] at hcount

end

theorem equalsSingleFetches_of_ok {st : Statement} {m : Memory.Mem} {q : DataQuery} {c : DocumentDbCursor}
    {documents : List Document} {k : Nat} (hq : st.currentQuery = some q) (hc : q.cursor = some c)
    (hplaced : DataQuery.Placed documents result k c) (harr : ArraysOk st m result)
    (hwide : NoWideOverrun P result (st.rowsetBindings m) ((documents.drop k).take st.rowArraySize.toNat))
    (hok : BlockOk P st m result (documents.drop k)) :
    EqualsSingleFetches P st m result (documents.drop k) := by
  obtain ⟨hvalue, hw⟩ := internalFetchRow_spec (P := P) hq hc hplaced fun i hi => hok.rowAction_returns hi
  have hmem : memoryAfter m (st.internalFetchRow P m).2 = Memory.writes m (rowsetWrites P st m result _ _) :=
    congrArg (Memory.writes m) hw
  refine ⟨⟨_, hvalue⟩, ?_, ?_, ?_, ?_, ?_⟩
  · intro i d hi hd n b region p p₀ hb hp hp₀ q' m₀ hnext hoffset hbefore x hx
    rw [hmem]
    exact writes_slot_eq_singleFetch harr hok hwide _ hi hd hb hp hp₀ hnext (rowsetBindings_congr hoffset)
      hbefore hx
  · intro n b region i j a hb hi hj hai haj
    exact hok.row_unique harr hb hi hj hai haj
  · intro i hlen hi n b region a hb ha
    rw [hmem, Memory.writes_eq, written_rowsetWrites harr hok hwide _ hb hi ha, rowAction_of_none hlen]
    rfl
  · intro i p hlen hi hp
    rw [hmem, readRowStatus_rowsetWrites harr hwide _ hp hi, rowResult, rowAction_of_none hlen]
    rfl
  · intro p hp
    rw [hmem, counted_deliveredRows (hok.rows p hp), if_neg (by omega)]
    exact readInt32_rowsetWrites (hok.rows p hp) hp

/-- A fetch that returns has fetched every row. -/
theorem rowAction_of_fetchRows {columnBindings : ColumnBindingMap} {documents : List Document} {k : Nat}
    (rowStatuses : Option Int) (rows i : Nat) (fetched errors : Int) {q : DataQuery} {c : DocumentDbCursor}
    {v : Int × Int} (hc : q.cursor = some c) (hplaced : DataQuery.Placed documents result (k + i) c)
    (h : (fetchRows P rowStatuses columnBindings rows i fetched errors q).2.value = .ok v) (j : Nat) (h1 : i ≤ j)
    (h2 : j < i + rows) : ∃ r, (rowAction P result columnBindings (documents.drop k) j).value = .ok r := by
  induction rows generalizing i fetched errors q c with
  | zero => omega
  | succ rows ih =>
    obtain ⟨hact, c', hc', hplaced'⟩ := fetchNextRow_row (P := P) columnBindings hc hplaced
    rw [fetchRows] at h
    dsimp only at h
    rw [hact] at h
    cases hr : (rowAction P result columnBindings (documents.drop k) i).value with
    | error e =>
      rw [hr] at h
      dsimp only at h
      obtain ⟨r, hx, -⟩ := value_bind_eq_ok.mp h
      rw [hr] at hx
      cases hx
    | ok r =>
      rw [hr] at h
      dsimp only at h
      obtain ⟨_, _, h⟩ := value_bind_eq_ok.mp h
      obtain ⟨_, _, h⟩ := value_bind_eq_ok.mp h
      by_cases hji : j = i
      · rw [hji]
        exact ⟨r, hr⟩
      · exact ih (i + 1) _ _ hc' hplaced' h (by omega) (by omega)

theorem ok_of_equalsSingleFetches {st : Statement} {m : Memory.Mem} {q : DataQuery} {c : DocumentDbCursor}
    {documents : List Document} {k : Nat} (hq : st.currentQuery = some q) (hc : q.cursor = some c)
    (hplaced : DataQuery.Placed documents result k c) (harr : ArraysOk st m result)
    (h : EqualsSingleFetches P st m result (documents.drop k)) : BlockOk P st m result (documents.drop k) := by
  refine ⟨fun i d hi hd => ?_, fun i b hb ht hdata => ?_, fun p hp => ?_⟩
  · obtain ⟨r, hr⟩ := h.returns
    rw [internalFetchRow, hq] at hr
    obtain ⟨-, -, hr⟩ := value_bind_eq_ok.mp hr
    obtain ⟨v, hv, -⟩ := value_bind_eq_ok.mp hr
    rw [← fetchDocument_returns_iff, ← rowAction_value hd]
    exact rowAction_of_fetchRows _ _ 0 0 0 hc hplaced hv i (by omega) (by omega)
  · by_contra hno
    have h0 := harr.buflen i b hb
    obtain ⟨p, hp⟩ := Option.isSome_iff_exists.mp hdata
    have hsize : (b.slotSize .data : Int) = b.buflen := by
      simp [ApplicationDataBuffer.slotSize, ApplicationDataBuffer.extent, ht, h0]
    have hslot : ∀ row, b.slot .data row = some (p + b.byteOffset) := by
      intro row
      simp [ApplicationDataBuffer.slot, ApplicationDataBuffer.getData, ApplicationDataBuffer.applyOffset,
        ApplicationDataBuffer.getElementSize, ht, hp]
    have hin : ∀ row, b.InSlot .data row (p + b.byteOffset) := fun row => ⟨_, hslot row, by omega, by omega⟩
    have := h.no_overlap i b .data 0 1 _ hb (by omega) (by omega) (hin 0) (hin 1)
    omega
  · have := h.rows_fetched p hp
    have := readInt32_lt (memoryAfter m (st.internalFetchRow P m).2) p
    omega

def twoTexts : List Document := [[(ascii "a", .utf8 (ascii "xyz"))], [(ascii "a", .utf8 (ascii "uvw"))]]

def textColumn : ResultColumns := ⟨[.varchar], [ascii "a"]⟩

/-- A query has been executed, and two rows are asked for. -/
def unboundRowset : Statement where
  currentQuery := some (((DataQuery.mk none).execute (.opened twoTexts textColumn)).1.run .unixOdbc [])
  rowArraySize := 2

/-- Its column is bound by this type, to four bytes a row and no indicator. -/
def textRowset (targetType : Int) : Statement :=
  unboundRowset.run .unixOdbc [.bindColumn 1 targetType (some 0) 4 none]

def fourBytes (type : OdbcNativeType) : ApplicationDataBuffer := ⟨type, some 0, 4, none, 0, 0, by decide⟩

/-- `SQL_C_CHAR` is 1. -/
theorem textRowset_bound {m : Memory.Mem} {i : Nat} {b : ApplicationDataBuffer}
    (h : BoundColumn textColumn ((textRowset 1).rowsetBindings m) i b) : i = 1 ∧ b = fourBytes .char := by
  obtain rfl : i = 1 := by
    have : 1 ≤ i ∧ i ≤ 1 := h.range
    omega
  exact ⟨rfl, (Option.some.inj h.bound).symm⟩

/-- The data of its one column are all that the application has bound. -/
theorem textRowset_arraysOk (m : Memory.Mem) : ArraysOk (textRowset 1) m textColumn := by
  have hcol : ∀ x a, (textRowset 1).InArea m textColumn x a → x = .column 1 .data := by
    intro x a h
    cases x with
    | column i region =>
      obtain ⟨b, row, hb, -, p, hp, -⟩ := h
      obtain ⟨rfl, rfl⟩ := textRowset_bound hb
      cases region with
      | data => rfl
      | indicator => cases hp
    | rowStatuses =>
      obtain ⟨p, hp, -⟩ := h
      cases hp
    | rowsFetched =>
      obtain ⟨p, hp, -⟩ := h
      cases hp
  refine ⟨run_bindingsOk (fun k b hb => ?_) _, fun x y a hx hy => ?_⟩
  · cases hb
  · rw [hcol x a hx, hcol y a hy]

end Statement

end DocumentDbOdbc
