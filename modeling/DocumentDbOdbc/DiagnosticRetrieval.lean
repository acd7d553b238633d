/-
Diagnostic records, retrieved one at a time.

`SQLError` reports the first record of a handle that it has not reported yet,
and marks it; `SQLGetDiagRec` reads any of them and marks none. A call of the
driver begins with `Reset`, adds records as it goes and ends with
`SetHeaderRecord`. `sqlError_next`: whatever is called on whatever handles, each
record is reported once, in the order the records were added in.
-/
import DocumentDbOdbc.DiagnosticRecord
import DocumentDbOdbc.BufferMemory

namespace DocumentDbOdbc

open ApplicationDataBuffer

/-- `DiagnosticRecord` with its mark. -/
structure DiagnosticRecord where
  status : StatusRecord
  retrieved : Bool := false

structure DiagnosticRecordStorage where
  rowCount : Int64 := 0
  dynamicFunction : Str := []
  dynamicFunctionCode : Int32 := 0
  result : SqlResult := .success
  rowsAffected : Int32 := 0
  statusRecords : List DiagnosticRecord := []

namespace DiagnosticRecordStorage

variable (s : DiagnosticRecordStorage)

def setHeaderRecord (result : SqlResult) : DiagnosticRecordStorage :=
  { s with rowCount := 0, dynamicFunction := [], dynamicFunctionCode := 0, result, rowsAffected := 0 }

/-- `AddStatusRecord`; nobody adds a record that is marked. -/
def addStatusRecord (record : StatusRecord) : DiagnosticRecordStorage :=
  { s with statusRecords := s.statusRecords ++ [{ status := record }] }

def reset : DiagnosticRecordStorage := { s.setHeaderRecord .error with statusRecords := [] }

def records : List StatusRecord := s.statusRecords.map (·.status)

def firstNonRetrieved (i : Nat) : List DiagnosticRecord → Int
  | [] => 0
  | record :: rest => if !record.retrieved then int32Cast (i + 1) else firstNonRetrieved (i + 1) rest

/-- `GetLastNonRetrieved`, which gives the first one. -/
def getLastNonRetrieved : Int := firstNonRetrieved 0 s.statusRecords

/-- `MarkRetrieved` of the record with that number. -/
def markRetrieved (recNum : Int) : DiagnosticRecordStorage :=
  { s with statusRecords := s.statusRecords.modify (recNum.toNat - 1) fun record => { record with retrieved := true } }

end DiagnosticRecordStorage

/-- The arguments of `SQLError`: the handles that are not null, and the
addresses to store at. -/
structure ErrorCall (ι : Type) where
  env : Option ι
  conn : Option ι
  stmt : Option ι
  state : Option Int
  error : Option Int
  msgBuf : Option Int
  msgBufLen : Int16
  msgResLen : Option Int

namespace ErrorCall

variable {ι : Type} (call : ErrorCall ι)

def handle : Option ι := call.env.or (call.conn.or call.stmt)

def stateWrites (P : Platform) (record : StatusRecord) : List Memory.Write :=
  (match call.state with
    | none => []
    | some p => (Utility.copyStringToBuffer P record.getSqlState (some p) 6 false).writes) ++
  match call.error with
    | none => []
    | some p => [⟨p, leBytes 4 0⟩]

/-- The stores for a record, the first one first; the length of the buffer is in
characters. -/
def writes (P : Platform) (record : StatusRecord) : List Memory.Write :=
  let copied := Utility.copyStringToBuffer P record.message call.msgBuf (sizeT call.msgBufLen.toInt) false
  call.stateWrites P record ++ copied.writes ++
    match call.msgResLen with
    | none => []
    | some q => [⟨q, leBytes 2 copied.length⟩]

end ErrorCall

/-- What happens to the storages of the handles; `error` and `getDiagRec` are the
calls of `SQLError` and `SQLGetDiagRec`. -/
inductive DiagnosticCall (ι : Type) where
  | reset (i : ι)
  | addStatusRecord (i : ι) (record : StatusRecord)
  | setHeaderRecord (i : ι) (result : SqlResult)
  | error (call : ErrorCall ι)
  | getDiagRec (i : ι) (call : GetDiagRecCall)

section

variable {ι : Type} [DecidableEq ι] (P : Platform)

/-- `SQLError`. -/
def sqlError (storages : ι → DiagnosticRecordStorage) (call : ErrorCall ι) :
    (SqlReturn × List Memory.Write) × (ι → DiagnosticRecordStorage) :=
  match call.handle with
  | none => ((.invalidHandle, []), storages)
  | some i =>
    let records := storages i
    let recNum := records.getLastNonRetrieved
    if recNum < 1 ∨ getStatusRecordsNumber records.records < recNum then ((.noData, []), storages)
    else match records.records[recNum.toNat - 1]? with
      | none => ((.noData, []), storages)  -- not reached: the number is at most that of the records
      | some record => ((.success, call.writes P record), Function.update storages i (records.markRetrieved recNum))

/-- A call, and the storages after it; what happens inside a call of the driver
returns nothing. -/
def DiagnosticCall.perform (storages : ι → DiagnosticRecordStorage) :
    DiagnosticCall ι → Option (SqlReturn × List Memory.Write) × (ι → DiagnosticRecordStorage)
  | .reset i => (none, Function.update storages i (storages i).reset)
  | .addStatusRecord i record => (none, Function.update storages i ((storages i).addStatusRecord record))
  | .setHeaderRecord i result => (none, Function.update storages i ((storages i).setHeaderRecord result))
  | .error call => (some (sqlError P storages call).1, (sqlError P storages call).2)
  | .getDiagRec i call => (some (sqlGetDiagRec P { call with handle := some (storages i).records }), storages)

/-- The records added to a handle since it was reset, and how often `SQLError`
has returned one of them. -/
structure Retrieval where
  added : List StatusRecord := []
  returned : Nat := 0

/-- After `SQLError` on the handle. -/
def Retrieval.after (x : Retrieval) : Option (SqlReturn × List Memory.Write) → Retrieval
  | some (.success, _) => { x with returned := x.returned + 1 }
  | _ => x

/-- What a call and its result add to the retrievals. -/
def DiagnosticCall.note (retrievals : ι → Retrieval) (result : Option (SqlReturn × List Memory.Write)) :
    DiagnosticCall ι → ι → Retrieval
  | .reset i => Function.update retrievals i {}
  | .addStatusRecord i record =>
    Function.update retrievals i { retrievals i with added := (retrievals i).added ++ [record] }
  | .setHeaderRecord _ _ | .getDiagRec _ _ => retrievals
  | .error call =>
    match call.handle with
    | none => retrievals
    | some i => Function.update retrievals i ((retrievals i).after result)

/-- One call after the other, from new handles. -/
def runDiagnostics (calls : List (DiagnosticCall ι)) : (ι → DiagnosticRecordStorage) × (ι → Retrieval) :=
  calls.foldl (fun x call => ((call.perform P x.1).2, call.note x.2 (call.perform P x.1).1)) (fun _ => {}, fun _ => {})

end

/-! ## What a storage shows of its retrieval -/

namespace DiagnosticRecordStorage

/-- The records that were returned are marked, and they are the first ones. -/
structure Shows (s : DiagnosticRecordStorage) (x : Retrieval) : Prop where
  returned_le : x.returned ≤ x.added.length
  statusRecords : s.statusRecords =
    (x.added.take x.returned).map (⟨·, true⟩) ++ (x.added.drop x.returned).map (⟨·, false⟩)

variable {s : DiagnosticRecordStorage} {x : Retrieval}

theorem Shows.records (h : s.Shows x) : s.records = x.added := by
  rw [DiagnosticRecordStorage.records, h.statusRecords, List.map_append, List.map_map, List.map_map]
  exact (congrArg₂ (· ++ ·) (List.map_id _) (List.map_id _)).trans (List.take_append_drop _ _)

theorem Shows.length_take (h : s.Shows x) : (x.added.take x.returned).length = x.returned := by
  rw [List.length_take]
  exact Nat.min_eq_left h.returned_le

theorem firstNonRetrieved_marked (i : Nat) (returned : List StatusRecord) (rest : List DiagnosticRecord) :
    firstNonRetrieved i (returned.map (⟨·, true⟩) ++ rest) = firstNonRetrieved (i + returned.length) rest := by
  induction returned generalizing i with
  | nil => rfl
  | cons r returned ih =>
    rw [List.map_cons, List.cons_append, firstNonRetrieved, if_neg (by simp), ih, List.length_cons]
    congr 1
    omega

theorem Shows.getLastNonRetrieved (h : s.Shows x) : s.getLastNonRetrieved =
    if x.returned < x.added.length then int32Cast (x.returned + 1) else 0 := by
  rw [DiagnosticRecordStorage.getLastNonRetrieved, h.statusRecords, firstNonRetrieved_marked, h.length_take, Nat.zero_add]
  split
  · next hlt =>
    rw [List.drop_eq_getElem_cons hlt, List.map_cons, firstNonRetrieved, if_pos (by simp)]
  · next hge =>
    rw [List.drop_eq_nil_of_le (by omega)]
    rfl

theorem Shows.addStatusRecord (h : s.Shows x) (record : StatusRecord) :
    (s.addStatusRecord record).Shows { x with added := x.added ++ [record] } where
  returned_le := by
    rw [List.length_append]
    exact Nat.le_add_right_of_le h.returned_le
  statusRecords := by
    rw [DiagnosticRecordStorage.addStatusRecord, h.statusRecords, List.take_append_of_le_length h.returned_le,
      List.drop_append_of_le_length h.returned_le, List.map_append, List.append_assoc]
    rfl

theorem modify_append_cons {α : Type} (f : α → α) (a : α) (l' : List α) : ∀ l : List α,
    (l ++ a :: l').modify l.length f = l ++ f a :: l'
  | [] => rfl
  | b :: l => congrArg (b :: ·) (modify_append_cons f a l' l)

theorem Shows.markRetrieved (h : s.Shows x) (hlt : x.returned < x.added.length) :
    (s.markRetrieved (x.returned + 1 : Nat)).Shows { x with returned := x.returned + 1 } where
  returned_le := hlt
  statusRecords := by
    have hmark := modify_append_cons (fun record : DiagnosticRecord => { record with retrieved := true })
      ⟨x.added[x.returned], false⟩ ((x.added.drop (x.returned + 1)).map (⟨·, false⟩))
      ((x.added.take x.returned).map (⟨·, true⟩))
    rw [List.length_map, h.length_take] at hmark
    rw [DiagnosticRecordStorage.markRetrieved, h.statusRecords, Int.toNat_natCast, Nat.add_sub_cancel,
      List.drop_eq_getElem_cons hlt, List.map_cons]
    dsimp only
    rw [hmark, List.take_succ_eq_append_getElem hlt, List.map_append, List.append_assoc]
    rfl

end DiagnosticRecordStorage

/-! ## Runs -/

section

variable {ι : Type} [DecidableEq ι] {P : Platform} {storages : ι → DiagnosticRecordStorage} {retrievals : ι → Retrieval}

theorem sqlError_eq {call : ErrorCall ι} {i : ι} (hcall : call.handle = some i) {x : Retrieval} (h : (storages i).Shows x)
    (hfew : x.added.length < 2 ^ 31) : sqlError P storages call = match x.added[x.returned]? with
      | some record => ((.success, call.writes P record),
          Function.update storages i ((storages i).markRetrieved (x.returned + 1 : Nat)))
      | none => ((.noData, []), storages) := by
  have hnumber : getStatusRecordsNumber (storages i).records = x.added.length := by
    rw [h.records]
    exact int32Cast_of_lt hfew
  rw [sqlError, hcall]
  dsimp only
  rw [h.getLastNonRetrieved, hnumber, h.records]
  by_cases hlt : x.returned < x.added.length
  · have hrecNum : int32Cast (x.returned + 1) = (x.returned + 1 : Nat) := int32Cast_of_lt (by omega)
    rw [if_pos hlt, hrecNum, if_neg (by omega), Int.toNat_natCast, Nat.add_sub_cancel, List.getElem?_eq_getElem hlt]
  · rw [if_neg hlt, if_pos (.inl (by decide)), List.getElem?_eq_none (by omega)]

/-- `SQLError` leaves the storages of other handles alone. -/
theorem sqlError_other (storages : ι → DiagnosticRecordStorage) {call : ErrorCall ι} {i : ι} (hcall : call.handle = some i) :
    ∃ s, (sqlError P storages call).2 = Function.update storages i s := by
  rw [sqlError, hcall]
  dsimp only
  split
  · exact ⟨storages i, (Function.update_eq_self i storages).symm⟩
  · split
    · exact ⟨storages i, (Function.update_eq_self i storages).symm⟩
    · exact ⟨_, rfl⟩

theorem Retrieval.added_after (x : Retrieval) (result : Option (SqlReturn × List Memory.Write)) :
    (x.after result).added = x.added := by
  unfold Retrieval.after
  split <;> rfl

/-- The storages show what was retrieved, unless so many records were added that
their number is no `int32_t`. -/
def Shown (x : (ι → DiagnosticRecordStorage) × (ι → Retrieval)) : Prop :=
  ∀ i, (x.2 i).added.length < 2 ^ 31 → (x.1 i).Shows (x.2 i)

theorem Shown.update (h : Shown (storages, retrievals)) {i : ι} {s : DiagnosticRecordStorage} {x : Retrieval}
    (hi : x.added.length < 2 ^ 31 → s.Shows x) : Shown (Function.update storages i s, Function.update retrievals i x) := by
  intro j hfew
  dsimp only at hfew ⊢
  by_cases hj : j = i
  · subst hj
    rw [Function.update_self] at hfew ⊢
    rw [Function.update_self]
    exact hi hfew
  · rw [Function.update_of_ne hj] at hfew ⊢
    rw [Function.update_of_ne hj]
    exact h j hfew

theorem Shown.perform (h : Shown (storages, retrievals)) (call : DiagnosticCall ι) :
    Shown ((call.perform P storages).2, call.note retrievals (call.perform P storages).1) := by
  cases call with
  | reset i => exact h.update fun _ => ⟨Nat.le_refl 0, rfl⟩
  | addStatusRecord i record =>
    refine h.update fun hfew => (h i ?_).addStatusRecord record
    rw [List.length_append] at hfew
    exact Nat.lt_of_le_of_lt (Nat.le_add_right _ _) hfew
  | setHeaderRecord i result =>
    have hupdated := h.update (i := i) (s := (storages i).setHeaderRecord result) fun hfew =>
      ⟨(h i hfew).returned_le, (h i hfew).statusRecords⟩
    rwa [Function.update_eq_self] at hupdated
  | getDiagRec i call => exact h
  | error call =>
    rw [DiagnosticCall.perform, DiagnosticCall.note]
    cases hcall : call.handle with
    | none =>
      have hnone : sqlError P storages call = ((.invalidHandle, []), storages) := by
        rw [sqlError, hcall]
      rw [hnone]
      exact h
    | some i =>
      dsimp only
      obtain ⟨s, hs⟩ := sqlError_other (P := P) storages hcall
      rw [hs]
      refine h.update fun hfew => ?_
      rw [Retrieval.added_after] at hfew
      have hshows := h i hfew
      have hstorage : s = (sqlError P storages call).2 i := by rw [hs, Function.update_self]
      rw [hstorage, sqlError_eq hcall hshows hfew]
      cases hnext : (retrievals i).added[(retrievals i).returned]? with
      | none => exact hshows
      | some record =>
        dsimp only
        rw [Function.update_self]
        exact hshows.markRetrieved (List.getElem?_eq_some_iff.mp hnext).1

theorem shown_run (calls : List (DiagnosticCall ι)) : Shown (runDiagnostics P calls) :=
  List.foldlRecOn (motive := Shown) calls _ (fun _ _ => ⟨Nat.le_refl 0, rfl⟩) fun _ hx call _ => hx.perform call

/-- **Each record once, in order**: after any calls on any handles, `SQLError`
returns the record behind those it has returned since the handle was reset,
and `SQL_NO_DATA` when there is none. -/
theorem sqlError_next (calls : List (DiagnosticCall ι)) {call : ErrorCall ι} {i : ι} (hcall : call.handle = some i)
    (hfew : ((runDiagnostics P calls).2 i).added.length < 2 ^ 31) :
    ((runDiagnostics P calls).1 i).records = ((runDiagnostics P calls).2 i).added ∧
      ((runDiagnostics P calls).2 i).returned ≤ ((runDiagnostics P calls).2 i).added.length ∧
      (sqlError P (runDiagnostics P calls).1 call).1 =
        match ((runDiagnostics P calls).2 i).added[((runDiagnostics P calls).2 i).returned]? with
        | some record => (.success, call.writes P record)
        | none => (.noData, []) := by
  have hshows := shown_run (P := P) calls i hfew
  refine ⟨hshows.records, hshows.returned_le, ?_⟩
  rw [sqlError_eq hcall hshows hfew]
  split <;> rfl

/-- A statement is asked, with a buffer for two characters at 0. -/
def askStatement : ErrorCall Unit := ⟨none, none, some (), none, none, some 0, 2, none⟩

/-- The second of two records, after the first one was returned. -/
theorem sqlError_next_second :
    (sqlError .unixOdbc (runDiagnostics .unixOdbc [.reset (), .addStatusRecord () ⟨.sHY010SequenceError, [97], 0, 0⟩,
      .addStatusRecord () ⟨.sHYT00TimeoutExpired, [98], 0, 0⟩, .setHeaderRecord () .error, .error askStatement]).1
        askStatement).1 = (.success, askStatement.writes .unixOdbc ⟨.sHYT00TimeoutExpired, [98], 0, 0⟩) := by
  have hcall : askStatement.handle = some () := rfl
  exact (sqlError_next (P := .unixOdbc) [.reset (), .addStatusRecord () ⟨.sHY010SequenceError, [97], 0, 0⟩,
    .addStatusRecord () ⟨.sHYT00TimeoutExpired, [98], 0, 0⟩, .setHeaderRecord () .error, .error askStatement] hcall
    (by decide)).2.2

end

end DocumentDbOdbc
