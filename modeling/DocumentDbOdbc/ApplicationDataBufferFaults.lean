/-
When a `Put` does not return.

An operation of the buffer throws on a text that is not UTF-8 and on a time
outside the calendar, and writes the objects of a date, a time, a GUID and a
decimal through a null pointer. `Faulty` says of each operation, by the value
and the buffer alone, when that happens; `put_faults_iff` shows it exact.
-/
import DocumentDbOdbc.ApplicationDataBufferResults

namespace DocumentDbOdbc

open Effect

namespace ApplicationDataBuffer

variable {P : Platform} {b : ApplicationDataBuffer}

/-- The call does not return. -/
def Faults (x : Put) : Prop := ∃ e, x.value = .error e

theorem faults_pure (r : ConversionResult) : ¬ Faults (pure r) := by simp [Faults]

theorem faults_raise (e : Fault) : Faults (raise e) := ⟨e, rfl⟩

theorem faults_bind_ok {α : Type} {x : Eff Store Fault α} {a : α} (h : x.value = .ok a) (f : α → Put) :
    Faults (x >>= f) ↔ Faults (f a) := by
  rw [Faults, value_bind, h]
  rfl

theorem faults_bind_error {α : Type} {x : Eff Store Fault α} {e : Fault} (h : x.value = .error e)
    (f : α → Put) : Faults (x >>= f) := by
  rw [Faults, value_bind, h]
  exact ⟨e, rfl⟩

/-- Stores, the length and a result: a null pointer is all that can go wrong. -/
theorem faults_store {x : Eff Store Fault Unit} (hx : b.buffer.isSome → x.value = .ok ())
    (hnull : ¬ b.buffer.isSome → x.value = .error .nullPointer) (len : Int) (r : ConversionResult) :
    Faults (do
      x
      b.storeLen len
      pure r) ↔ ¬ b.buffer.isSome := by
  by_cases hb : b.buffer.isSome
  · rw [faults_bind_ok (hx hb), faults_bind_ok (storeLen_value b len)]
    simp [faults_pure, hb]
  · exact iff_of_true (faults_bind_error (hnull hb) _) hb

/-! ## Texts -/

/-- The text goes into the buffer and is not UTF-8. -/
def CharFaulty (P : Platform) (b : ApplicationDataBuffer) (s : Str) : Prop :=
  b.buffer.isSome ∧ 1 ≤ b.buflen ∧ P.fromBytes s = none

theorem putStrToCharBuffer_faults (s : Str) : Faults (b.putStrToCharBuffer P s) ↔ CharFaulty P b s := by
  unfold putStrToCharBuffer CharFaulty
  split
  · next hb => simp [faults_pure, Option.isNone_iff_eq_none.mp hb]
  next hb =>
  have hb : b.buffer.isSome := isSome_of_not_isNone hb
  split
  · next hlen =>
    refine iff_of_false (faults_pure _) fun h => ?_
    omega
  next hlen =>
  have hlen : 1 ≤ b.buflen := by omega
  split
  · next hf => simp [faults_raise, hf, hb, hlen]
  · next chars hf =>
    simp only
    rw [faults_bind_ok (storeData_value hb _ _), faults_bind_ok (storeData_value hb _ _),
      faults_bind_ok (storeLen_value b _)]
    simp [faults_pure, hf]

theorem putStrToWcharBuffer_faults (s : Str) : ¬ Faults (b.putStrToWcharBuffer P s) := by
  have hw := P.wcharBytes_range
  unfold putStrToWcharBuffer
  split
  · exact faults_pure _
  next hb =>
  have hb : b.buffer.isSome := isSome_of_not_isNone hb
  split
  · exact faults_pure _
  next hlen =>
  have hsize := sizeT_of_nonneg (b := b) (by omega)
  rw [hsize, faults_bind_ok (copyUtf8_value hb (by omega) s), faults_bind_ok (storeLen_value b _)]
  exact faults_pure _

/-! ## Dates and times -/

theorem putTmToCharBuffer_faults (text : Str) (valLen : Nat) :
    ¬ Faults (b.putTmToCharBuffer P text valLen) := by
  unfold putTmToCharBuffer
  rw [faults_bind_ok (storeLen_value b _), faults_bind_ok (ifData_value fun hb => storeData_value hb _ _)]
  exact faults_pure _

theorem putTmToWcharBuffer_faults (text : Str) (valLen : Nat) (tmp : Int) :
    Faults (b.putTmToWcharBuffer P text valLen tmp) ↔ b.buffer.isSome ∧ tmp < 0 := by
  unfold putTmToWcharBuffer
  rw [faults_bind_ok (storeLen_value b _)]
  by_cases hthrow : b.buffer.isSome ∧ tmp < 0
  · rw [ifData, if_pos hthrow.1, if_pos hthrow.2, raise_bind]
    simp [faults_raise, hthrow]
  · rw [faults_bind_ok (ifData_value fun hb => ?_)]
    · simp [faults_pure, hthrow]
    · rw [if_neg fun h => hthrow ⟨hb, h⟩]
      exact copyStringToBuffer_value hb _ _

def DateFaulty (P : Platform) (b : ApplicationDataBuffer) (ms : Int) : Prop :=
  P.toGmTime (ms.tdiv 1000) = none ∨
    match b.type with
    | .tdate | .ttime | .ttimestamp => ¬ b.buffer.isSome
    | _ => False

def TimestampFaulty (P : Platform) (b : ApplicationDataBuffer) (value : Timestamp) : Prop :=
  P.toGmTime value.seconds = none ∨
    match b.type with
    | .wchar => b.buffer.isSome ∧ b.buflen < 0
    | .tdate | .ttime | .ttimestamp => ¬ b.buffer.isSome
    | _ => False

def TimeFaulty (P : Platform) (b : ApplicationDataBuffer) (ms : Int) : Prop :=
  P.toGmTime (ms.tdiv 1000) = none ∨
    match b.type with
    | .wchar => b.buffer.isSome ∧ b.buflen < 0
    | .ttime | .ttimestamp => ¬ b.buffer.isSome
    | _ => False

theorem putDate_faults (ms : Int) : Faults (b.putDate P ms) ↔ DateFaulty P b ms := by
  unfold putDate DateFaulty
  cases ht : P.toGmTime (ms.tdiv 1000) with
  | none => simp [faults_raise]
  | some t =>
  simp only [reduceCtorEq, false_or]
  split
  · next hb => simp [hb, putTmToCharBuffer_faults]
  · next hb => simp [hb, putTmToWcharBuffer_faults]
  · next hb =>
    rw [faults_store (fun h => storeDate_value h t) (fun h => storeDate_null h t)]
    simp [hb]
  · next hb =>
    rw [faults_store (fun h => storeTime_value h 0 t) (fun h => storeTime_null h 0 t)]
    simp [hb]
  · next hb =>
    rw [faults_store (fun h => storeTimestamp_value h t 0) (fun h => storeTimestamp_null h t 0)]
    simp [hb]
  · cases hb : b.type <;> simp_all [faults_pure]

theorem putTimestamp_faults (value : Timestamp) :
    Faults (b.putTimestamp P value) ↔ TimestampFaulty P b value := by
  unfold putTimestamp TimestampFaulty
  cases ht : P.toGmTime value.seconds with
  | none => simp [faults_raise]
  | some t =>
  simp only [reduceCtorEq, false_or]
  split
  · next hb => simp [hb, putTmToCharBuffer_faults]
  · next hb => simp [hb, putTmToWcharBuffer_faults]
  · next hb =>
    rw [faults_store (fun h => storeDate_value h t) (fun h => storeDate_null h t)]
    simp [hb]
  · next hb =>
    rw [faults_store (fun h => storeTime_value h 0 t) (fun h => storeTime_null h 0 t)]
    simp [hb]
  · next hb =>
    rw [faults_store (fun h => storeTimestamp_value h t _) (fun h => storeTimestamp_null h t _)]
    simp [hb]
  · cases hb : b.type <;> simp_all [faults_pure]

theorem putTime_faults (ms : Int) : Faults (b.putTime P ms) ↔ TimeFaulty P b ms := by
  unfold putTime TimeFaulty
  cases ht : P.toGmTime (ms.tdiv 1000) with
  | none => simp [faults_raise]
  | some t =>
  simp only [reduceCtorEq, false_or]
  split
  · next hb => simp [hb, putTmToCharBuffer_faults]
  · next hb => simp [hb, putTmToWcharBuffer_faults]
  · next hb =>
    rw [faults_store (fun h => storeTime_value h 0 t) (fun h => storeTime_null h 0 t)]
    simp [hb]
  · next hb =>
    rw [faults_store (fun h => storeTimestamp_value h t 0) (fun h => storeTimestamp_null h t 0)]
    simp [hb]
  · cases hb : b.type <;> simp_all [faults_pure]

/-! ## Numbers -/

/-- A number is a time in milliseconds where the target is a date or time. -/
def NumFaulty (P : Platform) (b : ApplicationDataBuffer) (value : Num) : Prop :=
  match b.type with
  | .char => CharFaulty P b (value.text P)
  | .tdate => DateFaulty P b (value.toInt P 8 true)
  | .ttimestamp => TimestampFaulty P b (.ofMilliseconds (value.toInt P 8 true))
  | .ttime => TimeFaulty P b (value.toInt P 8 true)
  | _ => False

theorem putNumToNumBuffer_faults (bytes : List UInt8) : ¬ Faults (b.putNumToNumBuffer bytes) := by
  unfold putNumToNumBuffer
  rw [faults_bind_ok (ifData_value fun hb => storeData_value hb _ _), faults_bind_ok (storeLen_value b _)]
  exact faults_pure _

theorem putNumToNumeric_faults (value : Num) : ¬ Faults (b.putNumToNumeric P value) := by
  unfold putNumToNumeric
  rw [faults_bind_ok (ifData_value fun hb => ?_), faults_bind_ok (storeLen_value b _)]
  · exact faults_pure _
  · simp only [value_bind, storeData_value hb]
    rfl

theorem putNumToRawBuffer_faults (value : Num) : ¬ Faults (b.putNumToRawBuffer value) := by
  unfold putNumToRawBuffer
  rw [faults_bind_ok (ifData_value fun hb => storeData_value hb _ _), faults_bind_ok (storeLen_value b _)]
  exact faults_pure _

theorem putNum_faults (value : Num) : Faults (b.putNum P value) ↔ NumFaulty P b value := by
  unfold putNum NumFaulty
  split
  case h_12 hb => simp [hb, putStrToCharBuffer_faults]
  case h_13 hb => simp [hb, putStrToWcharBuffer_faults]
  case h_14 hb => simp [hb, putNumToNumeric_faults]
  case h_15 hb => simp [hb, putNumToRawBuffer_faults]
  case h_16 hb => simp [hb, putNumToRawBuffer_faults]
  case h_17 hb => simp [hb, putDate_faults]
  case h_18 hb => simp [hb, putTimestamp_faults]
  case h_19 hb => simp [hb, putTime_faults]
  case h_20 hb => simp [hb, faults_pure]
  case h_21 hb => simp [hb, faults_pure]
  -- the numeric targets
  all_goals
    next hb => simp [hb, putNumToNumBuffer_faults]

/-! ## The other values -/

def StringFaulty (P : Platform) (b : ApplicationDataBuffer) (value : Str) : Prop :=
  match b.type with
  | .char | .binary | .default => CharFaulty P b value
  | _ => False

def GuidFaulty (P : Platform) (b : ApplicationDataBuffer) (value : Guid) : Prop :=
  match b.type with
  | .char | .binary | .default => CharFaulty P b value.text
  | .guid => ¬ b.buffer.isSome
  | _ => False

def BinaryFaulty (P : Platform) (b : ApplicationDataBuffer) (data : Str) : Prop :=
  match b.type with
  | .char => CharFaulty P b (hexText data)
  | _ => False

def DecimalFaulty (P : Platform) (b : ApplicationDataBuffer) (value : Decimal) : Prop :=
  match b.type with
  | .char => CharFaulty P b (P.decimal.text value)
  | .numeric => ¬ b.buffer.isSome
  | _ => False

theorem putString_faults (value : Str) : Faults (b.putString P value) ↔ StringFaulty P b value := by
  unfold putString StringFaulty
  split
  all_goals
    next hb =>
      simp [hb, putNum_faults, NumFaulty, putStrToCharBuffer_faults, putStrToWcharBuffer_faults, faults_pure]

theorem putGuid_faults (value : Guid) : Faults (b.putGuid P value) ↔ GuidFaulty P b value := by
  unfold putGuid GuidFaulty
  split
  case h_5 hb =>
    by_cases hd : b.buffer.isSome
    · rw [faults_bind_ok (storeData_value hd _ _), faults_bind_ok (storeData_value hd _ _),
        faults_bind_ok (storeData_value hd _ _), faults_bind_ok (storeData_value hd _ _),
        faults_bind_ok (storeLen_value b _)]
      simp [hb, hd, faults_pure]
    · simp [hb, hd, faults_bind_error (storeData_null hd _ _)]
  case h_6 => cases hb : b.type <;> simp_all [faults_pure]
  all_goals
    next hb => simp [hb, putStrToCharBuffer_faults, putStrToWcharBuffer_faults]

theorem putRawDataToBuffer_faults (data : Str) : ¬ Faults (b.putRawDataToBuffer data) := by
  unfold putRawDataToBuffer
  simp only
  rw [faults_bind_ok (storeLen_value b _), faults_bind_ok (ifData_value fun hb => ?_)]
  · exact faults_pure _
  · split
    · exact storeData_value hb _ _
    · rfl

theorem putBinaryData_faults (data : Str) : Faults (b.putBinaryData P data) ↔ BinaryFaulty P b data := by
  unfold putBinaryData BinaryFaulty
  split
  · next hb => simp [hb, putRawDataToBuffer_faults]
  · next hb => simp [hb, putRawDataToBuffer_faults]
  · next hb => simp [hb, putStrToCharBuffer_faults]
  · next hb => simp [hb, putStrToWcharBuffer_faults]
  · cases hb : b.type <;> simp_all [faults_pure]

theorem putDecimalToNumeric_faults (value : Decimal) :
    Faults (b.putDecimalToNumeric P value) ↔ ¬ b.buffer.isSome := by
  unfold putDecimalToNumeric
  simp only
  by_cases hd : b.buffer.isSome
  · rw [faults_bind_ok (storeData_value hd _ _), faults_bind_ok (storeData_value hd _ _),
      faults_bind_ok (storeData_value hd _ _), faults_bind_ok (storeData_value hd _ _),
      faults_bind_ok (storeLen_value b _)]
    simp [hd, faults_pure]
  · exact iff_of_true (faults_bind_error (storeData_null hd _ _) _) hd

theorem putDecimal_faults (value : Decimal) : Faults (b.putDecimal P value) ↔ DecimalFaulty P b value := by
  unfold putDecimal DecimalFaulty
  split
  all_goals
    next hb =>
      first
      | simp [hb, faults_pure]; done
      | simp [hb, putString_faults, StringFaulty]; done
      | simp [hb, putDecimalToNumeric_faults]; done
      | rw [faults_bind_ok (putNum_value_of_number _ ⟨_, by rw [putNum, hb]⟩)]
        simp [hb, faults_pure]

theorem putNull_faults : ¬ Faults b.putNull := by
  unfold putNull
  split
  · exact faults_pure _
  · rw [faults_bind_ok (storeLen_value b _)]
    exact faults_pure _

/-- The operation does not return. -/
def Faulty (P : Platform) (b : ApplicationDataBuffer) : PutCall → Prop
  | .null => False
  | .num v => v.elim False (NumFaulty P b)
  | .string v => v.elim False (StringFaulty P b)
  | .guid v => GuidFaulty P b v
  | .binaryData data => BinaryFaulty P b data
  | .decimal v => v.elim False (DecimalFaulty P b)
  | .date ms => ms.elim False (DateFaulty P b)
  | .timestamp v => v.elim False (TimestampFaulty P b)
  | .time ms => ms.elim False (TimeFaulty P b)

/-- **Faults.** A `Put` does not return if and only if a text it has to convert
is not UTF-8, a time is outside the calendar, or an object has no place. -/
theorem put_faults_iff (call : PutCall) : Faults (b.put P call) ↔ b.Faulty P call := by
  have hnull : Faults b.putNull ↔ False := iff_of_false putNull_faults id
  unfold put Faulty
  cases call with
  | null => exact hnull
  | num v => exact elim_put_iff v hnull putNum_faults
  | string v => exact elim_put_iff v hnull putString_faults
  | guid v => exact putGuid_faults v
  | binaryData data => exact putBinaryData_faults data
  | decimal v => exact elim_put_iff v hnull putDecimal_faults
  | date ms => exact elim_put_iff ms hnull putDate_faults
  | timestamp v => exact elim_put_iff v hnull putTimestamp_faults
  | time ms => exact elim_put_iff ms hnull putTime_faults

end ApplicationDataBuffer

end DocumentDbOdbc
