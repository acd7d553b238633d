/-
What a `Put` returns.

`Lossy` says of each operation, by the value and the buffer alone, when it
returns anything but `AI_SUCCESS`: a text that is cut, a null without an
indicator, a type the value does not go into. `put_loses_iff` shows it exact.
-/
import DocumentDbOdbc.ApplicationDataBufferFacts

namespace DocumentDbOdbc

open Effect

namespace ApplicationDataBuffer

variable {P : Platform} {b : ApplicationDataBuffer}

/-- The call returns, and not `AI_SUCCESS`. -/
def Loses (x : Put) : Prop := ∃ r, x.value = .ok r ∧ r ≠ .success

theorem loses_pure (r : ConversionResult) : Loses (pure r) ↔ r ≠ .success := by simp [Loses]

theorem loses_raise (e : Fault) : ¬ Loses (raise e) := by simp [Loses]

theorem loses_bind_ok {α : Type} {x : Eff Store Fault α} {a : α} (h : x.value = .ok a) (f : α → Put) :
    Loses (x >>= f) ↔ Loses (f a) := by
  rw [Loses, value_bind, h]
  rfl

theorem loses_bind_error {α : Type} {x : Eff Store Fault α} {e : Fault} (h : x.value = .error e)
    (f : α → Put) : ¬ Loses (x >>= f) := by
  rw [Loses, value_bind, h]
  rintro ⟨r, hr, -⟩
  cases hr

/-! ## Stores -/

theorem storeLen_value (b : ApplicationDataBuffer) (n : Int) : (b.storeLen n).value = .ok () := by
  unfold storeLen
  split <;> rfl

theorem storeData_value (h : b.buffer.isSome) (offset : Nat) (bytes : List UInt8) :
    (b.storeData offset bytes).value = .ok () := by
  rw [storeData, if_pos h]
  rfl

theorem storeData_null (h : ¬ b.buffer.isSome) (offset : Nat) (bytes : List UInt8) :
    (b.storeData offset bytes).value = .error .nullPointer := by
  rw [storeData, if_neg h]
  rfl

theorem ifData_value {x : Eff Store Fault Unit} (h : b.buffer.isSome → x.value = .ok ()) :
    (b.ifData x).value = .ok () := by
  unfold ifData
  split
  · next hb => exact h hb
  · rfl

/-- The objects of several fields are stored if the data pointer is not null. -/
theorem storeDate_value (h : b.buffer.isSome) (t : Tm) : (b.storeDate t).value = .ok () := by
  simp only [storeDate, value_bind, storeData_value h]
  rfl

theorem storeTime_value (h : b.buffer.isSome) (at_ : Nat) (t : Tm) : (b.storeTime at_ t).value = .ok () := by
  simp only [storeTime, value_bind, storeData_value h]
  rfl

theorem storeTimestamp_value (h : b.buffer.isSome) (t : Tm) (fraction : Int) :
    (b.storeTimestamp t fraction).value = .ok () := by
  simp only [storeTimestamp, value_bind, storeDate_value h, storeTime_value h, storeData_value h]
  rfl

theorem storeDate_null (h : ¬ b.buffer.isSome) (t : Tm) : (b.storeDate t).value = .error .nullPointer := by
  simp only [storeDate, value_bind, storeData_null h]
  rfl

theorem storeTime_null (h : ¬ b.buffer.isSome) (at_ : Nat) (t : Tm) :
    (b.storeTime at_ t).value = .error .nullPointer := by
  simp only [storeTime, value_bind, storeData_null h]
  rfl

/-- Stores, the length and a result: the result is that of the stores. -/
theorem loses_store {x : Eff Store Fault Unit} (hx : b.buffer.isSome → x.value = .ok ())
    (hnull : ¬ b.buffer.isSome → x.value = .error .nullPointer) (len : Int) (r : ConversionResult) :
    Loses (do
      x
      b.storeLen len
      pure r) ↔ b.buffer.isSome ∧ r ≠ .success := by
  by_cases hb : b.buffer.isSome
  · rw [loses_bind_ok (hx hb), loses_bind_ok (storeLen_value b len), loses_pure]
    simp [hb]
  · exact iff_of_false (loses_bind_error (hnull hb) _) fun h => hb h.1

/-! ## Texts -/

/-- The text has more characters than the buffer has room for. -/
def CharCut (P : Platform) (b : ApplicationDataBuffer) (s : Str) : Prop :=
  b.buffer.isSome ∧ (b.buflen < 1 ∨ ∃ chars, P.fromBytes s = some chars ∧ b.buflen - 1 < chars.length)

/-- The wide buffer has no room for a terminator, or not all of the text is
converted into what it has room for beside. -/
def WideCut (P : Platform) (b : ApplicationDataBuffer) (s : Str) : Prop :=
  b.buffer.isSome ∧
    (b.buflen < P.wcharBytes ∨ (P.convertIn s (b.buflen.toNat / P.wcharBytes - 1)).2 = false)

theorem putStrToCharBuffer_loses (s : Str) : Loses (b.putStrToCharBuffer P s) ↔ CharCut P b s := by
  unfold putStrToCharBuffer CharCut
  split
  · next hb => simp [loses_pure, Option.isNone_iff_eq_none.mp hb]
  next hb =>
  have hb : b.buffer.isSome := isSome_of_not_isNone hb
  split
  · next hlen => simp [loses_pure, hb, hlen]
  next hlen =>
  have hsize := sizeT_of_nonneg (b := b) (by omega)
  split
  · next hf => simp [loses_raise, hf, hlen]
  · next chars hf =>
    simp only
    rw [loses_bind_ok (storeData_value hb _ _), loses_bind_ok (storeData_value hb _ _),
      loses_bind_ok (storeLen_value b _), loses_pure, hsize]
    have hcut : min chars.length (b.buflen.toNat - 1) < chars.length ↔ b.buflen - 1 < chars.length := by omega
    simp only [hb, hlen, hf, Option.some.injEq, true_and, false_or, exists_eq_left', ← hcut]
    split <;> simp_all

theorem copyUtf8_value (hb : b.buffer.isSome) {lenBytes : Nat} (h : lenBytes ≠ 0) (s : Str) :
    (b.copyUtf8StringToSqlWcharString P s lenBytes).value =
      .ok ((P.convertIn s (outBufferLenChars P lenBytes)).1.length * P.wcharBytes,
        !(P.convertIn s (outBufferLenChars P lenBytes)).2) := by
  rw [copyUtf8StringToSqlWcharString, if_neg h]
  simp only [value_bind, storeData_value hb]
  rfl

theorem putStrToWcharBuffer_loses (s : Str) : Loses (b.putStrToWcharBuffer P s) ↔ WideCut P b s := by
  have hw := P.wcharBytes_range
  have hrange := b.buflen_range
  unfold putStrToWcharBuffer WideCut
  split
  · next hb => simp [loses_pure, Option.isNone_iff_eq_none.mp hb]
  next hb =>
  have hb : b.buffer.isSome := isSome_of_not_isNone hb
  split
  · next hlen => simp [loses_pure, hb, hlen]
  next hlen =>
  have hsize := sizeT_of_nonneg (b := b) (by omega)
  rw [hsize, loses_bind_ok (copyUtf8_value hb (by omega) s), loses_bind_ok (storeLen_value b _),
    loses_pure, outBufferLenChars_eq (by omega) (by omega)]
  cases h : (P.convertIn s (b.buflen.toNat / P.wcharBytes - 1)).2 <;> simp [hb, hlen]

/-! ## Dates and times -/

theorem putTmToCharBuffer_loses (text : Str) (valLen : Nat) :
    Loses (b.putTmToCharBuffer P text valLen) ↔ b.buflen < valLen + 1 := by
  unfold putTmToCharBuffer
  rw [loses_bind_ok (storeLen_value b _), loses_bind_ok (ifData_value fun hb => storeData_value hb _ _),
    loses_pure]
  split <;> simp_all

theorem copyStringToBuffer_value (hb : b.buffer.isSome) (s : Str) (buflen : Nat) :
    (b.copyStringToBuffer P s buflen).value = .ok () := by
  unfold copyStringToBuffer
  rw [value_bind]
  by_cases h : buflen * P.wcharBytes % 18446744073709551616 = 0
  · rw [copyUtf8StringToSqlWcharString, if_pos h]
    rfl
  · rw [copyUtf8_value hb h]
    rfl

/-- Nothing is returned where the local string cannot be made. -/
theorem putTmToWcharBuffer_loses (text : Str) (valLen : Nat) (tmp : Int) :
    Loses (b.putTmToWcharBuffer P text valLen tmp) ↔
      b.buflen < valLen + 1 ∧ ¬ (b.buffer.isSome ∧ tmp < 0) := by
  unfold putTmToWcharBuffer
  rw [loses_bind_ok (storeLen_value b _)]
  by_cases hthrow : b.buffer.isSome ∧ tmp < 0
  · rw [ifData, if_pos hthrow.1, if_pos hthrow.2, raise_bind]
    simp [loses_raise, hthrow]
  · rw [loses_bind_ok (ifData_value fun hb => ?_), loses_pure]
    · split <;> simp_all
    · rw [if_neg fun h => hthrow ⟨hb, h⟩]
      exact copyStringToBuffer_value hb _ _

/-- A date goes into text that is long enough and into the objects of all
three kinds. -/
def DateLossy (P : Platform) (b : ApplicationDataBuffer) (ms : Int) : Prop :=
  (P.toGmTime (ms.tdiv 1000)).isSome ∧
    match b.type with
    | .char | .wchar => b.buflen < 11
    | .tdate | .ttime | .ttimestamp => False
    | _ => True

def TimestampLossy (P : Platform) (b : ApplicationDataBuffer) (value : Timestamp) : Prop :=
  (P.toGmTime value.seconds).isSome ∧
    match b.type with
    | .char => b.buflen < 20
    | .wchar => b.buflen < 20 ∧ ¬ (b.buffer.isSome ∧ b.buflen < 0)
    | .tdate | .ttime => b.buffer.isSome
    | .ttimestamp => False
    | _ => True

def TimeLossy (P : Platform) (b : ApplicationDataBuffer) (ms : Int) : Prop :=
  (P.toGmTime (ms.tdiv 1000)).isSome ∧
    match b.type with
    | .char => b.buflen < 9
    | .wchar => b.buflen < 9 ∧ ¬ (b.buffer.isSome ∧ b.buflen < 0)
    | .ttime | .ttimestamp => False
    | _ => True

theorem storeTimestamp_null (h : ¬ b.buffer.isSome) (t : Tm) (fraction : Int) :
    (b.storeTimestamp t fraction).value = .error .nullPointer := by
  simp only [storeTimestamp, value_bind, storeDate_null h]
  rfl

theorem putDate_loses (ms : Int) : Loses (b.putDate P ms) ↔ DateLossy P b ms := by
  unfold putDate DateLossy
  cases ht : P.toGmTime (ms.tdiv 1000) with
  | none => simp [loses_raise]
  | some t =>
  simp only [Option.isSome_some, true_and]
  split
  · next hb => simp [hb, putTmToCharBuffer_loses]
  · next hb => simp [hb, putTmToWcharBuffer_loses]
  · next hb =>
    rw [loses_store (fun h => storeDate_value h t) (fun h => storeDate_null h t)]
    simp [hb]
  · next hb =>
    rw [loses_store (fun h => storeTime_value h 0 t) (fun h => storeTime_null h 0 t)]
    simp [hb]
  · next hb =>
    rw [loses_store (fun h => storeTimestamp_value h t 0) (fun h => storeTimestamp_null h t 0)]
    simp [hb]
  · cases hb : b.type <;> simp_all [loses_pure]

theorem putTimestamp_loses (value : Timestamp) :
    Loses (b.putTimestamp P value) ↔ TimestampLossy P b value := by
  unfold putTimestamp TimestampLossy
  cases ht : P.toGmTime value.seconds with
  | none => simp [loses_raise]
  | some t =>
  simp only [Option.isSome_some, true_and]
  split
  · next hb => simp [hb, putTmToCharBuffer_loses]
  · next hb => simp [hb, putTmToWcharBuffer_loses]
  · next hb =>
    rw [loses_store (fun h => storeDate_value h t) (fun h => storeDate_null h t)]
    simp [hb]
  · next hb =>
    rw [loses_store (fun h => storeTime_value h 0 t) (fun h => storeTime_null h 0 t)]
    simp [hb]
  · next hb =>
    rw [loses_store (fun h => storeTimestamp_value h t _) (fun h => storeTimestamp_null h t _)]
    simp [hb]
  · cases hb : b.type <;> simp_all [loses_pure]

theorem putTime_loses (ms : Int) : Loses (b.putTime P ms) ↔ TimeLossy P b ms := by
  unfold putTime TimeLossy
  cases ht : P.toGmTime (ms.tdiv 1000) with
  | none => simp [loses_raise]
  | some t =>
  simp only [Option.isSome_some, true_and]
  split
  · next hb => simp [hb, putTmToCharBuffer_loses]
  · next hb => simp [hb, putTmToWcharBuffer_loses]
  · next hb =>
    rw [loses_store (fun h => storeTime_value h 0 t) (fun h => storeTime_null h 0 t)]
    simp [hb]
  · next hb =>
    rw [loses_store (fun h => storeTimestamp_value h t 0) (fun h => storeTimestamp_null h t 0)]
    simp [hb]
  · cases hb : b.type <;> simp_all [loses_pure]

/-! ## Numbers -/

/-- A number goes into every numeric type and every object of a date or time;
its text and its bytes may be cut. -/
def NumLossy (P : Platform) (b : ApplicationDataBuffer) (value : Num) : Prop :=
  match b.type with
  | .char => CharCut P b (value.text P)
  | .wchar => WideCut P b (value.text P)
  | .binary | .default => sizeT b.buflen < value.size
  | .guid | .unsupported => True
  | _ => False

theorem putNumToNumBuffer_loses (bytes : List UInt8) : ¬ Loses (b.putNumToNumBuffer bytes) := by
  unfold putNumToNumBuffer
  rw [loses_bind_ok (ifData_value fun hb => storeData_value hb _ _), loses_bind_ok (storeLen_value b _),
    loses_pure]
  simp

theorem putNumToNumeric_loses (value : Num) : ¬ Loses (b.putNumToNumeric P value) := by
  unfold putNumToNumeric
  rw [loses_bind_ok (ifData_value fun hb => ?_), loses_bind_ok (storeLen_value b _), loses_pure]
  · simp
  · simp only [value_bind, storeData_value hb]
    rfl

theorem putNumToRawBuffer_loses (value : Num) :
    Loses (b.putNumToRawBuffer value) ↔ sizeT b.buflen < value.size := by
  unfold putNumToRawBuffer
  rw [loses_bind_ok (ifData_value fun hb => storeData_value hb _ _), loses_bind_ok (storeLen_value b _),
    loses_pure]
  split <;> simp_all

theorem putNum_loses (value : Num) : Loses (b.putNum P value) ↔ NumLossy P b value := by
  unfold putNum NumLossy
  split
  case h_12 hb => simp [hb, putStrToCharBuffer_loses]
  case h_13 hb => simp [hb, putStrToWcharBuffer_loses]
  case h_14 hb => simp [hb, putNumToNumeric_loses]
  case h_15 hb => simp [hb, putNumToRawBuffer_loses]
  case h_16 hb => simp [hb, putNumToRawBuffer_loses]
  case h_17 hb => simp [hb, putDate_loses, DateLossy]
  case h_18 hb => simp [hb, putTimestamp_loses, TimestampLossy]
  case h_19 hb => simp [hb, putTime_loses, TimeLossy]
  case h_20 hb => simp [hb, loses_pure]
  case h_21 hb => simp [hb, loses_pure]
  -- the numeric targets
  all_goals
    next hb => simp [hb, putNumToNumBuffer_loses]

/-! ## The other values -/

def StringLossy (P : Platform) (b : ApplicationDataBuffer) (value : Str) : Prop :=
  match b.type with
  | .char | .binary | .default => CharCut P b value
  | .wchar => WideCut P b value
  | .tdate | .ttime | .ttimestamp | .guid | .unsupported => True
  | _ => False

def GuidLossy (P : Platform) (b : ApplicationDataBuffer) (value : Guid) : Prop :=
  match b.type with
  | .char | .binary | .default => CharCut P b value.text
  | .wchar => WideCut P b value.text
  | .guid => False
  | _ => True

def BinaryLossy (P : Platform) (b : ApplicationDataBuffer) (data : Str) : Prop :=
  match b.type with
  | .binary | .default => b.buflen < data.length
  | .char => CharCut P b (hexText data)
  | .wchar => WideCut P b (hexText data)
  | _ => True

/-- A decimal is said to lose its fraction in an integer or a floating-point
number whether it has one or not. -/
def DecimalLossy (P : Platform) (b : ApplicationDataBuffer) (value : Decimal) : Prop :=
  match b.type with
  | .char => CharCut P b (P.decimal.text value)
  | .wchar => WideCut P b (P.decimal.text value)
  | .numeric => b.buffer.isSome ∧ 16 < (P.decimal.magnitudeToBytes (P.decimal.integral value)).length
  | _ => True

theorem putString_loses (value : Str) : Loses (b.putString P value) ↔ StringLossy P b value := by
  unfold putString StringLossy
  split
  all_goals
    next hb => simp [hb, putNum_loses, NumLossy, putStrToCharBuffer_loses, putStrToWcharBuffer_loses, loses_pure]

theorem putGuid_loses (value : Guid) : Loses (b.putGuid P value) ↔ GuidLossy P b value := by
  unfold putGuid GuidLossy
  split
  case h_5 hb =>
    by_cases hd : b.buffer.isSome
    · rw [loses_bind_ok (storeData_value hd _ _), loses_bind_ok (storeData_value hd _ _),
        loses_bind_ok (storeData_value hd _ _), loses_bind_ok (storeData_value hd _ _),
        loses_bind_ok (storeLen_value b _), loses_pure]
      simp [hb]
    · simp [hb, loses_bind_error (storeData_null hd _ _)]
  case h_6 => cases hb : b.type <;> simp_all [loses_pure]
  all_goals
    next hb => simp [hb, putStrToCharBuffer_loses, putStrToWcharBuffer_loses]

theorem putRawDataToBuffer_loses (data : Str) :
    Loses (b.putRawDataToBuffer data) ↔ b.buflen < data.length := by
  unfold putRawDataToBuffer
  simp only
  rw [loses_bind_ok (storeLen_value b _), loses_bind_ok (ifData_value fun hb => ?_), loses_pure]
  · split <;> simp_all
  · split
    · exact storeData_value hb _ _
    · rfl

theorem putBinaryData_loses (data : Str) : Loses (b.putBinaryData P data) ↔ BinaryLossy P b data := by
  unfold putBinaryData BinaryLossy
  split
  · next hb => simp [hb, putRawDataToBuffer_loses]
  · next hb => simp [hb, putRawDataToBuffer_loses]
  · next hb => simp [hb, putStrToCharBuffer_loses]
  · next hb => simp [hb, putStrToWcharBuffer_loses]
  · cases hb : b.type <;> simp_all [loses_pure]

theorem putDecimalToNumeric_loses (value : Decimal) :
    Loses (b.putDecimalToNumeric P value) ↔
      b.buffer.isSome ∧ 16 < (P.decimal.magnitudeToBytes (P.decimal.integral value)).length := by
  unfold putDecimalToNumeric
  simp only
  by_cases hd : b.buffer.isSome
  · rw [loses_bind_ok (storeData_value hd _ _), loses_bind_ok (storeData_value hd _ _),
      loses_bind_ok (storeData_value hd _ _), loses_bind_ok (storeData_value hd _ _),
      loses_bind_ok (storeLen_value b _), loses_pure]
    split <;> simp_all
  · exact iff_of_false (loses_bind_error (storeData_null hd _ _) _) fun h => hd h.1

/-- A numeric type other than `SQL_NUMERIC_STRUCT`. -/
theorem putNum_value_of_number (value : Num) (h : ∃ bytes, b.putNum P value = b.putNumToNumBuffer bytes) :
    (b.putNum P value).value = .ok .success := by
  obtain ⟨bytes, h⟩ := h
  rw [h, putNumToNumBuffer, value_bind, ifData_value fun hb => storeData_value hb _ _]
  simp only [Except.bind, value_bind, storeLen_value, value_pure]

theorem putDecimal_loses (value : Decimal) : Loses (b.putDecimal P value) ↔ DecimalLossy P b value := by
  unfold putDecimal DecimalLossy
  split
  all_goals
    next hb =>
      first
      | simp [hb, loses_pure]; done
      | simp [hb, putString_loses, StringLossy]; done
      | simp [hb, putDecimalToNumeric_loses]; done
      | rw [loses_bind_ok (putNum_value_of_number _ ⟨_, by rw [putNum, hb]⟩), loses_pure]
        simp [hb]

theorem putNull_loses : Loses b.putNull ↔ b.reslen = none := by
  unfold putNull
  split
  · next h => simp [loses_pure, Option.isNone_iff_eq_none.mp h]
  · next h =>
    rw [loses_bind_ok (storeLen_value b _), loses_pure]
    simpa using h

/-- The operation does not return `AI_SUCCESS`. -/
def Lossy (P : Platform) (b : ApplicationDataBuffer) : PutCall → Prop
  | .null => b.reslen = none
  | .num v => v.elim (b.reslen = none) (NumLossy P b)
  | .string v => v.elim (b.reslen = none) (StringLossy P b)
  | .guid v => GuidLossy P b v
  | .binaryData data => BinaryLossy P b data
  | .decimal v => v.elim (b.reslen = none) (DecimalLossy P b)
  | .date ms => ms.elim (b.reslen = none) (DateLossy P b)
  | .timestamp v => v.elim (b.reslen = none) (TimestampLossy P b)
  | .time ms => ms.elim (b.reslen = none) (TimeLossy P b)

/-- **Results.** A `Put` returns something else than `AI_SUCCESS` if and only if
the value does not go into the buffer as it is. -/
theorem put_loses_iff (call : PutCall) : Loses (b.put P call) ↔ b.Lossy P call := by
  unfold put Lossy
  cases call with
  | null => exact putNull_loses
  | num v => exact elim_put_iff v putNull_loses putNum_loses
  | string v => exact elim_put_iff v putNull_loses putString_loses
  | guid v => exact putGuid_loses v
  | binaryData data => exact putBinaryData_loses data
  | decimal v => exact elim_put_iff v putNull_loses putDecimal_loses
  | date ms => exact elim_put_iff ms putNull_loses putDate_loses
  | timestamp v => exact elim_put_iff v putNull_loses putTimestamp_loses
  | time ms => exact elim_put_iff ms putNull_loses putTime_loses

/-! ## Results that no operation returns -/

/-- Every result the operation returns satisfies `p`. -/
def Returns (p : ConversionResult → Prop) (x : Put) : Prop := ∀ r, x.value = .ok r → p r

section

variable {p : ConversionResult → Prop}

theorem returns_pure {r : ConversionResult} (h : p r) : Returns p (pure r) := by
  intro r' hr
  cases hr
  exact h

theorem returns_raise (e : Fault) : Returns p (raise e) := by
  intro r hr
  cases hr

theorem Returns.bind {α : Type} {x : Eff Store Fault α} {f : α → Put} (h : ∀ a, Returns p (f a)) :
    Returns p (x >>= f) := by
  intro r hr
  obtain ⟨a, -, hf⟩ := value_bind_eq_ok.mp hr
  exact h a r hf

/-- A choice between two results. -/
theorem returns_ite {c : Prop} [Decidable c] {r r' : ConversionResult} (h : p r) (h' : p r') :
    Returns p (pure (if c then r else r')) := by
  split
  · exact returns_pure h
  · exact returns_pure h'

end

/-- Not a failure, and not the end of the data. -/
def isPutResult : ConversionResult → Bool
  | .failure | .noData => false
  | _ => true

/-- The operation does not fail. -/
abbrev PutResult (x : Put) : Prop := Returns (fun r => isPutResult r = true) x

theorem putStrToCharBuffer_returns (value : Str) : PutResult (b.putStrToCharBuffer P value) := by
  unfold putStrToCharBuffer
  split
  · exact returns_pure rfl
  split
  · exact returns_pure rfl
  split
  · exact returns_raise _
  · exact .bind fun _ => .bind fun _ => .bind fun _ => returns_ite rfl rfl

theorem putStrToWcharBuffer_returns (value : Str) : PutResult (b.putStrToWcharBuffer P value) := by
  unfold putStrToWcharBuffer
  split
  · exact returns_pure rfl
  split
  · exact returns_pure rfl
  · exact .bind fun _ => .bind fun _ => returns_ite rfl rfl

theorem putTmToCharBuffer_returns (text : Str) (valLen : Nat) : PutResult (b.putTmToCharBuffer P text valLen) :=
  .bind fun _ => .bind fun _ => returns_ite rfl rfl

theorem putTmToWcharBuffer_returns (text : Str) (valLen : Nat) (tmp : Int) :
    PutResult (b.putTmToWcharBuffer P text valLen tmp) :=
  .bind fun _ => .bind fun _ => returns_ite rfl rfl

/-- Stores, the length and a result. -/
theorem then_storeLen_returns (x : Eff Store Fault Unit) (len : Int) {r : ConversionResult}
    (h : isPutResult r = true) :
    PutResult (do
      x
      b.storeLen len
      pure r) :=
  .bind fun _ => .bind fun _ => returns_pure h

theorem putDate_returns (ms : Int) : PutResult (b.putDate P ms) := by
  unfold putDate
  split
  · exact returns_raise _
  split
  · exact putTmToCharBuffer_returns _ _
  · exact putTmToWcharBuffer_returns _ _ _
  · exact then_storeLen_returns _ _ rfl
  · exact then_storeLen_returns _ _ rfl
  · exact then_storeLen_returns _ _ rfl
  · exact returns_pure rfl

theorem putTimestamp_returns (value : Timestamp) : PutResult (b.putTimestamp P value) := by
  unfold putTimestamp
  split
  · exact returns_raise _
  split
  · exact putTmToCharBuffer_returns _ _
  · exact putTmToWcharBuffer_returns _ _ _
  · exact then_storeLen_returns _ _ rfl
  · exact then_storeLen_returns _ _ rfl
  · exact then_storeLen_returns _ _ rfl
  · exact returns_pure rfl

theorem putTime_returns (ms : Int) : PutResult (b.putTime P ms) := by
  unfold putTime
  split
  · exact returns_raise _
  split
  · exact putTmToCharBuffer_returns _ _
  · exact putTmToWcharBuffer_returns _ _ _
  · exact then_storeLen_returns _ _ rfl
  · exact then_storeLen_returns _ _ rfl
  · exact returns_pure rfl

theorem putNum_returns (value : Num) : PutResult (b.putNum P value) := by
  unfold putNum
  split
  all_goals first
    | exact then_storeLen_returns _ _ rfl
    | exact putStrToCharBuffer_returns _
    | exact putStrToWcharBuffer_returns _
    | exact .bind fun _ => .bind fun _ => returns_ite rfl rfl
    | exact putDate_returns _
    | exact putTimestamp_returns _
    | exact putTime_returns _
    | exact returns_pure rfl

theorem putString_returns (value : Str) : PutResult (b.putString P value) := by
  unfold putString
  split
  all_goals first
    | exact putNum_returns _
    | exact putStrToCharBuffer_returns _
    | exact putStrToWcharBuffer_returns _
    | exact returns_pure rfl

theorem putGuid_returns (value : Guid) : PutResult (b.putGuid P value) := by
  unfold putGuid
  split
  all_goals first
    | exact putStrToCharBuffer_returns _
    | exact putStrToWcharBuffer_returns _
    | exact .bind fun _ => .bind fun _ => .bind fun _ => then_storeLen_returns _ _ rfl
    | exact returns_pure rfl

theorem putBinaryData_returns (data : Str) : PutResult (b.putBinaryData P data) := by
  unfold putBinaryData
  split
  · exact .bind fun _ => .bind fun _ => returns_ite rfl rfl
  · exact .bind fun _ => .bind fun _ => returns_ite rfl rfl
  · exact putStrToCharBuffer_returns _
  · exact putStrToWcharBuffer_returns _
  · exact returns_pure rfl

theorem putDecimalToNumeric_returns (value : Decimal) : PutResult (b.putDecimalToNumeric P value) :=
  .bind fun _ => .bind fun _ => .bind fun _ => .bind fun _ => .bind fun _ => returns_ite rfl rfl

theorem putDecimal_returns (value : Decimal) : PutResult (b.putDecimal P value) := by
  unfold putDecimal
  split
  all_goals first
    | exact .bind fun _ => returns_pure rfl
    | exact putString_returns _
    | exact putDecimalToNumeric_returns _
    | exact returns_pure rfl

theorem putNull_returns : PutResult b.putNull := by
  unfold putNull
  split
  · exact returns_pure rfl
  · exact .bind fun _ => returns_pure rfl

/-- No operation of the buffer fails or finds no data. -/
theorem put_returns (call : PutCall) : PutResult (b.put P call) := by
  unfold put
  cases call with
  | null => exact putNull_returns
  | guid v => exact putGuid_returns v
  | binaryData data => exact putBinaryData_returns data
  | num v => exact elim_put v putNull_returns fun v _ => putNum_returns v
  | string v => exact elim_put v putNull_returns fun v _ => putString_returns v
  | decimal v => exact elim_put v putNull_returns fun v _ => putDecimal_returns v
  | date ms => exact elim_put ms putNull_returns fun ms _ => putDate_returns ms
  | timestamp v => exact elim_put v putNull_returns fun v _ => putTimestamp_returns v
  | time ms => exact elim_put ms putNull_returns fun ms _ => putTime_returns ms

end ApplicationDataBuffer

end DocumentDbOdbc
