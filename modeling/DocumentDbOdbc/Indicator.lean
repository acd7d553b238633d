/-
Null data pointers and stale indicators.

Every branch of a `Put` checks its two pointers on its own. Those that fill an
object of several members do not check the data pointer, and those that copy a
text return before they set the indicator if the text has nowhere to go.
`put_safe_iff` says that these are the only ones.
-/
import DocumentDbOdbc.BufferMemory

namespace DocumentDbOdbc

open Effect

/-- The call delivered a value, if not all of it. -/
def ConversionResult.Delivered : ConversionResult → Prop
  | .success | .varlenDataTruncated | .fractionalTruncated => True
  | _ => False

namespace ApplicationDataBuffer

/-- The indicator is assigned. -/
def Assigned {α : Type} (x : Eff Store Fault α) : Prop := ∃ v, ⟨.indicator, 0, leBytes 8 v⟩ ∈ x.log

/-- Without data, the call reaches for none. -/
def NullSafe {α : Type} (b : ApplicationDataBuffer) (x : Eff Store Fault α) : Prop :=
  ¬ b.buffer.isSome → x.value ≠ .error .nullPointer ∧ All (fun s => s.region ≠ .data) x

/-- Where the call delivers, it assigns the indicator. -/
def Fresh (b : ApplicationDataBuffer) (x : Put) : Prop :=
  b.reslen.isSome → ∀ r, x.value = .ok r → r.Delivered → Assigned x

variable {P : Platform} {b : ApplicationDataBuffer} {α : Type}

/-! ## Rules -/

theorem assigned_storeLen_bind (hr : b.reslen.isSome) (v : Int) (f : Unit → Eff Store Fault α) :
    Assigned (b.storeLen v >>= f) := by
  refine ⟨v, mem_log_bind_left ?_⟩
  rw [storeLen, if_pos hr]
  exact List.mem_singleton_self _

theorem Assigned.bind_right {β : Type} {x : Eff Store Fault β} {f : β → Eff Store Fault α} {a : β} (hx : x.value = .ok a)
    (h : Assigned (f a)) : Assigned (x >>= f) :=
  h.imp fun _ hv => mem_log_bind_right hx hv

theorem not_assigned_pure (a : α) : ¬ Assigned (pure a) := by
  rintro ⟨v, hv⟩
  cases hv

/-- Both. -/
def Safe (b : ApplicationDataBuffer) (x : Put) : Prop := NullSafe b x ∧ Fresh b x

theorem NullSafe.bind {β : Type} {x : Eff Store Fault β} {f : β → Eff Store Fault α} (hx : NullSafe b x)
    (hf : ∀ a, NullSafe b (f a)) : NullSafe b (x >>= f) := by
  intro hb
  refine ⟨?_, (hx hb).2.bind fun a _ => (hf a hb).2⟩
  cases h : x.value with
  | ok a =>
    rw [bind_of_ok h]
    exact (hf a hb).1
  | error e =>
    rw [value_bind, h]
    exact fun hnull => (hx hb).1 (h.trans (congrArg _ (Except.error.inj hnull)))

theorem nullSafe_pure (a : α) : NullSafe b (pure a) := fun _ => ⟨by simp, all_pure _⟩

theorem nullSafe_exception : NullSafe b (raise .exception : Eff Store Fault α) := fun _ => ⟨by simp, all_raise _⟩

theorem nullSafe_storeLen (v : Int) : NullSafe b (b.storeLen v) := by
  intro _
  rw [storeLen_value]
  refine ⟨by simp, ?_⟩
  unfold storeLen
  split
  · exact all_emit.mpr nofun
  · exact all_pure _

theorem nullSafe_ifData (x : Eff Store Fault Unit) : NullSafe b (b.ifData x) := by
  intro hb
  rw [ifData, if_neg hb]
  exact nullSafe_pure () hb

/-- With data there is nothing to show. -/
theorem nullSafe_of_data (hb : b.buffer.isSome) (x : Eff Store Fault α) : NullSafe b x := fun h => absurd hb h

/-- A null pointer that is used is an error. -/
theorem not_nullSafe {x : Eff Store Fault α} (hb : ¬ b.buffer.isSome) (h : x.value = .error .nullPointer) : ¬ NullSafe b x :=
  fun hsafe => (hsafe hb).1 h

theorem safe_pure {r : ConversionResult} (h : ¬ r.Delivered) : Safe b (pure r) :=
  ⟨nullSafe_pure r, fun _ _ hr' hdelivered => absurd (Except.ok.inj hr' ▸ hdelivered) h⟩

theorem safe_exception : Safe b (raise .exception) := ⟨nullSafe_exception, fun _ _ hr => nomatch hr⟩

/-- The length is stored before anything else. -/
theorem safe_storeLen_bind (v : Int) {f : Unit → Put} (h : NullSafe b (f ())) : Safe b (b.storeLen v >>= f) :=
  ⟨(nullSafe_storeLen v).bind fun _ => h, fun hr _ _ _ => assigned_storeLen_bind hr v f⟩

/-- Some stores, the length and a result. -/
theorem safe_then_storeLen {x : Eff Store Fault Unit} (hx : NullSafe b x) (len : Int) (r : ConversionResult) :
    Safe b (do
      x
      b.storeLen len
      pure r) := by
  refine ⟨hx.bind fun _ => (nullSafe_storeLen len).bind fun _ => nullSafe_pure r, fun hr r' hr' _ => ?_⟩
  obtain ⟨_, hok, -⟩ := value_bind_eq_ok.mp hr'
  exact Assigned.bind_right hok (assigned_storeLen_bind hr len _)

/-- The members of an object, the length and a result: the pointer is not
checked. -/
theorem safe_object_iff {x : Eff Store Fault Unit} (hnull : ¬ b.buffer.isSome → x.value = .error .nullPointer) (len : Int)
    (r : ConversionResult) :
    Safe b (do
      x
      b.storeLen len
      pure r) ↔ b.buffer.isSome := by
  refine ⟨fun h => ?_, fun hb => safe_then_storeLen (nullSafe_of_data hb x) len r⟩
  by_contra hb
  refine not_nullSafe hb ?_ h.1
  rw [bind_of_error (hnull hb)]

/-! ## Texts -/

/-- A text has somewhere to go. -/
def HasRoom (b : ApplicationDataBuffer) (unit : Nat) : Prop := b.reslen.isSome → b.buffer.isSome ∧ unit ≤ b.buflen

theorem isNone_of_not_isSome (hb : ¬ b.buffer.isSome) : b.buffer.isNone := by simpa using hb

theorem not_isNone_of_isSome (hb : b.buffer.isSome) : ¬ b.buffer.isNone := by
  rw [Option.isNone_iff_eq_none]
  exact Option.isSome_iff_ne_none.mp hb

/-- A result is returned early, and says that the value was delivered. -/
theorem not_safe_pure {r : ConversionResult} (h : r.Delivered) : Safe b (pure r) ↔ ¬ b.reslen.isSome :=
  ⟨fun hsafe hr => not_assigned_pure r (hsafe.2 hr r rfl h), fun hr => ⟨nullSafe_pure r, fun h => absurd h hr⟩⟩

theorem putStrToCharBuffer_safe_iff (s : Str) : Safe b (b.putStrToCharBuffer P s) ↔ HasRoom b 1 := by
  unfold putStrToCharBuffer HasRoom
  by_cases hb : b.buffer.isSome
  · rw [if_neg (not_isNone_of_isSome hb)]
    split
    · next hlen =>
      rw [not_safe_pure (r := .varlenDataTruncated) trivial]
      exact ⟨fun h hr => absurd hr h, fun h hr => absurd (h hr).2 (by omega)⟩
    next hlen =>
    refine iff_of_true ?_ fun _ => ⟨hb, by omega⟩
    split
    · exact safe_exception
    · refine ⟨nullSafe_of_data hb _, fun hr r hvalue _ => ?_⟩
      exact Assigned.bind_right (storeData_value hb _ _) (Assigned.bind_right (storeData_value hb _ _)
        (assigned_storeLen_bind hr _ _))
  · rw [if_pos (isNone_of_not_isSome hb), not_safe_pure (r := .success) trivial]
    exact ⟨fun h hr => absurd hr h, fun h hr => absurd (h hr).1 hb⟩

theorem putStrToWcharBuffer_safe_iff (s : Str) : Safe b (b.putStrToWcharBuffer P s) ↔ HasRoom b P.wcharBytes := by
  unfold putStrToWcharBuffer HasRoom
  by_cases hb : b.buffer.isSome
  · rw [if_neg (not_isNone_of_isSome hb)]
    split
    · next hlen =>
      rw [not_safe_pure (r := .varlenDataTruncated) trivial]
      exact ⟨fun h hr => absurd hr h, fun h hr => absurd (h hr).2 (by omega)⟩
    next hlen =>
    refine iff_of_true ⟨nullSafe_of_data hb _, fun hr r hvalue _ => ?_⟩ fun _ => ⟨hb, by omega⟩
    obtain ⟨_, hok, -⟩ := value_bind_eq_ok.mp hvalue
    exact Assigned.bind_right hok (assigned_storeLen_bind hr _ _)
  · rw [if_pos (isNone_of_not_isSome hb), not_safe_pure (r := .success) trivial]
    exact ⟨fun h hr => absurd hr h, fun h hr => absurd (h hr).1 hb⟩

/-! ## Operations that are always safe -/

theorem putNull_safe : Safe b b.putNull := by
  unfold putNull
  split
  · exact safe_pure (r := .indicatorNeeded) id
  · exact safe_storeLen_bind (-1) (nullSafe_pure _)

theorem putNumToNumBuffer_safe (bytes : List UInt8) : Safe b (b.putNumToNumBuffer bytes) :=
  safe_then_storeLen (nullSafe_ifData _) _ _

theorem putNumToNumeric_safe (value : Num) : Safe b (b.putNumToNumeric P value) :=
  safe_then_storeLen (nullSafe_ifData _) _ _

theorem putNumToRawBuffer_safe (value : Num) : Safe b (b.putNumToRawBuffer value) :=
  safe_then_storeLen (nullSafe_ifData _) _ _

theorem putRawDataToBuffer_safe (data : Str) : Safe b (b.putRawDataToBuffer data) :=
  safe_storeLen_bind _ ((nullSafe_ifData _).bind fun _ => nullSafe_pure _)

theorem putTmToCharBuffer_safe (text : Str) (len : Nat) : Safe b (b.putTmToCharBuffer P text len) :=
  safe_storeLen_bind _ ((nullSafe_ifData _).bind fun _ => nullSafe_pure _)

theorem putTmToWcharBuffer_safe (text : Str) (len : Nat) (tmp : Int) : Safe b (b.putTmToWcharBuffer P text len tmp) :=
  safe_storeLen_bind _ ((nullSafe_ifData _).bind fun _ => nullSafe_pure _)

theorem safe_unsupported : Safe b (pure .unsupportedConversion) := safe_pure id

/-! ## Dates and times -/

/-- One of the three objects of several members. -/
def OdbcNativeType.isDateTime : OdbcNativeType → Prop
  | .tdate | .ttime | .ttimestamp => True
  | _ => False

/-- An object is filled by an operation that gets that far. -/
def TakesObject (P : Platform) (b : ApplicationDataBuffer) : PutCall → Prop
  | .date (some ms) => OdbcNativeType.isDateTime b.type ∧ (P.toGmTime (ms.tdiv 1000)).isSome
  | .timestamp (some v) => OdbcNativeType.isDateTime b.type ∧ (P.toGmTime v.seconds).isSome
  | .time (some ms) => (b.type = .ttime ∨ b.type = .ttimestamp) ∧ (P.toGmTime (ms.tdiv 1000)).isSome
  | .num (some v) => OdbcNativeType.isDateTime b.type ∧ (P.toGmTime ((v.toInt P 8 true).tdiv 1000)).isSome
  | .guid _ => b.type = .guid
  | .decimal (some _) => b.type = .numeric
  | _ => False

/-- A text goes through `PutStrToStrBuffer`. -/
def TakesText (b : ApplicationDataBuffer) : PutCall → Prop
  | .string (some _) | .guid _ => b.type = .char ∨ b.type = .wchar ∨ b.type = .binary ∨ b.type = .default
  | .num (some _) | .decimal (some _) | .binaryData _ => b.type = .char ∨ b.type = .wchar
  | _ => False

/-- An object that is filled is there; a text with an indicator has room for
a terminator. -/
def Reaches (P : Platform) (b : ApplicationDataBuffer) (call : PutCall) : Prop :=
  (TakesObject P b call → b.buffer.isSome) ∧ (TakesText b call → HasRoom b (b.charBytes P))

theorem putDate_safe_iff (ms : Int) : Safe b (b.putDate P ms) ↔ Reaches P b (.date (some ms)) := by
  unfold putDate Reaches TakesObject TakesText OdbcNativeType.isDateTime
  cases ht : P.toGmTime (ms.tdiv 1000) with
  | none => simp [safe_exception, ht]
  | some t =>
    cases hb : b.type with
    | char => simp [putTmToCharBuffer_safe]
    | wchar => simp [putTmToWcharBuffer_safe]
    | tdate => simpa [ht] using safe_object_iff (fun h => storeDate_null h t) 6 .success
    | ttime => simpa [ht] using safe_object_iff (fun h => storeTime_null h 0 t) 6 .success
    | ttimestamp => simpa [ht] using safe_object_iff (fun h => storeTimestamp_null h t 0) 16 .success
    | _ => simp [safe_unsupported]

theorem putTimestamp_safe_iff (v : Timestamp) : Safe b (b.putTimestamp P v) ↔ Reaches P b (.timestamp (some v)) := by
  unfold putTimestamp Reaches TakesObject TakesText OdbcNativeType.isDateTime
  cases ht : P.toGmTime v.seconds with
  | none => simp [safe_exception, ht]
  | some t =>
    cases hb : b.type with
    | char => simp [putTmToCharBuffer_safe]
    | wchar => simp [putTmToWcharBuffer_safe]
    | tdate => simpa [ht] using safe_object_iff (fun h => storeDate_null h t) 6 .fractionalTruncated
    | ttime => simpa [ht] using safe_object_iff (fun h => storeTime_null h 0 t) 6 .fractionalTruncated
    | ttimestamp => simpa [ht] using safe_object_iff (fun h => storeTimestamp_null h t v.fractionNs) 16 .success
    | _ => simp [safe_unsupported]

theorem putTime_safe_iff (ms : Int) : Safe b (b.putTime P ms) ↔ Reaches P b (.time (some ms)) := by
  unfold putTime Reaches TakesObject TakesText
  cases ht : P.toGmTime (ms.tdiv 1000) with
  | none => simp [safe_exception, ht]
  | some t =>
    cases hb : b.type with
    | char => simp [putTmToCharBuffer_safe]
    | wchar => simp [putTmToWcharBuffer_safe]
    | ttime => simpa [ht] using safe_object_iff (fun h => storeTime_null h 0 t) 6 .success
    | ttimestamp => simpa [ht] using safe_object_iff (fun h => storeTimestamp_null h t 0) 16 .success
    | _ => simp [safe_unsupported]

/-! ## The other values -/

/-- A number in an object is put as a date or a time of milliseconds. -/
theorem putNum_safe_iff (v : Num) : Safe b (b.putNum P v) ↔ Reaches P b (.num (some v)) := by
  cases hb : b.type with
  | tdate =>
    rw [putNum, hb]
    exact (putDate_safe_iff _).trans (by simp [Reaches, TakesObject, TakesText, hb])
  | ttimestamp =>
    rw [putNum, hb]
    exact (putTimestamp_safe_iff _).trans (by simp [Reaches, TakesObject, TakesText, hb, Timestamp.ofMilliseconds])
  | ttime =>
    rw [putNum, hb]
    exact (putTime_safe_iff _).trans (by simp [Reaches, TakesObject, TakesText, hb, OdbcNativeType.isDateTime])
  | char =>
    rw [putNum, hb]
    simp [putStrToCharBuffer_safe_iff, Reaches, TakesObject, TakesText, OdbcNativeType.isDateTime, charBytes, hb]
  | wchar =>
    rw [putNum, hb]
    simp [putStrToWcharBuffer_safe_iff, Reaches, TakesObject, TakesText, OdbcNativeType.isDateTime, charBytes, hb]
  | _ =>
    rw [putNum, hb]
    simp [putNumToNumBuffer_safe, putNumToNumeric_safe, putNumToRawBuffer_safe, safe_unsupported, Reaches, TakesObject,
      TakesText, OdbcNativeType.isDateTime, hb]

theorem putString_safe_iff (s : Str) : Safe b (b.putString P s) ↔ Reaches P b (.string (some s)) := by
  cases hb : b.type with
  | char | binary | default =>
    rw [putString, hb]
    simp [putStrToCharBuffer_safe_iff, Reaches, TakesObject, TakesText, charBytes, hb]
  | wchar =>
    rw [putString, hb]
    simp [putStrToWcharBuffer_safe_iff, Reaches, TakesObject, TakesText, charBytes, hb]
  | tdate | ttime | ttimestamp | guid | unsupported =>
    rw [putString, hb]
    simp [safe_unsupported, Reaches, TakesObject, TakesText, hb]
  | _ =>
    rw [putString, hb]
    simp [putNum_safe_iff, Reaches, TakesObject, TakesText, OdbcNativeType.isDateTime, hb]

/-- The members of `SQLGUID`. -/
def storeGuid (b : ApplicationDataBuffer) (g : Guid) : Eff Store Fault Unit := do
  b.storeData 0 (leBytes 4 (g.most >>> 32).toNat)
  b.storeData 4 (leBytes 2 (g.most >>> 16).toNat)
  b.storeData 6 (leBytes 2 g.most.toNat)
  b.storeData 8 (leBytes 8 g.least.toNat).reverse

theorem putGuid_object (hb : b.type = .guid) (g : Guid) : b.putGuid P g = (do
    b.storeGuid g
    b.storeLen 16
    pure .success) := by
  rw [putGuid, hb, storeGuid, bind_assoc, bind_assoc, bind_assoc]

theorem putGuid_safe_iff (g : Guid) : Safe b (b.putGuid P g) ↔ Reaches P b (.guid g) := by
  cases hb : b.type with
  | char | binary | default =>
    rw [putGuid, hb]
    simp [putStrToCharBuffer_safe_iff, Reaches, TakesObject, TakesText, charBytes, hb]
  | wchar =>
    rw [putGuid, hb]
    simp [putStrToWcharBuffer_safe_iff, Reaches, TakesObject, TakesText, charBytes, hb]
  | guid =>
    have hnull (h : ¬ b.buffer.isSome) : (b.storeGuid g).value = .error .nullPointer := by
      rw [storeGuid, bind_of_error (storeData_null h _ _)]
    rw [putGuid_object hb, safe_object_iff hnull]
    simp [Reaches, TakesObject, TakesText, hb]
  | _ =>
    rw [putGuid, hb]
    simp [safe_unsupported, Reaches, TakesObject, TakesText, hb]

theorem putBinaryData_safe_iff (data : Str) : Safe b (b.putBinaryData P data) ↔ Reaches P b (.binaryData data) := by
  cases hb : b.type with
  | char =>
    rw [putBinaryData, hb]
    simp [putStrToCharBuffer_safe_iff, Reaches, TakesObject, TakesText, charBytes, hb]
  | wchar =>
    rw [putBinaryData, hb]
    simp [putStrToWcharBuffer_safe_iff, Reaches, TakesObject, TakesText, charBytes, hb]
  | binary | default =>
    rw [putBinaryData, hb]
    simp [putRawDataToBuffer_safe, Reaches, TakesObject, TakesText, hb]
  | _ =>
    rw [putBinaryData, hb]
    simp [safe_unsupported, Reaches, TakesObject, TakesText, hb]

/-- A result that replaces another that was delivered. -/
theorem safe_replace {x : Put} (hx : Safe b x) (hdelivered : ∀ r, x.value = .ok r → r.Delivered) (r : ConversionResult) :
    Safe b (do
      let _ ← x
      pure r) := by
  refine ⟨hx.1.bind fun _ => nullSafe_pure r, fun hr r' hvalue _ => ?_⟩
  obtain ⟨r₀, hok, -⟩ := value_bind_eq_ok.mp hvalue
  obtain ⟨v, hv⟩ := hx.2 hr r₀ hok (hdelivered r₀ hok)
  exact ⟨v, mem_log_bind_left hv⟩

theorem putNumToNumBuffer_value (bytes : List UInt8) : (b.putNumToNumBuffer bytes).value = .ok .success := by
  unfold putNumToNumBuffer
  rw [bind_of_ok (ifData_value fun hb => storeData_value hb _ _), bind_of_ok (storeLen_value b _)]
  rfl

/-- A number in a number, with another result. -/
theorem putNum_replace_safe {v : Num} {bytes : List UInt8} (h : b.putNum P v = b.putNumToNumBuffer bytes)
    (r : ConversionResult) : Safe b (do
      let _ ← b.putNum P v
      pure r) := by
  rw [h]
  refine safe_replace (putNumToNumBuffer_safe bytes) (fun r hr => ?_) r
  obtain rfl := Except.ok.inj ((putNumToNumBuffer_value bytes).symm.trans hr)
  trivial

/-- The members of `SQL_NUMERIC_STRUCT`. -/
def storeNumeric (P : Platform) (b : ApplicationDataBuffer) (value : Decimal) : Eff Store Fault Unit := do
  let unscaled := P.decimal.integral value
  let bytes := P.decimal.magnitudeToBytes unscaled
  b.storeData 3 ((bytes.reverse ++ List.replicate 16 0).take 16)
  b.storeData 1 [0]
  b.storeData 2 [if unscaled < 0 then 0 else 1]
  b.storeData 0 (leBytes 1 (P.decimal.precision unscaled))

theorem putDecimalToNumeric_safe_iff (value : Decimal) : Safe b (b.putDecimalToNumeric P value) ↔ b.buffer.isSome := by
  have hobject : b.putDecimalToNumeric P value = (do
      b.storeNumeric P value
      b.storeLen 19
      pure (if 16 < (P.decimal.magnitudeToBytes (P.decimal.integral value)).length then .fractionalTruncated else .success)) := by
    rw [putDecimalToNumeric, storeNumeric, bind_assoc, bind_assoc, bind_assoc]
  have hnull (h : ¬ b.buffer.isSome) : (b.storeNumeric P value).value = .error .nullPointer := by
    rw [storeNumeric, bind_of_error (storeData_null h _ _)]
  rw [hobject, safe_object_iff hnull]

theorem putDecimal_safe_iff (value : Decimal) : Safe b (b.putDecimal P value) ↔ Reaches P b (.decimal (some value)) := by
  cases hb : b.type with
  | char | wchar =>
    rw [putDecimal, hb]
    exact (putString_safe_iff _).trans (by simp [Reaches, TakesObject, TakesText, hb])
  | numeric =>
    rw [putDecimal, hb]
    exact (putDecimalToNumeric_safe_iff value).trans (by simp [Reaches, TakesObject, TakesText, hb])
  | default | binary | tdate | ttime | ttimestamp | guid | unsupported =>
    rw [putDecimal, hb]
    simp [safe_unsupported, Reaches, TakesObject, TakesText, hb]
  | _ =>
    rw [putDecimal, hb]
    refine iff_of_true (putNum_replace_safe (by rw [putNum, hb]) _) ?_
    simp [Reaches, TakesObject, TakesText, hb]

/-! ## Every operation -/

/-- An operation of an optional value. -/
theorem elim_safe_iff {α : Type} {f : α → Put} {call : Option α → PutCall} (hnone : Safe b b.putNull ↔ Reaches P b (call none))
    (hsome : ∀ a, Safe b (f a) ↔ Reaches P b (call (some a))) :
    ∀ v : Option α, Safe b (v.elim b.putNull f) ↔ Reaches P b (call v)
  | none => hnone
  | some a => hsome a

theorem put_safe_iff (call : PutCall) : Safe b (b.put P call) ↔ Reaches P b call := by
  have hnull : ∀ call : PutCall, ¬ TakesObject P b call → ¬ TakesText b call → (Safe b b.putNull ↔ Reaches P b call) :=
    fun _ hobject htext => iff_of_true putNull_safe ⟨fun h => absurd h hobject, fun h => absurd h htext⟩
  unfold put
  cases call with
  | null => exact hnull _ id id
  | num v => exact elim_safe_iff (hnull _ id id) putNum_safe_iff v
  | string v => exact elim_safe_iff (hnull _ id id) putString_safe_iff v
  | guid v => exact putGuid_safe_iff v
  | binaryData data => exact putBinaryData_safe_iff data
  | decimal v => exact elim_safe_iff (hnull _ id id) putDecimal_safe_iff v
  | date ms => exact elim_safe_iff (hnull _ id id) putDate_safe_iff ms
  | timestamp v => exact elim_safe_iff (hnull _ id id) putTimestamp_safe_iff v
  | time ms => exact elim_safe_iff (hnull _ id id) putTime_safe_iff ms

/-- With a null data pointer the call makes no use of it; and where the call
delivers, what is in the indicator afterwards was put there, whatever it was
before. -/
def IndicatorSafe (P : Platform) (b : ApplicationDataBuffer) (call : PutCall) : Prop :=
  (b.buffer = none → (b.put P call).value ≠ .error .nullPointer ∧ ∀ s ∈ (b.put P call).log, s.region ≠ .data) ∧
    ∀ (a : Int) (r : ConversionResult), b.getResLen = some a → (b.put P call).value = .ok r → r.Delivered →
      (∃ v, ⟨.indicator, 0, leBytes 8 v⟩ ∈ (b.put P call).log) ∧
        ∀ m m', Memory.read (b.after P call m) a 8 = Memory.read (b.after P call m') a 8

/-- An indicator that is assigned does not show what it was. -/
theorem read_of_assigned {x : Put} {a : Int} (ha : b.getResLen = some a) (h : Assigned x) (m m' : Memory.Mem) :
    Memory.read (b.stored x m) a 8 = Memory.read (b.stored x m') a 8 := by
  obtain ⟨v, hv⟩ := h
  have hw : (⟨a, leBytes 8 v⟩ : Memory.Write) ∈ x.log.filterMap b.resolve :=
    List.mem_filterMap.mpr ⟨_, hv, resolve_indicator_some ha v⟩
  exact Memory.read_writes_of_stored hw (by simp) m m'

/-- **Indicators.** The operations keep from data that are not there and
assign the indicator, unless they fill an object that is not there or have no
room for a text. -/
theorem put_indicator_safe_iff (P : Platform) (b : ApplicationDataBuffer) (call : PutCall) :
    IndicatorSafe P b call ↔ Reaches P b call := by
  rw [← put_safe_iff]
  constructor
  · rintro ⟨hnull, hfresh⟩
    refine ⟨fun hb => hnull (by simpa using hb), fun hr r hvalue hdelivered => ?_⟩
    obtain ⟨reslen, hreslen⟩ := Option.isSome_iff_exists.mp hr
    exact (hfresh _ r (by rw [getResLen, applyOffset, hreslen]; rfl) hvalue hdelivered).1
  · rintro ⟨hnull, hfresh⟩
    refine ⟨fun hb => hnull (by simp [hb]), fun a r ha hvalue hdelivered => ?_⟩
    have hassigned := hfresh (isSome_reslen ha) r hvalue hdelivered
    exact ⟨hassigned, read_of_assigned ha hassigned⟩

/-- A string for a column that is bound with an indicator alone. -/
theorem put_string_indicator_stale :
    let b : ApplicationDataBuffer := ⟨.char, none, 10, some 200, 0, 0, by decide⟩
    ¬ IndicatorSafe .unixOdbc b (.string (some (ascii "abc"))) := by
  intro b h
  obtain ⟨⟨v, hv⟩, -⟩ := h.2 200 .success rfl rfl trivial
  cases hv

end ApplicationDataBuffer

end DocumentDbOdbc
