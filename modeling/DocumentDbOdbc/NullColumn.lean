/-
Nulls in a column.

A null element should be delivered as a missing one is, and nothing else
should. Four helpers have no case for it, and the one of a date takes an
`int64` for a null (`readToBuffer_null_iff`). A length that is `-1` otherwise
comes only of a text of `2 ^ 32 - 1` characters, whose length is cast to 32
bits (`put_notNull`).
-/
import DocumentDbOdbc.ColumnFacts
import DocumentDbOdbc.BufferMemory

namespace DocumentDbOdbc

open Effect

/-- Not `SQL_NULL_DATA` in the indicator. -/
def Store.NotNull (s : Store) : Prop := s.region = .indicator → s.bytes ≠ leBytes 8 (-1)

namespace ApplicationDataBuffer

variable {P : Platform} {b : ApplicationDataBuffer}

/-! ## Lengths that are no null -/

theorem storeLen_notNull {v : Int} (hv : Fits 8 true v) (hne : v ≠ -1) : All Store.NotNull (b.storeLen v) := by
  unfold storeLen
  split
  · exact all_emit.mpr fun _ hbytes => hne (leBytes_injective hv (by decide) hbytes)
  · exact all_pure _

/-- A size. -/
theorem storeLen_size {v : Int} (h : 0 ≤ v ∧ v < 4294967296) : All Store.NotNull (b.storeLen v) :=
  storeLen_notNull (fits_eight.mpr ⟨by omega, by omega⟩) (by omega)

theorem storeData_notNull (offset : Nat) (bytes : List UInt8) : All Store.NotNull (b.storeData offset bytes) := by
  unfold storeData
  split
  · exact all_emit.mpr nofun
  · exact all_raise _

theorem ifData_notNull {x : Eff Store Fault Unit} (hx : All Store.NotNull x) : All Store.NotNull (b.ifData x) := by
  unfold ifData
  split
  · exact hx
  · exact all_pure _

/-- Stores, a size and a result. -/
theorem then_size_notNull {x : Eff Store Fault Unit} (hx : All Store.NotNull x) {len : Int}
    (hlen : 0 ≤ len ∧ len < 4294967296) (r : ConversionResult) :
    All Store.NotNull (do
      x
      b.storeLen len
      pure r) :=
  hx.bind fun _ _ => (storeLen_size hlen).bind fun _ _ => all_pure r

theorem storeDate_notNull (t : Tm) : All Store.NotNull (b.storeDate t) :=
  (storeData_notNull _ _).bind fun _ _ => (storeData_notNull _ _).bind fun _ _ => storeData_notNull _ _

theorem storeTime_notNull (at_ : Nat) (t : Tm) : All Store.NotNull (b.storeTime at_ t) :=
  (storeData_notNull _ _).bind fun _ _ => (storeData_notNull _ _).bind fun _ _ => storeData_notNull _ _

theorem storeTimestamp_notNull (t : Tm) (fraction : Int) : All Store.NotNull (b.storeTimestamp t fraction) :=
  (storeDate_notNull t).bind fun _ _ => (storeTime_notNull 6 t).bind fun _ _ => storeData_notNull _ _

/-! ## Operations that store no null -/

/-- The text has less characters than make a length of `-1`. -/
def ShortText (P : Platform) (s : Str) : Prop := ∀ chars, P.fromBytes s = some chars → chars.length < 4294967295

theorem int32Cast_range (n : Nat) : Fits 8 true (int32Cast n) := by
  have hpos : 0 < 4294967296 := by norm_num
  have hlow : -(4294967296 / 2) ≤ int32Cast n := Int.le_bmod hpos
  have hhigh : int32Cast n < (4294967296 + 1) / 2 := Int.bmod_lt hpos
  rw [fits_eight]
  omega

/-- A length is cast to `-1` only if it is one less than a multiple of
`2 ^ 32`. -/
theorem int32Cast_eq_neg_one {n : Nat} (h : int32Cast n = -1) : n % 4294967296 = 4294967295 := by
  have hmod : int32Cast n % 4294967296 = n % 4294967296 := Int.bmod_emod
  rw [h] at hmod
  omega

theorem putStrToCharBuffer_notNull {s : Str} (h : ShortText P s) : All Store.NotNull (b.putStrToCharBuffer P s) := by
  unfold putStrToCharBuffer
  split
  · exact all_pure _
  split
  · exact all_pure _
  split
  · exact all_raise _
  · next chars hchars =>
    have hshort := h chars hchars
    refine (storeData_notNull _ _).bind fun _ _ => (storeData_notNull _ _).bind fun _ _ =>
      (storeLen_notNull (int32Cast_range _) fun heq => ?_).bind fun _ _ => all_pure _
    have := int32Cast_eq_neg_one heq
    omega

theorem copyUtf8_dvd {s : Str} {lenBytes : Nat} {r : Nat × Bool}
    (h : (b.copyUtf8StringToSqlWcharString P s lenBytes).value = .ok r) : P.wcharBytes ∣ r.1 := by
  unfold copyUtf8StringToSqlWcharString at h
  split at h
  · obtain rfl := Except.ok.inj h
    exact Nat.dvd_zero _
  · obtain ⟨_, -, h⟩ := value_bind_eq_ok.mp h
    obtain ⟨_, -, h⟩ := value_bind_eq_ok.mp h
    obtain rfl := Except.ok.inj h
    exact Nat.dvd_mul_left _ _

theorem copyUtf8_notNull (s : Str) (lenBytes : Nat) :
    All Store.NotNull (b.copyUtf8StringToSqlWcharString P s lenBytes) := by
  unfold copyUtf8StringToSqlWcharString
  split
  · exact all_pure _
  · exact (storeData_notNull _ _).bind fun _ _ => (storeData_notNull _ _).bind fun _ _ => all_pure _

/-- Wide characters have an even number of bytes. -/
theorem putStrToWcharBuffer_notNull (s : Str) : All Store.NotNull (b.putStrToWcharBuffer P s) := by
  have hw := P.wcharBytes_range
  unfold putStrToWcharBuffer
  split
  · exact all_pure _
  split
  · exact all_pure _
  · refine (copyUtf8_notNull _ _).bind fun r hr => (storeLen_notNull (int32Cast_range _) fun heq => ?_).bind fun _ _ =>
      all_pure _
    · have hodd := int32Cast_eq_neg_one heq
      have heven : 2 ∣ r.1 := by
        refine Nat.dvd_trans ?_ (copyUtf8_dvd hr)
        rcases hw with hw | hw <;> simp [hw]
      omega

theorem putTmToCharBuffer_notNull (text : Str) {valLen : Nat} (h : valLen < 4294967296) :
    All Store.NotNull (b.putTmToCharBuffer P text valLen) := by
  unfold putTmToCharBuffer
  exact (storeLen_size (by omega)).bind fun _ _ => (ifData_notNull (storeData_notNull _ _)).bind fun _ _ => all_pure _

theorem putTmToWcharBuffer_notNull (text : Str) {valLen : Nat} (h : valLen < 4294967296) (tmp : Int) :
    All Store.NotNull (b.putTmToWcharBuffer P text valLen tmp) := by
  unfold putTmToWcharBuffer
  refine (storeLen_size (by omega)).bind fun _ _ => (ifData_notNull ?_).bind fun _ _ => all_pure _
  split
  · exact all_raise _
  · exact (copyUtf8_notNull _ _).bind fun _ _ => all_pure _

theorem putDate_notNull (ms : Int) : All Store.NotNull (b.putDate P ms) := by
  unfold putDate
  split
  · exact all_raise _
  split
  · exact putTmToCharBuffer_notNull _ (by decide)
  · exact putTmToWcharBuffer_notNull _ (by decide) _
  · exact then_size_notNull (storeDate_notNull _) (by decide) _
  · exact then_size_notNull (storeTime_notNull _ _) (by decide) _
  · exact then_size_notNull (storeTimestamp_notNull _ _) (by decide) _
  · exact all_pure _

theorem putTimestamp_notNull (value : Timestamp) : All Store.NotNull (b.putTimestamp P value) := by
  unfold putTimestamp
  split
  · exact all_raise _
  split
  · exact putTmToCharBuffer_notNull _ (by decide)
  · exact putTmToWcharBuffer_notNull _ (by decide) _
  · exact then_size_notNull (storeDate_notNull _) (by decide) _
  · exact then_size_notNull (storeTime_notNull _ _) (by decide) _
  · exact then_size_notNull (storeTimestamp_notNull _ _) (by decide) _
  · exact all_pure _

theorem putTime_notNull (ms : Int) : All Store.NotNull (b.putTime P ms) := by
  unfold putTime
  split
  · exact all_raise _
  split
  · exact putTmToCharBuffer_notNull _ (by decide)
  · exact putTmToWcharBuffer_notNull _ (by decide) _
  · exact then_size_notNull (storeTime_notNull _ _) (by decide) _
  · exact then_size_notNull (storeTimestamp_notNull _ _) (by decide) _
  · exact all_pure _

theorem putNumToNumBuffer_notNull {bytes : List UInt8} (h : bytes.length < 4294967296) :
    All Store.NotNull (b.putNumToNumBuffer bytes) := by
  unfold putNumToNumBuffer
  exact then_size_notNull (ifData_notNull (storeData_notNull _ _)) (by omega) _

/-- Numbers have a size. -/
theorem putNum_notNull {value : Num} (hsize : value.size < 4294967296) (h : b.type = .char → ShortText P (value.text P)) :
    All Store.NotNull (b.putNum P value) := by
  unfold putNum
  split
  case h_12 hb => exact putStrToCharBuffer_notNull (h hb)
  case h_13 => exact putStrToWcharBuffer_notNull _
  case h_14 =>
    exact then_size_notNull (ifData_notNull ((storeData_notNull _ _).bind fun _ _ => (storeData_notNull _ _).bind fun _ _ =>
      (storeData_notNull _ _).bind fun _ _ => (storeData_notNull _ _).bind fun _ _ => storeData_notNull _ _)) (by decide) _
  case h_15 => exact then_size_notNull (ifData_notNull (storeData_notNull _ _)) (by omega) _
  case h_16 => exact then_size_notNull (ifData_notNull (storeData_notNull _ _)) (by omega) _
  case h_17 => exact putDate_notNull _
  case h_18 => exact putTimestamp_notNull _
  case h_19 => exact putTime_notNull _
  case h_20 => exact all_pure _
  case h_21 => exact all_pure _
  -- the numeric targets
  all_goals exact putNumToNumBuffer_notNull (by simp)

theorem putString_notNull {value : Str} (h : ShortText P value) : All Store.NotNull (b.putString P value) := by
  unfold putString
  split
  all_goals
    next hb =>
      first
      | exact putNum_notNull (show 8 < 4294967296 by decide) fun hchar => nomatch hb.symm.trans hchar
      | exact putStrToCharBuffer_notNull h
      | exact putStrToWcharBuffer_notNull _
      | exact all_pure _

theorem putDecimalToNumeric_notNull (value : Decimal) : All Store.NotNull (b.putDecimalToNumeric P value) :=
  (storeData_notNull _ _).bind fun _ _ => (storeData_notNull _ _).bind fun _ _ =>
    (storeData_notNull _ _).bind fun _ _ => then_size_notNull (storeData_notNull _ _) (by decide) _

theorem putDecimal_notNull {value : Decimal} (h : ShortText P (P.decimal.text value)) :
    All Store.NotNull (b.putDecimal P value) := by
  unfold putDecimal
  split
  all_goals
    next hb =>
      first
      | exact putString_notNull h
      | exact putDecimalToNumeric_notNull value
      | exact all_pure _
      | refine All.bind ?_ fun _ _ => all_pure _
        exact putNum_notNull (show 8 < 4294967296 by decide) fun hchar => nomatch hb.symm.trans hchar

/-- The hexadecimal text of data has an even number of characters, all of which
are stored if it is not cut. -/
theorem putBinaryData_notNull {data : Str} (h : (b.putBinaryData P data).value = .ok .success) :
    All Store.NotNull (b.putBinaryData P data) := by
  have hraw : (b.putRawDataToBuffer data).value = .ok .success → All Store.NotNull (b.putRawDataToBuffer data) := by
    intro h
    have hfits : ¬ b.buflen < data.length := by
      rw [← putRawDataToBuffer_loses]
      rintro ⟨r, hr, hne⟩
      exact hne (Except.ok.inj (hr.symm.trans h))
    have hrange := b.buflen_range
    unfold putRawDataToBuffer
    refine (storeLen_notNull (fits_eight.mpr ⟨by omega, by omega⟩) (by omega)).bind fun _ _ =>
      (ifData_notNull ?_).bind fun _ _ => all_pure _
    split
    · exact storeData_notNull _ _
    · exact all_pure _
  unfold putBinaryData at h ⊢
  split at h
  · exact hraw h
  · exact hraw h
  · have hchars := fromBytes_plain (P := P) (isPlainChar_hexText data)
    have hcut : ¬ CharCut P b (hexText data) := by
      rw [← putStrToCharBuffer_loses]
      rintro ⟨r, hr, hne⟩
      exact hne (Except.ok.inj (hr.symm.trans h))
    unfold putStrToCharBuffer
    split
    · exact all_pure _
    next hb =>
    rw [Option.isNone_iff_eq_none, ← ne_eq, ← Option.isSome_iff_ne_none] at hb
    split
    · exact all_pure _
    next hlen =>
    rw [hchars]
    dsimp only
    refine (storeData_notNull _ _).bind fun _ _ => (storeData_notNull _ _).bind fun _ _ =>
      (storeLen_notNull (int32Cast_range _) fun heq => ?_).bind fun _ _ => all_pure _
    have hodd := int32Cast_eq_neg_one heq
    have hroom : ¬ b.buflen - 1 < ((hexText data).map UInt8.toNat).length :=
      fun hlt => hcut ⟨hb, .inr ⟨_, hchars, hlt⟩⟩
    rw [sizeT_of_nonneg (by omega)] at hodd
    rw [List.length_map, length_hexText] at hodd hroom
    omega
  · exact putStrToWcharBuffer_notNull _
  · exact all_pure _

/-- The call has a value, of a type that has a size. -/
def HasValue : PutCall → Prop
  | .num (some v) => v.size < 4294967296
  | .string (some _) | .decimal (some _) | .date (some _) | .timestamp (some _) | .time (some _) => True
  | _ => False

/-- The text of a number, a string or a decimal. -/
def callText (P : Platform) : PutCall → Option Str
  | .num v => v.map (Num.text P)
  | .string v => v
  | .decimal v => v.map P.decimal.text
  | _ => none

/-- A value is put with no length of a null unless its text is long. -/
theorem put_notNull {call : PutCall} (hvalue : HasValue call) (h : ∀ s, callText P call = some s → ShortText P s) :
    All Store.NotNull (b.put P call) := by
  match call, hvalue, h with
  | .num (some v), hvalue, h => exact putNum_notNull hvalue fun _ => h _ rfl
  | .string (some s), _, h => exact putString_notNull (h s rfl)
  | .decimal (some v), _, h => exact putDecimal_notNull (h _ rfl)
  | .date (some ms), _, _ => exact putDate_notNull ms
  | .timestamp (some v), _, _ => exact putTimestamp_notNull v
  | .time (some ms), _, _ => exact putTime_notNull ms

/-- `2 ^ 32` narrow characters. -/
def wideRoom : ApplicationDataBuffer := ⟨.char, some 0, 4294967296, some 8589934592, 0, 0, by decide⟩

/-- A long text is cut there, and its length is that of a null. -/
theorem put_longText {call : PutCall} {s : Str} (h : callText P call = some s) (hlong : ¬ ShortText P s) :
    ∃ r, (wideRoom.put P call).value = .ok r ∧ ⟨.indicator, 0, leBytes 8 (-1)⟩ ∈ (wideRoom.put P call).log := by
  have hput : wideRoom.put P call = wideRoom.putStrToCharBuffer P s := by
    match call, h with
    | .num (some v), rfl => rfl
    | .string (some s), rfl => rfl
    | .decimal (some v), rfl => rfl
  unfold ShortText at hlong
  push Not at hlong
  obtain ⟨chars, hchars, hlen⟩ := hlong
  have hmin : min chars.length (wideRoom.buflen.toNat - 1) = 4294967295 := Nat.min_eq_right hlen
  have heq := putStrToCharBuffer_eq (b := wideRoom) (p := 0) rfl (by decide) hchars
  dsimp only at heq
  rw [hmin] at heq
  have hcast : int32Cast 4294967295 = -1 := by decide
  rw [hput, heq, hcast]
  exact ⟨_, rfl, List.mem_append_right _ (List.mem_singleton.mpr rfl)⟩

end ApplicationDataBuffer

/-! ## The column -/

namespace DocumentDbColumn

open ApplicationDataBuffer

variable {P : Platform} {c : DocumentDbColumn} {e : BsonElement}

/-- What a null should leave: the length of a null, no data, and
`AI_SUCCESS`. -/
def nullRead : Put := ⟨[⟨.indicator, 0, leBytes 8 (-1)⟩], .ok .success⟩

/-- The read says `AI_SUCCESS` and that there is a null. -/
def DeliversNull (x : Put) : Prop := x.value = .ok .success ∧ ⟨.indicator, 0, leBytes 8 (-1)⟩ ∈ x.log

/-- Into every buffer with an indicator, a null element is read as a missing one, and
no other is read as a null, but in a column of that type. -/
def NullUniform (P : Platform) (c : DocumentDbColumn) (e : BsonElement) : Prop :=
  ∀ b : ApplicationDataBuffer, b.reslen.isSome →
    if e = .null then c.readToBuffer P b = nullRead ∧ c.readToBuffer P b = (c.update []).readToBuffer P b
    else c.type ≠ .null → ¬ DeliversNull (c.readToBuffer P b)

theorem putNull_eq {b : ApplicationDataBuffer} (hr : b.reslen.isSome) : b.putNull = nullRead := by
  have hnone : ¬ b.reslen.isNone = true := by simpa [Option.isSome_iff_ne_none] using hr
  unfold putNull storeLen
  rw [if_neg hnone, if_pos hr]
  rfl

/-- A missing element, and a null where there is a case for it. -/
theorem run_null {b : ApplicationDataBuffer} (hr : b.reslen.isSome) {call : PutCall} (h : b.put P call = b.putNull) :
    (ColumnRead.drops call).run P b = nullRead := by
  rw [ColumnRead.run, h, putNull_eq hr]
  rfl

/-- The column has a case for a null. -/
theorem readElement_null (htype : c.type ≠ .other) {b : ApplicationDataBuffer} (hr : b.reslen.isSome) :
    (readElement P c.type .null).run P b = nullRead ↔
      c.type ≠ .decimal ∧ c.type ≠ .date ∧ c.type ≠ .time ∧ c.type ≠ .timestamp := by
  have hforward : (ColumnRead.forwards .null).run P b = nullRead := putNull_eq hr
  cases hty : c.type with
  | boolean | smallint | tinyint | integer | bigint | float | double | varchar | char | nchar | nvarchar | longvarchar
  | longnvarchar => exact iff_of_true (run_null hr rfl) (by decide)
  | null | binary | varbinary => exact iff_of_true hforward (by decide)
  | decimal | date | timestamp | time =>
    refine iff_of_false (fun h => ?_) (by decide)
    cases congrArg Eff.value h
  | other => exact absurd hty htype

/-- A call whose result is dropped has a value. -/
def Valued : ColumnRead → Prop
  | .drops call => HasValue call
  | _ => True

theorem validInt_valued {bytes : Nat} (h : bytes < 4294967296) (v : Int × ConversionResult) : Valued (validInt bytes v) := by
  unfold validInt ColumnRead.checked
  split
  · exact h
  · trivial

theorem elim_valued {α : Type} (v : Option α) {f : α → PutCall} (h : ∀ x, HasValue (f x)) :
    Valued (v.elim ColumnRead.throws fun x => .drops (f x)) := by
  cases v with
  | none => trivial
  | some x => exact h x

theorem ite_valued {p : Prop} [Decidable p] {r : ConversionResult} {call : PutCall} (h : HasValue call) :
    Valued (if p then .returns r else .drops call) := by
  split
  · trivial
  · exact h

theorem putInt8_valued (he : e ≠ .null) : Valued (putInt8 P e) := by
  have hsize : 1 < 4294967296 := by decide
  cases e with
  | int32 v => exact validInt_valued hsize _
  | int64 v => exact validInt_valued hsize _
  | double x => exact ite_valued hsize
  | decimal128 s => exact validInt_valued hsize _
  | utf8 s => exact validInt_valued hsize _
  | bool v => exact hsize
  | null => exact absurd rfl he
  | _ => trivial

theorem putInt_valued {bytes : Nat} (hsize : bytes < 4294967296) (max min : Int) (he : e ≠ .null) :
    Valued (putInt P bytes max min e) := by
  cases e with
  | int32 v => exact validInt_valued hsize _
  | int64 v => exact validInt_valued hsize _
  | double x => exact ite_valued hsize
  | decimal128 s => exact validInt_valued hsize _
  | utf8 s => exact validInt_valued hsize _
  | bool v => exact hsize
  | date ms => exact hsize
  | timestamp s => exact hsize
  | null => exact absurd rfl he
  | _ => trivial

theorem putReal_valued {ofInt : Int → Num} {ofDouble : UInt64 → Num} {ofText : Str → Option Num}
    (hint : ∀ v, (ofInt v).size < 4294967296) (hdouble : ∀ x, (ofDouble x).size < 4294967296)
    (htext : ∀ s v, ofText s = some v → v.size < 4294967296) (he : e ≠ .null) : Valued (putReal ofInt ofDouble ofText e) := by
  have hread : ∀ s, Valued ((ofText s).elim .throws fun v => .drops (.num (some v))) := by
    intro s
    cases h : ofText s with
    | none => trivial
    | some v => exact htext s v h
  cases e with
  | int32 v => exact hint _
  | int64 v => exact hint _
  | double x => exact hdouble x
  | decimal128 s => exact hread s
  | utf8 s => exact hread s
  | bool v => exact hint _
  | date ms => exact hint _
  | timestamp s => exact hint _
  | null => exact absurd rfl he
  | _ => trivial

theorem putString_valued (he : e ≠ .null) : Valued (putString P e) := by
  cases e with
  | date ms => exact elim_valued _ fun _ => trivial
  | timestamp s => exact elim_valued _ fun _ => trivial
  | null => exact absurd rfl he
  | _ => trivial

/-- The date of an `int64` is the one value that is lost on the way. -/
theorem readElement_valued (he : e ≠ .null) (hdate : ¬ (c.type = .date ∧ ∃ v, e = .int64 v)) :
    Valued (readElement P c.type e) := by
  cases hty : c.type with
  | boolean | smallint => exact putInt8_valued he
  | tinyint => exact putInt_valued (by decide) _ _ he
  | integer => exact putInt_valued (by decide) _ _ he
  | bigint => exact putInt_valued (by decide) _ _ he
  | float =>
    have hsize : 4 < 4294967296 := by decide
    show Valued (putFloat P e)
    refine putReal_valued (fun _ => hsize) (fun _ => hsize) (fun s v hv => ?_) he
    obtain ⟨x, -, rfl⟩ := Option.map_eq_some_iff.mp hv
    exact hsize
  | double =>
    have hsize : 8 < 4294967296 := by decide
    show Valued (putDouble P e)
    refine putReal_valued (fun _ => hsize) (fun _ => hsize) (fun s v hv => ?_) he
    obtain ⟨x, -, rfl⟩ := Option.map_eq_some_iff.mp hv
    exact hsize
  | varchar | char | nchar | nvarchar | longvarchar | longnvarchar => exact putString_valued he
  | null | other => trivial
  | binary | varbinary => cases e <;> trivial
  | decimal | time | timestamp => cases e <;> trivial
  | date =>
    cases e with
    | int64 v => exact absurd ⟨hty, v, rfl⟩ hdate
    | _ => trivial

/-- What is not dropped is a null, or data. -/
theorem forwards_cases (htype : c.type ≠ .null) (he : e ≠ .null) (hfind : c.document.find c.path = some e) {call : PutCall}
    (h : readElement P c.type e = .forwards call) : ∃ data, call = .binaryData data := by
  have hread : c.read P = .forwards call := by rw [read, hfind, ← h]
  have hforwarding : c.Forwarding := by
    by_contra hnot
    have hdrops := call_of_not_forwarding (P := P) hnot
    rw [hread] at hdrops
    exact hdrops
  have hbinary : putBinaryData P e = .forwards call := by
    rcases hforwarding.2 with hty | hty | hty
    · exact absurd hty htype
    · rwa [hty] at h
    · rwa [hty] at h
  cases e with
  | utf8 s | binary data | oid bytes => exact ⟨_, (ColumnRead.forwards.inj hbinary).symm⟩
  | null => exact absurd rfl he
  | _ => cases hbinary

/-- The helper of the column has a case for a null; and no other element is taken
for one, neither an `int64` for a date nor a text that is too long for its
length. -/
def NullCase (P : Platform) (c : DocumentDbColumn) (e : BsonElement) : Prop :=
  if e = .null then c.type ≠ .decimal ∧ c.type ≠ .date ∧ c.type ≠ .time ∧ c.type ≠ .timestamp
  else c.type = .null ∨ ¬ (c.type = .date ∧ ∃ v, e = .int64 v) ∧
    ∀ call s, c.read P = .drops call → callText P call = some s → ShortText P s

/-- **Nulls.** Nulls are uniform where the column has a case for them. -/
theorem readToBuffer_null_iff (htype : c.type ≠ .other) (he : c.document.find c.path = some e) :
    NullUniform P c e ↔ NullCase P c e := by
  have hread : c.read P = readElement P c.type e := by rw [read, he]
  unfold NullUniform NullCase readToBuffer
  rw [hread]
  by_cases hnull : e = .null
  · rw [hnull]
    simp only [if_true]
    have hmissing : ∀ b : ApplicationDataBuffer, b.reslen.isSome → ((c.update []).read P).run P b = nullRead :=
      fun b hr => run_null hr rfl
    constructor
    · intro h
      exact (readElement_null htype (b := wideRoom) rfl).mp (h wideRoom rfl).1
    · intro h b hr
      have hb := (readElement_null (P := P) htype hr).mpr h
      exact ⟨hb, hb.trans (hmissing b hr).symm⟩
  · simp only [hnull, if_false]
    by_cases hty : c.type = .null
    · exact iff_of_true (fun _ _ hne => absurd hty hne) (.inl hty)
    simp only [hty, false_or, ne_eq, not_false_eq_true, forall_true_left]
    constructor
    · intro h
      constructor
      · rintro ⟨hdate, v, rfl⟩
        refine h wideRoom rfl ?_
        rw [hdate]
        exact ⟨rfl, List.mem_append_left _ (List.mem_singleton.mpr rfl)⟩
      · intro call s hcall htext
        by_contra hlong
        obtain ⟨r, hr, hmem⟩ := put_longText htext hlong
        refine h wideRoom rfl ?_
        rw [hcall]
        exact ⟨value_run_drops _ hr, mem_log_bind_left hmem⟩
    · rintro ⟨hdate, hshort⟩ b hr ⟨hvalue, hmem⟩
      have hvalued := readElement_valued (P := P) hnull hdate
      cases hcall : readElement P c.type e with
      | returns r =>
        rw [hcall] at hmem
        cases hmem
      | throws =>
        rw [hcall] at hmem
        cases hmem
      | forwards call =>
        obtain ⟨data, rfl⟩ := forwards_cases hty hnull he hcall
        rw [hcall] at hmem hvalue
        exact putBinaryData_notNull hvalue _ hmem rfl rfl
      | drops call =>
        rw [hcall] at hmem hvalued
        exact ((put_notNull hvalued fun s hs => hshort call s hcall hs).bind fun _ _ => all_pure _) _ hmem rfl rfl

/-- A null and a text among numbers. -/
theorem readToBuffer_null_runs :
    (NullUniform .unixOdbc ⟨.integer, [(ascii "a", .null)], ascii "a"⟩ .null ↔
      NullCase .unixOdbc ⟨.integer, [(ascii "a", .null)], ascii "a"⟩ .null) ∧
    (NullUniform .unixOdbc ⟨.integer, [(ascii "a", .utf8 (ascii "1"))], ascii "a"⟩ (.utf8 (ascii "1")) ↔
      NullCase .unixOdbc ⟨.integer, [(ascii "a", .utf8 (ascii "1"))], ascii "a"⟩ (.utf8 (ascii "1"))) :=
  ⟨readToBuffer_null_iff (by decide) rfl, readToBuffer_null_iff (by decide) rfl⟩

/-- A null among decimals is no null, and an `int64` among dates is one. -/
theorem readToBuffer_null_fails :
    ¬ NullUniform .unixOdbc ⟨.decimal, [(ascii "a", .null)], ascii "a"⟩ .null ∧
      ¬ NullUniform .unixOdbc ⟨.date, [(ascii "a", .int64 0)], ascii "a"⟩ (.int64 0) := by
  constructor
  · intro h
    have hread := (h wideRoom rfl).1
    cases congrArg Eff.value hread
  · intro h
    exact h wideRoom rfl (by decide) ⟨rfl, by decide⟩

end DocumentDbColumn

end DocumentDbOdbc
