/-
Where a `Put` stores.

`put_within` bounds the stores of every `Put` into every type of buffer: by
the length the application gave for text, binary and default buffers, by the
size of the object for all others. The one exception (`WideOverrun`) are dates
and times put as wide characters, for which `CopyStringToBuffer` is told the
length in bytes where it expects characters; `put_confined_iff` shows that it
is an exception indeed.
-/
import DocumentDbOdbc.ApplicationDataBuffer

namespace DocumentDbOdbc

open Effect

/-- The store stays in the first `n` bytes of the data, or in the indicator. -/
def Store.Within (n : Nat) (s : Store) : Prop :=
  match s.region with
  | .data => s.offset + s.bytes.length ≤ n
  | .indicator => s.offset + s.bytes.length ≤ 8

/-- The last byte stored is behind the first `n` bytes of the data. -/
def Store.Overruns (n : Int) (s : Store) : Prop :=
  s.region = .data ∧ s.bytes ≠ [] ∧ n < s.offset + s.bytes.length

namespace ApplicationDataBuffer

variable {P : Platform} {b : ApplicationDataBuffer} {n : Nat}

theorem sizeT_of_nonneg (h : 0 ≤ b.buflen) : sizeT b.buflen = b.buflen.toNat := by
  have := b.buflen_range
  rw [sizeT, Int.emod_eq_of_lt h (by omega)]

theorem isSome_of_not_isNone (hb : ¬ b.buffer.isNone) : b.buffer.isSome :=
  Option.isSome_iff_ne_none.mpr (mt Option.isNone_iff_eq_none.mpr hb)

/-! ## The bound of each helper -/

theorem storeLen_within (b : ApplicationDataBuffer) (n : Nat) (v : Int) :
    All (Store.Within n) (b.storeLen v) := by
  unfold storeLen
  split
  · simp [Store.Within]
  · exact all_pure _

theorem storeData_within {offset : Nat} {bytes : List UInt8} (h : offset + bytes.length ≤ n) :
    All (Store.Within n) (b.storeData offset bytes) := by
  unfold storeData
  split
  · exact all_emit.mpr h
  · exact all_raise _

theorem ifData_within {x : Eff Store Fault Unit} (hx : All (Store.Within n) x) :
    All (Store.Within n) (b.ifData x) := by
  unfold ifData
  split
  · exact hx
  · exact all_pure _

theorem storeDate_within (t : Tm) (h : 6 ≤ n) : All (Store.Within n) (b.storeDate t) := by
  unfold storeDate
  refine (storeData_within (by simp; omega)).bind fun _ _ => ?_
  refine (storeData_within (by simp; omega)).bind fun _ _ => ?_
  exact storeData_within (by simp; omega)

theorem storeTime_within (t : Tm) {at_ : Nat} (h : at_ + 6 ≤ n) :
    All (Store.Within n) (b.storeTime at_ t) := by
  unfold storeTime
  refine (storeData_within (by simp; omega)).bind fun _ _ => ?_
  refine (storeData_within (by simp; omega)).bind fun _ _ => ?_
  exact storeData_within (by simp; omega)

theorem storeTimestamp_within (t : Tm) (fraction : Int) (h : 16 ≤ n) :
    All (Store.Within n) (b.storeTimestamp t fraction) := by
  unfold storeTimestamp
  refine (storeDate_within t (by omega)).bind fun _ _ => ?_
  refine (storeTime_within t (by omega)).bind fun _ _ => ?_
  exact storeData_within (by simp; omega)

/-- Stores, the length, and a result. -/
theorem then_storeLen_within {x : Eff Store Fault Unit} (hx : All (Store.Within n) x) (len : Int)
    (r : ConversionResult) :
    All (Store.Within n) (do
      x
      b.storeLen len
      pure r) :=
  hx.bind fun _ _ => (storeLen_within b n len).bind fun _ _ => all_pure r

theorem putStrToCharBuffer_within (value : Str) (h : b.buflen.toNat ≤ n) :
    All (Store.Within n) (b.putStrToCharBuffer P value) := by
  unfold putStrToCharBuffer
  split
  · exact all_pure _
  split
  · exact all_pure _
  · next hlen =>
    have hsize := sizeT_of_nonneg (b := b) (by omega)
    split
    · exact all_raise _
    · next chars _ =>
      refine (storeData_within ?_).bind fun _ _ => (storeData_within ?_).bind fun _ _ =>
        (storeLen_within b n _).bind fun _ _ => all_pure _
      · simp only [List.length_map, List.length_take]
        omega
      · simp only [List.length_singleton]
        omega

theorem length_flatMap_leBytes (w : Nat) (chars : List Nat) :
    (chars.flatMap fun c : Nat => leBytes w (c : Int)).length = w * chars.length := by
  induction chars with
  | nil => simp
  | cons c chars ih =>
    simp only [List.flatMap_cons, List.length_append, length_leBytes, ih, List.length_cons, Nat.mul_succ]
    omega

/-- Wide characters take their width each, and that of the terminator. -/
theorem copyUtf8_within {value : Str} {lenBytes : Nat} (h : lenBytes ≠ 0 →
      P.wcharBytes * ((P.convertIn value (outBufferLenChars P lenBytes)).1.length + 1) ≤ n) :
    All (Store.Within n) (b.copyUtf8StringToSqlWcharString P value lenBytes) := by
  unfold copyUtf8StringToSqlWcharString
  split
  · exact all_pure _
  · next hne =>
    have hn := h hne
    rw [Nat.mul_succ] at hn
    refine (storeData_within ?_).bind fun _ _ => (storeData_within ?_).bind fun _ _ => all_pure _
    · rw [length_flatMap_leBytes]
      omega
    · rw [length_leBytes]
      omega

theorem outBufferLenChars_eq {lenBytes : Nat} (h : P.wcharBytes ≤ lenBytes)
    (hlt : lenBytes < 18446744073709551616) :
    outBufferLenChars P lenBytes = lenBytes / P.wcharBytes - 1 := by
  have hw := P.wcharBytes_range
  have h1 : 1 ≤ lenBytes / P.wcharBytes := (Nat.one_le_div_iff (by omega)).mpr h
  have h2 : lenBytes / P.wcharBytes ≤ lenBytes := Nat.div_le_self _ _
  unfold outBufferLenChars
  omega

theorem length_convertIn_le (P : Platform) (value : Str) (room : Nat) :
    (P.convertIn value room).1.length ≤ room :=
  Utf8.length_decode_le _ _ _

theorem putStrToWcharBuffer_within (value : Str) (h : b.buflen.toNat ≤ n) :
    All (Store.Within n) (b.putStrToWcharBuffer P value) := by
  unfold putStrToWcharBuffer
  split
  · exact all_pure _
  split
  · exact all_pure _
  · next hlen =>
    have hw := P.wcharBytes_range
    have hsize := sizeT_of_nonneg (b := b) (by omega)
    have hrange := b.buflen_range
    refine (copyUtf8_within fun _ => ?_).bind fun _ _ => (storeLen_within b n _).bind fun _ _ => all_pure _
    rw [hsize, outBufferLenChars_eq (by omega) (by omega)]
    have hchars := length_convertIn_le P value (b.buflen.toNat / P.wcharBytes - 1)
    have hdiv : 1 ≤ b.buflen.toNat / P.wcharBytes := (Nat.one_le_div_iff (by omega)).mpr (by omega)
    calc P.wcharBytes * ((P.convertIn value (b.buflen.toNat / P.wcharBytes - 1)).1.length + 1)
        ≤ P.wcharBytes * (b.buflen.toNat / P.wcharBytes) := Nat.mul_le_mul_left _ (by omega)
      _ ≤ b.buflen.toNat := Nat.mul_div_le _ _
      _ ≤ n := h

theorem putTmToCharBuffer_within (text : Str) (valLen : Nat) (h0 : 0 ≤ b.buflen)
    (h : b.buflen.toNat ≤ n) : All (Store.Within n) (b.putTmToCharBuffer P text valLen) := by
  have hsize := sizeT_of_nonneg h0
  have hlen := P.length_strftime_le text (sizeT b.buflen)
  unfold putTmToCharBuffer
  refine (storeLen_within b n _).bind fun _ _ => All.bind ?_ fun _ _ => all_pure _
  exact ifData_within (storeData_within (by omega))

/-- The local string holds the text when there is room for it. -/
theorem cStr_strftime {text : Str} {max : Nat} (hp : ∀ c ∈ text, isPlainChar c = true)
    (hfit : text.length + 1 ≤ max) : cStr (P.strftime text max) = text := by
  rw [Platform.strftime, if_pos hfit, cStr, List.takeWhile_append_of_pos (List.takeWhile_eq_self_iff.mp (cStr_plain hp))]
  simp

/-- A text of ASCII is one character a byte. -/
theorem convertIn_plain_eq {text : Str} (hp : ∀ c ∈ text, isPlainChar c = true) (room : Nat) :
    P.convertIn text room = ((text.take room).map UInt8.toNat, decide (text.length ≤ room)) := by
  have hascii : ∀ c ∈ text, c < 0x80 := fun c hc => UInt8.lt_iff_toNat_lt.mpr (lt_of_isPlainChar (hp c hc)).2
  rw [Platform.convertIn, cStr_plain hp, Platform.nextChar, Utf8.decode_ascii _ _ _ hascii]

theorem convertIn_plain {text : Str} (hp : ∀ c ∈ text, isPlainChar c = true) (room : Nat) :
    (P.convertIn text room).1 = (text.take room).map UInt8.toNat := by
  rw [convertIn_plain_eq hp]

/-- Room for the whole text and its terminator, or none at all. -/
theorem putTmToWcharBuffer_within {text : Str} {valLen : Nat} {tmp : Int}
    (hp : ∀ c ∈ text, isPlainChar c = true) (htmp : b.buflen ≠ 0 → text.length + 1 ≤ sizeT tmp)
    (h0 : 0 ≤ b.buflen) (hroom : b.buflen = 0 ∨ (P.wcharBytes * (text.length + 1) : Nat) ≤ b.buflen)
    (h : b.buflen.toNat ≤ n) : All (Store.Within n) (b.putTmToWcharBuffer P text valLen tmp) := by
  have hsize := sizeT_of_nonneg h0
  unfold putTmToWcharBuffer
  refine (storeLen_within b n _).bind fun _ _ => (ifData_within ?_).bind fun _ _ => all_pure _
  split
  · exact all_raise _
  · unfold copyStringToBuffer
    refine (copyUtf8_within fun hne => ?_).bind fun _ _ => all_pure _
    have hb : b.buflen ≠ 0 := by
      intro hb
      rw [hsize, hb] at hne
      simp at hne
    rw [cStr_strftime hp (htmp hb), convertIn_plain hp, List.length_map, List.length_take]
    have hfits := hroom.resolve_left hb
    calc P.wcharBytes * (min _ text.length + 1)
        ≤ P.wcharBytes * (text.length + 1) := Nat.mul_le_mul_left _ (by omega)
      _ ≤ n := by omega

theorem putNumToNumBuffer_within (bytes : List UInt8) (h : bytes.length ≤ n) :
    All (Store.Within n) (b.putNumToNumBuffer bytes) := by
  unfold putNumToNumBuffer
  exact then_storeLen_within (ifData_within (storeData_within (by omega))) _ _

theorem putNumToNumeric_within (value : Num) (h : 19 ≤ n) :
    All (Store.Within n) (b.putNumToNumeric P value) := by
  unfold putNumToNumeric
  refine then_storeLen_within (ifData_within ?_) _ _
  refine (storeData_within (by simp; omega)).bind fun _ _ => ?_
  refine (storeData_within (by simp; omega)).bind fun _ _ => ?_
  refine (storeData_within (by simp; omega)).bind fun _ _ => ?_
  refine (storeData_within (by simp; omega)).bind fun _ _ => ?_
  exact storeData_within (by simp; omega)

theorem putNumToRawBuffer_within (value : Num) (h0 : 0 ≤ b.buflen) (h : b.buflen.toNat ≤ n) :
    All (Store.Within n) (b.putNumToRawBuffer value) := by
  have hsize := sizeT_of_nonneg h0
  unfold putNumToRawBuffer
  refine then_storeLen_within (ifData_within (storeData_within ?_)) _ _
  rw [List.length_take]
  omega

theorem putRawDataToBuffer_within (data : Str) (h : b.buflen.toNat ≤ n) :
    All (Store.Within n) (b.putRawDataToBuffer data) := by
  unfold putRawDataToBuffer
  refine (storeLen_within b n _).bind fun _ _ => (ifData_within ?_).bind fun _ _ => all_pure _
  split
  · refine storeData_within ?_
    rw [List.length_take]
    omega
  · exact all_pure _

theorem putDecimalToNumeric_within (value : Decimal) (h : 19 ≤ n) :
    All (Store.Within n) (b.putDecimalToNumeric P value) := by
  unfold putDecimalToNumeric
  refine (storeData_within (by simp; omega)).bind fun _ _ => ?_
  refine (storeData_within (by simp; omega)).bind fun _ _ => ?_
  refine (storeData_within (by simp; omega)).bind fun _ _ => ?_
  exact then_storeLen_within (storeData_within (by simp; omega)) _ _

theorem putNull_within : All (Store.Within n) b.putNull := by
  unfold putNull
  split
  · exact all_pure _
  · exact (storeLen_within b n _).bind fun _ _ => all_pure _

/-! ## The bound of each operation -/

/-- The bytes the application has to provide: those it says it did for text,
binary and default, the object's for the other types. -/
def extent (b : ApplicationDataBuffer) : Nat :=
  match b.type with
  | .char | .wchar | .binary | .default => b.buflen.toNat
  | _ => b.getElementSize.toNat

/-- The wide text of this length and its terminator are in the buffer, or the
buffer is empty. -/
def WideRoom (P : Platform) (b : ApplicationDataBuffer) (len : Nat) : Prop :=
  b.type = .wchar → b.buflen = 0 ∨ (P.wcharBytes * (len + 1) : Nat) ≤ b.buflen

theorem putDate_within (ms : Int) (h0 : 0 ≤ b.buflen)
    (hroom : (P.toGmTime (ms.tdiv 1000)).isSome → WideRoom P b 10) :
    All (Store.Within b.extent) (b.putDate P ms) := by
  unfold putDate
  split
  · exact all_raise _
  next t ht =>
  rw [ht] at hroom
  split
  · next hb => exact putTmToCharBuffer_within _ _ h0 (by simp [extent, hb])
  · next hb =>
    refine putTmToWcharBuffer_within t.isPlainChar_dateText (fun _ => ?_) h0 ?_ (by simp [extent, hb])
    · rw [t.length_dateText]
      decide
    · rw [t.length_dateText]
      exact hroom rfl hb
  · next hb => exact then_storeLen_within (storeDate_within t (by simp [extent, getElementSize, hb])) _ _
  · next hb => exact then_storeLen_within (storeTime_within t (by simp [extent, getElementSize, hb])) _ _
  · next hb => exact then_storeLen_within (storeTimestamp_within t 0 (by simp [extent, getElementSize, hb])) _ _
  · exact all_pure _

theorem putTimestamp_within (value : Timestamp) (h0 : 0 ≤ b.buflen)
    (hroom : (P.toGmTime value.seconds).isSome → WideRoom P b 19) :
    All (Store.Within b.extent) (b.putTimestamp P value) := by
  have hsize := sizeT_of_nonneg h0
  have hw := P.wcharBytes_range
  unfold putTimestamp
  split
  · exact all_raise _
  next t ht =>
  rw [ht] at hroom
  split
  · next hb => exact putTmToCharBuffer_within _ _ h0 (by simp [extent, hb])
  · next hb =>
    have hfits := hroom rfl hb
    refine putTmToWcharBuffer_within t.isPlainChar_timestampText (fun _ => ?_) h0 ?_ (by simp [extent, hb])
    · rw [t.length_timestampText]
      omega
    · rwa [t.length_timestampText]
  · next hb => exact then_storeLen_within (storeDate_within t (by simp [extent, getElementSize, hb])) _ _
  · next hb => exact then_storeLen_within (storeTime_within t (by simp [extent, getElementSize, hb])) _ _
  · next hb => exact then_storeLen_within (storeTimestamp_within t _ (by simp [extent, getElementSize, hb])) _ _
  · exact all_pure _

theorem putTime_within (ms : Int) (h0 : 0 ≤ b.buflen)
    (hroom : (P.toGmTime (ms.tdiv 1000)).isSome → WideRoom P b 8) :
    All (Store.Within b.extent) (b.putTime P ms) := by
  have hsize := sizeT_of_nonneg h0
  have hw := P.wcharBytes_range
  unfold putTime
  split
  · exact all_raise _
  next t ht =>
  rw [ht] at hroom
  split
  · next hb => exact putTmToCharBuffer_within _ _ h0 (by simp [extent, hb])
  · next hb =>
    have hfits := hroom rfl hb
    refine putTmToWcharBuffer_within t.isPlainChar_timeText (fun _ => ?_) h0 ?_ (by simp [extent, hb])
    · rw [t.length_timeText]
      omega
    · rwa [t.length_timeText]
  · next hb => exact then_storeLen_within (storeTime_within t (by simp [extent, getElementSize, hb])) _ _
  · next hb => exact then_storeLen_within (storeTimestamp_within t 0 (by simp [extent, getElementSize, hb])) _ _
  · exact all_pure _

theorem putNum_within (value : Num) (h0 : 0 ≤ b.buflen) :
    All (Store.Within b.extent) (b.putNum P value) := by
  unfold putNum
  split
  case h_12 hb => exact putStrToCharBuffer_within _ (by simp [extent, hb])
  case h_13 hb => exact putStrToWcharBuffer_within _ (by simp [extent, hb])
  case h_14 hb => exact putNumToNumeric_within _ (by simp [extent, getElementSize, hb])
  case h_15 hb => exact putNumToRawBuffer_within _ h0 (by simp [extent, hb])
  case h_16 hb => exact putNumToRawBuffer_within _ h0 (by simp [extent, hb])
  case h_17 hb => exact putDate_within _ h0 fun _ hw => by simp [hb] at hw
  case h_18 hb => exact putTimestamp_within _ h0 fun _ hw => by simp [hb] at hw
  case h_19 hb => exact putTime_within _ h0 fun _ hw => by simp [hb] at hw
  case h_20 => exact all_pure _
  case h_21 => exact all_pure _
  -- the numeric targets
  all_goals
    next hb => exact putNumToNumBuffer_within _ (by simp [extent, getElementSize, hb])

theorem putString_within (value : Str) (h0 : 0 ≤ b.buflen) :
    All (Store.Within b.extent) (b.putString P value) := by
  unfold putString
  split
  all_goals first
    | exact putNum_within _ h0
    | exact all_pure _
    | next hb => exact putStrToCharBuffer_within _ (by simp [extent, hb])
    | next hb => exact putStrToWcharBuffer_within _ (by simp [extent, hb])

theorem putGuid_within (value : Guid) : All (Store.Within b.extent) (b.putGuid P value) := by
  unfold putGuid
  split
  case h_1 hb => exact putStrToCharBuffer_within _ (by simp [extent, hb])
  case h_2 hb => exact putStrToCharBuffer_within _ (by simp [extent, hb])
  case h_3 hb => exact putStrToCharBuffer_within _ (by simp [extent, hb])
  case h_4 hb => exact putStrToWcharBuffer_within _ (by simp [extent, hb])
  case h_5 hb =>
    have h16 : b.extent = 16 := by simp [extent, getElementSize, hb]
    rw [h16]
    refine (storeData_within (by simp)).bind fun _ _ => ?_
    refine (storeData_within (by simp)).bind fun _ _ => ?_
    refine (storeData_within (by simp)).bind fun _ _ => ?_
    exact then_storeLen_within (storeData_within (by simp)) _ _
  case h_6 => exact all_pure _

theorem putBinaryData_within (data : Str) : All (Store.Within b.extent) (b.putBinaryData P data) := by
  unfold putBinaryData
  split
  · next hb => exact putRawDataToBuffer_within _ (by simp [extent, hb])
  · next hb => exact putRawDataToBuffer_within _ (by simp [extent, hb])
  · next hb => exact putStrToCharBuffer_within _ (by simp [extent, hb])
  · next hb => exact putStrToWcharBuffer_within _ (by simp [extent, hb])
  · exact all_pure _

theorem putDecimal_within (value : Decimal) (h0 : 0 ≤ b.buflen) :
    All (Store.Within b.extent) (b.putDecimal P value) := by
  unfold putDecimal
  split
  all_goals first
    | exact (putNum_within _ h0).bind fun _ _ => all_pure _
    | exact putString_within _ h0
    | exact all_pure _
    | next hb => exact putDecimalToNumeric_within _ (by simp [extent, getElementSize, hb])

/-- The length of the text made of a date or a time that is in the calendar. -/
def PutCall.tmLength (P : Platform) : PutCall → Option Nat
  | .date (some ms) => (P.toGmTime (ms.tdiv 1000)).map fun _ => 10
  | .timestamp (some v) => (P.toGmTime v.seconds).map fun _ => 19
  | .time (some ms) => (P.toGmTime (ms.tdiv 1000)).map fun _ => 8
  | _ => none

/-- An operation of an optional value puts the value or a null. -/
theorem elim_put {α : Type} {p : Put → Prop} {x : Put} {f : α → Put} (v : Option α) (hnull : p x)
    (hvalue : ∀ a ∈ v, p (f a)) : p (v.elim x f) := by
  cases v with
  | none => exact hnull
  | some a => exact hvalue a rfl

theorem elim_put_iff {α : Type} {p : Put → Prop} {x : Put} {f : α → Put} {y : Prop} {g : α → Prop} (v : Option α)
    (hnull : p x ↔ y) (hvalue : ∀ a, p (f a) ↔ g a) : p (v.elim x f) ↔ v.elim y g := by
  cases v with
  | none => exact hnull
  | some a => exact hvalue a

/-- **Bounds.** Every `Put` stores within the extent of its buffer if the text
of a date or time is not cut in a wide one. -/
theorem put_within (call : PutCall) (h0 : 0 ≤ b.buflen)
    (hroom : ∀ len ∈ call.tmLength P, WideRoom P b len) :
    All (Store.Within b.extent) (b.put P call) := by
  have isSome_map : ∀ {x : Option Tm} {n : Nat}, x.isSome → n ∈ x.map fun _ => n := by
    intro x n hx
    obtain ⟨t, rfl⟩ := Option.isSome_iff_exists.mp hx
    rfl
  unfold put
  cases call with
  | null => exact putNull_within
  | num v => exact elim_put v putNull_within fun v _ => putNum_within v h0
  | string v => exact elim_put v putNull_within fun v _ => putString_within v h0
  | guid v => exact putGuid_within v
  | binaryData data => exact putBinaryData_within data
  | decimal v => exact elim_put v putNull_within fun v _ => putDecimal_within v h0
  | date ms =>
    refine elim_put ms putNull_within fun x hx => putDate_within x h0 fun ht => hroom 10 ?_
    obtain rfl := Option.mem_def.mp hx
    exact isSome_map ht
  | timestamp v =>
    refine elim_put v putNull_within fun x hx => putTimestamp_within x h0 fun ht => hroom 19 ?_
    obtain rfl := Option.mem_def.mp hx
    exact isSome_map ht
  | time ms =>
    refine elim_put ms putNull_within fun x hx => putTime_within x h0 fun ht => hroom 8 ?_
    obtain rfl := Option.mem_def.mp hx
    exact isSome_map ht

/-! ## The wide texts that do not fit -/

/-- An array that `strftime` did not finish, full of characters. -/
def filled (_text : Str) (max : Nat) : Str := List.replicate max 65

/-- The local string is the whole text, or has as many characters as it has
room for. -/
theorem cStr_strftime_filled {text : Str} (max : Nat) (hp : ∀ c ∈ text, isPlainChar c = true) :
    ∃ s : Str, cStr ({ P with strftimeOverflow := filled }.strftime text max) = s ∧
      (∀ c ∈ s, isPlainChar c = true) ∧ (text.length ≤ s.length ∨ max ≤ s.length) := by
  by_cases hfit : text.length + 1 ≤ max
  · exact ⟨text, cStr_strftime hp hfit, hp, .inl (Nat.le_refl _)⟩
  · refine ⟨List.replicate max 65, ?_, ?_, .inr (by simp)⟩
    · rw [Platform.strftime, if_neg hfit]
      show cStr ((List.replicate max 65).take max) = _
      rw [List.take_replicate, Nat.min_self, cStr, List.takeWhile_replicate, if_pos (by decide)]
    · intro c hc
      rw [List.eq_of_mem_replicate hc]
      rfl

/-- The wide copy of a text stores its terminator behind the buffer: the
buffer has fewer bytes than the text and the terminator, and is counted as
having that many characters. -/
theorem copyStringToBuffer_overruns {len : Nat} {s : Str} (hp : ∀ c ∈ s, isPlainChar c = true)
    (hbuf : b.buffer.isSome) (hpos : 0 < b.buflen) (hlt : b.buflen < (P.wcharBytes * (len + 1) : Nat))
    (hlen : len < 100) (hlong : len ≤ s.length ∨ b.buflen.toNat ≤ s.length) :
    ∃ st ∈ (b.copyStringToBuffer P s (sizeT b.buflen)).log, st.Overruns b.buflen := by
  have hw := P.wcharBytes_range
  have hsize := sizeT_of_nonneg (b := b) (by omega)
  obtain ⟨k, hk⟩ : ∃ k : Nat, b.buflen = k := ⟨b.buflen.toNat, by omega⟩
  have hk' : sizeT b.buflen = k := by omega
  -- the length in bytes is the one in characters times the width
  have hbytes : k * P.wcharBytes % 18446744073709551616 = k * P.wcharBytes := by
    rcases hw with hw | hw <;> rw [hw] at hlt ⊢ <;> omega
  have hroom : outBufferLenChars P (k * P.wcharBytes) = k - 1 := by
    rw [outBufferLenChars_eq (Nat.le_mul_of_pos_left _ (by omega)), Nat.mul_div_cancel _ (by omega)]
    rcases hw with hw | hw <;> rw [hw] at hlt ⊢ <;> omega
  unfold copyStringToBuffer copyUtf8StringToSqlWcharString
  rw [hk', hbytes, hroom, if_neg (Nat.mul_ne_zero (by omega) (by omega))]
  dsimp only
  rw [convertIn_plain hp]
  have hstored : ∀ offset bytes, (b.storeData offset bytes).value = .ok () ∧
      (b.storeData offset bytes).log = [⟨.data, offset, bytes⟩] := by
    intro offset bytes
    rw [storeData, if_pos hbuf]
    exact ⟨rfl, rfl⟩
  refine ⟨⟨.data, P.wcharBytes * ((s.take (k - 1)).map UInt8.toNat).length, leBytes P.wcharBytes 0⟩,
    mem_log_bind_left (mem_log_bind_right (hstored _ _).1 (mem_log_bind_left ?_)), rfl, ?_, ?_⟩
  · rw [(hstored _ _).2]
    exact List.mem_singleton_self _
  · intro hnil
    have := congrArg List.length hnil
    rw [length_leBytes, List.length_nil] at this
    omega
  · dsimp only
    rw [length_leBytes, List.length_map, List.length_take, hk]
    rcases hw with hw | hw <;> rw [hw] at hlt ⊢ <;> omega

theorem putTmToWcharBuffer_overruns {text : Str} {valLen : Nat} {tmp : Int}
    (hp : ∀ c ∈ text, isPlainChar c = true) (hbuf : b.buffer.isSome) (hpos : 0 < b.buflen)
    (hlt : b.buflen < (P.wcharBytes * (text.length + 1) : Nat)) (hlen : text.length < 100)
    (htmp : 0 ≤ tmp) (hmax : text.length < sizeT tmp ∨ b.buflen.toNat ≤ sizeT tmp) :
    ∃ st ∈ (b.putTmToWcharBuffer { P with strftimeOverflow := filled } text valLen tmp).log,
      st.Overruns b.buflen := by
  obtain ⟨s, hs, hsp, hlong⟩ := cStr_strftime_filled (P := P) (sizeT tmp) hp
  obtain ⟨st, hst, hover⟩ := copyStringToBuffer_overruns (P := { P with strftimeOverflow := filled }) (s := s)
    hsp hbuf hpos hlt hlen (by omega)
  refine ⟨st, ?_, hover⟩
  unfold putTmToWcharBuffer ifData
  rw [if_pos hbuf, if_neg (by omega), hs]
  have hok : (b.storeLen valLen).value = .ok () := by
    unfold storeLen
    split <;> rfl
  exact mem_log_bind_right hok (mem_log_bind_left hst)

/-- A wide date or time whose text and terminator do not fit. -/
def WideOverrun (P : Platform) (type : OdbcNativeType) (buflen : Int) (call : PutCall) : Prop :=
  type = .wchar ∧ 0 < buflen ∧ ∃ len ∈ call.tmLength P, buflen < (P.wcharBytes * (len + 1) : Nat)

theorem put_overruns {call : PutCall} (hbuf : b.buffer.isSome) (h : WideOverrun P b.type b.buflen call) :
    ∃ st ∈ (b.put { P with strftimeOverflow := filled } call).log, st.Overruns b.buflen := by
  obtain ⟨htype, hpos, len, hlen, hlt⟩ := h
  have hsize := sizeT_of_nonneg (b := b) (by omega)
  unfold put
  cases call with
  | date ms =>
    cases ms with
    | none => cases hlen
    | some ms =>
      obtain ⟨t, ht, rfl⟩ := Option.map_eq_some_iff.mp hlen
      simp only [Option.elim_some, putDate, ht, htype]
      have hten := t.length_dateText
      exact putTmToWcharBuffer_overruns t.isPlainChar_dateText hbuf hpos (by rwa [hten]) (by omega)
        (by decide) (.inl (by rw [hten]; decide))
  | timestamp v =>
    cases v with
    | none => cases hlen
    | some v =>
      obtain ⟨t, ht, rfl⟩ := Option.map_eq_some_iff.mp hlen
      simp only [Option.elim_some, putTimestamp, ht, htype]
      have h19 := t.length_timestampText
      exact putTmToWcharBuffer_overruns t.isPlainChar_timestampText hbuf hpos (by rwa [h19]) (by omega)
        (by omega) (.inr (by omega))
  | time ms =>
    cases ms with
    | none => cases hlen
    | some ms =>
      obtain ⟨t, ht, rfl⟩ := Option.map_eq_some_iff.mp hlen
      simp only [Option.elim_some, putTime, ht, htype]
      have height := t.length_timeText
      exact putTmToWcharBuffer_overruns t.isPlainChar_timeText hbuf hpos (by rwa [height]) (by omega)
        (by omega) (.inr (by omega))
  | _ => cases hlen

/-! ## Memory -/

/-- Memory after the call. -/
def after (P : Platform) (b : ApplicationDataBuffer) (call : PutCall) (m : Memory.Mem) : Memory.Mem :=
  Memory.writes m ((b.put P call).log.filterMap b.resolve)

/-- Neither in the data, of the length the application gave, nor in the
indicator. -/
def Outside (b : ApplicationDataBuffer) (a : Int) : Prop :=
  (∀ p ∈ b.getData, ¬ (p ≤ a ∧ a < p + b.buflen)) ∧ ∀ p ∈ b.getResLen, ¬ (p ≤ a ∧ a < p + 8)

/-- Into no buffer of this type and length does the call store anything but
data and indicator, whatever `strftime` leaves in an array that is too short. -/
def Confined (P : Platform) (type : OdbcNativeType) (buflen : Int) (call : PutCall) : Prop :=
  ∀ b : ApplicationDataBuffer, b.type = type → b.buflen = buflen → b.buffer.isSome →
    ∀ (overflow : Str → Nat → Str) (m : Memory.Mem) (a : Int), b.Outside a →
      b.after { P with strftimeOverflow := overflow } call m a = m a

theorem resolve_data {s : Store} {w : Memory.Write} (hr : s.region = .data) (h : b.resolve s = some w) :
    ∃ p ∈ b.getData, w = ⟨p + s.offset, s.bytes⟩ := by
  rw [resolve, hr] at h
  obtain ⟨p, hp, rfl⟩ := Option.map_eq_some_iff.mp h
  exact ⟨p, hp, rfl⟩

theorem resolve_indicator {s : Store} {w : Memory.Write} (hr : s.region = .indicator)
    (h : b.resolve s = some w) : ∃ p ∈ b.getResLen, w = ⟨p + s.offset, s.bytes⟩ := by
  rw [resolve, hr] at h
  obtain ⟨p, hp, rfl⟩ := Option.map_eq_some_iff.mp h
  exact ⟨p, hp, rfl⟩

/-- A store within bounds covers nothing outside. -/
theorem Outside.not_covers {a : Int} {s : Store} {w : Memory.Write} (ha : b.Outside a)
    (hs : s.Within b.buflen.toNat) (hpos : 0 ≤ b.buflen) (h : b.resolve s = some w) : ¬ w.Covers a := by
  obtain ⟨hdata, hind⟩ := ha
  unfold Store.Within at hs
  cases hr : s.region with
  | data =>
    obtain ⟨p, hp, rfl⟩ := resolve_data hr h
    rw [hr] at hs
    have := hdata p hp
    simp only [Memory.Write.Covers]
    omega
  | indicator =>
    obtain ⟨p, hp, rfl⟩ := resolve_indicator hr h
    rw [hr] at hs
    have := hind p hp
    simp only [Memory.Write.Covers]
    omega

/-- **Application buffers.** A `Put` into a text, binary or default buffer
changes nothing but the bytes the application provided, unless it puts a date
or a time into wide characters that the buffer is too short for. -/
theorem put_confined_iff (P : Platform) (type : OdbcNativeType) (buflen : Int) (call : PutCall)
    (htype : type = .char ∨ type = .wchar ∨ type = .binary ∨ type = .default)
    (hlen : 0 ≤ buflen ∧ buflen ≤ 9223372036854775807) :
    Confined P type buflen call ↔ ¬ WideOverrun P type buflen call := by
  constructor
  · intro hconf hover
    -- the data at address 0, no indicator
    let b : ApplicationDataBuffer := ⟨type, some 0, buflen, none, 0, 0, by omega⟩
    have hdata : b.getData = some 0 := by simp [b, getData, applyOffset]
    obtain ⟨st, hst, hr, hne, hlt⟩ := put_overruns (b := b) rfl hover
    let a : Int := st.offset + st.bytes.length - 1
    have hpos := List.length_pos_of_ne_nil hne
    have hout : b.Outside a := by
      refine ⟨fun p hp => ?_, fun p hp => by cases hp⟩
      obtain rfl : 0 = p := Option.some.inj (hdata.symm.trans hp)
      show ¬ (0 ≤ a ∧ a < 0 + buflen)
      have : buflen < st.offset + st.bytes.length := hlt
      omega
    have hframe := Memory.frame_iff.mp fun m => hconf b rfl rfl rfl filled m a hout
    refine hframe ⟨0 + st.offset, st.bytes⟩ (List.mem_filterMap.mpr ⟨st, hst, ?_⟩) ?_
    · rw [resolve, hr, hdata]
      rfl
    · show 0 + (st.offset : Int) ≤ a ∧ a < 0 + st.offset + st.bytes.length
      omega
  · intro hover b hb hbl hbuf overflow m a ha
    subst hb hbl
    have hext : b.extent = b.buflen.toNat := by
      unfold extent
      rcases htype with h | h | h | h <;> rw [h]
    have hroom : ∀ len ∈ call.tmLength P, WideRoom P b len := by
      intro len hmem hwide
      by_contra hno
      exact hover ⟨hwide, by omega, len, hmem, by omega⟩
    have hwithin := put_within (P := { P with strftimeOverflow := overflow }) call hlen.1 hroom
    rw [hext] at hwithin
    refine Memory.writes_frame m fun w hw => ?_
    obtain ⟨st, hst, hres⟩ := List.mem_filterMap.mp hw
    exact ha.not_covers (hwithin st hst) hlen.1 hres

/-- A timestamp in fifteen narrow characters is cut and stays in them. -/
theorem put_confined_char :
    Confined .unixOdbc .char 15 (.timestamp (some ⟨951782400, 0⟩)) :=
  (put_confined_iff .unixOdbc .char 15 _ (.inl rfl) (by decide)).mpr fun h => absurd h.1 (by decide)

/-- A date in twenty bytes, which hold ten wide characters: the terminator is
stored behind them. -/
theorem put_date_overrun : ¬ Confined .unixOdbc .wchar 20 (.date (some 951782400000)) := by
  intro h
  let b : ApplicationDataBuffer := ⟨.wchar, some 0, 20, none, 0, 0, by decide⟩
  have hout : b.Outside 20 := by
    refine ⟨fun p hp => ?_, fun p hp => by cases hp⟩
    obtain rfl : 0 = p := Option.some.inj hp
    decide
  exact absurd (h b rfl rfl rfl (fun _ _ => []) (fun _ => 1) 20 hout) (by decide +kernel)

end ApplicationDataBuffer

end DocumentDbOdbc
