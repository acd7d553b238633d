/-
`SQLGetDiagRec`: the state and the message of a record.

Whether the message fits is decided from its bytes, as an `SQLSMALLINT`; what
is copied are its characters, and the copy's own report of a truncation is
dropped.
-/
import DocumentDbOdbc.Diagnostic
import DocumentDbOdbc.StringCopy

namespace DocumentDbOdbc

open ApplicationDataBuffer

/-- The codes that functions of ODBC return. -/
inductive SqlReturn where
  | success | successWithInfo | noData | needData | error | invalidHandle
  deriving DecidableEq, Repr

/-- `DiagnosticRecord::GetSqlState`; `HY004` is missing there. -/
def StatusRecord.getSqlState (r : StatusRecord) : Str :=
  match r.sqlState with
  | .s01004DataTruncated => ascii "01004"
  | .s01S00InvalidConnectionStringAttribute => ascii "01S00"
  | .s01S01ErrorInRow => ascii "01S01"
  | .s01S02OptionValueChanged => ascii "01S02"
  | .s01S07FractionalTruncation => ascii "01S07"
  | .s07009InvalidDescriptorIndex => ascii "07009"
  | .s08001CannotConnect => ascii "08001"
  | .s08002AlreadyConnected => ascii "08002"
  | .s08003NotConnected => ascii "08003"
  | .s22002IndicatorNeeded => ascii "22002"
  | .s23000IntegrityConstraintViolation => ascii "23000"
  | .s24000InvalidCursorState => ascii "24000"
  | .s25000InvalidTransactionState => ascii "25000"
  | .s40001SerializationFailure => ascii "40001"
  | .s42000SyntaxErrorOrAccessViolation => ascii "42000"
  | .s42S01TableOrViewAlreadyExists => ascii "42S01"
  | .s42S02TableOrViewNotFound => ascii "42S02"
  | .s42S11IndexAlreadyExists => ascii "42S11"
  | .s42S12IndexNotFound => ascii "42S12"
  | .s42S21ColumnAlreadyExists => ascii "42S21"
  | .s42S22ColumnNotFound => ascii "42S22"
  | .sHY000GeneralError => ascii "HY000"
  | .sHY003InvalidApplicationBufferType => ascii "HY003"
  | .sHY010SequenceError => ascii "HY010"
  | .sHY024InvalidAttributeValue => ascii "HY024"
  | .sHY090InvalidStringOrBufferLength => ascii "HY090"
  | .sHYC00OptionalFeatureNotImplemented => ascii "HYC00"
  | .sHYT00TimeoutExpired => ascii "HYT00"
  | .sHY004InvalidSqlDataType => []

/-- The arguments of `SQLGetDiagRec`: the number of the handle's type, the
records of its object unless it is null, and the addresses to store at. -/
structure GetDiagRecCall where
  handleType : Int16
  handle : Option (List StatusRecord)
  recNum : Int16
  sqlState : Option Int
  nativeError : Option Int
  msgBuffer : Option Int
  msgBufferLen : Int16
  msgLen : Option Int

/-- `SQL_HANDLE_ENV`, `SQL_HANDLE_DBC` and `SQL_HANDLE_STMT`. -/
def isDiagnosableHandle (handleType : Int16) : Bool := handleType = 1 || handleType = 2 || handleType = 3

/-- `DiagnosticRecordStorage::GetStatusRecordsNumber`. -/
def getStatusRecordsNumber (records : List StatusRecord) : Int := int32Cast records.length

/-- What is copied of a message: the length is in characters. -/
def GetDiagRecCall.copyMessage (P : Platform) (call : GetDiagRecCall) (errMsg : Str) : Copied :=
  Utility.copyStringToBuffer P errMsg call.msgBuffer (sizeT call.msgBufferLen.toInt) false

/-- The stores of the state and of the native error. -/
def GetDiagRecCall.stateWrites (P : Platform) (call : GetDiagRecCall) (record : StatusRecord) : List Memory.Write :=
  (match call.sqlState with
    | none => []
    | some p => (Utility.copyStringToBuffer P record.getSqlState (some p) 6 false).writes) ++
  match call.nativeError with
    | none => []
    | some p => [⟨p, leBytes 4 0⟩]

/-- `msgBufferLen < static_cast< SQLSMALLINT >(errMsg.size() + 1)`. -/
def GetDiagRecCall.judgedLong (call : GetDiagRecCall) (errMsg : Str) : Prop :=
  call.msgBufferLen < Int16.ofNat (errMsg.length + 1)

instance (call : GetDiagRecCall) (errMsg : Str) : Decidable (call.judgedLong errMsg) := inferInstanceAs (Decidable (_ < _))

/-- `SQLGetDiagRec` with its stores, the first one first. -/
def sqlGetDiagRec (P : Platform) (call : GetDiagRecCall) : SqlReturn × List Memory.Write :=
  if !isDiagnosableHandle call.handleType then (.invalidHandle, [])
  else match call.handle with
    | none => (.invalidHandle, [])
    | some records =>
      if call.recNum < 1 ∨ call.msgBufferLen < 0 then (.error, [])
      else if getStatusRecordsNumber records < call.recNum.toInt then (.noData, [])
      else match records[call.recNum.toInt.toNat - 1]? with
        | none => (.noData, [])  -- not reached: the number is at most that of the records
        | some record =>
          let errMsg := record.message
          let copied := call.copyMessage P errMsg
          if call.msgBuffer = none ∨ call.judgedLong errMsg then
            match call.msgLen with
            | none => (.error, call.stateWrites P record)
            | some q => (.successWithInfo, call.stateWrites P record ++ copied.writes ++ [⟨q, leBytes 2 copied.length⟩])
          else
            match call.msgLen with
            | none => (.success, call.stateWrites P record ++ copied.writes)
            | some q => (.success, call.stateWrites P record ++ copied.writes ++ [⟨q, leBytes 2 copied.length⟩])

/-! ## What a buffer holds -/

theorem charsBytes_eq (w : Nat) (cs : List Nat) :
    charsBytes w cs = (cs ++ [0]).flatMap fun c : Nat => leBytes w (c : Int) := by
  simp [charsBytes]

theorem take_flatMap_leBytes (w : Nat) (cs : List Nat) {n : Nat} (h : n ≤ cs.length) :
    (cs.flatMap fun c : Nat => leBytes w (c : Int)).take (w * n) =
      (cs.take n).flatMap fun c : Nat => leBytes w (c : Int) := by
  have hlen := length_flatMap_leBytes w (cs.take n)
  rw [List.length_take_of_le h] at hlen
  conv_lhs => rw [← List.take_append_drop n cs, List.flatMap_append, ← hlen, List.take_left]

/-- The bytes of characters tell them apart. -/
theorem flatMap_leBytes_injective {w : Nat} : ∀ {cs cs' : List Nat}, cs.length = cs'.length → (∀ c ∈ cs, c < 256 ^ w) →
    (∀ c ∈ cs', c < 256 ^ w) →
    (cs.flatMap fun c : Nat => leBytes w (c : Int)) = (cs'.flatMap fun c : Nat => leBytes w (c : Int)) → cs = cs'
  | [], [], _, _, _, _ => rfl
  | c :: cs, c' :: cs', hlen, hcs, hcs', heq => by
    rw [List.flatMap_cons, List.flatMap_cons] at heq
    obtain ⟨hhead, htail⟩ := List.append_inj heq (by simp)
    have hvalue := congrArg Bytes.value hhead
    rw [value_leBytes_natCast, value_leBytes_natCast, Nat.mod_eq_of_lt (hcs c (by simp)),
      Nat.mod_eq_of_lt (hcs' c' (by simp))] at hvalue
    rw [hvalue, flatMap_leBytes_injective (by simpa using hlen) (fun x hx => hcs x (by simp [hx]))
      (fun x hx => hcs' x (by simp [hx])) htail]

/-- The text with its terminator stands in a buffer of that many characters, whatever was there before. -/
def HoldsText (w : Nat) (ws : List Memory.Write) (p : Int) (room : Nat) (cs : List Nat) : Prop :=
  cs.length < room ∧ Memory.Leaves ws p (charsBytes w cs)

section

variable {w room : Nat} {pre post : List Memory.Write} {p : Int} {cs cs' : List Nat}

/-- In the buffer only the stores of the text are seen. -/
theorem read_text (cs : List Nat) (hpre : Memory.Outside pre p (w * room)) (hpost : Memory.Outside post p (w * room)) {k n : Nat}
    (h : k + n ≤ w * room) (m : Memory.Mem) :
    Memory.read (Memory.writes m (pre ++ textWrites w p cs ++ post)) (p + k) n =
      Memory.read (Memory.write m ⟨p, charsBytes w cs⟩) (p + k) n := by
  refine Memory.read_congr fun i hi => ?_
  rw [Memory.writes_append, Memory.writes_append, hpost.frame (by omega) (by omega), writes_textWrites, Memory.write,
    hpre.frame (by omega) (by omega)]
  rfl

/-- Only the text that is stored stands in the buffer. -/
theorem holdsText_iff (hw : 0 < w) (hcs : ∀ c ∈ cs, 0 < c ∧ c < 256 ^ w) (hroom : cs.length < room)
    (hcs' : ∀ c ∈ cs', c < 256 ^ w) (hpre : Memory.Outside pre p (w * room)) (hpost : Memory.Outside post p (w * room)) :
    HoldsText w (pre ++ textWrites w p cs ++ post) p room cs' ↔ cs' = cs := by
  have hbytes := length_charsBytes w cs
  constructor
  · rintro ⟨hlt, hholds⟩
    have hfit : w * (cs'.length + 1) ≤ w * room := Nat.mul_le_mul_left _ hlt
    rcases Nat.lt_or_ge cs.length cs'.length with hlong | hshort
    · -- the last terminator is that of the memory before, which need not have one
      have hbehind : w * (cs.length + 1) ≤ w * cs'.length := Nat.mul_le_mul_left _ hlong
      have hsplit := hholds fun _ => 1
      rw [length_charsBytes, Nat.mul_succ, Memory.read_add, charsBytes] at hsplit
      have hend := (List.append_inj hsplit (by rw [Memory.length_read, length_flatMap_leBytes])).2
      rw [read_text cs hpre hpost (by rwa [Nat.mul_succ] at hfit),
        Memory.read_write_of_disjoint _ (.inl (by dsimp only; omega))] at hend
      have hone : (Memory.read (fun _ => 1) (p + (w * cs'.length : Nat)) w)[0]? = some 1 := by simp [Memory.read, hw]
      rw [hend] at hone
      simp [leBytes, hw] at hone
    · have hread := read_text cs hpre hpost (k := 0) (n := w * (cs'.length + 1)) (by omega) fun _ => 0
      have hwritten := Memory.read_write (fun _ => 0) p (charsBytes w cs) (k := 0) (n := w * (cs'.length + 1)) (by
        rw [hbytes, Nat.zero_add]
        exact Nat.mul_le_mul_left _ (by omega))
      rw [Nat.cast_zero, Int.add_zero] at hread hwritten
      have hleft := hholds fun _ => 0
      rw [length_charsBytes] at hleft
      rw [hleft, hwritten, List.drop_zero, charsBytes_eq, charsBytes_eq, take_flatMap_leBytes _ _ (by simp; omega)] at hread
      have heq : cs' ++ [0] = (cs ++ [0]).take (cs'.length + 1) :=
        flatMap_leBytes_injective (by simp; omega) (List.forall_mem_append.mpr ⟨hcs', by simp⟩)
          (fun c hc => (List.forall_mem_append.mpr ⟨fun x hx => (hcs x hx).2, by simp⟩) c (List.mem_of_mem_take hc)) hread
      rcases Nat.lt_or_ge cs'.length cs.length with hless | hge
      · rw [List.take_append_of_le_length hless] at heq
        have hzero : 0 ∈ cs := List.mem_of_mem_take (heq ▸ by simp : 0 ∈ cs.take (cs'.length + 1))
        exact absurd (hcs 0 hzero).1 (Nat.lt_irrefl 0)
      · rw [List.take_of_length_le (by simp; omega)] at heq
        exact List.append_cancel_right heq
  · rintro rfl
    refine ⟨hroom, fun m => ?_⟩
    have hread := read_text cs' hpre hpost (k := 0) (n := w * (cs'.length + 1)) (by
      rw [Nat.zero_add]
      exact Nat.mul_le_mul_left _ hroom) m
    rw [Nat.cast_zero, Int.add_zero] at hread
    rw [hbytes, hread, ← hbytes, Memory.read_write_self]

end

/-! ## The copies -/

section

variable {P : Platform} {chars : List Nat}

/-- A C string ends before its first NUL. -/
theorem cStr_flatMap_encode {maxCode : Nat} (h : ∀ x ∈ chars, Utf8.Scalar maxCode x) :
    cStr (chars.flatMap Utf8.encode) = (chars.takeWhile (· != 0)).flatMap Utf8.encode := by
  induction chars with
  | nil => rfl
  | cons x chars ih =>
    have hscalar := h x (by simp)
    by_cases hx : x = 0
    · subst hx
      rfl
    · have hnul : ∀ c ∈ Utf8.encode x, (c != 0) = true := fun c hc => by
        rw [bne_iff_ne]
        rintro rfl
        exact Utf8.zero_notMem_encode hx hscalar.2.1 hc
      have hstep : (x :: chars).takeWhile (· != 0) = x :: chars.takeWhile (· != 0) :=
        List.takeWhile_cons_of_pos (by simpa using hx)
      rw [List.flatMap_cons, cStr, List.takeWhile_append_of_pos hnul, hstep, List.flatMap_cons]
      exact congrArg _ (ih fun y hy => h y (by simp [hy]))

theorem copyStringToBuffer_cStr (s : Str) (out : Option Int) (n : Nat) (inBytes : Bool) :
    Utility.copyStringToBuffer P (cStr s) out n inBytes = Utility.copyStringToBuffer P s out n inBytes := by
  have hidem : cStr (cStr s) = cStr s := by
    rw [cStr, cStr, List.takeWhile_takeWhile]
    simp only [and_self, Bool.decide_eq_true]
  simp only [Utility.copyStringToBuffer, Utility.copyUtf8StringToSqlWcharString, Utility.copyUtf8StringToWcharString,
    Platform.convertIn, hidem]

/-- What fits of the text before its first NUL, and a terminator. -/
theorem copyStringToBuffer_writes (h : ∀ x ∈ chars, Utf8.Scalar P.sqlWchar.maxCode x) {n : Nat} (hn : 1 ≤ n)
    (hsize : n * P.wcharBytes < 18446744073709551616) (p : Int) :
    (Utility.copyStringToBuffer P (chars.flatMap Utf8.encode) (some p) n false).writes =
      textWrites P.wcharBytes p ((chars.takeWhile (· != 0)).take (n - 1)) := by
  have hw := P.wcharBytes_range
  have hchars : ∀ x ∈ chars.takeWhile (· != 0), Utf8.Scalar P.sqlWchar.maxCode x ∧ x ≠ 0 := fun x hx =>
    ⟨h x (List.takeWhile_subset _ hx), by simpa using List.mem_takeWhile_imp hx⟩
  have hle : P.wcharBytes ≤ n * P.wcharBytes := Nat.le_mul_of_pos_left _ hn
  have hsome := wide_some hchars (show n * P.wcharBytes ≠ 0 by omega) false p
  rw [outBufferLenChars_eq hle hsize, Nat.mul_div_cancel _ (by omega)] at hsome
  rw [← copyStringToBuffer_cStr, cStr_flatMap_encode h, Utility.copyStringToBuffer]
  simp only [if_neg Bool.false_ne_true, Nat.mod_eq_of_lt hsize, hsome]
  rw [← List.take_take, List.take_length]

/-- A copy stays in its buffer. -/
theorem copyStringToBuffer_within (s : Str) {n : Nat} (hn : 1 ≤ n) (hsize : n * P.wcharBytes < 18446744073709551616)
    (p : Int) : ∀ x ∈ (Utility.copyStringToBuffer P s (some p) n false).writes,
      p ≤ x.addr ∧ x.addr + x.bytes.length ≤ p + (P.wcharBytes * n : Nat) := by
  have hw := P.wcharBytes_range
  have hle : P.wcharBytes ≤ n * P.wcharBytes := Nat.le_mul_of_pos_left _ hn
  have hlen : (P.convertIn s (n - 1)).1.length ≤ n - 1 := Utf8.length_decode_le _ _ _
  have hroom : P.wcharBytes * ((P.convertIn s (n - 1)).1.length + 1) ≤ P.wcharBytes * n := Nat.mul_le_mul_left _ (by omega)
  rw [Nat.mul_succ] at hroom
  have hne : n * P.wcharBytes ≠ 0 := by omega
  simp only [Utility.copyStringToBuffer, if_neg Bool.false_ne_true, Nat.mod_eq_of_lt hsize,
    Utility.copyUtf8StringToSqlWcharString, Utility.copyUtf8StringToWcharString, if_neg hne,
    outBufferLenChars_eq hle hsize, Nat.mul_div_cancel n (by omega : 0 < P.wcharBytes)]
  intro x hx
  simp only [List.mem_cons, List.not_mem_nil, or_false] at hx
  rcases hx with rfl | rfl
  · dsimp only
    rw [length_flatMap_leBytes]
    omega
  · dsimp only
    rw [length_leBytes]
    omega

end

/-! ## The return code -/

variable {P : Platform} {call : GetDiagRecCall} {record : StatusRecord} {p q : Int}

/-- A call for a record, with a buffer and a place for the length, in objects of their own. -/
structure GetDiagRecCall.Asks (P : Platform) (call : GetDiagRecCall) (record : StatusRecord) (p q : Int) : Prop where
  handleType : isDiagnosableHandle call.handleType = true
  handle : ∃ records, call.handle = some records ∧ call.recNum.toInt ≤ getStatusRecordsNumber records ∧
    records[call.recNum.toInt.toNat - 1]? = some record
  recNum : 1 ≤ call.recNum
  msgBuffer : call.msgBuffer = some p
  msgBufferLen : 1 ≤ call.msgBufferLen
  msgLen : call.msgLen = some q
  msgLen_apart : q + 2 ≤ p ∨ p + (P.wcharBytes * call.msgBufferLen.toInt.toNat : Nat) ≤ q
  sqlState_apart : ∀ s, call.sqlState = some s →
    s + (P.wcharBytes * 6 : Nat) ≤ p ∨ p + (P.wcharBytes * call.msgBufferLen.toInt.toNat : Nat) ≤ s
  nativeError_apart : ∀ e, call.nativeError = some e →
    e + 4 ≤ p ∨ p + (P.wcharBytes * call.msgBufferLen.toInt.toNat : Nat) ≤ e

/-- The call stores the message between its other results. -/
theorem sqlGetDiagRec_eq (h : call.Asks P record p q) :
    sqlGetDiagRec P call = (if call.judgedLong record.message then .successWithInfo else .success,
      call.stateWrites P record ++ (call.copyMessage P record.message).writes ++
        [⟨q, leBytes 2 (call.copyMessage P record.message).length⟩]) := by
  obtain ⟨records, hhandle, hnumber, hrecord⟩ := h.handle
  have hlen := h.msgBufferLen
  have hnum := h.recNum
  have hargs : ¬ (call.recNum < 1 ∨ call.msgBufferLen < 0) := by
    rw [Int16.lt_iff_toInt_lt, Int16.lt_iff_toInt_lt]
    rw [Int16.le_iff_toInt_le] at hlen hnum
    simp at hlen hnum ⊢
    omega
  unfold sqlGetDiagRec
  simp only [h.handleType, hhandle, if_neg hargs, if_neg (Int.not_lt.mpr hnumber), hrecord, h.msgBuffer, h.msgLen]
  by_cases hlong : call.judgedLong record.message
  · simp [hlong]
  · simp [hlong]

theorem outside_stateWrites (h : call.Asks P record p q) :
    Memory.Outside (call.stateWrites P record) p (P.wcharBytes * call.msgBufferLen.toInt.toNat) := by
  have hw := P.wcharBytes_range
  intro x hx
  rcases List.mem_append.mp hx with hstate | herror
  · cases hs : call.sqlState with
    | none => simp [hs] at hstate
    | some s =>
      rw [hs] at hstate
      have hwithin := copyStringToBuffer_within record.getSqlState (by decide) (by omega) s x hstate
      have hapart := h.sqlState_apart s hs
      omega
  · cases he : call.nativeError with
    | none => simp [he] at herror
    | some e =>
      rw [he, List.mem_singleton] at herror
      have hapart := h.nativeError_apart e he
      subst herror
      simpa using hapart

/-- The code says whether the buffer holds the whole message or a proper prefix of it. -/
structure ReportsMessage (P : Platform) (call : GetDiagRecCall) (chars : List Nat) (p : Int) : Prop where
  success : (sqlGetDiagRec P call).1 = .success ↔
    HoldsText P.wcharBytes (sqlGetDiagRec P call).2 p call.msgBufferLen.toInt.toNat chars
  successWithInfo : (sqlGetDiagRec P call).1 = .successWithInfo ↔ ∃ k < chars.length,
    HoldsText P.wcharBytes (sqlGetDiagRec P call).2 p call.msgBufferLen.toInt.toNat (chars.take k)

/-- A part of the text that is not all of it is cut before the first NUL or by the room. -/
theorem cut_eq_self_iff {chars : List Nat} {room : Nat} (hroom : 1 ≤ room) :
    chars = (chars.takeWhile (· != 0)).take (room - 1) ↔ ¬ (room ≤ chars.length ∨ 0 ∈ chars) := by
  constructor
  · rintro h (hlong | hnul)
    · have hlen := congrArg List.length h
      rw [List.length_take] at hlen
      omega
    · rw [h] at hnul
      simpa using List.mem_takeWhile_imp (List.mem_of_mem_take hnul)
  · intro h
    rw [not_or] at h
    have hall : chars.takeWhile (· != 0) = chars := List.takeWhile_eq_self_iff.mpr fun c hc => by
      rw [bne_iff_ne]
      rintro rfl
      exact h.2 hc
    rw [hall, List.take_of_length_le (by omega)]

theorem exists_take_eq_iff {chars cs : List Nat} (h : cs <+: chars) :
    (∃ k < chars.length, chars.take k = cs) ↔ chars ≠ cs := by
  constructor
  · rintro ⟨k, hk, rfl⟩ heq
    have hlen := congrArg List.length heq
    rw [List.length_take] at hlen
    omega
  · intro hne
    have hlt : cs.length < chars.length := h.length_le.lt_of_ne fun hlen => hne (h.eq_of_length hlen).symm
    exact ⟨cs.length, hlt, (List.prefix_iff_eq_take.mp h).symm⟩

/-- What of the message stands in the buffer after the call. -/
theorem holdsText_sqlGetDiagRec_iff {chars : List Nat} (h : call.Asks P record p q)
    (hmessage : record.message = chars.flatMap Utf8.encode) (hchars : ∀ x ∈ chars, Utf8.Scalar P.sqlWchar.maxCode x)
    {cs : List Nat} (hcs : ∀ c ∈ cs, c ∈ chars) :
    HoldsText P.wcharBytes (sqlGetDiagRec P call).2 p call.msgBufferLen.toInt.toNat cs ↔
      cs = (chars.takeWhile (· != 0)).take (call.msgBufferLen.toInt.toNat - 1) := by
  have hw := P.wcharBytes_range
  have hmax := call.msgBufferLen.toInt_lt
  have hlen := h.msgBufferLen
  rw [Int16.le_iff_toInt_le] at hlen
  simp only [Int16.reduceToInt] at hlen
  have hpre := outside_stateWrites h
  have hpost : Memory.Outside [⟨q, leBytes 2 (call.copyMessage P record.message).length⟩] p
      (P.wcharBytes * call.msgBufferLen.toInt.toNat) := by
    intro x hx
    rw [List.mem_singleton] at hx
    subst hx
    simpa using h.msgLen_apart
  have hsize : sizeT call.msgBufferLen.toInt = call.msgBufferLen.toInt.toNat := by
    rw [sizeT]
    omega
  have hbytes : call.msgBufferLen.toInt.toNat * P.wcharBytes ≤ call.msgBufferLen.toInt.toNat * 4 :=
    Nat.mul_le_mul_left _ (by omega)
  have hcopy : (call.copyMessage P record.message).writes =
      textWrites P.wcharBytes p ((chars.takeWhile (· != 0)).take (call.msgBufferLen.toInt.toNat - 1)) := by
    rw [GetDiagRecCall.copyMessage, h.msgBuffer, hmessage, hsize]
    exact copyStringToBuffer_writes hchars (by omega) (by omega) p
  have hrange : ∀ c ∈ chars, c < 256 ^ P.wcharBytes := fun c hc => by
    by_cases hz : c = 0
    · subst hz
      exact Nat.pow_pos (by decide)
    · have hone : ∀ x ∈ [c], Utf8.Scalar P.sqlWchar.maxCode x ∧ x ≠ 0 := by simpa using ⟨hchars c hc, hz⟩
      exact (wide_range hone c (by simp)).2
  rw [sqlGetDiagRec_eq h, hcopy]
  refine holdsText_iff (by omega) (fun c hc => ⟨?_, ?_⟩) (by rw [List.length_take]; omega) (fun c hc => hrange c (hcs c hc))
    hpre hpost
  · exact Nat.pos_of_ne_zero (by simpa using List.mem_takeWhile_imp (List.mem_of_mem_take hc))
  · exact hrange c (List.takeWhile_subset _ (List.mem_of_mem_take hc))

/-- A statement's only record, with a buffer at 0 and the length behind it. -/
def askMessage (message : Str) (msgBufferLen : Int16) : GetDiagRecCall :=
  ⟨3, some [⟨.sHY000GeneralError, message, 0, 0⟩], 1, none, none, some 0, msgBufferLen, some 100000⟩

theorem asks_askMessage (message : Str) {msgBufferLen : Int16} (h : 1 ≤ msgBufferLen) :
    (askMessage message msgBufferLen).Asks .unixOdbc ⟨.sHY000GeneralError, message, 0, 0⟩ 0 100000 where
  handleType := rfl
  handle := ⟨_, rfl, (by decide : (1 : Int) ≤ int32Cast 1), rfl⟩
  recNum := (by decide : (1 : Int16) ≤ 1)
  msgBuffer := rfl
  msgBufferLen := h
  msgLen := rfl
  msgLen_apart := by
    have hmax := msgBufferLen.toInt_lt
    have hw : Platform.unixOdbc.wcharBytes = 2 := rfl
    rw [hw]
    right
    simp only [askMessage]
    omega
  sqlState_apart := nofun
  nativeError_apart := nofun

end DocumentDbOdbc
