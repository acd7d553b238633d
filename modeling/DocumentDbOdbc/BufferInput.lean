/-
What the `Get` functions read from the buffer of a parameter: texts, numbers,
decimals, dates and times.

The element of an array is the object of the C type there, or the text that the
indicator or a zero ends. What a `Get` returns is the same in every memory with
the same element (`SameElement`), but for a `long`, of which eight bytes are read
where the element has four.
-/
import DocumentDbOdbc.DateTime
import DocumentDbOdbc.NumberElement

namespace DocumentDbOdbc

/-- A `tm` as the application gives it, with the year of the calendar. -/
structure InputTm where
  year : Int
  mon : Int
  mday : Int
  hour : Int
  min : Int
  sec : Int
  deriving DecidableEq, Repr

/-- What the input functions take from the platform and its libraries. -/
structure InputLib where
  platform : Platform
  outside : Outside
  unassigned : Unassigned
  /-- `stream >> x`, for a `float`. -/
  streamFloat : Str → UInt32
  /-- `stream << x` with `precision(16)`. -/
  doubleText16 : UInt64 → Str
  /-- `common::ToTimeGm`; boost throws on what is no date of its calendar. -/
  toTimeGm : InputTm → Option Int
  /-- The memory around the bytes of a vector. -/
  heap : Memory.Mem
  /-- `%d` of a number that is no `int`. -/
  scanOverflow : Str → Int

def SqlDate.tm (d : SqlDate) : InputTm := ⟨d.year, d.month - 1, d.day, 0, 0, 0⟩

/-- A time of the first of January, 1970. -/
def SqlTime.tm (t : SqlTime) : InputTm := ⟨1970, 0, 1, t.hour, t.minute, t.second⟩

def SqlTimestamp.tm (t : SqlTimestamp) : InputTm :=
  ⟨t.date.year, t.date.month - 1, t.date.day, t.time.hour, t.time.minute, t.time.second⟩

/-! ## `sscanf` -/

inductive ScanDirective where
  /-- `%d`. -/
  | int
  | space
  | char (c : UInt8)
  deriving DecidableEq, Repr

/-- `%d-%d-%d %d:%d:%d`. -/
def dateTimeFormat : List ScanDirective :=
  [.int, .char 45, .int, .char 45, .int, .space, .int, .char 58, .int, .char 58, .int]

/-- `%d:%d:%d`. -/
def timeFormat : List ScanDirective := [.int, .char 58, .int, .char 58, .int]

/-- The numbers `sscanf` assigns. -/
def InputLib.scan (L : InputLib) : List ScanDirective → Str → List Int
  | [], _ => []
  | .space :: format, s => L.scan format (s.dropWhile isSpace)
  | .char c :: format, s => if s.head? = some c then L.scan format s.tail else []
  | .int :: format, s =>
    let s := s.dropWhile isSpace
    let negative := s.head? = some 45
    let s := if negative ∨ s.head? = some 43 then s.tail else s
    let digits := s.takeWhile Numeral.isDigit
    let n : Int := Numeral.numeralValue digits
    let v := if negative then -n else n
    if digits = [] then []
    else (if Fits 4 true v then v else L.scanOverflow digits) :: L.scan format (s.dropWhile Numeral.isDigit)

namespace ApplicationDataBuffer

variable (L : InputLib)

/-- The text of the input; none if its length is zero. -/
def inputText (b : ApplicationDataBuffer) (m : Memory.Mem) : Except Fault (Option Str) :=
  let paramLen := b.getInputSize m
  if paramLen = 0 then .ok none
  else
    let res := if b.type = .wchar then Utility.sqlWcharToString L.platform m b.getData (.ofInt paramLen)
      else some (Utility.sqlCharToString m b.getData (.ofInt paramLen))
    match res with
    | none => .error .exception
    | some str => .ok (some str)

/-- A value made of the object the data pointer points to. -/
def deref {α : Type} (b : ApplicationDataBuffer) (f : Int → α) : Except Fault α :=
  match b.getData with
  | none => .error .nullPointer
  | some p => .ok (f p)

/-- The integers `GetNum` loads: their bytes, and whether they are signed. -/
def loadedInteger : OdbcNativeType → Option (Nat × Bool)
  | .signedTinyint => some (1, true)
  | .bit | .unsignedTinyint => some (1, false)
  | .signedShort => some (2, true)
  | .unsignedShort => some (2, false)
  | .signedLong => some (sizeofLong, true)
  | .unsignedLong => some (sizeofLong, false)
  | .signedBigint => some (8, true)
  | .unsignedBigint => some (8, false)
  | _ => none

/-- `GetNum<uint64_t>`, of an unsigned type. -/
def getUint64 (b : ApplicationDataBuffer) (m : Memory.Mem) : Except Fault Int :=
  match loadedInteger b.type with
  | some (size, signed) => b.deref fun p => castInteger 8 false (readInteger m p size signed)
  | none => .ok 0

/-- `GetNum` for a floating-point type: what is made of a text, of an integer, of
a `float` and of a `double`. -/
def getReal {α : Type} (ofText : Str → α) (ofInt : Int → α) (ofFloat : UInt32 → α) (ofDouble : UInt64 → α) (zero : α)
    (b : ApplicationDataBuffer) (m : Memory.Mem) : Except Fault α :=
  match loadedInteger b.type with
  | some (size, signed) => b.deref fun p => ofInt (readInteger m p size signed)
  | none =>
    match b.type with
    | .char | .wchar =>
      if b.getInputSize m = 0 then .ok zero
      else (b.getText L.platform m (sizeT (b.getInputSize m))).map ofText
    | .float => b.deref fun p => ofFloat (.ofNat (Bytes.value (Memory.read m p 4)))
    | .double => b.deref fun p => ofDouble (.ofNat (Bytes.value (Memory.read m p 8)))
    | .numeric =>
      match b.getInt64FromNumeric L.outside m with
      | none => .error .nullPointer
      | some v => .ok (ofInt v.toInt)
    | _ => .ok zero

def getFloat (b : ApplicationDataBuffer) (m : Memory.Mem) : Except Fault UInt32 :=
  b.getReal L L.streamFloat L.platform.intToFloat id L.platform.doubleToFloat 0 m

def getDouble (b : ApplicationDataBuffer) (m : Memory.Mem) : Except Fault UInt64 :=
  b.getReal L L.platform.streamDouble L.platform.intToDouble L.platform.floatToDouble id 0 m

/-- `GetString`. -/
def getString (b : ApplicationDataBuffer) (m : Memory.Mem) (maxLen : Nat) : Except Fault Str :=
  match b.type with
  | .char | .wchar => b.getText L.platform m maxLen
  | .signedTinyint | .signedShort | .signedLong | .signedBigint =>
    (b.getNum L.platform L.outside 8 m).map intText
  | .bit | .unsignedTinyint | .unsignedShort | .unsignedLong | .unsignedBigint => (b.getUint64 m).map intText
  | .float => (b.getFloat L m).map L.platform.floatText
  | .numeric | .double => (b.getDouble L m).map L.platform.doubleText
  | _ => .ok []

/-- `GetDecimal`, into a `Decimal()`. -/
def getDecimal (b : ApplicationDataBuffer) (m : Memory.Mem) : Except Fault Common.Decimal :=
  match b.type with
  | .char | .wchar =>
    if b.getInputSize m = 0 then .ok .zero
    else (b.getText L.platform m (sizeT (b.getInputSize m))).map (Common.Decimal.assignString L.outside)
  | .signedTinyint | .bit | .signedShort | .signedLong | .signedBigint =>
    (b.getNum L.platform L.outside 8 m).map fun v => ⟨0, BigInteger.assignInt64 (.ofInt v)⟩
  | .unsignedTinyint | .unsignedShort | .unsignedLong | .unsignedBigint =>
    (b.getUint64 m).map fun v => ⟨0, BigInteger.assignUint64 (.ofInt v)⟩
  | .float | .double => (b.getDouble L m).map fun x => Common.Decimal.assignString L.outside (L.doubleText16 x)
  | .numeric =>
    match b.getDecimalFromNumeric m with
    | none => .error .nullPointer
    | some v => .ok v
  | _ => .ok ⟨0, BigInteger.assignInt64 0⟩

/-! ## Dates and times -/

/-- The `tm` of `GetDate` and `GetTimestamp`. -/
def getDateTm (b : ApplicationDataBuffer) (m : Memory.Mem) : Except Fault InputTm :=
  match b.type with
  | .tdate => b.deref fun p => (SqlDate.load m p).tm
  | .ttime => b.deref fun p => (SqlTime.load m p).tm
  | .ttimestamp => b.deref fun p => (SqlTimestamp.load m p).tm
  | .char | .wchar => do
    match ← b.inputText L m with
    | none => .ok ⟨1900, 0, 0, 0, 0, 0⟩
    | some str =>
      let v := fun i => (L.scan dateTimeFormat (cStr str)).getD i 0
      .ok ⟨v 0, v 1 - 1, v 2, v 3, v 4, v 5⟩
  | _ => .ok ⟨1900, 0, 0, 0, 0, 0⟩

/-- The `tm` of `GetTime`. -/
def getTimeTm (b : ApplicationDataBuffer) (m : Memory.Mem) : Except Fault InputTm :=
  match b.type with
  | .ttime => b.deref fun p => (SqlTime.load m p).tm
  | .ttimestamp => b.deref fun p => (SqlTimestamp.load m p).time.tm
  | .char | .wchar => do
    match ← b.inputText L m with
    | none => .ok ⟨1970, 0, 1, 0, 0, 0⟩
    | some str =>
      let v := fun i => (L.scan timeFormat (cStr str)).getD i 0
      .ok ⟨1970, 0, 1, v 0, v 1, v 2⟩
  | _ => .ok ⟨1970, 0, 1, 0, 0, 0⟩

/-- `common::ToTimeGm`. -/
def toTimeGm (t : InputTm) : Except Fault Int :=
  match L.toTimeGm t with
  | none => .error .exception
  | some time => .ok time

/-- `GetDate`: milliseconds. -/
def getDate (b : ApplicationDataBuffer) (m : Memory.Mem) : Except Fault Int := do
  let time ← toTimeGm L (← b.getDateTm L m)
  .ok (time * 1000)

/-- `GetTime`: milliseconds. -/
def getTime (b : ApplicationDataBuffer) (m : Memory.Mem) : Except Fault Int := do
  let time ← toTimeGm L (← b.getTimeTm L m)
  .ok (time * 1000)

/-- `buffer->fraction`, of a timestamp. -/
def getNanos (b : ApplicationDataBuffer) (m : Memory.Mem) : Int :=
  match b.type, b.getData with
  | .ttimestamp, some p => castInteger 4 true (readInteger m (p + 12) 4 false)
  | _, _ => 0

def getTimestamp (b : ApplicationDataBuffer) (m : Memory.Mem) : Except Fault Timestamp := do
  let time ← toTimeGm L (← b.getDateTm L m)
  .ok ⟨time, b.getNanos m⟩

/-! ## The element -/

/-- The bytes that a text takes: as many as the length says, or up to a zero. -/
def textLen (b : ApplicationDataBuffer) (m : Memory.Mem) : Nat :=
  let width := if b.type = .wchar then L.platform.wcharBytes else 1
  let len := Int32.ofInt (b.getInputSize m)
  if len = -3 then
    match b.getData with
    | none => 0
    | some p => width * ((readText m width 18446744073709551616 p).length + 1)
  else width * (len.toInt.toNat / width)

/-- The bytes of the element: those of a text, or of the object. -/
def elementLen (b : ApplicationDataBuffer) (m : Memory.Mem) : Nat :=
  match b.type with
  | .char | .wchar => b.textLen L m
  | .binary => (Int32.ofInt ((b.indicator m).getD 0)).toInt.toNat
  | _ => b.getElementSize.toNat

/-- The memories have the same indicator and the same data in this element. -/
structure SameElement (b : ApplicationDataBuffer) (m m' : Memory.Mem) : Prop where
  indicator : ∀ r ∈ b.getResLen, ∀ a, r ≤ a → a < r + 8 → m a = m' a
  data : ∀ p ∈ b.getData, ∀ a, p ≤ a → a < p + b.elementLen L m → m a = m' a

variable {L : InputLib} {b : ApplicationDataBuffer} {m m' : Memory.Mem} {α : Type}

theorem read_congr_of {p : Int} {n k : Nat} (h : ∀ a, p ≤ a → a < p + n → m a = m' a) (hk : k ≤ n) :
    Memory.read m p k = Memory.read m' p k :=
  Memory.read_congr fun i hi => h _ (by omega) (by omega)

theorem SameElement.refl (b : ApplicationDataBuffer) (m : Memory.Mem) : b.SameElement L m m :=
  ⟨fun _ _ _ _ _ => rfl, fun _ _ _ _ _ => rfl⟩

theorem SameElement.indicator_eq (h : b.SameElement L m m') : b.indicator m = b.indicator m' := by
  unfold ApplicationDataBuffer.indicator
  cases hr : b.getResLen with
  | none => rw [Option.map_none, Option.map_none]
  | some r =>
    have hread : Memory.read m r 8 = Memory.read m' r 8 := read_congr_of (h.indicator r hr) (Nat.le_refl 8)
    rw [Option.map_some, Option.map_some, readInteger, readInteger, hread]

theorem isDataAtExec_congr (h : b.indicator m = b.indicator m') : b.isDataAtExec m = b.isDataAtExec m' := by
  rw [isDataAtExec, isDataAtExec, h]

theorem getDataAtExecSize_congr (h : b.indicator m = b.indicator m') : b.getDataAtExecSize m = b.getDataAtExecSize m' := by
  unfold getDataAtExecSize
  rw [h]

theorem getInputSize_congr (h : b.indicator m = b.indicator m') : b.getInputSize m = b.getInputSize m' := by
  rw [getInputSize, getInputSize, isDataAtExec_congr h, getDataAtExecSize_congr h, h]

/-- A text is the same where its characters and the zero behind them are. -/
theorem readText_congr {w : Nat} : ∀ {n : Nat} {p : Int},
    (∀ i, i < n → i < (readText m w n p).length + 1 →
      Memory.read m (p + (i * w : Nat)) w = Memory.read m' (p + (i * w : Nat)) w) →
    readText m w n p = readText m' w n p
  | 0, _, _ => rfl
  | n + 1, p, h => by
    have hfirst : Memory.read m p w = Memory.read m' p w := by
      have hzero := h 0 (by omega) (by omega)
      rwa [Nat.zero_mul, Int.natCast_zero, Int.add_zero] at hzero
    unfold readText
    rw [← hfirst]
    cases hvalue : Bytes.value (Memory.read m p w) with
    | zero => rfl
    | succ c =>
      refine congrArg (Nat.succ c :: ·) (readText_congr fun i hi hlen => ?_)
      have hnext := h (i + 1) (by omega) (by rw [readText, hvalue]; exact Nat.succ_lt_succ hlen)
      have hplace : p + ((i + 1) * w : Nat) = p + w + (i * w : Nat) := by
        rw [Nat.add_mul, Nat.one_mul]
        push_cast
        omega
      rwa [hplace] at hnext

/-- A text that ends with a zero, or fills a room, is the same where its bytes are. -/
theorem readText_eq_of_same {w n : Nat} {p : Int} {k : Nat} (h : ∀ a, p ≤ a → a < p + k → m a = m' a)
    (hk : w * ((readText m w n p).length + 1) ≤ k ∨ w * n ≤ k) : readText m w n p = readText m' w n p := by
  refine readText_congr fun i hi hlen => Memory.read_congr fun j hj => h _ (by omega) ?_
  have hplace : i * w + w ≤ k := by
    have hsucc : i * w + w = w * (i + 1) := by rw [Nat.mul_comm w, Nat.add_mul, Nat.one_mul]
    rw [hsucc]
    obtain hk | hk := hk
    · exact (Nat.mul_le_mul_left w (by omega)).trans hk
    · exact (Nat.mul_le_mul_left w (by omega)).trans hk
  omega

theorem sqlCharToString_congr (h : b.SameElement L m m') (hb : b.type = .char) :
    Utility.sqlCharToString m b.getData (.ofInt (b.getInputSize m)) =
      Utility.sqlCharToString m' b.getData (.ofInt (b.getInputSize m)) := by
  have hdata := h.data
  unfold elementLen textLen at hdata
  simp only [hb] at hdata
  unfold Utility.sqlCharToString
  generalize 18446744073709551616 = room at hdata ⊢
  cases hp : b.getData with
  | none => rfl
  | some p =>
    have hsame := hdata p hp
    simp only [hp, reduceCtorEq, if_false] at hsame
    dsimp only
    split
    · next hnts =>
      rw [if_pos hnts] at hsame
      rw [readText_eq_of_same hsame (.inl (Nat.le_refl _))]
    · next hnts =>
      rw [if_neg hnts, Nat.div_one, Nat.one_mul] at hsame
      split
      · exact read_congr_of hsame (Nat.le_refl _)
      · rfl

theorem sqlWcharToString_congr (h : b.SameElement L m m') (hb : b.type = .wchar) :
    Utility.sqlWcharToString L.platform m b.getData (.ofInt (b.getInputSize m)) =
      Utility.sqlWcharToString L.platform m' b.getData (.ofInt (b.getInputSize m)) := by
  have hdata := h.data
  unfold elementLen textLen at hdata
  simp only [hb, if_true] at hdata
  unfold Utility.sqlWcharToString
  generalize 18446744073709551616 = room at hdata ⊢
  cases hp : b.getData with
  | none => rfl
  | some p =>
    have hsame := hdata p hp
    simp only [hp] at hsame
    dsimp only
    split
    · next hnts =>
      rw [if_pos hnts] at hsame
      rw [readText_eq_of_same hsame (.inl (Nat.le_refl _))]
    · next hnts =>
      rw [if_neg hnts] at hsame
      rw [readText_eq_of_same hsame (.inr (Nat.le_refl _))]

theorem getText_congr (h : b.SameElement L m m') (hb : b.type = .char ∨ b.type = .wchar) (maxLen : Nat) :
    b.getText L.platform m maxLen = b.getText L.platform m' maxLen := by
  have hsize := getInputSize_congr h.indicator_eq
  unfold getText
  rw [← hsize]
  obtain hb | hb := hb
  · simp only [hb, reduceCtorEq, if_false, sqlCharToString_congr h hb]
  · simp only [hb, if_true, sqlWcharToString_congr h hb]

theorem inputText_congr (h : b.SameElement L m m') (hb : b.type = .char ∨ b.type = .wchar) :
    b.inputText L m = b.inputText L m' := by
  have hsize := getInputSize_congr h.indicator_eq
  unfold inputText
  rw [← hsize]
  obtain hb | hb := hb
  · simp only [hb, reduceCtorEq, if_false, sqlCharToString_congr h hb]
  · simp only [hb, if_true, sqlWcharToString_congr h hb]

theorem deref_congr {f g : Int → α} (h : ∀ p ∈ b.getData, f p = g p) : b.deref f = b.deref g := by
  unfold deref
  cases hp : b.getData with
  | none => rfl
  | some p => exact congrArg Except.ok (h p hp)

theorem readInteger_congr {p : Int} {n k : Nat} (h : ∀ a, p ≤ a → a < p + n → m a = m' a) (hk : k ≤ n) (signed : Bool) :
    readInteger m p k signed = readInteger m' p k signed := by
  rw [readInteger, readInteger, read_congr_of h hk]

/-- A `long` of the application has four bytes. -/
def IsLong (b : ApplicationDataBuffer) : Prop := b.type = .signedLong ∨ b.type = .unsignedLong

/-- All other integers are loaded from their elements. -/
theorem loadedInteger_le {size : Nat} {signed : Bool} (h : loadedInteger b.type = some (size, signed)) (hlong : ¬b.IsLong) :
    size ≤ b.elementLen L m := by
  unfold IsLong at hlong
  unfold elementLen getElementSize
  cases hb : b.type <;> simp only [hb, loadedInteger, Option.some.injEq, Prod.mk.injEq, reduceCtorEq, or_false, or_true,
    not_true, not_false_iff] at h hlong ⊢ <;> omega

theorem getNum_same (h : b.SameElement L m m') {T : Nat} (hlong : b.IsLong → T ≤ 4) :
    b.getNum L.platform L.outside T m = b.getNum L.platform L.outside T m' := by
  have hdata := h.data
  unfold elementLen getElementSize at hdata
  cases hb : b.type with
  | char | wchar =>
    have htext := fun n => getText_congr h (by simp [hb]) n
    unfold getNum
    simp only [hb, ← getInputSize_congr h.indicator_eq, ← htext]
  | signedTinyint | bit | unsignedTinyint | signedShort | unsignedShort | signedBigint | unsignedBigint =>
    simp only [hb] at hdata
    unfold getNum
    simp only [hb]
    refine load_congr fun p hp => ?_
    rw [readInteger_congr (hdata p hp) (by decide)]
  | signedLong | unsignedLong =>
    have hT : T ≤ 4 := hlong (by simp [IsLong, hb])
    simp only [hb] at hdata
    unfold getNum
    simp only [hb]
    refine load_congr fun p hp => ?_
    rw [castInteger_readInteger m p hT (show 4 ≤ sizeofLong by decide),
      castInteger_readInteger m' p hT (show 4 ≤ sizeofLong by decide),
      readInteger_congr (hdata p hp) (by decide)]
  | float | double =>
    simp only [hb] at hdata
    unfold getNum
    simp only [hb]
    refine load_congr fun p hp => ?_
    rw [read_congr_of (hdata p hp) (by decide)]
  | numeric =>
    simp only [hb] at hdata
    exact getNum_numeric_congr hb hdata
  | binary | tdate | ttime | ttimestamp | guid | default | unsupported =>
    unfold getNum
    simp only [hb]

theorem getUint64_same (h : b.SameElement L m m') (hlong : ¬b.IsLong) : b.getUint64 m = b.getUint64 m' := by
  unfold getUint64
  cases hload : loadedInteger b.type with
  | none => rfl
  | some c =>
    obtain ⟨size, signed⟩ := c
    exact deref_congr fun p hp => by rw [readInteger_congr (h.data p hp) (loadedInteger_le hload hlong)]

theorem getDecimalFromNumeric_same (h : b.SameElement L m m') (hb : b.type = .numeric) :
    b.getDecimalFromNumeric m = b.getDecimalFromNumeric m' := by
  have hdata := h.data
  unfold elementLen getElementSize at hdata
  simp only [hb] at hdata
  unfold getDecimalFromNumeric
  cases hp : b.getData with
  | none => rfl
  | some p =>
    have hload : SqlNumericStruct.load m p = SqlNumericStruct.load m' p := SqlNumericStruct.load_congr (hdata p hp)
    simp only [Option.bind_eq_bind, Option.bind_some, hload]

theorem getReal_same (h : b.SameElement L m m') (hlong : ¬b.IsLong) (ofText : Str → α) (ofInt : Int → α)
    (ofFloat : UInt32 → α)
    (ofDouble : UInt64 → α) (zero : α) :
    b.getReal L ofText ofInt ofFloat ofDouble zero m = b.getReal L ofText ofInt ofFloat ofDouble zero m' := by
  have hdata := h.data
  unfold elementLen getElementSize at hdata
  unfold getReal
  cases hload : loadedInteger b.type with
  | some c =>
    obtain ⟨size, signed⟩ := c
    exact deref_congr fun p hp => by rw [readInteger_congr (h.data p hp) (loadedInteger_le hload hlong)]
  | none =>
    cases hb : b.type with
    | char | wchar =>
      have htext := fun n => getText_congr h (by simp [hb]) n
      simp only [← getInputSize_congr h.indicator_eq, ← htext]
    | float | double =>
      simp only [hb] at hdata
      exact deref_congr fun p hp => by rw [read_congr_of (hdata p hp) (by decide)]
    | numeric =>
      unfold getInt64FromNumeric
      simp only [getDecimalFromNumeric_same h hb]
    | _ => rfl

theorem getString_same (h : b.SameElement L m m') (hlong : ¬b.IsLong) (maxLen : Nat) :
    b.getString L m maxLen = b.getString L m' maxLen := by
  have hreal : b.getFloat L m = b.getFloat L m' ∧ b.getDouble L m = b.getDouble L m' :=
    ⟨getReal_same h hlong .., getReal_same h hlong ..⟩
  unfold getString
  rw [getNum_same h fun hb => absurd hb hlong, getUint64_same h hlong, hreal.1, hreal.2]
  cases hb : b.type with
  | char | wchar => exact getText_congr h (by simp [hb]) maxLen
  | _ => rfl

theorem getDecimal_same (h : b.SameElement L m m') (hlong : ¬b.IsLong) : b.getDecimal L m = b.getDecimal L m' := by
  have hreal : b.getDouble L m = b.getDouble L m' := getReal_same h hlong ..
  unfold getDecimal
  rw [getNum_same h fun hb => absurd hb hlong, getUint64_same h hlong, hreal, ← getInputSize_congr h.indicator_eq]
  cases hb : b.type with
  | char | wchar => simp only [getText_congr h (show b.type = .char ∨ b.type = .wchar by simp [hb])]
  | numeric => simp only [getDecimalFromNumeric_same h hb]
  | _ => rfl

theorem sqlDate_load_congr {p : Int} {n : Nat} (h : ∀ a, p ≤ a → a < p + n → m a = m' a) (hn : 6 ≤ n) :
    SqlDate.load m p = SqlDate.load m' p := by
  have hpart : ∀ (k : Nat) (signed : Bool), k ≤ 4 → readInteger m (p + k) 2 signed = readInteger m' (p + k) 2 signed :=
    fun k signed hk => readInteger_congr (fun a hlow hhigh => h a (by omega) (by push_cast at hhigh; omega))
      (Nat.le_refl 2) signed
  have hyear := hpart 0 true (by decide)
  rw [Int.natCast_zero, Int.add_zero] at hyear
  rw [SqlDate.load, SqlDate.load, hyear]
  exact congrArg₂ (SqlDate.mk _) (hpart 2 false (by decide)) (hpart 4 false (by decide))

theorem sqlTime_load_congr {p : Int} {n : Nat} (h : ∀ a, p ≤ a → a < p + n → m a = m' a) (hn : 6 ≤ n) :
    SqlTime.load m p = SqlTime.load m' p := by
  have hpart : ∀ (k : Nat) (signed : Bool), k ≤ 4 → readInteger m (p + k) 2 signed = readInteger m' (p + k) 2 signed :=
    fun k signed hk => readInteger_congr (fun a hlow hhigh => h a (by omega) (by push_cast at hhigh; omega))
      (Nat.le_refl 2) signed
  have hhour := hpart 0 false (by decide)
  rw [Int.natCast_zero, Int.add_zero] at hhour
  rw [SqlTime.load, SqlTime.load, hhour]
  exact congrArg₂ (SqlTime.mk _) (hpart 2 false (by decide)) (hpart 4 false (by decide))

theorem sqlTimestamp_load_congr {p : Int} {n : Nat} (h : ∀ a, p ≤ a → a < p + n → m a = m' a) (hn : 12 ≤ n) :
    SqlTimestamp.load m p = SqlTimestamp.load m' p := by
  rw [SqlTimestamp.load, SqlTimestamp.load, sqlDate_load_congr h (by omega),
    @sqlTime_load_congr m m' (p + 6) 6 (fun a hlow hhigh => h a (by omega) (by push_cast at hhigh; omega)) (by decide)]

theorem getDateTm_same (h : b.SameElement L m m') : b.getDateTm L m = b.getDateTm L m' := by
  have hdata := h.data
  unfold elementLen getElementSize at hdata
  unfold getDateTm
  cases hb : b.type with
  | char | wchar => simp only [inputText_congr h (show b.type = .char ∨ b.type = .wchar by simp [hb])]
  | tdate =>
    simp only [hb] at hdata
    exact deref_congr fun p hp => by rw [sqlDate_load_congr (hdata p hp) (by decide)]
  | ttime =>
    simp only [hb] at hdata
    exact deref_congr fun p hp => by rw [sqlTime_load_congr (hdata p hp) (by decide)]
  | ttimestamp =>
    simp only [hb] at hdata
    exact deref_congr fun p hp => by rw [sqlTimestamp_load_congr (hdata p hp) (by decide)]
  | _ => rfl

theorem getTimeTm_same (h : b.SameElement L m m') : b.getTimeTm L m = b.getTimeTm L m' := by
  have hdata := h.data
  unfold elementLen getElementSize at hdata
  unfold getTimeTm
  cases hb : b.type with
  | char | wchar => simp only [inputText_congr h (show b.type = .char ∨ b.type = .wchar by simp [hb])]
  | ttime =>
    simp only [hb] at hdata
    exact deref_congr fun p hp => by rw [sqlTime_load_congr (hdata p hp) (by decide)]
  | ttimestamp =>
    simp only [hb] at hdata
    exact deref_congr fun p hp => by rw [sqlTimestamp_load_congr (hdata p hp) (by decide)]
  | _ => rfl

theorem getNanos_same (h : b.SameElement L m m') : b.getNanos m = b.getNanos m' := by
  have hdata := h.data
  unfold elementLen getElementSize at hdata
  unfold getNanos
  cases hb : b.type with
  | ttimestamp =>
    simp only [hb] at hdata
    cases hp : b.getData with
    | none => rfl
    | some p =>
      have hpart : readInteger m (p + 12) 4 false = readInteger m' (p + 12) 4 false :=
        readInteger_congr (n := 4) (fun a hlow hhigh => hdata p hp a (by omega) (by
          simp only [Int.reduceToNat]
          push_cast at hhigh ⊢
          omega)) (Nat.le_refl 4) false
      simp only [hpart]
  | _ => rfl

theorem getGuid_same (h : b.SameElement L m m') :
    b.getGuid L.platform L.unassigned m = b.getGuid L.platform L.unassigned m' := by
  have hdata := h.data
  unfold elementLen getElementSize at hdata
  unfold getGuid
  rw [← getInputSize_congr h.indicator_eq]
  cases hb : b.type with
  | char => simp only [sqlCharToString_congr h hb]
  | wchar => simp only [sqlWcharToString_congr h hb]
  | guid =>
    simp only [hb] at hdata
    cases hp : b.getData with
    | none => rfl
    | some p =>
      have hsame := hdata p hp
      have hpart : ∀ k n : Nat, k + n ≤ 16 → Memory.read m (p + k) n = Memory.read m' (p + k) n := fun k n hk =>
        read_congr_of (n := n) (fun a hlow hhigh => hsame a (by omega) (by simp only [Int.reduceToNat]; omega))
          (Nat.le_refl n)
      have hfirst := hpart 0 4 (by decide)
      rw [Int.natCast_zero, Int.add_zero] at hfirst
      have hload : SqlGuid.load m p = SqlGuid.load m' p := by
        have h4 := hpart 4 2 (by decide)
        have h6 := hpart 6 2 (by decide)
        have h8 := hpart 8 8 (by decide)
        unfold SqlGuid.load
        rw [hfirst]
        push_cast at h4 h6 h8
        rw [h4, h6, h8]
      simp only [hload]
  | _ => rfl

end ApplicationDataBuffer

end DocumentDbOdbc
