/-
Decimals in the binary protocol: `utility::WriteDecimal` and
`utility::ReadDecimal`.

The sign is the top bit of the first byte, which is a byte of its own where the
magnitude takes that bit. The reader drops the sign of the scale, and the
number of bytes is that of `MagnitudeToBytes` (`readBack_iff`).
-/
import DocumentDbOdbc.BigIntegerBytes
import DocumentDbOdbc.DecimalText
import DocumentDbOdbc.InteropStream

namespace DocumentDbOdbc

open Interop Binary BigInteger

namespace Common.Decimal

/-- `DOCUMENTDB_TYPE_DECIMAL`. -/
def documentdbTypeDecimal : UInt8 := 30

/-- `Decimal(mag, len, scale, sign, bigEndian)`. -/
def ofBytes (mag : List UInt8) (scale : Int32) (sign : Int) (bigEndian : Bool) : Option Decimal := do
  let magnitude ← ofBytesAt mag sign bigEndian
  some ⟨scale &&& 0x7FFFFFFF, magnitude⟩

/-- The bytes after the scale: their number, and the magnitude with the sign. -/
def writeMagnitude (sign : Int) (magnitude : List UInt8) (writer : BinaryWriterImpl) :
    Except StreamError BinaryWriterImpl :=
  let addBit : UInt8 := if sign = -1 then 0x80 else 0
  let size := Int32.ofNat magnitude.length
  match magnitude with
  | [] => .error .outOfBounds  -- `magnitude[0]`
  | x :: rest =>
    if 0x80 ≤ x then do
      let writer ← writer.writeInt32 (size + 1)
      let writer ← writer.writeInt8 addBit
      writer.writeInt8Array (x :: rest)
    else do
      let writer ← writer.writeInt32 size
      writer.writeInt8Array ((x ||| addBit) :: rest)

/-- `utility::WriteDecimal`. -/
def writeDecimal (decimal : Decimal) (writer : BinaryWriterImpl) : Except StreamError BinaryWriterImpl := do
  let writer ← writer.writeInt8 documentdbTypeDecimal
  let writer ← writer.writeInt32 decimal.scale
  match decimal.magnitude.magnitudeToBytes with
  | none => .error .outOfBounds
  | some magnitude => writeMagnitude decimal.magnitude.sign magnitude writer

/-- `utility::ReadDecimal`. -/
def readDecimal (reader : BinaryReaderImpl) : Except StreamError (Decimal × BinaryReaderImpl) := do
  let (hdr, reader) ← reader.readInt8
  if hdr ≠ documentdbTypeDecimal then .error .assertionFailed
  let (scale, reader) ← reader.readInt32
  let (len, reader) ← reader.readInt32
  if len < 0 then .error .lengthError  -- `mag.resize(len)`
  let (mag, reader) ← reader.readInt8Array len
  match mag with
  | [] => .error .outOfBounds  -- `mag[0]`
  | x :: rest =>
    let res := if 0x80 ≤ x then ofBytes ((x &&& 0x7F) :: rest) scale (-1) true else ofBytes (x :: rest) scale 1 true
    match res with
    | none => .error .outOfBounds
    | some decimal => .ok (decimal, reader)

/-! ## The bytes of a magnitude with its sign -/

/-- What `writeMagnitude` makes of the bytes. -/
def signed (sign : Int) : List UInt8 → List UInt8
  | [] => []
  | x :: rest =>
    let addBit : UInt8 := if sign = -1 then 0x80 else 0
    if 0x80 ≤ x then addBit :: x :: rest else (x ||| addBit) :: rest

/-- What `readDecimal` makes of them. -/
def unsigned (scale : Int32) : List UInt8 → Option Decimal
  | [] => none
  | x :: rest =>
    if 0x80 ≤ x then ofBytes ((x &&& 0x7F) :: rest) scale (-1) true else ofBytes (x :: rest) scale 1 true

theorem topBit : ∀ n < 256, UInt8.ofNat n < 0x80 →
    0x80 ≤ UInt8.ofNat n ||| 0x80 ∧ (UInt8.ofNat n ||| 0x80) &&& 0x7F = UInt8.ofNat n := by
  decide +kernel

theorem setTopBit {x : UInt8} (h : x < 0x80) : 0x80 ≤ x ||| 0x80 ∧ (x ||| 0x80) &&& 0x7F = x := by
  have := topBit x.toNat x.toNat_lt
  rw [UInt8.ofNat_toNat] at this
  exact this h

/-- **The sign and the magnitude** come back, the scale without its sign. -/
theorem unsigned_signed {b : BigInteger} (h : b.Canonical) {bytes : List UInt8} (hne : bytes ≠ [])
    (hlen : bytes.length < 2147483645) (hvalue : Bytes.value bytes.reverse = Limbs.value b.mag) (scale : Int32) :
    unsigned scale (signed b.sign bytes) = some ⟨scale &&& 0x7FFFFFFF, b⟩ := by
  obtain ⟨x, rest, rfl⟩ := List.exists_cons_of_ne_nil hne
  have hread : ∀ n, ofBytes (List.replicate n 0 ++ x :: rest) scale b.sign true = some ⟨scale &&& 0x7FFFFFFF, b⟩ := by
    intro n
    rw [ofBytes, ofBytesAt_of_bytes h n hlen hvalue]
    rfl
  unfold signed
  rcases h.sign with hs | hs
  · rw [hs, if_neg (by decide)]
    rw [hs] at hread
    dsimp only
    split
    · rw [unsigned, if_neg (by decide)]
      exact hread 1
    · next hx =>
      rw [UInt8.or_zero, unsigned, if_neg hx]
      exact hread 0
  · rw [hs, if_pos rfl]
    rw [hs] at hread
    dsimp only
    split
    · rw [unsigned, if_pos (by decide)]
      exact hread 1
    · next hx =>
      obtain ⟨htop, hclear⟩ := setTopBit (UInt8.not_le.mp hx)
      rw [unsigned, if_pos htop, hclear]
      exact hread 0

/-- The bytes take one more bit than the magnitude. -/
theorem length_signed {n : Nat} {bytes : List UInt8} (sign : Int) (hvalue : Bytes.value bytes.reverse = n)
    (hlen : bytes.length = max 1 ((n.size + 7) / 8)) : (signed sign bytes).length = n.size / 8 + 1 := by
  have hne : bytes ≠ [] := by
    rintro rfl
    rw [List.length_nil] at hlen
    omega
  obtain ⟨x, rest, rfl⟩ := List.exists_cons_of_ne_nil hne
  rw [List.reverse_cons, Bytes.value_append, List.length_reverse, Bytes.value_cons, Bytes.value_nil, Nat.mul_zero,
    Nat.add_zero] at hvalue
  have hrest := Bytes.value_lt rest.reverse
  rw [List.length_reverse] at hrest
  have hx := x.toNat_lt
  have hpow : 256 ^ rest.length = 2 ^ (8 * rest.length) := by rw [Nat.pow_mul]
  rw [List.length_cons] at hlen
  rw [hpow] at hvalue hrest
  unfold signed
  dsimp only
  split
  · next htop =>
    have hx' : 128 ≤ x.toNat := UInt8.le_iff_toNat_le.mp htop
    have hsize : n.size = 8 * rest.length + 7 + 1 := by
      refine size_eq ?_ ?_
      · rw [Nat.pow_add]
        nlinarith
      · rw [Nat.pow_add, Nat.pow_add]
        nlinarith
    rw [List.length_cons, List.length_cons]
    omega
  · next htop =>
    have hx' : x.toNat < 128 := UInt8.lt_iff_toNat_lt.mp (UInt8.not_le.mp htop)
    have hsize : n.size ≤ 8 * rest.length + 7 := by
      rw [Nat.size_le, Nat.pow_add]
      nlinarith
    rw [List.length_cons]
    omega

/-! ## Writing and reading -/

theorem writes_writeMagnitude (sign : Int) {bytes : List UInt8} (hne : bytes ≠ []) (hlen : bytes.length + 1 < 2 ^ 31) :
    BinaryWriterImpl.Writes (writeMagnitude sign bytes)
      (leBytes 4 (signed sign bytes).length ++ signed sign bytes) := by
  obtain ⟨x, rest, rfl⟩ := List.exists_cons_of_ne_nil hne
  have hsize : (Int32.ofNat (x :: rest).length).toInt = ((x :: rest).length : Nat) := toInt32_ofNat (by omega)
  have hnext : (Int32.ofNat (x :: rest).length + 1).toInt = ((x :: rest).length + 1 : Nat) := by
    have hone : (1 : Int32).toInt = 1 := rfl
    rw [toInt32_add (by rw [hsize, hone]; omega) (by rw [hsize, hone]; omega), hsize, hone]
    push_cast
    rfl
  intro w hw
  unfold writeMagnitude signed
  dsimp only
  split
  · rw [List.length_cons, ← hnext]
    exact (BinaryWriterImpl.writes_writePrimitiveRaw _).bind
      ((BinaryWriterImpl.writes_writePrimitiveRaw [_]).bind (BinaryWriterImpl.writes_writeInt8Array _)) w hw
  · have hlength : (Int32.ofNat (x :: rest).length).toInt =
        (((x ||| if sign = -1 then 0x80 else 0) :: rest).length : Nat) := hsize
    rw [← hlength]
    exact (BinaryWriterImpl.writes_writePrimitiveRaw _).bind (BinaryWriterImpl.writes_writeInt8Array _) w hw

/-- The bytes of a decimal. -/
def wire (d : Decimal) (bytes : List UInt8) : List UInt8 :=
  [documentdbTypeDecimal] ++ (leBytes 4 d.scale.toInt ++
    (leBytes 4 (signed d.magnitude.sign bytes).length ++ signed d.magnitude.sign bytes))

theorem writes_writeDecimal {d : Decimal} {bytes : List UInt8} (h : d.magnitude.magnitudeToBytes = some bytes)
    (hne : bytes ≠ []) (hlen : bytes.length + 1 < 2 ^ 31) : BinaryWriterImpl.Writes (writeDecimal d) (wire d bytes) := by
  have hwrite : writeDecimal d = fun writer => writer.writeInt8 documentdbTypeDecimal >>= fun writer =>
      writer.writeInt32 d.scale >>= writeMagnitude d.magnitude.sign bytes := by
    funext writer
    unfold writeDecimal
    rw [h]
  rw [hwrite]
  exact (BinaryWriterImpl.writes_writePrimitiveRaw _).bind
    ((BinaryWriterImpl.writes_writePrimitiveRaw _).bind (writes_writeMagnitude _ hne hlen))

/-- Without bytes nothing is written in the end. -/
theorem writeDecimal_none {d : Decimal} (h : d.magnitude.magnitudeToBytes = none) (w w' : BinaryWriterImpl) :
    writeDecimal d w ≠ .ok w' := by
  unfold writeDecimal
  rw [h]
  intro hok
  cases h₁ : w.writeInt8 documentdbTypeDecimal with
  | error e =>
    rw [h₁] at hok
    cases hok
  | ok w₁ =>
    rw [h₁] at hok
    cases h₂ : w₁.writeInt32 d.scale with
    | error e =>
      simp only [bind, Except.bind, h₂] at hok
      cases hok
    | ok w₂ =>
      simp only [bind, Except.bind, h₂] at hok
      cases hok

theorem reads_readDecimal (scale : Int32) {bytes : List UInt8} (hlen : bytes.length < 2 ^ 31) {d : Decimal}
    (h : unsigned scale bytes = some d) :
    BinaryReaderImpl.Reads readDecimal
      ([documentdbTypeDecimal] ++ (leBytes 4 scale.toInt ++ (leBytes 4 bytes.length ++ bytes))) d := by
  have hcount : (Int32.ofNat bytes.length).toInt = bytes.length := toInt32_ofNat hlen
  intro r rest hat
  rw [List.append_assoc] at hat
  obtain ⟨r₁, hhdr, hat₁, hdata₁⟩ := BinaryReaderImpl.reads_readInt8 documentdbTypeDecimal r _ hat
  rw [List.append_assoc] at hat₁
  obtain ⟨r₂, hscale, hat₂, hdata₂⟩ := BinaryReaderImpl.reads_readInt32 scale r₁ _ hat₁
  rw [List.append_assoc, ← hcount] at hat₂
  obtain ⟨r₃, hlength, hat₃, hdata₃⟩ := BinaryReaderImpl.reads_readInt32 _ r₂ _ hat₂
  obtain ⟨r₄, hbytes, hat₄, hdata₄⟩ := BinaryReaderImpl.reads_readInt8Array hcount r₃ _ hat₃
  have hnonneg : ¬ Int32.ofNat bytes.length < 0 := by
    rw [Int32.lt_iff_toInt_lt, hcount, Int32.toInt_zero]
    omega
  refine ⟨r₄, ?_, hat₄, hdata₄.trans (hdata₃.trans (hdata₂.trans hdata₁))⟩
  obtain ⟨x, bytes, rfl⟩ := List.exists_cons_of_ne_nil (show bytes ≠ [] by rintro rfl; cases h)
  dsimp only at hbytes
  unfold readDecimal
  rw [hhdr]
  simp only [bind, Except.bind, ne_eq, not_true_eq_false, if_false, hscale, hlength, if_neg hnonneg, hbytes]
  rw [unsigned] at h
  rw [h]

theorem mask_eq_iff (scale : Int32) : scale &&& 0x7FFFFFFF = scale ↔ 0 ≤ scale := by
  have hlt := scale.toInt_lt
  rw [← Int32.toInt_inj, toInt32_mask, Int32.le_iff_toInt_le, Int32.toInt_zero]
  omega

/-- Written and read, the first decimal is the second, and the reader stands
behind the bytes that were written. -/
def ReadBack (w : BinaryWriterImpl) (d d' : Decimal) : Prop :=
  ∃ w', writeDecimal d w = .ok w' ∧ w'.Ready ∧ ∀ after : List UInt8, (w'.stream.data ++ after).length < 2 ^ 31 →
    ∃ r, readDecimal (.ofStream ⟨w'.stream.data ++ after, Int32.ofNat (w'.stream.data ++ after).length, w.stream.pos⟩) =
      .ok (d', r) ∧ r.stream.pos = w'.stream.pos

section

variable {w : BinaryWriterImpl} {d d' : Decimal} {bytes : List UInt8}

/-- A decimal with bytes is read back, where the stream takes them. -/
theorem wire_spec (hw : w.Ready) (h : d.magnitude.magnitudeToBytes = some bytes) (hne : bytes ≠ [])
    (hlen : bytes.length + 1 < 2 ^ 31) (hsigned : (signed d.magnitude.sign bytes).length < 2 ^ 31)
    (hd : unsigned d.scale (signed d.magnitude.sign bytes) = some d') :
    if w.stream.data.length + (signed d.magnitude.sign bytes).length + 9 < 2 ^ 31 then ReadBack w d d'
    else ∃ e, writeDecimal d w = .error e := by
  have hwire : (wire d bytes).length = (signed d.magnitude.sign bytes).length + 9 := by
    simp only [wire, List.length_append, length_leBytes, List.length_singleton]
    omega
  have hwrite := writes_writeDecimal h hne hlen w hw
  rw [hwire, ← Nat.add_assoc] at hwrite
  split at hwrite
  · next hfit =>
    obtain ⟨w', hok, hready, hdata⟩ := hwrite
    rw [if_pos hfit]
    refine ⟨w', hok, hready, fun after hafter => ?_⟩
    have hpos : w.stream.pos.toInt = w.stream.data.length := hw.stream
    have hpos' : w'.stream.pos.toInt = w'.stream.data.length := hready.stream
    have hat : (BinaryReaderImpl.ofStream ⟨w'.stream.data ++ after, Int32.ofNat (w'.stream.data ++ after).length,
        w.stream.pos⟩).At (wire d bytes ++ after) := by
      refine ⟨rfl, rfl, toInt32_ofNat hafter, ?_, ?_, ?_⟩
      · show 0 ≤ w.stream.pos.toInt
        omega
      · show w.stream.pos.toInt ≤ ((w'.stream.data ++ after).length : Nat)
        rw [List.length_append, hdata, List.length_append]
        omega
      · show (w'.stream.data ++ after).drop w.stream.pos.toInt.toNat = _
        rw [hpos, Int.toNat_natCast, hdata, List.append_assoc, List.drop_left]
    obtain ⟨r, hread, hrest, hsame⟩ := reads_readDecimal d.scale hsigned hd _ after hat
    refine ⟨r, hread, Int32.toInt_inj.mp ?_⟩
    have hle := hrest.stream.le
    have hnonneg := hrest.stream.nonneg
    have hdrop := congrArg List.length hrest.stream.drop
    rw [hsame] at hle hdrop
    rw [List.length_drop] at hdrop
    simp only [BinaryReaderImpl.ofStream, List.length_append] at hle hdrop
    omega
  · next hfit =>
    rw [if_neg hfit]
    exact hwrite

/-- There is one decimal that is read back. -/
theorem ReadBack.unique {d'' : Decimal} (h : ReadBack w d d') (h' : ReadBack w d d'') : d' = d'' := by
  obtain ⟨w', hok, hready, hread⟩ := h
  obtain ⟨w'', hok', -, hread'⟩ := h'
  obtain rfl : w' = w'' := Except.ok.inj (hok.symm.trans hok')
  have hpos : w'.stream.pos.toInt = w'.stream.data.length := hready.stream
  have hlt := w'.stream.pos.toInt_lt
  have hlen : (w'.stream.data ++ []).length < 2 ^ 31 := by
    rw [List.append_nil]
    omega
  obtain ⟨r, hr, -⟩ := hread [] hlen
  obtain ⟨r', hr', -⟩ := hread' [] hlen
  exact congrArg Prod.fst (Except.ok.inj (hr.symm.trans hr'))

end

/-- **Decimals on the wire**: what is written is read back, and just that many
bytes are taken, exactly for a scale that is not negative, a bit length that
`MagnitudeToBytes` can count and a stream that has room. -/
theorem readBack_iff {w : BinaryWriterImpl} (hw : w.Ready) {d : Decimal} (hd : d.magnitude.Canonical) :
    ReadBack w d d ↔ 0 ≤ d.scale ∧ (Limbs.value d.magnitude.mag).size + 7 < 2 ^ 32 ∧
      w.stream.data.length + (Limbs.value d.magnitude.mag).size / 8 + 10 < 2 ^ 31 := by
  rcases Nat.lt_or_ge ((Limbs.value d.magnitude.mag).size + 7) (2 ^ 32) with hsize | hlarge
  · obtain ⟨bytes, hbytes, hvalue, hlen⟩ := magnitudeToBytes_spec hd.normalized hsize
    have hne : bytes ≠ [] := by
      rintro rfl
      rw [List.length_nil] at hlen
      omega
    have hlength := length_signed d.magnitude.sign hvalue hlen
    have hunsigned := unsigned_signed hd hne (by omega) hvalue d.scale
    have hspec := wire_spec hw hbytes hne (by omega) (by omega) hunsigned
    rw [hlength, show w.stream.data.length + ((Limbs.value d.magnitude.mag).size / 8 + 1) + 9 =
      w.stream.data.length + (Limbs.value d.magnitude.mag).size / 8 + 10 by omega] at hspec
    split at hspec
    · next hfit =>
      -- The decimal that is read back has the scale without its sign.
      refine ⟨fun h => ⟨?_, hsize, hfit⟩, fun h => ?_⟩
      · exact (mask_eq_iff d.scale).mp (congrArg Decimal.scale (hspec.unique h))
      · rw [(mask_eq_iff d.scale).mpr h.1] at hspec
        exact hspec
    · next hfit =>
      refine ⟨fun h => ?_, fun h => absurd h.2.2 hfit⟩
      obtain ⟨e, he⟩ := hspec
      obtain ⟨w', hok, -⟩ := h
      rw [he] at hok
      cases hok
  · refine ⟨fun h => ?_, fun h => by omega⟩
    rcases magnitudeToBytes_wrapped hd.normalized hlarge with hnone | hzero
    · obtain ⟨w', hok, -⟩ := h
      exact absurd hok (writeDecimal_none hnone w w')
    · -- One zero byte is read back as zero.
      have hunsigned : unsigned d.scale (signed d.magnitude.sign [0]) = some ⟨d.scale &&& 0x7FFFFFFF, assignInt64 0⟩ := by
        rcases hd.sign with hs | hs <;> rw [hs] <;> rfl
      have hspec := wire_spec hw hzero (by decide) (by decide) (by rcases hd.sign with hs | hs <;> rw [hs] <;> decide)
        hunsigned
      split at hspec
      · have hmag : (Limbs.value d.magnitude.mag).size = 0 := by
          rw [h.unique hspec]
          rfl
        omega
      · obtain ⟨e, he⟩ := hspec
        obtain ⟨w', hok, -⟩ := h
        rw [he] at hok
        cases hok

/-- `-123.45` after eight other bytes. -/
theorem readBack_iff_negative :
    ReadBack (.ofStream ⟨[1, 2, 3, 4, 5, 6, 7, 8], 1024, 8⟩) ⟨2, assignInt64 (-12345)⟩ ⟨2, assignInt64 (-12345)⟩ := by
  have hs : (⟨[1, 2, 3, 4, 5, 6, 7, 8], 1024, 8⟩ : InteropOutputStream).WellFormed := rfl
  exact (readBack_iff (.ofStream hs) (canonical_assignInt64 (-12345))).mpr (by decide)

/-- **A scale that loses its sign**: `10` is read back with the scale
`2147483647`. -/
theorem readBack_of_negative_scale :
    ReadBack (.ofStream (.ofMemory 1024)) ⟨-1, assignInt64 1⟩ ⟨2147483647, assignInt64 1⟩ ∧
      ¬ ReadBack (.ofStream (.ofMemory 1024)) ⟨-1, assignInt64 1⟩ ⟨-1, assignInt64 1⟩ := by
  have hspec := @wire_spec _ ⟨-1, assignInt64 1⟩ ⟨2147483647, assignInt64 1⟩ [1] (.ofStream (.ofMemory 1024))
    (by decide) (by decide) (by decide) (by decide) (by decide)
  rw [if_pos (by decide)] at hspec
  exact ⟨hspec, fun h => absurd (hspec.unique h) (by decide)⟩

end Common.Decimal

end DocumentDbOdbc
