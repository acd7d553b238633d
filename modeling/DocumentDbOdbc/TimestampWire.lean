/-
`BinaryUtils::WriteTimestamp` and `ReadTimestamp`: a timestamp as milliseconds
and the nanoseconds left over.

The milliseconds are split by the division of C++, which rounds towards zero;
before the epoch the fraction comes back from the wrong side of the second.
-/
import DocumentDbOdbc.ApplicationDataBuffer
import DocumentDbOdbc.InteropStream

namespace DocumentDbOdbc

namespace Interop

def InteropOutputStream.writeInt32 (s : InteropOutputStream) (val : Int32) : Except StreamError InteropOutputStream :=
  s.store (leBytes 4 val.toInt)

def InteropOutputStream.writeInt64 (s : InteropOutputStream) (val : Int64) : Except StreamError InteropOutputStream :=
  s.store (leBytes 8 val.toInt)

namespace InteropInputStream

def readInt32 (s : InteropInputStream) : Except StreamError (Int32 × InteropInputStream) := do
  let (bytes, s) ← s.read 4
  .ok (Int32.ofNat (Bytes.value bytes), s)

def readInt64 (s : InteropInputStream) : Except StreamError (Int64 × InteropInputStream) := do
  let (bytes, s) ← s.read 8
  .ok (Int64.ofNat (Bytes.value bytes), s)

theorem readInt32_spec {s : InteropInputStream} {x : Int32} {rest : List UInt8} (h : s.At (leBytes 4 x.toInt ++ rest)) :
    s.readInt32 = .ok (x, s.shift 4) ∧ (s.shift 4).At rest := by
  obtain ⟨hread, hrest⟩ := @read_spec s 4 _ _ h (by rw [length_leBytes]; rfl)
  refine ⟨?_, hrest⟩
  rw [readInt32, hread]
  show Except.ok (Int32.ofNat (Bytes.value (leBytes 4 x.toInt)), s.shift 4) = _
  rw [Binary.int32_leBytes]

/-- The eight bytes of an `int64_t` are read back. -/
theorem int64_leBytes (x : Int64) : Int64.ofNat (Bytes.value (leBytes 8 x.toInt)) = x := by
  have hvalue : (Bytes.value (leBytes 8 x.toInt) : Int) = x.toInt % 256 ^ 8 := Bytes.value_digits x.toInt 8
  have hlow := x.le_toInt
  have hhigh := x.toInt_lt
  rw [← Int64.toInt_inj, Int64.toInt_ofNat', hvalue, show ((256 : Int) ^ 8) = (Int64.size : Nat) from rfl,
    Int.emod_bmod]
  exact Int.bmod_eq_of_le hlow (by simp; omega)

theorem readInt64_spec {s : InteropInputStream} {x : Int64} {rest : List UInt8} (h : s.At (leBytes 8 x.toInt ++ rest)) :
    s.readInt64 = .ok (x, s.shift 8) ∧ (s.shift 8).At rest := by
  obtain ⟨hread, hrest⟩ := @read_spec s 8 _ _ h (by rw [length_leBytes]; rfl)
  refine ⟨?_, hrest⟩
  rw [readInt64, hread]
  show Except.ok (Int64.ofNat (Bytes.value (leBytes 8 x.toInt)), s.shift 8) = _
  rw [int64_leBytes]

end InteropInputStream

end Interop

open Interop

/-! ## The milliseconds and the nanoseconds -/

namespace Timestamp

/-- The first number `WriteTimestamp` writes. -/
def wireMilliseconds (t : Timestamp) : Int64 := Int64.ofInt (t.seconds * 1000 + t.fractionNs.tdiv 1000000)

/-- The second one. -/
def wireNanoseconds (t : Timestamp) : Int32 := Int32.ofInt (t.fractionNs.tmod 1000000)

/-- What `ReadTimestamp` makes of them; the fraction is converted to `int32_t`. -/
def ofWire (milliseconds : Int64) (nanoseconds : Int32) : Timestamp :=
  ⟨milliseconds.toInt.tdiv 1000, (Int32.ofInt (milliseconds.toInt.tmod 1000 * 1000000 + nanoseconds.toInt)).toInt⟩

variable {t : Timestamp}

theorem toInt_wireNanoseconds (hfraction : 0 ≤ t.fractionNs) :
    t.wireNanoseconds.toInt = t.fractionNs % 1000000 := by
  rw [wireNanoseconds, Int.tmod_eq_emod_of_nonneg hfraction, Int32.toInt_ofInt]
  exact Int.bmod_eq_of_le (by simp; omega) (by simp; omega)

/-- Below the least `int64_t` the milliseconds wrap. -/
theorem toInt_wireMilliseconds (hfraction : 0 ≤ t.fractionNs) (hsmall : t.fractionNs ≤ 999999999)
    (hlow : -2 ^ 63 ≤ t.seconds * 1000 + 999) (hhigh : t.seconds * 1000 + 999 < 2 ^ 63) :
    t.wireMilliseconds.toInt =
      t.seconds * 1000 + t.fractionNs / 1000000 +
        if t.seconds * 1000 + t.fractionNs / 1000000 < -2 ^ 63 then 2 ^ 64 else 0 := by
  rw [wireMilliseconds, Int.tdiv_eq_ediv_of_nonneg hfraction, Int64.toInt_ofInt]
  split
  · rw [← Int.add_bmod_right]
    exact Int.bmod_eq_of_le (by simp; omega) (by simp; omega)
  · rw [Int.add_zero]
    exact Int.bmod_eq_of_le (by simp; omega) (by simp; omega)

theorem ofWire_eq (milliseconds : Int64) {nanoseconds : Int32} (h : 0 ≤ nanoseconds.toInt)
    (h' : nanoseconds.toInt < 1000000) :
    ofWire milliseconds nanoseconds =
      ⟨milliseconds.toInt.tdiv 1000, milliseconds.toInt.tmod 1000 * 1000000 + nanoseconds.toInt⟩ := by
  have hlow := Int.lt_tmod_of_pos milliseconds.toInt (by decide : (0 : Int) < 1000)
  have hhigh := Int.tmod_lt_of_pos milliseconds.toInt (by decide : (0 : Int) < 1000)
  rw [ofWire, Int32.toInt_ofInt]
  exact congrArg _ (Int.bmod_eq_of_le (by simp; omega) (by simp; omega))

/-- The split undoes the sum where the milliseconds are not those of a later second. -/
theorem ofWire_wire_iff (hfraction : 0 ≤ t.fractionNs) (hsmall : t.fractionNs ≤ 999999999)
    (hlow : -2 ^ 63 ≤ t.seconds * 1000 + 999) (hhigh : t.seconds * 1000 + 999 < 2 ^ 63) :
    ofWire t.wireMilliseconds t.wireNanoseconds = t ↔
      0 ≤ t.seconds ∨ t.fractionNs < 1000000 ∧ -2 ^ 63 ≤ t.seconds * 1000 := by
  have hnanoseconds := toInt_wireNanoseconds hfraction
  have hmilliseconds := toInt_wireMilliseconds hfraction hsmall hlow hhigh
  rw [ofWire_eq _ (by omega) (by omega), hnanoseconds]
  obtain ⟨seconds, fraction⟩ := t
  rw [mk.injEq]
  generalize wireMilliseconds ⟨seconds, fraction⟩ = milliseconds at hmilliseconds
  dsimp only at *
  by_cases hpos : 0 ≤ milliseconds.toInt
  · rw [Int.tdiv_eq_ediv_of_nonneg hpos, Int.tmod_eq_emod_of_nonneg hpos]
    -- the milliseconds of a negative second are positive only where they wrapped
    split at hmilliseconds <;> omega
  · have hdiv : milliseconds.toInt.tdiv 1000 = -(-milliseconds.toInt / 1000) := by
      rw [← Int.tdiv_eq_ediv_of_nonneg (by omega), Int.neg_tdiv, Int.neg_neg]
    have hmod := Int.tmod_add_mul_tdiv milliseconds.toInt 1000
    rw [hdiv] at hmod ⊢
    split at hmilliseconds <;> omega

end Timestamp

namespace Binary

def writeTimestamp (stream : InteropOutputStream) (val : Timestamp) : Except StreamError InteropOutputStream := do
  let stream ← stream.writeInt64 val.wireMilliseconds
  stream.writeInt32 val.wireNanoseconds

def readTimestamp (stream : InteropInputStream) : Except StreamError (Timestamp × InteropInputStream) := do
  let (milliseconds, stream) ← stream.readInt64
  let (nanoseconds, stream) ← stream.readInt32
  .ok (.ofWire milliseconds nanoseconds, stream)

/-! ## The streams -/

/-- The timestamp is read back where it was written. -/
def ReadBack (stream : InteropOutputStream) (val : Timestamp) : Prop :=
  ∃ written rest, writeTimestamp stream val = .ok written ∧
    readTimestamp ((InteropInputStream.ofMemory written.data).shift stream.pos) = .ok (val, rest)

theorem writeTimestamp_spec {stream : InteropOutputStream} (h : stream.WellFormed)
    (hroom : stream.data.length + 12 < 2 ^ 31) (val : Timestamp) :
    ∃ written, writeTimestamp stream val = .ok written ∧
      written.data = stream.data ++ (leBytes 8 val.wireMilliseconds.toInt ++ leBytes 4 val.wireNanoseconds.toInt) := by
  have hfirst := InteropOutputStream.store_spec h (leBytes 8 val.wireMilliseconds.toInt)
  rw [length_leBytes, if_pos (by omega)] at hfirst
  obtain ⟨stream', hstore, hwf, hdata⟩ := hfirst
  have hsecond := InteropOutputStream.store_spec hwf (leBytes 4 val.wireNanoseconds.toInt)
  rw [hdata, List.length_append, length_leBytes, length_leBytes, if_pos (by omega)] at hsecond
  obtain ⟨written, hstore', -, hdata'⟩ := hsecond
  refine ⟨written, ?_, by rw [hdata', List.append_assoc]⟩
  rw [writeTimestamp, InteropOutputStream.writeInt64, hstore]
  exact hstore'

theorem readTimestamp_spec {stream : InteropInputStream} {milliseconds : Int64} {nanoseconds : Int32} {rest : List UInt8}
    (h : stream.At (leBytes 8 milliseconds.toInt ++ (leBytes 4 nanoseconds.toInt ++ rest))) :
    ∃ stream', readTimestamp stream = .ok (.ofWire milliseconds nanoseconds, stream') ∧ stream'.At rest := by
  obtain ⟨hread, hat⟩ := InteropInputStream.readInt64_spec h
  obtain ⟨hread', hat'⟩ := InteropInputStream.readInt32_spec hat
  refine ⟨_, ?_, hat'⟩
  rw [readTimestamp, hread]
  show ((stream.shift 8).readInt32 >>= _) = _
  rw [hread']
  rfl

/-- A stream over the bytes a stream has written, at a place it stood before. -/
theorem at_written {stream : InteropOutputStream} (h : stream.WellFormed) {bytes : List UInt8}
    (hroom : stream.data.length + bytes.length < 2 ^ 31) :
    ((InteropInputStream.ofMemory (stream.data ++ bytes)).shift stream.pos).At bytes := by
  unfold InteropOutputStream.WellFormed at h
  have hpos : (0 + stream.pos).toInt = stream.data.length := by rw [Int32.zero_add, h]
  refine ⟨toInt32_ofNat (by rw [List.length_append]; exact hroom), ?_, ?_, ?_⟩
  · exact hpos ▸ Int.natCast_nonneg _
  · refine hpos ▸ ?_
    simp [InteropInputStream.ofMemory, InteropInputStream.shift]
  · show (stream.data ++ bytes).drop (0 + stream.pos).toInt.toNat = bytes
    rw [hpos, Int.toNat_natCast, List.drop_left]

theorem readBack_eq_iff {stream : InteropOutputStream} (h : stream.WellFormed) (hroom : stream.data.length + 12 < 2 ^ 31)
    (t : Timestamp) : ReadBack stream t ↔ Timestamp.ofWire t.wireMilliseconds t.wireNanoseconds = t := by
  obtain ⟨written, hwrite, hdata⟩ := writeTimestamp_spec h hroom t
  have hat := @at_written stream h (leBytes 8 t.wireMilliseconds.toInt ++ leBytes 4 t.wireNanoseconds.toInt)
    (by simpa using hroom)
  rw [← hdata, ← List.append_nil (leBytes 4 _)] at hat
  obtain ⟨rest, hread, -⟩ := readTimestamp_spec hat
  constructor
  · rintro ⟨written', rest', hwrite', hread'⟩
    rw [hwrite, Except.ok.injEq] at hwrite'
    rw [← hwrite', hread, Except.ok.injEq, Prod.mk.injEq] at hread'
    exact hread'.1
  · intro heq
    exact ⟨written, rest, hwrite, by rw [hread, heq]⟩

/-- **Round trip**: a timestamp is read back unless the fraction carries its milliseconds out of a negative second. -/
theorem timestamp_readBack_iff {stream : InteropOutputStream} (h : stream.WellFormed)
    (hroom : stream.data.length + 12 < 2 ^ 31) {t : Timestamp} (hfraction : 0 ≤ t.fractionNs)
    (hsmall : t.fractionNs ≤ 999999999) (hlow : -2 ^ 63 ≤ t.seconds * 1000 + 999)
    (hhigh : t.seconds * 1000 + 999 < 2 ^ 63) :
    ReadBack stream t ↔ 0 ≤ t.seconds ∨ t.fractionNs < 1000000 ∧ -2 ^ 63 ≤ t.seconds * 1000 := by
  rw [readBack_eq_iff h hroom t]
  exact Timestamp.ofWire_wire_iff hfraction hsmall hlow hhigh

theorem timestamp_readBack_iff_epoch : ReadBack (.ofMemory 1024) ⟨0, 999999999⟩ :=
  (timestamp_readBack_iff (.ofMemory 1024) (by decide) (by decide) (by decide) (by decide) (by decide)).mpr (by decide)

/-- Half a second before the epoch comes back as the second 0 and a negative fraction. -/
theorem timestamp_not_readBack :
    Timestamp.ofWire (Timestamp.wireMilliseconds ⟨-1, 500000000⟩) (Timestamp.wireNanoseconds ⟨-1, 500000000⟩) =
        ⟨0, -500000000⟩ ∧ ¬ ReadBack (.ofMemory 1024) ⟨-1, 500000000⟩ := by
  have hwire : Timestamp.ofWire (Timestamp.wireMilliseconds ⟨-1, 500000000⟩)
      (Timestamp.wireNanoseconds ⟨-1, 500000000⟩) = ⟨0, -500000000⟩ := by decide
  refine ⟨hwire, ?_⟩
  rw [readBack_eq_iff (.ofMemory 1024) (by decide), hwire]
  decide

end Binary

end DocumentDbOdbc
