/-
Numbers in a buffer of type `AI_NUMERIC`: what `PutDecimal` and `PutNum` store
in a `SQL_NUMERIC_STRUCT`, and what `GetDecimal` and `GetNum` make of it.

The sixteen bytes are the low ones of the magnitude, in the order both readers
expect, so a number comes back wherever `SetScale` and `ToInt64` have it right
(`numeric_round_trip_iff`).
-/
import DocumentDbOdbc.BufferMemory
import DocumentDbOdbc.DecimalInt64
import DocumentDbOdbc.DecimalWire

namespace DocumentDbOdbc

open Effect Scaled BigInteger

/-- `SQL_NUMERIC_STRUCT`. -/
structure SqlNumericStruct where
  precision : UInt8
  scale : UInt8
  sign : UInt8
  val : List UInt8
  deriving DecidableEq, Repr

namespace SqlNumericStruct

/-- The object at an address. -/
def load (m : Memory.Mem) (p : Int) : SqlNumericStruct := ⟨m p, m (p + 1), m (p + 2), Memory.read m (p + 3) 16⟩

/-- `Decimal(val, SQL_MAX_NUMERIC_LEN, scale, sign ? 1 : -1, false)`; the scale
is a `signed char`. -/
def decimal (n : SqlNumericStruct) : Option Common.Decimal :=
  Common.Decimal.ofBytes n.val n.scale.toInt8.toInt32 (if n.sign ≠ 0 then 1 else -1) false

/-- **What the sixteen bytes denote**, at scale zero. -/
theorem decimal_spec (precision sign : UInt8) (val : List UInt8) (hval : val.length = 16) :
    ∃ magnitude : BigInteger, (⟨precision, 0, sign, val⟩ : SqlNumericStruct).decimal = some ⟨0, magnitude⟩ ∧
      magnitude.Canonical ∧ magnitude.toInt = (if sign ≠ 0 then 1 else -1) * (Bytes.value val : Int) := by
  have hshort := (length_significant_le val false).trans_lt (show val.length < 2147483645 by omega)
  have hsign : (if sign ≠ 0 then 1 else -1 : Int) = 1 ∨ (if sign ≠ 0 then 1 else -1 : Int) = -1 := by
    split <;> simp
  refine ⟨BigInteger.ofBytes val (if sign ≠ 0 then 1 else -1) false, ?_, canonical_ofBytes val hsign false,
    toInt_ofBytes val _ false⟩
  have hzero : (0 : UInt8).toInt8.toInt32 &&& 0x7FFFFFFF = 0 := by decide
  unfold decimal Common.Decimal.ofBytes
  dsimp only
  rw [ofBytesAt_eq _ (by omega), if_pos hshort, hzero]
  rfl

theorem load_congr {m m' : Memory.Mem} {p : Int} (h : ∀ a, p ≤ a → a < p + 19 → m a = m' a) : load m p = load m' p := by
  have hval : Memory.read m (p + 3) 16 = Memory.read m' (p + 3) 16 :=
    Memory.read_congr fun i hi => h _ (by omega) (by omega)
  rw [load, load, h p (by omega) (by omega), h (p + 1) (by omega) (by omega), h (p + 2) (by omega) (by omega), hval]

theorem load_writes_of_disjoint (m : Memory.Mem) {p : Int} {l : List Memory.Write}
    (h : ∀ w ∈ l, w.addr + w.bytes.length ≤ p ∨ p + 19 ≤ w.addr) : load (Memory.writes m l) p = load m p :=
  load_congr fun a hlow hhigh => Memory.writes_frame m fun w hw hcovers => by
    have := h w hw
    unfold Memory.Write.Covers at hcovers
    omega

/-- The bytes of the value are behind the three fields. -/
theorem write_val (m : Memory.Mem) {p a : Int} (h : a < p + 3) (val : List UInt8) :
    Memory.write m ⟨p + 3, val⟩ a = m a :=
  Memory.write_of_not_covers m fun hcovers => by
    have hlow : p + 3 ≤ a := hcovers.1
    omega

/-- The fields as `PutDecimal` stores them. -/
theorem load_val_first (m : Memory.Mem) (p : Int) (precision scale sign : UInt8) {val : List UInt8} (hval : val.length = 16) :
    load (Memory.writes m [⟨p + 3, val⟩, ⟨p + 1, [scale]⟩, ⟨p + 2, [sign]⟩, ⟨p, [precision]⟩]) p =
      ⟨precision, scale, sign, val⟩ := by
  have hread : Memory.read (Memory.writes m [⟨p + 3, val⟩, ⟨p + 1, [scale]⟩, ⟨p + 2, [sign]⟩, ⟨p, [precision]⟩]) (p + 3) 16 =
      val := by
    simp only [Memory.writes_cons]
    rw [Memory.writes, List.foldl_nil, Memory.read_write_of_disjoint _ (.inl (by simp only [List.length_singleton]; omega)),
      Memory.read_write_of_disjoint _ (.inl (by simp only [List.length_singleton]; omega)),
      Memory.read_write_of_disjoint _ (.inl (by simp only [List.length_singleton]; omega)), ← hval, Memory.read_write_self]
  rw [load, hread]
  simp [Memory.writes, Memory.write_byte]

/-- The fields as `PutNum` stores them: the value is cleared first. -/
theorem load_val_last (m : Memory.Mem) (p : Int) (precision scale sign : UInt8) {val : List UInt8} (hval : val.length = 8) :
    load (Memory.writes m [⟨p, [precision]⟩, ⟨p + 1, [scale]⟩, ⟨p + 2, [sign]⟩, ⟨p + 3, List.replicate 16 0⟩, ⟨p + 3, val⟩]) p =
      ⟨precision, scale, sign, val ++ List.replicate 8 0⟩ := by
  simp only [Memory.writes_cons]
  rw [Memory.writes, List.foldl_nil, load, write_val _ (by omega), write_val _ (by omega), write_val _ (by omega),
    write_val _ (by omega), write_val _ (by omega), write_val _ (by omega), Memory.read_add _ _ 8 8]
  have hlow := fun m : Memory.Mem => Memory.read_write_self m (p + 3) val
  rw [hval] at hlow
  rw [hlow, Memory.read_write_of_disjoint _ (.inl (by rw [hval])), Memory.read_write _ _ _ (by simp)]
  simp [Memory.write_byte]

end SqlNumericStruct

/-- The branch of `PutDecimal` for `AI_NUMERIC`: the bytes of the magnitude, the
lowest first, cut or filled up to sixteen. -/
def Common.Decimal.putToNumeric (outside : Outside) (b : ApplicationDataBuffer) (value : Common.Decimal) : Put :=
  let unscaled := (setScale outside value zero 0).magnitude
  match unscaled.magnitudeToBytes with
  | none => raise .outOfRange
  | some bytes => do
    b.storeData 3 ((bytes.reverse ++ List.replicate 16 0).take 16)
    b.storeData 1 [0]
    b.storeData 2 [if unscaled.sign < 0 then 0 else 1]
    b.storeData 0 (leBytes 1 (unscaled.getPrecision outside).toInt)
    b.storeLen 19
    pure (if 16 < bytes.length then .fractionalTruncated else .success)

namespace ApplicationDataBuffer

/-- The branch of `GetDecimal` for `AI_NUMERIC`; none through a null pointer. -/
def getDecimalFromNumeric (b : ApplicationDataBuffer) (m : Memory.Mem) : Option Common.Decimal := do
  let p ← b.getData
  (SqlNumericStruct.load m p).decimal

/-- The branch of `GetNum<int64_t>` for `AI_NUMERIC`. -/
def getInt64FromNumeric (outside : DocumentDbOdbc.Outside) (b : ApplicationDataBuffer) (m : Memory.Mem) : Option Int64 := do
  let dec ← b.getDecimalFromNumeric m
  some (dec.toInt64 outside)

/-- The indicator and the nineteen bytes of the data do not overlap. -/
def NumericApart (b : ApplicationDataBuffer) : Prop :=
  ∀ p ∈ b.getData, ∀ r ∈ b.getResLen, r + 8 ≤ p ∨ p + 19 ≤ r

/-! ## The two models of `PutDecimal` -/

/-- With operations on decimals that compute what `common::Decimal` does for a
value, the model over any `Platform` stores the same and has the same result. -/
theorem putDecimalToNumeric_eq (outside : DocumentDbOdbc.Outside) {P : Platform} (b : ApplicationDataBuffer) {v : Decimal}
    {value : Common.Decimal} {unscaled : BigInteger} (hset : (Common.Decimal.setScale outside value .zero 0).magnitude = unscaled)
    (hc : unscaled.Canonical) (hintegral : P.decimal.integral v = unscaled.toInt)
    (hbytes : unscaled.magnitudeToBytes = some (P.decimal.magnitudeToBytes unscaled.toInt))
    (hprecision : P.decimal.precision unscaled.toInt = (unscaled.getPrecision outside).toInt) :
    b.putDecimalToNumeric P v = value.putToNumeric outside b := by
  have hsign := hc.toInt_neg_iff
  unfold putDecimalToNumeric Common.Decimal.putToNumeric
  simp only [hset, hbytes, hintegral, hprecision, hsign]

/-! ## The stores -/

section

variable {b : ApplicationDataBuffer} {p : Int}

theorem NumericApart.apart (h : b.NumericApart) : b.Apart 19 := h

/-- What `PutDecimal` leaves in the data. -/
theorem putToNumeric_spec (outside : DocumentDbOdbc.Outside) (hp : b.getData = some p) (hapart : b.NumericApart)
    (m : Memory.Mem) {value : Common.Decimal} {unscaled : BigInteger} {bytes : List UInt8}
    (hset : (Common.Decimal.setScale outside value .zero 0).magnitude = unscaled)
    (hbytes : unscaled.magnitudeToBytes = some bytes) :
    (value.putToNumeric outside b).value = .ok (if 16 < bytes.length then .fractionalTruncated else .success) ∧
      ∃ precision, SqlNumericStruct.load (b.stored (value.putToNumeric outside b) m) p =
        ⟨precision, 0, if unscaled.sign < 0 then 0 else 1, (bytes.reverse ++ List.replicate 16 0).take 16⟩ := by
  obtain ⟨precision, hprecision⟩ : ∃ x, leBytes 1 (unscaled.getPrecision outside).toInt = [x] := ⟨_, rfl⟩
  have hput : value.putToNumeric outside b =
      ⟨[⟨.data, 3, (bytes.reverse ++ List.replicate 16 0).take 16⟩, ⟨.data, 1, [0]⟩,
        ⟨.data, 2, [if unscaled.sign < 0 then 0 else 1]⟩, ⟨.data, 0, [precision]⟩] ++ (b.storeLen 19).log,
        .ok (if 16 < bytes.length then .fractionalTruncated else .success)⟩ := by
    unfold Common.Decimal.putToNumeric
    simp only [hset, hbytes, storeData_of_getData hp, emit_bind, bind_of_ok (storeLen_value b 19), hprecision]
    simp
  refine ⟨congrArg Eff.value hput, precision, ?_⟩
  rw [stored_eq _ m (congrArg Eff.log hput),
    SqlNumericStruct.load_writes_of_disjoint _ fun w hw => storeLen_apart hp hapart.apart 19 hw]
  simp only [List.filterMap_cons, List.filterMap_nil, resolve_data_some hp]
  rw [Int.natCast_zero, Int.add_zero]
  exact SqlNumericStruct.load_val_first m p precision 0 _ (by simp)

/-- What `PutInt64` leaves in the data. -/
theorem putNumToNumeric_spec (P : Platform) (hp : b.getData = some p) (hapart : b.NumericApart) (m : Memory.Mem)
    (value : Num) :
    (b.putNumToNumeric P value).value = .ok .success ∧
      ∃ precision, SqlNumericStruct.load (b.stored (b.putNumToNumeric P value) m) p =
        ⟨precision, 0, if value.negative P then 0 else 1,
          leBytes 8 (value.magnitude P).toNat ++ List.replicate 8 0⟩ := by
  obtain ⟨precision, hprecision⟩ : ∃ x, leBytes 1 (digitLength (value.magnitude P)) = [x] := ⟨_, rfl⟩
  have hput : b.putNumToNumeric P value =
      ⟨[⟨.data, 0, [precision]⟩, ⟨.data, 1, [0]⟩, ⟨.data, 2, [if value.negative P then 0 else 1]⟩,
        ⟨.data, 3, List.replicate 16 0⟩, ⟨.data, 3, leBytes 8 (value.magnitude P).toNat⟩] ++ (b.storeLen 19).log,
        .ok .success⟩ := by
    unfold putNumToNumeric
    rw [ifData_of_getData hp]
    simp only [storeData_of_getData hp, emit_bind, log_emit, value_emit, hprecision]
    rw [bind_of_ok (x := ⟨_, .ok ()⟩) rfl, bind_of_ok (storeLen_value b 19)]
    simp
  refine ⟨congrArg Eff.value hput, precision, ?_⟩
  rw [stored_eq _ m (congrArg Eff.log hput),
    SqlNumericStruct.load_writes_of_disjoint _ fun w hw => storeLen_apart hp hapart.apart 19 hw]
  simp only [List.filterMap_cons, List.filterMap_nil, resolve_data_some hp]
  rw [Int.natCast_zero, Int.add_zero]
  exact SqlNumericStruct.load_val_last m p precision 0 _ (length_leBytes 8 _)

/-- An integer comes back as the decimal it is, and narrowed as far as
`ToInt64` is right. -/
theorem putInt64_spec (outside : DocumentDbOdbc.Outside) (P : Platform) (hp : b.getData = some p) (hapart : b.NumericApart)
    (m : Memory.Mem) (x : Int64) :
    (b.putNumToNumeric P (.int 8 x.toInt)).value = .ok .success ∧
      b.getDecimalFromNumeric (b.stored (b.putNumToNumeric P (.int 8 x.toInt)) m) = some ⟨0, assignInt64 x⟩ ∧
      b.getInt64FromNumeric outside (b.stored (b.putNumToNumeric P (.int 8 x.toInt)) m) = some (assignInt64 x).toInt64 := by
  obtain ⟨hvalue, precision, hload⟩ := putNumToNumeric_spec P hp hapart m (.int 8 x.toInt)
  have hlow := x.le_toInt
  have hhigh := x.toInt_lt
  obtain ⟨magnitude, hdecimal, hc, htoInt⟩ := SqlNumericStruct.decimal_spec precision
    (if Num.negative P (.int 8 x.toInt) then 0 else 1)
    (leBytes 8 (Num.magnitude P (.int 8 x.toInt)).toNat ++ List.replicate 8 0) (by simp)
  have hmagnitude : (Num.magnitude P (.int 8 x.toInt)).toNat = x.toInt.natAbs := by
    rw [Num.magnitude, UInt64.toNat_ofNat', Nat.mod_eq_of_lt (by omega)]
  have hbytes : (Bytes.value (leBytes 8 x.toInt.natAbs) : Int) = x.toInt.natAbs % 256 ^ 8 :=
    Bytes.value_digits x.toInt.natAbs 8
  have hsign : (if (if Num.negative P (.int 8 x.toInt) then 0 else 1 : UInt8) ≠ 0 then 1 else -1 : Int) =
      if x.toInt < 0 then -1 else 1 := by
    by_cases hneg : x.toInt < 0 <;> simp [Num.negative, hneg]
  have hx : magnitude = assignInt64 x := by
    refine hc.ext (canonical_assignInt64 x) ?_
    rw [htoInt, toInt_assignInt64, Bytes.value_append_zeros (by simp), hmagnitude, hbytes, hsign]
    split <;> omega
  have hget : b.getDecimalFromNumeric (b.stored (b.putNumToNumeric P (.int 8 x.toInt)) m) = some ⟨0, assignInt64 x⟩ := by
    rw [getDecimalFromNumeric, hp, ← hx, ← hdecimal, ← hload]
    rfl
  refine ⟨hvalue, hget, ?_⟩
  rw [getInt64FromNumeric, hget]
  rfl

/-- A decimal comes back as the low sixteen bytes of the number `SetScale` makes
of it. -/
theorem putDecimal_spec (outside : DocumentDbOdbc.Outside) (hp : b.getData = some p) (hapart : b.NumericApart)
    (m : Memory.Mem) {value : Common.Decimal} {unscaled : BigInteger} {bytes : List UInt8}
    (hset : (Common.Decimal.setScale outside value .zero 0).magnitude = unscaled) (hc : unscaled.Canonical)
    (hbytes : unscaled.magnitudeToBytes = some bytes) :
    (value.putToNumeric outside b).value = .ok (if 16 < bytes.length then .fractionalTruncated else .success) ∧
      ∃ magnitude : BigInteger,
        b.getDecimalFromNumeric (b.stored (value.putToNumeric outside b) m) = some ⟨0, magnitude⟩ ∧
        magnitude.toInt = unscaled.sign * (Bytes.value bytes.reverse % 2 ^ 128 : Nat) := by
  obtain ⟨hvalue, precision, hload⟩ := putToNumeric_spec outside hp hapart m hset hbytes
  obtain ⟨magnitude, hdecimal, -, htoInt⟩ := SqlNumericStruct.decimal_spec precision (if unscaled.sign < 0 then 0 else 1)
    ((bytes.reverse ++ List.replicate 16 0).take 16) (by simp)
  refine ⟨hvalue, magnitude, ?_, ?_⟩
  · rw [getDecimalFromNumeric, hp, ← hdecimal, ← hload]
    rfl
  · rw [htoInt, Bytes.value_take, Bytes.value_append_zeros (by simp)]
    rcases hc.sign with hs | hs <;> rw [hs] <;> rfl

end

end ApplicationDataBuffer

namespace Common.Decimal

/-! ## The round trip -/

/-- Up to 128 bits the integer part comes back, and beyond them `PutDecimal`
does not report success. -/
def NumericRoundTrip (outside : Outside) (b : ApplicationDataBuffer) (m : Memory.Mem) (d : Decimal) : Prop :=
  SetScaleInBounds outside d 0 ∧ ∃ result, (d.putToNumeric outside b).value = .ok result ∧
    ((truncate d.value).natAbs < 2 ^ 128 →
      ∃ v, b.getDecimalFromNumeric (b.stored (d.putToNumeric outside b) m) = some v ∧ v.value = truncate d.value) ∧
    (2 ^ 128 ≤ (truncate d.value).natAbs → result ≠ .success)

section

variable (outside : Outside) {b : ApplicationDataBuffer} {p : Int} {d : Decimal} {unscaled : BigInteger}

theorem value_of_scale_zero (magnitude : BigInteger) : (⟨0, magnitude⟩ : Decimal).value = magnitude.toInt := by
  rw [value_eq_scaled, scaled]
  simp

/-- The round trip is one of the number `SetScale` makes. -/
theorem numericRoundTrip_iff (hp : b.getData = some p) (hapart : b.NumericApart) (m : Memory.Mem)
    (hset : (setScale outside d zero 0).magnitude = unscaled) (hc : unscaled.Canonical)
    (hsize : (Limbs.value unscaled.mag).size + 7 < 2 ^ 32) :
    NumericRoundTrip outside b m d ↔ SetScaleInBounds outside d 0 ∧
      ((truncate d.value).natAbs < 2 ^ 128 →
        unscaled.sign * (Limbs.value unscaled.mag % 2 ^ 128 : Nat) = truncate d.value) ∧
      (2 ^ 128 ≤ (truncate d.value).natAbs → 2 ^ 128 ≤ Limbs.value unscaled.mag) := by
  obtain ⟨bytes, hbytes, hnumber, hcount⟩ := magnitudeToBytes_spec hc.normalized hsize
  obtain ⟨hvalue, magnitude, hget, htoInt⟩ := ApplicationDataBuffer.putDecimal_spec outside hp hapart m hset hc hbytes
  have hlong : 16 < bytes.length ↔ 2 ^ 128 ≤ Limbs.value unscaled.mag := by
    rw [← Nat.lt_size, hcount]
    omega
  rw [hnumber] at htoInt
  simp only [hlong] at hvalue
  refine and_congr_right fun _ => ?_
  constructor
  · rintro ⟨result, hresult, hback, hlarge⟩
    obtain rfl := Except.ok.inj (hvalue.symm.trans hresult)
    refine ⟨fun hlt => ?_, fun hle => ?_⟩
    · obtain ⟨v, hv, hnumber⟩ := hback hlt
      obtain rfl := Option.some.inj (hget.symm.trans hv)
      rw [value_of_scale_zero] at hnumber
      rw [← htoInt]
      exact_mod_cast hnumber
    · by_contra hnot
      exact hlarge hle (if_neg hnot)
  · rintro ⟨hback, hlarge⟩
    refine ⟨_, hvalue, fun hlt => ⟨_, hget, ?_⟩, fun hle => ?_⟩
    · rw [value_of_scale_zero, htoInt, hback hlt]
    · rw [if_pos (hlarge hle)]
      decide

/-- Where the bits are not counted in 32 bits, only a zero would come back. -/
theorem truncate_eq_zero_of_wrapped (hp : b.getData = some p) (hapart : b.NumericApart) {m : Memory.Mem}
    (hset : (setScale outside d zero 0).magnitude = unscaled) (hc : unscaled.Canonical)
    (hsize : 2 ^ 32 ≤ (Limbs.value unscaled.mag).size + 7) (h : NumericRoundTrip outside b m d) :
    truncate d.value = 0 := by
  obtain ⟨-, result, hresult, hback, hlarge⟩ := h
  rcases magnitudeToBytes_wrapped hc.normalized hsize with hnone | hzero
  · have hfault : d.putToNumeric outside b = raise .outOfRange := by
      unfold putToNumeric
      simp only [hset, hnone]
    rw [hfault] at hresult
    cases hresult
  · obtain ⟨hvalue, magnitude, hget, htoInt⟩ := ApplicationDataBuffer.putDecimal_spec outside hp hapart m hset hc hzero
    have hsuccess : result = .success := Except.ok.inj (hresult.symm.trans hvalue)
    obtain ⟨v, hv, hnumber⟩ := hback (by
      by_contra hle
      exact hlarge (Nat.le_of_not_lt hle) hsuccess)
    obtain rfl := Option.some.inj (hget.symm.trans hv)
    rw [value_of_scale_zero, htoInt] at hnumber
    have hbytes : (Bytes.value [(0 : UInt8)].reverse % 2 ^ 128 : Nat) = 0 := by decide
    rw [hbytes, Nat.cast_zero, Int.mul_zero] at hnumber
    exact_mod_cast hnumber.symm

/-! ### Scale zero -/

/-- `SetScale` leaves a decimal of scale zero where it is, and the zero it should
write. -/
theorem numericRoundTrip_scale_zero (hp : b.getData = some p) (hapart : b.NumericApart) (m : Memory.Mem)
    (h0 : d.scale = 0) : NumericRoundTrip outside b m d ↔ d.magnitude.toInt = 0 := by
  have hset : (setScale outside d zero 0).magnitude = assignInt64 0 := by
    rw [setScale, if_pos h0]
    rfl
  have ht : truncate d.value = d.magnitude.toInt := by
    obtain ⟨scale, magnitude⟩ := d
    obtain rfl : scale = 0 := h0
    rw [value_of_scale_zero, truncate_intCast]
  have hbounds : SetScaleInBounds outside d 0 := by
    rw [SetScaleInBounds, if_pos h0]
    trivial
  have hvalue : Limbs.value (assignInt64 0).mag = 0 := rfl
  rw [numericRoundTrip_iff outside hp hapart m hset canonical_zero (by decide), ht, hvalue, Nat.zero_mod, Nat.cast_zero,
    Int.mul_zero]
  constructor
  · rintro ⟨-, hback, hlarge⟩
    by_cases hlt : d.magnitude.toInt.natAbs < 2 ^ 128
    · exact (hback hlt).symm
    · exact absurd (hlarge (Nat.le_of_not_lt hlt)) (by decide)
  · intro hzero
    rw [hzero]
    exact ⟨hbounds, fun _ => rfl, fun hle => absurd hle (by decide)⟩

/-! ### Other scales -/

theorem scale_fits (d : Decimal) : -2 ^ 31 ≤ d.scale.toInt - (0 : Int32).toInt ∧ d.scale.toInt - (0 : Int32).toInt < 2 ^ 31 := by
  have := d.scale.le_toInt
  have := d.scale.toInt_lt
  rw [Int32.toInt_zero]
  omega

/-- Where rescaling is exact, the number comes back if its bits are counted. -/
theorem numericRoundTrip_exact (hp : b.getData = some p) (hapart : b.NumericApart) (m : Memory.Mem)
    (hc : d.magnitude.Canonical) (h0 : d.scale ≠ 0) (hexact : RescaleExact d 0) :
    NumericRoundTrip outside b m d ↔ (truncate d.value).natAbs.size + 7 < 2 ^ 32 := by
  obtain ⟨hbounds, hnormal, htoInt, hzero⟩ := rescaled_magnitude outside zero hc.normal (scale_fits d).1 (scale_fits d).2 h0
    hexact
  rw [value_mul_one] at htoInt
  have hcanonical : (setScale outside d zero 0).magnitude.Canonical :=
    ⟨hnormal.sign, hnormal.normalized, hzero.mpr fun hnil => .inl (hc.zero hnil)⟩
  have habs : (truncate d.value).natAbs = Limbs.value (setScale outside d zero 0).magnitude.mag := by
    rw [← htoInt, hnormal.natAbs_toInt]
  constructor
  · intro h
    by_contra hnot
    have hz := truncate_eq_zero_of_wrapped outside hp hapart rfl hcanonical (by rw [← habs]; omega) h
    rw [hz] at hnot
    exact hnot (by decide)
  · intro hsize
    rw [numericRoundTrip_iff outside hp hapart m rfl hcanonical (by rwa [← habs]), ← habs]
    refine ⟨hbounds, fun hlt => ?_, id⟩
    rw [Nat.mod_eq_of_lt hlt, ← htoInt, hnormal.natAbs_toInt, toInt]

/-- A division that goes wrong below 128 bits does not bring the number back. -/
theorem numericRoundTrip_inexact (hp : b.getData = some p) (hapart : b.NumericApart) (m : Memory.Mem)
    (hc : d.magnitude.Canonical) (hpos : 0 < d.scale.toInt) (hexact : ¬ RescaleExact d 0)
    (hsmall : (truncate d.value).natAbs + 2 ^ 65 < 2 ^ 128) : ¬ NumericRoundTrip outside b m d := by
  intro h
  have hlt : (0 : Int32).toInt < d.scale.toInt := by rwa [Int32.toInt_zero]
  obtain ⟨hcanonical, hsign, -, hlimbs⟩ := setScale_down_bounds outside zero hc.normal (scale_fits d).2 hlt h.1
    (congrArg (fun q => (truncate q).natAbs) (value_mul_one d))
  have hfour := hlimbs 4 (by omega)
  have hsize := Nat.size_le.mpr (show Limbs.value (setScale outside d zero 0).magnitude.mag < 2 ^ 128 from hfour)
  obtain ⟨hbounds, hback, -⟩ := (numericRoundTrip_iff outside hp hapart m rfl hcanonical (by omega)).mp h
  refine hexact ((setScale_down_iff outside zero hc.normal (scale_fits d).2 hlt).mp ⟨hbounds, ?_⟩)
  have ht := truncate_value d (0 : Int32).toInt
  rw [value_mul_one, if_pos hlt] at ht
  have hnumber := hback (by omega)
  rwa [Nat.mod_eq_of_lt (show Limbs.value (setScale outside d zero 0).magnitude.mag < 2 ^ 128 from hfour), ht,
    ← toInt] at hnumber

/-- Beyond 128 bits a quotient is not given less, whatever its estimates. -/
theorem numericRoundTrip_large (hp : b.getData = some p) (hapart : b.NumericApart) (m : Memory.Mem)
    (hc : d.magnitude.Canonical) (hpos : 0 < d.scale.toInt) (hlarge : 128 < (truncate d.value).natAbs.size)
    (hsize : (truncate d.value).natAbs.size + 32 < 2 ^ 32) :
    NumericRoundTrip outside b m d ↔ d.magnitude.mag.length ≤ 2 ∨ 10 ≤ d.scale := by
  have hlt : (0 : Int32).toInt < d.scale.toInt := by rwa [Int32.toInt_zero]
  have hinside := setScaleInBounds_down_iff outside hc.normal (scale_fits d).2 hlt
  rw [Int32.sub_zero] at hinside
  rw [← hinside]
  refine ⟨fun h => h.1, fun hbounds => ?_⟩
  obtain ⟨hcanonical, hsign, hle, hlimbs⟩ := setScale_down_bounds outside zero hc.normal (scale_fits d).2 hlt hbounds
    (congrArg (fun q => (truncate q).natAbs) (value_mul_one d))
  have hbits : 2 ^ 128 ≤ (truncate d.value).natAbs := Nat.lt_size.mp hlarge
  have hself := Nat.lt_size_self (truncate d.value).natAbs
  -- One limb more than the bits fill has room for a bit more.
  have hlimb : (2 ^ 32) ^ ((truncate d.value).natAbs.size / 32 + 1) =
      2 ^ (32 * ((truncate d.value).natAbs.size / 32 + 1)) := (Nat.pow_mul ..).symm
  have hroom : 2 * 2 ^ (truncate d.value).natAbs.size ≤ 2 ^ (32 * ((truncate d.value).natAbs.size / 32 + 1)) := by
    rw [← Nat.pow_succ']
    exact Nat.pow_le_pow_right (by decide) (by omega)
  have hfit := hlimbs ((truncate d.value).natAbs.size / 32 + 1) (by rw [hlimb]; omega)
  rw [hlimb] at hfit
  have hcount := Nat.size_le.mpr hfit
  exact (numericRoundTrip_iff outside hp hapart m rfl hcanonical (by omega)).mpr
    ⟨hbounds, fun hless => by omega, fun _ => hbits.trans hle⟩

end

/-- The numbers `PutDecimal` has right. A scale of zero leaves a zero. Otherwise
the bits, and seven more, are counted in 32 bits, and `SetScale` is right; beyond
128 bits it may also be wrong, if it stays inside its arrays. -/
def NumericExact (d : Decimal) : Prop :=
  let size := (truncate d.value).natAbs.size
  if d.scale = 0 then d.magnitude.toInt = 0
  else size + 7 < 2 ^ 32 ∧ (RescaleExact d 0 ∨ 10 ≤ d.scale ∧ 128 < size ∧ size + 32 < 2 ^ 32)

/-- Within `2 ^ 65` below `2 ^ 128`, or with almost `2 ^ 32` bits. -/
def NearLimit (t : Nat) : Prop := t < 2 ^ 128 ∧ 2 ^ 128 ≤ t + 2 ^ 65 ∨ 2 ^ 32 ≤ t.size + 32

/-- A decimal. -/
theorem decimal_numericRoundTrip (outside : Outside) {b : ApplicationDataBuffer} {p : Int} (hp : b.getData = some p)
    (hapart : b.NumericApart) (m : Memory.Mem) {d : Decimal} (hc : d.magnitude.Canonical) :
    (NumericExact d → NumericRoundTrip outside b m d) ∧
      ((0 < d.scale → ¬ NearLimit (truncate d.value).natAbs) → NumericRoundTrip outside b m d → NumericExact d) := by
  unfold NumericExact
  dsimp only
  by_cases h0 : d.scale = 0
  · rw [if_pos h0, numericRoundTrip_scale_zero outside hp hapart m h0]
    exact ⟨id, fun _ => id⟩
  rw [if_neg h0]
  by_cases hexact : RescaleExact d 0
  · rw [numericRoundTrip_exact outside hp hapart m hc h0 hexact]
    exact ⟨fun h => h.1, fun _ h => ⟨h, .inl hexact⟩⟩
  rcases Int.lt_or_gt_of_ne (mt Int32.toInt_inj.mp h0) with hlt | hgt
  · -- A smaller scale stays inside the table of powers exactly when it is right.
    obtain ⟨hbounds, hup⟩ := setScale_up_iff outside (scale_fits d).1 hlt
    have hneg : ¬ 10 ≤ d.scale := fun hle => by
      have hpos := Int32.lt_iff_toInt_lt.mp (Int32.lt_of_lt_of_le (by decide : (0 : Int32) < 10) hle)
      omega
    refine ⟨fun h => ?_, fun _ h => absurd (hup.mpr (hbounds.mp h.1)) hexact⟩
    rcases h.2 with h | h
    · exact absurd h hexact
    · exact absurd h.1 hneg
  · have hpos : 0 < d.scale.toInt := hgt
    refine ⟨fun ⟨_, h⟩ => ?_, fun hfar h => ?_⟩
    · obtain ⟨hten, hlarge, hsize⟩ := h.resolve_left hexact
      exact (numericRoundTrip_large outside hp hapart m hc hpos hlarge hsize).mpr (.inr hten)
    · have hfar := hfar (Int32.lt_iff_toInt_lt.mpr hgt)
      rw [NearLimit, not_or, not_and, Nat.not_le, Nat.not_le] at hfar
      rcases Nat.lt_or_ge (truncate d.value).natAbs (2 ^ 128) with hless | hmore
      · exact absurd h (numericRoundTrip_inexact outside hp hapart m hc hpos hexact (hfar.1 hless))
      · have hlarge := Nat.lt_size.mpr hmore
        have hten := ((numericRoundTrip_large outside hp hapart m hc hpos hlarge hfar.2).mp h).resolve_left fun hshort =>
          hexact (by
            rw [RescaleExact, if_pos ((diff_pos_iff (scale_fits d).1 (scale_fits d).2).mpr hgt)]
            exact .inl hshort)
        exact ⟨by omega, .inr ⟨hten, hlarge, hfar.2⟩⟩

/-- **`AI_NUMERIC`.** A decimal is put right under just that condition, but for a
division that goes wrong near the two limits; an integer comes back as a decimal,
and as an integer where `ToInt64` has it right. -/
theorem numeric_round_trip_iff (outside : Outside) (P : Platform) {b : ApplicationDataBuffer} {p : Int}
    (hb : b.type = .numeric) (hp : b.getData = some p) (hapart : b.NumericApart) (m : Memory.Mem) :
    (∀ d : Decimal, d.magnitude.Canonical → NumericExact d → NumericRoundTrip outside b m d) ∧
    (∀ d : Decimal, d.magnitude.Canonical → (0 < d.scale → ¬ NearLimit (truncate d.value).natAbs) →
      (NumericRoundTrip outside b m d ↔ NumericExact d)) ∧
    ∀ x : Int64, (b.put P (.num (some (.int 8 x.toInt)))).value = .ok .success ∧
      b.getDecimalFromNumeric (b.after P (.num (some (.int 8 x.toInt))) m) = some ⟨0, assignInt64 x⟩ ∧
      (b.getInt64FromNumeric outside (b.after P (.num (some (.int 8 x.toInt))) m) = some x ↔
        -2 ^ 32 ≤ x.toInt ∨ 2 ^ 32 ∣ x.toInt) := by
  refine ⟨fun d hc => (decimal_numericRoundTrip outside hp hapart m hc).1, fun d hc hfar => ?_, fun x => ?_⟩
  · obtain ⟨hput, hget⟩ := decimal_numericRoundTrip outside hp hapart m hc
    exact ⟨hget hfar, hput⟩
  · have hput : b.put P (.num (some (.int 8 x.toInt))) = b.putNumToNumeric P (.int 8 x.toInt) := by
      rw [ApplicationDataBuffer.put, Option.elim_some, ApplicationDataBuffer.putNum, hb]
    have hafter : b.after P (.num (some (.int 8 x.toInt))) m = b.stored (b.putNumToNumeric P (.int 8 x.toInt)) m := by
      rw [ApplicationDataBuffer.after, hput, ApplicationDataBuffer.stored]
    obtain ⟨hvalue, hdecimal, hint⟩ := ApplicationDataBuffer.putInt64_spec outside P hp hapart m x
    have hnarrow := BigInteger.toInt_toInt64 (canonical_assignInt64 x).normal
      (by rw [toInt_assignInt64]; exact x.le_toInt) (by rw [toInt_assignInt64]; exact x.toInt_lt)
    rw [toInt_assignInt64, Int64.toInt_inj] at hnarrow
    rw [hput, hafter, hint, Option.some.injEq]
    exact ⟨hvalue, hdecimal, hnarrow.trans (and_iff_right (canonical_assignInt64 x).zero)⟩

/-- `-123.45` is `-123` in the buffer. -/
theorem numeric_round_trip_iff_negative :
    let b : ApplicationDataBuffer := ⟨.numeric, some 100, 19, some 200, 0, 0, by decide⟩
    NumericRoundTrip .zeros b (fun _ => 0) ⟨2, assignInt64 (-12345)⟩ := by
  intro b
  have ht : truncate (⟨2, assignInt64 (-12345)⟩ : Decimal).value = -123 := by
    rw [← value_mul_one, truncate_value]
    decide
  have hapart : b.NumericApart := by
    intro p hp r hr
    obtain rfl : 100 = p := Option.some.inj hp
    obtain rfl : 200 = r := Option.some.inj hr
    decide
  refine ((numeric_round_trip_iff .zeros .unixOdbc (b := b) rfl rfl hapart fun _ => 0).2.1 ⟨2, assignInt64 (-12345)⟩
    (canonical_assignInt64 (-12345)) fun _ => ?_).mpr ?_
  · rw [ht]
    rintro (h | h)
    · exact absurd h.2 (by decide)
    · exact absurd h (by decide)
  · rw [NumericExact, ht, if_neg (by decide)]
    exact ⟨by decide, .inl (.inl (by decide))⟩

/-- **A decimal of scale zero**: `5` is zero in the buffer, and reported as a
success. `-4294967297` comes back as `-1`. -/
theorem numeric_not_round_trip :
    let b : ApplicationDataBuffer := ⟨.numeric, some 100, 19, some 200, 0, 0, by decide⟩
    let five : Decimal := ⟨0, assignInt64 5⟩
    ((five.putToNumeric .zeros b).value = .ok .success ∧
      b.getDecimalFromNumeric (b.stored (five.putToNumeric .zeros b) fun _ => 7) = some zero ∧
      ¬ NumericRoundTrip .zeros b (fun _ => 7) five) ∧
    b.getInt64FromNumeric .zeros (b.after .unixOdbc (.num (some (.int 8 (-4294967297)))) fun _ => 7) = some (-1) := by
  intro b five
  have hget : b.getDecimalFromNumeric (b.stored (five.putToNumeric .zeros b) fun _ => 7) = some zero := by decide
  have ht : truncate five.value = 5 := by
    rw [← value_mul_one, truncate_value]
    decide
  refine ⟨⟨by decide, hget, fun h => ?_⟩, by decide +kernel⟩
  obtain ⟨-, result, -, hback, -⟩ := h
  obtain ⟨v, hv, hvalue⟩ := hback (by rw [ht]; decide)
  obtain rfl := Option.some.inj (hget.symm.trans hv)
  have hzero : zero.value = (0 : Int) := value_of_scale_zero (assignInt64 0)
  rw [ht, hzero] at hvalue
  exact absurd (Int.cast_injective hvalue) (by decide)

end Common.Decimal

end DocumentDbOdbc
