/-
Numbers in the elements of an array: `PutInt8` to `PutInt64`, and `GetInt8` to
`GetInt64`.

Three tables tell the bytes of a C type: `GetElementSize`, the types `PutNum`
stores and those `GetNum` loads. The third has `long` where the others have
`SQLINTEGER`, so where a `long` has eight bytes `GetInt64` takes four of them
from the next element (`getNum_reads_element_iff`).
-/
import DocumentDbOdbc.GuidBuffer
import DocumentDbOdbc.NumericBuffer
import DocumentDbOdbc.Lib.FloatFormat

namespace DocumentDbOdbc

open Effect BigInteger

/-- `sizeof(long)` on an LP64 platform. -/
def sizeofLong : Nat := 8

namespace ApplicationDataBuffer

/-! ## Reading -/

/-- The branches of `GetString` for texts. -/
def getText (P : Platform) (b : ApplicationDataBuffer) (m : Memory.Mem) (maxLen : Nat) : Except Fault Str :=
  let paramLen := b.getInputSize m
  if paramLen = 0 then .ok []
  else
    let res := if b.type = .wchar then Utility.sqlWcharToString P m b.getData (.ofInt paramLen)
      else some (Utility.sqlCharToString m b.getData (.ofInt paramLen))
    match res with
    | none => .error .exception
    | some res => .ok (res.take maxLen)

/-- A load through the data pointer. -/
def load (b : ApplicationDataBuffer) (f : Int → Int) : Except Fault Int :=
  match b.getData with
  | none => .error .nullPointer
  | some p => .ok (f p)

/-- `GetNum` for a signed integer type of `T` bytes. Into a type of one byte a
stream would extract a character, so a `short` is extracted first. -/
def getNum (P : Platform) (outside : DocumentDbOdbc.Outside) (T : Nat) (b : ApplicationDataBuffer) (m : Memory.Mem) :
    Except Fault Int :=
  match b.type with
  | .char | .wchar =>
    let paramLen := b.getInputSize m
    if paramLen = 0 then .ok 0
    else
      match b.getText P m (sizeT paramLen) with
      | .error e => .error e
      | .ok str =>
        .ok (if T = 1 then castInteger T true (streamInt (-32768) 32767 P.indeterminate str)
          else streamInt (-(256 ^ T / 2)) (256 ^ T / 2 - 1) 0 str)
  | .signedTinyint => b.load fun p => castInteger T true (readInteger m p 1 true)
  | .bit | .unsignedTinyint => b.load fun p => castInteger T true (readInteger m p 1 false)
  | .signedShort => b.load fun p => castInteger T true (readInteger m p 2 true)
  | .unsignedShort => b.load fun p => castInteger T true (readInteger m p 2 false)
  | .signedLong => b.load fun p => castInteger T true (readInteger m p sizeofLong true)
  | .unsignedLong => b.load fun p => castInteger T true (readInteger m p sizeofLong false)
  | .signedBigint => b.load fun p => castInteger T true (readInteger m p 8 true)
  | .unsignedBigint => b.load fun p => castInteger T true (readInteger m p 8 false)
  | .float => b.load fun p => P.floatToInt T true (.ofNat (Bytes.value (Memory.read m p 4)))
  | .double => b.load fun p => P.doubleToInt T true (.ofNat (Bytes.value (Memory.read m p 8)))
  | .numeric =>
    match b.getInt64FromNumeric outside m with
    | none => .error .nullPointer
    | some res => .ok (castInteger T true res.toInt)
  | _ => .ok 0

end ApplicationDataBuffer

/-! ## Integers in the C types -/

/-- The integers an object of the C type can be. -/
def OdbcNativeType.Represents (type : OdbcNativeType) (v : Int) : Prop :=
  match type with
  | .float => ∃ x, FloatFormat.single.Denotes x v
  | .double => ∃ x, FloatFormat.double.Denotes x v
  | .numeric => v.natAbs < 2 ^ 128
  | type => ∃ c ∈ type.integer, Fits c.1 c.2 v

/-- What the language promises of conversions: an integer that is a number of
the floating-point type is converted to it, and back if it is one of the
integer type. -/
structure Platform.ConvertsIntegers (P : Platform) : Prop where
  intToFloat : ∀ v, (∃ x, FloatFormat.single.Denotes x v) → FloatFormat.single.Denotes (P.intToFloat v).toNat v
  intToDouble : ∀ v, (∃ x, FloatFormat.double.Denotes x v) → FloatFormat.double.Denotes (P.intToDouble v).toNat v
  floatToInt : ∀ size signed x v, FloatFormat.single.Denotes x.toNat v → Fits size signed v → P.floatToInt size signed x = v
  doubleToInt : ∀ size signed x v, FloatFormat.double.Denotes x.toNat v → Fits size signed v → P.doubleToInt size signed x = v

/-- A cast to fewer bytes does not see the others. -/
theorem castInteger_congr {size : Nat} (signed : Bool) {v w : Int} (h : v % 256 ^ size = w % 256 ^ size) :
    castInteger size signed v = castInteger size signed w := by
  unfold castInteger
  split
  · have hcast : ∀ x : Int, x.bmod (256 ^ size) = (x % 256 ^ size).bmod (256 ^ size) := fun x => by
      exact_mod_cast (Int.emod_bmod x (256 ^ size)).symm
    rw [hcast v, hcast w, h]
  · exact h

theorem readInteger_emod (m : Memory.Mem) (a : Int) (size : Nat) (signed : Bool) :
    readInteger m a size signed % 256 ^ size = Bytes.value (Memory.read m a size) := by
  have hlt := Bytes.value_lt (Memory.read m a size)
  rw [Memory.length_read] at hlt
  have hmod : (Bytes.value (Memory.read m a size) : Int) % 256 ^ size = Bytes.value (Memory.read m a size) :=
    Int.emod_eq_of_lt (Int.natCast_nonneg _) (by exact_mod_cast hlt)
  cases signed with
  | true =>
    have hbmod : (Bytes.value (Memory.read m a size) : Int).bmod (256 ^ size) % 256 ^ size =
        Bytes.value (Memory.read m a size) % 256 ^ size := by
      exact_mod_cast Int.bmod_emod
    rw [readInteger, if_pos rfl, Bytes.signedValue, Memory.length_read, hbmod, hmod]
  | false => rw [readInteger, if_neg (by decide), hmod]

/-- A cast to `T` bytes is the same of any number of bytes from `T` on. -/
theorem castInteger_readInteger (m : Memory.Mem) (a : Int) {T size n : Nat} (hT : T ≤ size) (hsize : size ≤ n) (signed : Bool) :
    castInteger T true (readInteger m a n signed) = castInteger T true (readInteger m a size signed) := by
  have hdvd : ∀ {k l : Nat}, k ≤ l → (256 : Int) ^ k ∣ 256 ^ l := fun h => pow_dvd_pow 256 h
  obtain ⟨k, rfl⟩ := Nat.exists_eq_add_of_le hsize
  refine castInteger_congr true ?_
  have hsplit : (Bytes.value (Memory.read m a (size + k)) : Int) % 256 ^ size = Bytes.value (Memory.read m a size) := by
    have hlt := Bytes.value_lt (Memory.read m a size)
    rw [Memory.length_read] at hlt
    rw [Memory.read_add, Bytes.value_append, Memory.length_read]
    exact_mod_cast (Nat.add_mul_mod_self_left _ _ _).trans (Nat.mod_eq_of_lt hlt)
  rw [← Int.emod_emod_of_dvd (readInteger m a (size + k) signed) (hdvd (hT.trans hsize)), readInteger_emod,
    ← Int.emod_emod_of_dvd (readInteger m a size signed) (hdvd hT), readInteger_emod, ← hsplit,
    Int.emod_emod_of_dvd _ (hdvd hT)]

namespace ApplicationDataBuffer

variable {P : Platform} {outside : DocumentDbOdbc.Outside} {b : ApplicationDataBuffer} {p : Int} {T size : Nat}
  {signed : Bool} {v : Int}

theorem load_congr {f g : Int → Int} (h : ∀ p ∈ b.getData, f p = g p) : b.load f = b.load g := by
  unfold load
  cases hp : b.getData with
  | none => rfl
  | some p => exact congrArg Except.ok (h p hp)

theorem load_of_getData (hp : b.getData = some p) (f : Int → Int) : b.load f = .ok (f p) := by
  rw [load, hp]

theorem getElementSize_integer (hb : b.type.integer = some (size, signed)) : b.getElementSize = size := by
  unfold getElementSize
  cases ht : b.type with
  | signedTinyint | bit | unsignedTinyint | signedShort | unsignedShort | signedLong | unsignedLong | signedBigint
  | unsignedBigint =>
    rw [ht] at hb
    obtain ⟨rfl, rfl⟩ := Prod.mk.inj (Option.some.inj hb)
    rfl
  | _ =>
    rw [ht] at hb
    cases hb

/-! ## What is read -/

/-- An integer is read from its own bytes if not four of a `long` are another's. -/
theorem getNum_integer (hb : b.type.integer = some (size, signed))
    (hlong : b.type = .signedLong ∨ b.type = .unsignedLong → T ≤ 4) (m : Memory.Mem) :
    b.getNum P outside T m = b.load fun p => castInteger T true (readInteger m p size signed) := by
  unfold getNum
  cases ht : b.type with
  | signedLong | unsignedLong =>
    rw [ht] at hb
    obtain ⟨rfl, rfl⟩ := Prod.mk.inj (Option.some.inj hb)
    exact load_congr fun p _ => castInteger_readInteger m p (hlong (by simp [ht])) (by decide) _
  | signedTinyint | bit | unsignedTinyint | signedShort | unsignedShort | signedBigint | unsignedBigint =>
    rw [ht] at hb
    obtain ⟨rfl, rfl⟩ := Prod.mk.inj (Option.some.inj hb)
    rfl
  | _ =>
    rw [ht] at hb
    cases hb

theorem getNum_float (hb : b.type = .float) (m : Memory.Mem) :
    b.getNum P outside T m = b.load fun p => P.floatToInt T true (.ofNat (Bytes.value (Memory.read m p 4))) := by
  rw [getNum, hb]

theorem getNum_double (hb : b.type = .double) (m : Memory.Mem) :
    b.getNum P outside T m = b.load fun p => P.doubleToInt T true (.ofNat (Bytes.value (Memory.read m p 8))) := by
  rw [getNum, hb]

theorem getNum_long (hb : b.type = .signedLong ∨ b.type = .unsignedLong) (m : Memory.Mem) :
    b.getNum P outside T m = b.load fun p => castInteger T true (readInteger m p sizeofLong (b.type = .signedLong)) := by
  unfold getNum
  rcases hb with hb | hb <;> simp only [hb] <;> rfl

/-- A number is read from the nineteen bytes of the structure. -/
theorem getNum_numeric_congr (hb : b.type = .numeric) {m m' : Memory.Mem}
    (h : ∀ p ∈ b.getData, ∀ a, p ≤ a → a < p + 19 → m a = m' a) :
    b.getNum P outside T m = b.getNum P outside T m' := by
  have hget : b.getInt64FromNumeric outside m = b.getInt64FromNumeric outside m' := by
    unfold getInt64FromNumeric getDecimalFromNumeric
    cases hp : b.getData with
    | none => rfl
    | some p =>
      have hload : SqlNumericStruct.load m p = SqlNumericStruct.load m' p := SqlNumericStruct.load_congr (h p hp)
      simp only [Option.bind_eq_bind, Option.bind_some, hload]
  unfold getNum
  rw [hb]
  dsimp only
  rw [hget]

/-! ## What is stored -/

/-- The number is stored in the element. -/
theorem putNum_represents_within (h : b.type.Represents v) :
    All (Store.Within b.getElementSize.toNat) (b.putNum P (.int T v)) := by
  unfold getElementSize putNum
  cases ht : b.type with
  | signedTinyint | bit | unsignedTinyint | signedShort | unsignedShort | signedLong | unsignedLong | signedBigint
  | unsignedBigint | float | double => exact putNumToNumBuffer_within _ (length_leBytes ..).le
  | numeric => exact putNumToNumeric_within _ (Nat.le_refl 19)
  | _ =>
    rw [ht] at h
    obtain ⟨c, hc, -⟩ := h
    cases hc

/-- What is neither in the data nor in the indicator stays as it is. -/
theorem read_stored_of_within {x : Put} {n k : Nat} {q : Int} (hx : All (Store.Within n) x)
    (hdata : ∀ p ∈ b.getData, p + n ≤ q ∨ q + k ≤ p) (hlen : ∀ r ∈ b.getResLen, r + 8 ≤ q ∨ q + k ≤ r) (m : Memory.Mem) :
    Memory.read (b.stored x m) q k = Memory.read m q k := by
  refine Memory.read_writes_of_disjoint m fun w hw => ?_
  obtain ⟨s, hs, hres⟩ := List.mem_filterMap.mp hw
  have hwithin := hx s hs
  unfold Store.Within at hwithin
  cases hr : s.region with
  | data =>
    obtain ⟨p, hp, rfl⟩ := resolve_data hr hres
    rw [hr] at hwithin
    have := hdata p hp
    dsimp only at hwithin ⊢
    omega
  | indicator =>
    obtain ⟨r, hp, rfl⟩ := resolve_indicator hr hres
    rw [hr] at hwithin
    have := hlen r hp
    dsimp only at hwithin ⊢
    omega

/-- Two elements of an array have no byte in common. -/
theorem elements_apart {k : Nat} (hk : k ≠ b.elementOffset) (hsize : 0 ≤ b.getElementSize) (hp : b.getData = some p) {q : Int}
    (hq : { b with elementOffset := k }.getData = some q) : p + b.getElementSize ≤ q ∨ q + b.getElementSize ≤ p := by
  obtain ⟨base, hbase, rfl⟩ := Option.map_eq_some_iff.mp hp
  obtain ⟨base', hbase', rfl⟩ := Option.map_eq_some_iff.mp hq
  obtain rfl : base = base' := Option.some.inj (hbase.symm.trans hbase')
  have hsame : { b with elementOffset := k }.getElementSize = b.getElementSize := rfl
  rw [hsame]
  rcases Nat.lt_or_gt_of_ne hk with hlt | hgt
  · have := Int.mul_le_mul_of_nonneg_left (show (k : Int) + 1 ≤ b.elementOffset by omega) hsize
    rw [Int.mul_add, Int.mul_one] at this
    dsimp only
    omega
  · have := Int.mul_le_mul_of_nonneg_left (show (b.elementOffset : Int) + 1 ≤ k by omega) hsize
    rw [Int.mul_add, Int.mul_one] at this
    dsimp only
    omega

/-! ## Round trips -/

theorem getNum_putNum_integer (hb : b.type.integer = some (size, signed))
    (hlong : b.type = .signedLong ∨ b.type = .unsignedLong → T ≤ 4) (hp : b.getData = some p) (hapart : b.Apart size)
    (hv : Fits T true v) (hfits : Fits size signed v) (m : Memory.Mem) :
    b.getNum P outside T (b.stored (b.putNum P (.int T v)) m) = .ok v := by
  have hlen : b.Apart (leBytes size v).length := by rwa [length_leBytes]
  have hread := read_putNumToNumBuffer hp hlen m
  rw [length_leBytes] at hread
  rw [getNum_integer hb hlong, load_of_getData hp, putNum_integer hb, Num.toInt, readInteger_of_read signed hread,
    castInteger_of_fits hfits, castInteger_of_fits hv]

theorem getNum_putNum_float (hP : P.ConvertsIntegers) (hb : b.type = .float) (hp : b.getData = some p) (hapart : b.Apart 4)
    (hv : Fits T true v) (hnumber : ∃ x, FloatFormat.single.Denotes x v) (m : Memory.Mem) :
    b.getNum P outside T (b.stored (b.putNum P (.int T v)) m) = .ok v := by
  have hput : b.putNum P (.int T v) = b.putNumToNumBuffer (leBytes 4 (P.intToFloat v).toNat) := by
    rw [putNum, hb]
    rfl
  have hlen : b.Apart (leBytes 4 (P.intToFloat v).toNat).length := hapart
  have hread := read_putNumToNumBuffer hp hlen m
  rw [length_leBytes] at hread
  have hlt := (P.intToFloat v).toNat_lt
  rw [getNum_float hb, load_of_getData hp, hput, hread, value_leBytes_natCast, Nat.mod_eq_of_lt (by omega),
    UInt32.ofNat_toNat, hP.floatToInt T true _ v (hP.intToFloat v hnumber) hv]

theorem getNum_putNum_double (hP : P.ConvertsIntegers) (hb : b.type = .double) (hp : b.getData = some p)
    (hapart : b.Apart 8) (hv : Fits T true v) (hnumber : ∃ x, FloatFormat.double.Denotes x v) (m : Memory.Mem) :
    b.getNum P outside T (b.stored (b.putNum P (.int T v)) m) = .ok v := by
  have hput : b.putNum P (.int T v) = b.putNumToNumBuffer (leBytes 8 (P.intToDouble v).toNat) := by
    rw [putNum, hb]
    rfl
  have hlen : b.Apart (leBytes 8 (P.intToDouble v).toNat).length := hapart
  have hread := read_putNumToNumBuffer hp hlen m
  rw [length_leBytes] at hread
  have hlt := (P.intToDouble v).toNat_lt
  rw [getNum_double hb, load_of_getData hp, hput, hread, value_leBytes_natCast, Nat.mod_eq_of_lt (by omega),
    UInt64.ofNat_toNat, hP.doubleToInt T true _ v (hP.intToDouble v hnumber) hv]

/-- `ToInt64` is between what is stored in the structure and what is read. -/
theorem getNum_putNum_numeric (hb : b.type = .numeric) (hp : b.getData = some p) (hapart : b.Apart 19) (h8 : Fits 8 true v)
    (m : Memory.Mem) : b.getNum P outside T (b.stored (b.putNum P (.int T v)) m) =
      .ok (castInteger T true (assignInt64 (.ofInt v)).toInt64.toInt) := by
  rw [fits_eight] at h8
  have hx : (Int64.ofInt v).toInt = v := Int64.toInt_ofInt_of_le (by omega) (by omega)
  have hput : b.putNum P (.int T v) = b.putNumToNumeric P (.int 8 (Int64.ofInt v).toInt) := by
    rw [putNum, hb, hx]
    rfl
  obtain ⟨-, -, hget⟩ := putInt64_spec outside P hp hapart m (.ofInt v)
  unfold getNum
  rw [hb]
  dsimp only
  rw [hput, hget]

theorem toInt64_assignInt64 (h8 : Fits 8 true v) :
    (assignInt64 (.ofInt v)).toInt64.toInt = v ↔ -2 ^ 32 ≤ v ∨ 2 ^ 32 ∣ v := by
  rw [fits_eight] at h8
  have hx : (assignInt64 (.ofInt v)).toInt = v :=
    (toInt_assignInt64 _).trans (Int64.toInt_ofInt_of_le (by omega) (by omega))
  have hc := canonical_assignInt64 (.ofInt v)
  have hiff := BigInteger.toInt_toInt64 hc.normal (by rw [hx]; omega) (by rw [hx]; omega)
  rw [hx] at hiff
  exact hiff.trans (and_iff_right hc.zero)

/-! ## Elements of an array -/

/-- What `GetNum` of `T` bytes returns is in the element, a number that was put
there comes back, and putting it leaves the other elements alone. -/
structure ReadsElement (P : Platform) (outside : DocumentDbOdbc.Outside) (type : OdbcNativeType) (T : Nat) (v : Int) :
    Prop where
  within : ∀ b : ApplicationDataBuffer, b.type = type → ∀ m m' : Memory.Mem,
    (∀ p ∈ b.getData, ∀ a, p ≤ a → a < p + b.getElementSize → m a = m' a) →
    b.getNum P outside T m = b.getNum P outside T m'
  back : ∀ b : ApplicationDataBuffer, b.type = type → b.getData.isSome → b.Apart b.getElementSize.toNat →
    ∀ m, b.getNum P outside T (b.after P (.num (some (.int T v))) m) = .ok v
  others : ∀ b : ApplicationDataBuffer, b.type = type → ∀ k ≠ b.elementOffset,
    ∀ q ∈ { b with elementOffset := k }.getData, (∀ r ∈ b.getResLen, r + 8 ≤ q ∨ q + b.getElementSize ≤ r) →
    ∀ m, Memory.read (b.after P (.num (some (.int T v))) m) q b.getElementSize.toNat =
      Memory.read m q b.getElementSize.toNat

/-- `GetInt64` of a `long`, and of a number that `ToInt64` does not narrow. -/
def Misread (type : OdbcNativeType) (T : Nat) (v : Int) : Prop :=
  T = 8 ∧ (type = .signedLong ∨ type = .unsignedLong ∨ type = .numeric ∧ ¬ (-2 ^ 32 ≤ v ∨ 2 ^ 32 ∣ v))

instance (type : OdbcNativeType) (T : Nat) (v : Int) : Decidable (Misread type T v) := by
  unfold Misread
  infer_instance

variable {type : OdbcNativeType}

theorem represents_cases (h : type.Represents v) :
    (type = .float ∧ ∃ x, FloatFormat.single.Denotes x v) ∨ (type = .double ∧ ∃ x, FloatFormat.double.Denotes x v) ∨
      type = .numeric ∨ ∃ size signed, type.integer = some (size, signed) ∧ Fits size signed v := by
  unfold OdbcNativeType.Represents at h
  split at h
  · exact .inl ⟨rfl, h⟩
  · exact .inr (.inl ⟨rfl, h⟩)
  · exact .inr (.inr (.inl rfl))
  · obtain ⟨⟨size, signed⟩, hc, hfits⟩ := h
    exact .inr (.inr (.inr ⟨size, signed, hc, hfits⟩))

theorem others_unchanged (h : type.Represents v) (hb : b.type = type) {k : Nat} (hk : k ≠ b.elementOffset) {q : Int}
    (hq : { b with elementOffset := k }.getData = some q)
    (hlen : ∀ r ∈ b.getResLen, r + 8 ≤ q ∨ q + b.getElementSize ≤ r) (m : Memory.Mem) :
    Memory.read (b.stored (b.putNum P (.int T v)) m) q b.getElementSize.toNat =
      Memory.read m q b.getElementSize.toNat := by
  have hsize : 0 ≤ b.getElementSize := by
    rcases represents_cases h with ⟨rfl, -⟩ | ⟨rfl, -⟩ | rfl | ⟨size, signed, hc, -⟩
    · simp [getElementSize, hb]
    · simp [getElementSize, hb]
    · simp [getElementSize, hb]
    · rw [getElementSize_integer (hb ▸ hc)]
      omega
  refine read_stored_of_within (putNum_represents_within (hb ▸ h)) (fun p hp => ?_) (fun r hr => ?_) m
  · have := elements_apart hk hsize hp hq
    omega
  · have := hlen r hr
    omega

/-- The bytes of the element decide. -/
theorem getNum_within (h : type.Represents v) (hlong : type = .signedLong ∨ type = .unsignedLong → T ≤ 4) (hb : b.type = type)
    {m m' : Memory.Mem} (hm : ∀ p ∈ b.getData, ∀ a, p ≤ a → a < p + b.getElementSize → m a = m' a) :
    b.getNum P outside T m = b.getNum P outside T m' := by
  have hread : ∀ {n : Nat}, b.getElementSize = n → ∀ p ∈ b.getData, Memory.read m p n = Memory.read m' p n :=
    fun hn p hp => Memory.read_congr fun i hi => hm p hp _ (by omega) (by omega)
  rcases represents_cases h with ⟨rfl, -⟩ | ⟨rfl, -⟩ | rfl | ⟨size, signed, hc, -⟩
  · rw [getNum_float hb, getNum_float hb]
    exact load_congr fun p hp => by rw [hread (by simp [getElementSize, hb]) p hp]
  · rw [getNum_double hb, getNum_double hb]
    exact load_congr fun p hp => by rw [hread (by simp [getElementSize, hb]) p hp]
  · have h19 : b.getElementSize = 19 := by simp [getElementSize, hb]
    rw [h19] at hm
    exact getNum_numeric_congr hb hm
  · subst hb
    rw [getNum_integer hc hlong, getNum_integer hc hlong]
    refine load_congr fun p hp => ?_
    rw [readInteger, readInteger, hread (getElementSize_integer hc) p hp]

/-- A number comes back. -/
theorem getNum_putNum (hP : P.ConvertsIntegers) (hT : T ≤ 8) (hv : Fits T true v) (h : type.Represents v)
    (hnot : ¬ Misread type T v) (hlong : type = .signedLong ∨ type = .unsignedLong → T ≤ 4)
    (hfour : T ≠ 8 → T ≤ 4) (hb : b.type = type) (hp : b.getData = some p) (hapart : b.Apart b.getElementSize.toNat)
    (m : Memory.Mem) : b.getNum P outside T (b.stored (b.putNum P (.int T v)) m) = .ok v := by
  rcases represents_cases h with ⟨rfl, hnumber⟩ | ⟨rfl, hnumber⟩ | rfl | ⟨size, signed, hc, hfits⟩
  · exact getNum_putNum_float hP hb hp (by simpa [getElementSize, hb] using hapart) hv hnumber m
  · exact getNum_putNum_double hP hb hp (by simpa [getElementSize, hb] using hapart) hv hnumber m
  · have h8 := hv.mono hT
    have hnarrows : -2 ^ 32 ≤ v ∨ 2 ^ 32 ∣ v := by
      by_cases h : T = 8
      · by_contra hno
        exact hnot ⟨h, .inr (.inr ⟨rfl, hno⟩)⟩
      · have := fits_four.mp (hv.mono (hfour h))
        exact .inl (by omega)
    rw [getNum_putNum_numeric hb hp (by simpa [getElementSize, hb] using hapart) h8, (toInt64_assignInt64 h8).mpr hnarrows,
      castInteger_of_fits hv]
  · subst hb
    rw [getElementSize_integer hc] at hapart
    exact getNum_putNum_integer hc hlong hp hapart hv hfits m

/-- Four of the eight bytes of a `long` are behind the element. -/
theorem misreads_long (hlong : type = .signedLong ∨ type = .unsignedLong) : ¬ ReadsElement P outside type 8 v := by
  intro h
  let b : ApplicationDataBuffer := ⟨type, some 0, 4, none, 0, 0, by decide⟩
  have hdata : b.getData = some 0 := by
    simp [b, getData, applyOffset]
  have hsize : b.getElementSize = 4 := by
    rcases hlong with rfl | rfl <;> rfl
  have hsame := h.within b rfl (fun _ => 0) (fun a => if a = 4 then 1 else 0) fun p hp a _ hlt => by
    obtain rfl := Option.some.inj (hdata.symm.trans hp)
    rw [if_neg (by omega)]
  rw [getNum_long hlong, getNum_long hlong, load_of_getData hdata, load_of_getData hdata] at hsame
  rcases hlong with rfl | rfl <;> exact absurd (Except.ok.inj hsame) (by decide)

theorem misreads_numeric (hv : Fits 8 true v) (hno : ¬ (-2 ^ 32 ≤ v ∨ 2 ^ 32 ∣ v)) :
    ¬ ReadsElement P outside .numeric 8 v := by
  intro h
  let b : ApplicationDataBuffer := ⟨.numeric, some 0, 19, none, 0, 0, by decide⟩
  have hdata : b.getData = some 0 := by
    simp [b, getData, applyOffset]
  have hapart : b.Apart 19 := by
    intro _ _ r hr
    cases hr
  have hback := h.back b rfl rfl hapart fun _ => 0
  have hput : b.after P (.num (some (.int 8 v))) (fun _ => 0) = b.stored (b.putNum P (.int 8 v)) fun _ => 0 := rfl
  rw [hput, getNum_putNum_numeric rfl hdata hapart hv, castInteger_of_fits] at hback
  · exact hno ((toInt64_assignInt64 hv).mp (Except.ok.inj hback))
  · have hlow := (assignInt64 (.ofInt v)).toInt64.le_toInt
    have hhigh := (assignInt64 (.ofInt v)).toInt64.toInt_lt
    exact fits_eight.mpr ⟨by omega, by omega⟩

/-- **Reads within an element.** Every integer that both the C type and the
type read can be is read from its element alone and comes back, but for
`GetInt64` of a `long` and of a number below `-2 ^ 32` in a
`SQL_NUMERIC_STRUCT`. -/
theorem getNum_reads_element_iff (hP : P.ConvertsIntegers) (outside : DocumentDbOdbc.Outside)
    (hT : T = 1 ∨ T = 2 ∨ T = 4 ∨ T = 8) (hv : Fits T true v) (h : type.Represents v) :
    ReadsElement P outside type T v ↔ ¬ Misread type T v := by
  have h8 : T ≤ 8 := by omega
  constructor
  · rintro hreads ⟨rfl, hlong | hlong | ⟨rfl, hno⟩⟩
    · exact misreads_long (.inl hlong) hreads
    · exact misreads_long (.inr hlong) hreads
    · exact misreads_numeric hv hno hreads
  · intro hnot
    have hlong : type = .signedLong ∨ type = .unsignedLong → T ≤ 4 := by
      intro hlong
      by_contra hgt
      exact hnot ⟨by omega, hlong.imp_right .inl⟩
    refine ⟨fun b hb m m' => getNum_within h hlong hb, fun b hb hdata hapart m => ?_,
      fun b hb k hk q hq hlen m => others_unchanged h hb hk hq hlen m⟩
    obtain ⟨p, hp⟩ := Option.isSome_iff_exists.mp hdata
    exact getNum_putNum hP h8 hv h hnot hlong (by omega) hb hp hapart m

end ApplicationDataBuffer

/-- A platform that converts as the two formats of floating point have it. -/
def Platform.ieee : Platform :=
  { Platform.unixOdbc with
    intToFloat := fun v => .ofNat (FloatFormat.single.ofInt v)
    intToDouble := fun v => .ofNat (FloatFormat.double.ofInt v)
    floatToInt := fun _ _ x => FloatFormat.single.toInt x.toNat
    doubleToInt := fun _ _ x => FloatFormat.double.toInt x.toNat }

theorem Platform.convertsIntegers_ieee : Platform.ieee.ConvertsIntegers where
  intToFloat v := by
    rintro ⟨x, hx⟩
    obtain ⟨hnumber, hlt⟩ := FloatFormat.denotes_ofInt _ hx
    show FloatFormat.single.Denotes (UInt32.ofNat (FloatFormat.single.ofInt v)).toNat v
    rwa [UInt32.toNat_ofNat', Nat.mod_eq_of_lt (show _ < 2 ^ 32 from hlt)]
  intToDouble v := by
    rintro ⟨x, hx⟩
    obtain ⟨hnumber, hlt⟩ := FloatFormat.denotes_ofInt _ hx
    show FloatFormat.double.Denotes (UInt64.ofNat (FloatFormat.double.ofInt v)).toNat v
    rwa [UInt64.toNat_ofNat', Nat.mod_eq_of_lt (show _ < 2 ^ 64 from hlt)]
  floatToInt _ _ _ _ h _ := FloatFormat.toInt_of_denotes _ h
  doubleToInt _ _ _ _ h _ := FloatFormat.toInt_of_denotes _ h

namespace ApplicationDataBuffer

/-- A three in a `float`, and a seven in a `long` that is read as 64 bits. -/
theorem getNum_reads_element_runs :
    (ReadsElement .ieee .zeros .float 4 3 ↔ ¬ Misread .float 4 3) ∧
      (ReadsElement .ieee .zeros .signedLong 8 7 ↔ ¬ Misread .signedLong 8 7) :=
  ⟨getNum_reads_element_iff Platform.convertsIntegers_ieee .zeros (.inr (.inr (.inl rfl))) (by decide)
      ⟨0x40400000, by decide⟩,
    getNum_reads_element_iff Platform.convertsIntegers_ieee .zeros (.inr (.inr (.inr rfl))) (by decide)
      ⟨(4, true), rfl, by decide⟩⟩

/-- A seven is put into the first of two `long`s and a one is in the other. -/
theorem getNum_reads_next_element :
    let b : ApplicationDataBuffer := ⟨.signedLong, some 100, 4, none, 0, 0, by decide⟩
    let m : Memory.Mem := fun a => if a = 104 then 1 else 0
    b.getNum .ieee .zeros 8 (b.after .ieee (.num (some (.int 8 7))) m) = .ok 4294967303 ∧
      ¬ ReadsElement .ieee .zeros .signedLong 8 7 := by
  intro b m
  have hread : b.getNum .ieee .zeros 8 (b.after .ieee (.num (some (.int 8 7))) m) = .ok 4294967303 := by decide
  refine ⟨hread, fun h => ?_⟩
  have hapart : b.Apart 4 := by
    intro _ _ r hr
    cases hr
  have hback := h.back b rfl rfl hapart m
  exact absurd (hread.symm.trans hback) (by decide)

end ApplicationDataBuffer

end DocumentDbOdbc
