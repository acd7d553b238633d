/-
`BigInteger` and arrays of bytes: the two constructors and `MagnitudeToBytes`.

Here the loops run over indices, as in the source; an index outside its array
is no result. `ofBytesAt_eq` says when the constructors are `ofBytes`, and
`magnitudeToBytes_spec` that the bytes of a number are those of its limbs, as
many as its bit length takes. Both the limbs and the bits are counted in 32
bits.
-/
import DocumentDbOdbc.BigIntegerBits
import DocumentDbOdbc.Lib.Bytes
import Mathlib.Tactic.IntervalCases

namespace DocumentDbOdbc

open Limbs

namespace BigInteger

/-! ## The constructors -/

/-- `val[i]`. -/
def byteAt (val : List UInt8) (i : Int) : Option UInt8 := if 0 ≤ i then val[i.toNat]? else none

/-- The limb of the `n` bytes `val[b]`, `val[b + step]`, …, the lowest first;
the cases of the `switch` fall through to the lowest one. -/
def limbAt (val : List UInt8) (step b : Int) : Nat → Option UInt32
  | 0 => some 0
  | n + 1 => do
    let x ← byteAt val (b + step * n)
    let limb ← limbAt val step b n
    some (limb ||| x.toUInt32 <<< UInt32.ofNat (8 * n))

/-- The loop over the limbs of four bytes, and where it leaves `b`. -/
def fullLimbs (val : List UInt8) (step : Int) : Nat → Int → Option (MagArray × Int)
  | 0, b => some ([], b)
  | k + 1, b => do
    let x ← limbAt val step b 4
    let (mag, b) ← fullLimbs val step k (b + step * 4)
    some (x :: mag, b)

/-- `int32_t` arithmetic. -/
def wrap32 (n : Int) : Int := n.bmod 4294967296

/-- `BigInteger(val, len, sign, bigEndian)`. -/
def ofBytesAt (val : List UInt8) (sign : Int) (bigEndian : Bool) : Option BigInteger :=
  let len : Int := val.length
  if bigEndian then
    let firstNonZero : Int := (val.takeWhile (· == 0)).length
    if firstNonZero = len then some (assignInt64 0)
    else
      let intLength := (wrap32 (len - firstNonZero + 3)).tdiv 4
      if intLength ≤ 0 then none  -- `mag[intLength - 1]`
      else do
        let (mag, b) ← fullLimbs val (-1) (intLength - 1).toNat (len - 1)
        let bytesRemaining := b - firstNonZero + 1
        let top ← if 0 < bytesRemaining ∧ bytesRemaining ≤ 4 then limbAt val (-1) b bytesRemaining.toNat else some 0
        some ⟨sign, mag ++ [top]⟩
  else
    let firstNonZero : Int := len - 1 - (val.reverse.takeWhile (· == 0)).length
    if firstNonZero = -1 then some (assignInt64 0)
    else
      let intLength := (wrap32 (firstNonZero + 4)).tdiv 4
      if intLength ≤ 0 then none
      else do
        let (mag, b) ← fullLimbs val 1 (intLength - 1).toNat 0
        let bytesRemaining := firstNonZero - b + 1
        let top ← if 0 < bytesRemaining ∧ bytesRemaining ≤ 4 then limbAt val 1 b bytesRemaining.toNat else some 0
        some ⟨sign, mag ++ [top]⟩

/-! ## `MagnitudeToBytes` -/

/-- `buffer[j] = x`. -/
def storeByte (buffer : List UInt8) (j : Int) (x : UInt8) : Option (List UInt8) :=
  if 0 ≤ j ∧ j < buffer.length then some (buffer.set j.toNat x) else none

/-- The loop over the limbs below the top. -/
def storeLimbs : MagArray → Int → List UInt8 → Option (List UInt8)
  | [], _, buffer => some buffer
  | x :: mag, j, buffer => do
    let buffer ← storeByte buffer j x.toUInt8
    let buffer ← storeByte buffer (j - 1) (x >>> 8).toUInt8
    let buffer ← storeByte buffer (j - 2) (x >>> 16).toUInt8
    let buffer ← storeByte buffer (j - 3) (x >>> 24).toUInt8
    storeLimbs mag (j - 4) buffer

/-- The `switch` for the top limb: `buffer[i++] |= …`, from byte `n - 1` down. -/
def storeTop (x : UInt32) : Nat → Nat → List UInt8 → Option (List UInt8)
  | 0, _, buffer => some buffer
  | n + 1, i, buffer => do
    let old ← buffer[i]?
    let buffer ← storeByte buffer i (old ||| (x >>> UInt32.ofNat (8 * n)).toUInt8)
    storeTop x n (i + 1) buffer

/-- `MagnitudeToBytes`. -/
def magnitudeToBytes (b : BigInteger) : Option (List UInt8) :=
  let bytesNum := ((b.getBitLength + 7) / 8).toNat
  if bytesNum = 0 then some [0]
  else do
    let buffer ← storeLimbs b.mag.dropLast ((bytesNum : Int) - 1) (List.replicate bytesNum 0)
    let bytesRemaining : Int := bytesNum - 4 * ((b.mag.length - 1 : Nat) : Int)
    if 0 ≤ bytesRemaining ∧ bytesRemaining ≤ 4 then storeTop (b.mag.getLastD 0) bytesRemaining.toNat 0 buffer
    else some buffer

/-! ## The constructors read the bytes once each -/

/-- From `b` on, in steps, stand the given bytes. -/
def BytesAt (val : List UInt8) (step b : Int) (bytes : List UInt8) : Prop :=
  ∀ i < bytes.length, byteAt val (b + step * (i : Nat)) = bytes[i]?

section

variable {val : List UInt8} {step b : Int}

theorem BytesAt.drop {bytes : List UInt8} (h : BytesAt val step b bytes) (k : Nat) :
    BytesAt val step (b + step * k) (bytes.drop k) := by
  intro i hi
  rw [List.length_drop] at hi
  have hindex : b + step * k + step * (i : Nat) = b + step * ((k + i : Nat) : Int) := by
    push_cast
    ring
  rw [hindex, h (k + i) (by omega), List.getElem?_drop]

theorem BytesAt.left {bytes : List UInt8} (rest : List UInt8) (h : BytesAt val step b (bytes ++ rest)) : BytesAt val step b bytes := by
  intro i hi
  rw [h i (by rw [List.length_append]; omega), List.getElem?_append_left hi]

theorem bytesAt_forward (val : List UInt8) : BytesAt val 1 0 val := by
  intro i _
  rw [byteAt, if_pos (by omega), Int.zero_add, Int.one_mul, Int.toNat_natCast]

theorem bytesAt_backward (val : List UInt8) : BytesAt val (-1) ((val.length : Int) - 1) val.reverse := by
  intro i hi
  rw [List.length_reverse] at hi
  rw [byteAt, if_pos (by omega), List.getElem?_reverse hi]
  congr 1
  omega

/-- A limb of one to four bytes. -/
theorem limbAt_eq : ∀ {bytes : List UInt8}, BytesAt val step b bytes → bytes ≠ [] → bytes.length ≤ 4 →
    ∃ x, limbAt val step b bytes.length = some x ∧ limbsOfBytes bytes = [x]
  | [], _, hne, _ => absurd rfl hne
  | [b₀], h, _, _ => by
    refine ⟨_, ?_, rfl⟩
    simp only [List.length_singleton, limbAt, h 0 (by simp), List.getElem?_cons_zero, Option.bind_eq_bind,
      Option.bind_some, Nat.mul_zero]
    simp
  | [b₀, b₁], h, _, _ => by
    refine ⟨_, ?_, rfl⟩
    simp only [List.length_cons, List.length_nil, limbAt, h 0 (by simp), h 1 (by simp), List.getElem?_cons_zero,
      List.getElem?_cons_succ, Option.bind_eq_bind, Option.bind_some, Nat.mul_zero]
    simp
  | [b₀, b₁, b₂], h, _, _ => by
    refine ⟨_, ?_, rfl⟩
    simp only [List.length_cons, List.length_nil, limbAt, h 0 (by simp), h 1 (by simp), h 2 (by simp),
      List.getElem?_cons_zero, List.getElem?_cons_succ, Option.bind_eq_bind, Option.bind_some, Nat.mul_zero]
    simp
  | [b₀, b₁, b₂, b₃], h, _, _ => by
    refine ⟨_, ?_, rfl⟩
    simp only [List.length_cons, List.length_nil, limbAt, h 0 (by simp), h 1 (by simp), h 2 (by simp), h 3 (by simp),
      List.getElem?_cons_zero, List.getElem?_cons_succ, Option.bind_eq_bind, Option.bind_some, Nat.mul_zero]
    simp
  | _ :: _ :: _ :: _ :: _ :: _, _, _, hlen => by
    simp at hlen
    omega

/-- The limbs of `4 * k` bytes, and of one to four more. -/
theorem fullLimbs_spec : ∀ {k : Nat} {bytes : List UInt8} {b : Int}, BytesAt val step b bytes → 4 * k < bytes.length →
    bytes.length ≤ 4 * k + 4 →
    ∃ mag top, fullLimbs val step k b = some (mag, b + step * (4 * k : Nat)) ∧
      limbAt val step (b + step * (4 * k : Nat)) (bytes.length - 4 * k) = some top ∧
      limbsOfBytes bytes = mag ++ [top] := by
  intro k
  induction k with
  | zero =>
    intro bytes b h hlow hhigh
    obtain ⟨x, hx, hlimbs⟩ := limbAt_eq h (List.length_pos_iff.mp (by omega)) (by omega)
    exact ⟨[], x, by simp [fullLimbs], by simpa using hx, hlimbs⟩
  | succ k ih =>
    intro bytes b h hlow hhigh
    obtain _ | ⟨b₀, _ | ⟨b₁, _ | ⟨b₂, _ | ⟨b₃, rest⟩⟩⟩⟩ := bytes
    · simp at hlow
    · simp at hlow
    · simp at hlow
      omega
    · simp at hlow
      omega
    · simp only [List.length_cons] at hlow hhigh
      obtain ⟨x, hx, hlimb⟩ := limbAt_eq
        (show BytesAt val step b [b₀, b₁, b₂, b₃] from BytesAt.left rest h) (by simp)
        (by simp)
      obtain ⟨mag, top, hfull, htop, hlimbs⟩ := @ih rest _ (h.drop 4) (by omega) (by omega)
      have hindex : b + step * (4 : Nat) + step * (4 * k : Nat) = b + step * (4 * (k + 1) : Nat) := by
        push_cast
        ring
      rw [hindex] at hfull htop
      refine ⟨x :: mag, top, ?_, ?_, ?_⟩
      · simp only [List.length_cons, List.length_nil] at hx
        simp only [fullLimbs, hx, Option.bind_eq_bind, Option.bind_some]
        rw [show b + step * 4 = b + step * (4 : Nat) from rfl, hfull]
        rfl
      · rw [← htop]
        simp only [List.length_cons]
        congr 1
        omega
      · rw [limbsOfBytes, hlimbs]
        rw [limbsOfBytes, limbsOfBytes] at hlimb
        rw [List.cons_append, (List.cons.inj hlimb).1]

/-- The number of limbs is counted in 32 bits: within three bytes of
`INT32_MAX` it is negative. -/
theorem intLength_eq {m : Nat} (hm : 0 < m) (hlen : m < 2147483645) :
    (wrap32 ((m : Int) + 3)).tdiv 4 = ((m - 1) / 4 : Nat) + 1 := by
  have hwrap : wrap32 ((m : Int) + 3) = m + 3 := Int.bmod_eq_of_le (by omega) (by omega)
  rw [hwrap, Int.tdiv_eq_ediv_of_nonneg (by omega)]
  omega

theorem intLength_wrapped {m : Nat} (hlow : 2147483645 ≤ m) (hhigh : m < 2147483648) :
    (wrap32 ((m : Int) + 3)).tdiv 4 ≤ 0 := by
  have hwrap : wrap32 ((m : Int) + 3) = -(4294967293 - m) := by
    rw [wrap32, Int.bmod_def]
    omega
  rw [hwrap, Int.neg_tdiv, Int.tdiv_eq_ediv_of_nonneg (by omega)]
  omega

/-- What both constructors do with the bytes that are left: their limbs. -/
theorem limbs_of_bytesAt {bytes : List UInt8} (h : BytesAt val step b bytes) (hm : 0 < bytes.length) :
    ∃ mag top, fullLimbs val step ((bytes.length - 1) / 4) b = some (mag, b + step * (4 * ((bytes.length - 1) / 4) : Nat)) ∧
      limbAt val step (b + step * (4 * ((bytes.length - 1) / 4) : Nat)) (bytes.length - 4 * ((bytes.length - 1) / 4)) =
        some top ∧
      limbsOfBytes bytes = mag ++ [top] :=
  fullLimbs_spec h (by omega) (by omega)

/-- What both constructors do from the first byte that counts; `remaining` is
the number of bytes that are left behind the full limbs. -/
theorem magnitude_of_bytesAt {bytes : List UInt8} (h : BytesAt val step b bytes) (hm : 0 < bytes.length)
    (hlen : bytes.length < 2147483648) (sign : Int) (remaining : Int → Int)
    (hremaining : remaining (b + step * (4 * ((bytes.length - 1) / 4) : Nat)) =
      (bytes.length - 4 * ((bytes.length - 1) / 4) : Nat)) :
    (if (wrap32 ((bytes.length : Int) + 3)).tdiv 4 ≤ 0 then none
      else do
        let (mag, b) ← fullLimbs val step ((wrap32 ((bytes.length : Int) + 3)).tdiv 4 - 1).toNat b
        let bytesRemaining := remaining b
        let top ← if 0 < bytesRemaining ∧ bytesRemaining ≤ 4 then limbAt val step b bytesRemaining.toNat else some 0
        some (⟨sign, mag ++ [top]⟩ : BigInteger)) =
      if bytes.length < 2147483645 then some ⟨sign, limbsOfBytes bytes⟩ else none := by
  obtain ⟨mag, top, hfull, htop, hlimbs⟩ := limbs_of_bytesAt h hm
  rcases Nat.lt_or_ge bytes.length 2147483645 with hshort | hlong
  · have hint := intLength_eq hm hshort
    rw [if_pos hshort, hint, if_neg (by omega), Int.add_sub_cancel, Int.toNat_natCast, hfull]
    simp only [Option.bind_eq_bind, Option.bind_some, hremaining]
    rw [if_pos (by omega), Int.toNat_natCast, htop, hlimbs]
    rfl
  · rw [if_neg (Nat.not_lt.mpr hlong), if_pos (intLength_wrapped hlong hlen)]

end

/-- The bytes of an array without the zeros at its high end, the lowest first. -/
def significant (val : List UInt8) (bigEndian : Bool) : List UInt8 :=
  if bigEndian then (val.dropWhile (· == 0)).reverse else val.rdropWhile (· == 0)

/-- **The constructors** with their indices are `ofBytes`, for less than
`INT32_MAX - 2` bytes that count. -/
theorem ofBytesAt_eq {val : List UInt8} (sign : Int) {bigEndian : Bool}
    (hlen : (significant val bigEndian).length < 2147483648) :
    ofBytesAt val sign bigEndian =
      if (significant val bigEndian).length < 2147483645 then some (ofBytes val sign bigEndian) else none := by
  cases bigEndian with
  | true =>
    have hsplit := List.takeWhile_append_dropWhile (p := (· == 0)) (l := val)
    have hlength := congrArg List.length hsplit
    rw [List.length_append] at hlength
    have hreads : BytesAt val (-1) ((val.length : Int) - 1) (val.dropWhile (· == 0)).reverse := by
      refine BytesAt.left (val.takeWhile (· == 0)).reverse ?_
      rw [← List.reverse_append, hsplit]
      exact bytesAt_backward val
    have hreverse : (val.dropWhile (· == 0)).reverse.length = (val.dropWhile (· == 0)).length := List.length_reverse
    unfold significant at hlen ⊢
    unfold ofBytesAt ofBytes
    dsimp only
    simp only [if_true] at hlen ⊢
    by_cases hnil : (val.dropWhile (· == 0)).reverse = []
    · have hzero := congrArg List.length hnil
      rw [List.length_nil] at hzero
      rw [hzero, if_pos hnil, if_pos (by omega), if_pos (by decide)]
    · have hpos : 0 < (val.dropWhile (· == 0)).reverse.length := List.length_pos_iff.mpr hnil
      have hcount : (val.length : Int) - (val.takeWhile (· == 0)).length + 3 =
          ((val.dropWhile (· == 0)).reverse.length : Int) + 3 := by omega
      rw [if_neg (by omega), if_neg hnil, hcount]
      exact magnitude_of_bytesAt hreads hpos hlen sign (fun b => b - (val.takeWhile (· == 0)).length + 1)
        (by omega)
  | false =>
    have hsplit := List.takeWhile_append_dropWhile (p := (· == 0)) (l := val.reverse)
    have hlength := congrArg List.length hsplit
    rw [List.length_append, List.length_reverse] at hlength
    have hreads : BytesAt val 1 0 (val.rdropWhile (· == 0)) := by
      refine BytesAt.left (val.reverse.takeWhile (· == 0)).reverse ?_
      rw [List.rdropWhile, ← List.reverse_append, hsplit, List.reverse_reverse]
      exact bytesAt_forward val
    have hreverse : (val.rdropWhile (· == 0)).length = (val.reverse.dropWhile (· == 0)).length := List.length_reverse
    unfold significant at hlen ⊢
    unfold ofBytesAt ofBytes
    dsimp only
    simp only [Bool.false_eq_true, if_false] at hlen ⊢
    by_cases hnil : val.rdropWhile (· == 0) = []
    · have hzero := congrArg List.length hnil
      rw [List.length_nil] at hzero
      rw [hzero, if_pos hnil, if_pos (by omega), if_pos (by decide)]
    · have hpos : 0 < (val.rdropWhile (· == 0)).length := List.length_pos_iff.mpr hnil
      have hcount : (val.length : Int) - 1 - (val.reverse.takeWhile (· == 0)).length + 4 =
          ((val.rdropWhile (· == 0)).length : Int) + 3 := by omega
      rw [if_neg (by omega), if_neg hnil, hcount]
      exact magnitude_of_bytesAt hreads hpos hlen sign
        (fun b => (val.length : Int) - 1 - (val.reverse.takeWhile (· == 0)).length - b + 1) (by omega)

/-! ## The number of the bytes -/

/-- **What the constructors denote.** -/
theorem toInt_ofBytes (val : List UInt8) (sign : Int) (bigEndian : Bool) :
    (ofBytes val sign bigEndian).toInt = sign * Bytes.value (if bigEndian then val.reverse else val) := by
  have hlimbs : ∀ bytes : List UInt8, (if bytes = [] then assignInt64 0 else ⟨sign, limbsOfBytes bytes⟩ : BigInteger).toInt =
      sign * Bytes.value bytes := by
    intro bytes
    split
    · next hnil =>
      rw [hnil, toInt_assignInt64]
      exact (Int.mul_zero sign).symm
    · rw [toInt, value_limbsOfBytes]
      rfl
  have hsplit : ∀ l : List UInt8, Bytes.value l.reverse = Bytes.value (l.dropWhile (· == 0)).reverse := by
    intro l
    have happend : l.reverse = (l.dropWhile (· == 0)).reverse ++ (l.takeWhile (· == 0)).reverse := by
      rw [← List.reverse_append, List.takeWhile_append_dropWhile]
    rw [happend]
    exact Bytes.value_append_zeros fun x hx => List.mem_takeWhile_imp (p := fun y => y == 0) (List.mem_reverse.mp hx)
  rw [ofBytes, hlimbs]
  congr 2
  split
  · exact (hsplit val).symm
  · rw [List.rdropWhile, ← hsplit, List.reverse_reverse]

/-! ## `MagnitudeToBytes` writes the bytes of the limbs -/

/-- The bytes of a limb, the lowest first. -/
def limbBytes (x : UInt32) : List UInt8 :=
  [x.toUInt8, (x >>> 8).toUInt8, (x >>> 16).toUInt8, (x >>> 24).toUInt8]

theorem value_limbBytes (x : UInt32) {r : Nat} (hr : r ≤ 4) : Bytes.value ((limbBytes x).take r) = x.toNat % 256 ^ r := by
  have hx := x.toNat_lt
  have h8 : (x >>> 8).toNat = x.toNat / 2 ^ 8 := toNat_shiftRight x 8 (by decide)
  have h16 : (x >>> 16).toNat = x.toNat / 2 ^ 16 := toNat_shiftRight x 16 (by decide)
  have h24 : (x >>> 24).toNat = x.toNat / 2 ^ 24 := toNat_shiftRight x 24 (by decide)
  interval_cases r <;> simp [limbBytes, h8, h16, h24] <;> omega

theorem value_flatMap_limbBytes (l : MagArray) : Bytes.value (l.flatMap limbBytes) = value l := by
  induction l with
  | nil => rfl
  | cons x l ih =>
    have hx := value_limbBytes x (Nat.le_refl 4)
    have hlt := x.toNat_lt
    rw [show (limbBytes x).take 4 = limbBytes x from rfl, Nat.mod_eq_of_lt (show x.toNat < 256 ^ 4 from hlt)] at hx
    rw [List.flatMap_cons, Bytes.value_append, hx, ih, value_cons, show (limbBytes x).length = 4 from rfl,
      show 256 ^ 4 = 2 ^ 32 by decide]

theorem storeByte_zeros (m : Nat) (x : UInt8) (post : List UInt8) :
    storeByte (List.replicate (m + 1) 0 ++ post) m x = some (List.replicate m 0 ++ x :: post) := by
  rw [storeByte, if_pos ⟨by omega, by simp; omega⟩, Int.toNat_natCast, List.replicate_succ', List.append_assoc,
    List.set_append_right _ _ (by simp), List.length_replicate, Nat.sub_self]
  rfl

theorem storeLimbs_spec : ∀ (mag : MagArray) (m : Nat) (post : List UInt8),
    storeLimbs mag ((m + 4 * mag.length : Nat) - 1) (List.replicate (m + 4 * mag.length) 0 ++ post) =
      some (List.replicate m 0 ++ (mag.flatMap limbBytes).reverse ++ post) := by
  intro mag
  induction mag with
  | nil => exact fun m post => by simp [storeLimbs]
  | cons x mag ih =>
    intro m post
    have hcount : m + 4 * (x :: mag).length = m + 4 * mag.length + 3 + 1 := by
      rw [List.length_cons]
      omega
    have h3 : ((m + 4 * mag.length + 3 + 1 : Nat) : Int) - 1 = (m + 4 * mag.length + 3 : Nat) := by omega
    have h2 : ((m + 4 * mag.length + 3 : Nat) : Int) - 1 = (m + 4 * mag.length + 2 : Nat) := by omega
    have h1 : ((m + 4 * mag.length + 3 : Nat) : Int) - 2 = (m + 4 * mag.length + 1 : Nat) := by omega
    have h0 : ((m + 4 * mag.length + 3 : Nat) : Int) - 3 = (m + 4 * mag.length : Nat) := by omega
    have hnext : ((m + 4 * mag.length + 3 : Nat) : Int) - 4 = (m + 4 * mag.length : Nat) - 1 := by omega
    rw [hcount, storeLimbs, h3, storeByte_zeros]
    simp only [Option.bind_eq_bind, Option.bind_some]
    rw [h2, storeByte_zeros]
    simp only [Option.bind_some]
    rw [h1, storeByte_zeros]
    simp only [Option.bind_some]
    rw [h0, storeByte_zeros]
    simp only [Option.bind_some]
    rw [hnext, ih]
    simp [limbBytes]

theorem storeTop_spec (x : UInt32) : ∀ (n : Nat) (done post : List UInt8), n ≤ 4 →
    storeTop x n done.length (done ++ List.replicate n 0 ++ post) =
      some (done ++ ((limbBytes x).take n).reverse ++ post) := by
  intro n
  induction n with
  | zero => exact fun done post _ => by simp [storeTop]
  | succ n ih =>
    intro done post hn
    have hbyte : ((limbBytes x).take (n + 1)).reverse =
        (x >>> UInt32.ofNat (8 * n)).toUInt8 :: ((limbBytes x).take n).reverse := by
      have hn' : n < 4 := by omega
      interval_cases n <;> simp [limbBytes]
    have hold : (done ++ List.replicate (n + 1) 0 ++ post)[done.length]? = some 0 := by
      rw [List.append_assoc, List.getElem?_append_right (Nat.le_refl _), Nat.sub_self]
      rfl
    have hset : ∀ y : UInt8, storeByte (done ++ List.replicate (n + 1) 0 ++ post) done.length y =
        some (done ++ [y] ++ List.replicate n 0 ++ post) := by
      intro y
      rw [storeByte, if_pos ⟨by omega, by simp; omega⟩, Int.toNat_natCast, List.append_assoc,
        List.set_append_right _ _ (Nat.le_refl _), Nat.sub_self]
      simp [List.replicate_succ]
    have hih := ih (done ++ [(x >>> UInt32.ofNat (8 * n)).toUInt8]) post (by omega)
    rw [List.length_append, List.length_singleton] at hih
    rw [storeTop, hold]
    simp only [Option.bind_eq_bind, Option.bind_some]
    rw [UInt8.zero_or, hset]
    simp only [Option.bind_some]
    rw [hih, hbyte]
    simp

/-- An array that is too short for the limbs: an index falls below zero. -/
theorem storeLimbs_eq_none : ∀ {mag : MagArray} {j : Int} (buffer : List UInt8), -1 ≤ j → j + 1 < 4 * (mag.length : Int) →
    storeLimbs mag j buffer = none := by
  intro mag
  induction mag with
  | nil =>
    intro j buffer hj h
    rw [List.length_nil] at h
    omega
  | cons x mag ih =>
    intro j buffer hj h
    rw [List.length_cons] at h
    simp only [storeLimbs, Option.bind_eq_bind, Option.bind_eq_none_iff]
    intro buffer₁ _ buffer₂ _ buffer₃ _ buffer₄ hlast
    rcases Int.lt_or_le (j - 3) 0 with hneg | hpos
    · rw [storeByte, if_neg (by omega)] at hlast
      cases hlast
    · exact ih buffer₄ (by omega) (by omega)

/-- The number of bytes. -/
theorem toNat_bytesNum {b : BigInteger} (h : Normalized b.mag) :
    ((b.getBitLength + 7) / 8).toNat = ((value b.mag).size + 7) % 2 ^ 32 / 8 := by
  rw [UInt32.toNat_div, UInt32.toNat_add, toNat_getBitLength h, show (7 : UInt32).toNat = 7 from rfl,
    show (8 : UInt32).toNat = 8 from rfl, Nat.mod_add_mod]

theorem magnitudeToBytes_zero (s : Int) : magnitudeToBytes ⟨s, []⟩ = some [0] :=
  if_pos (show ((0 + 7) / 8 : UInt32).toNat = 0 by decide)

/-- The bytes of the limbs, the highest first. -/
theorem magnitudeToBytes_concat {s : Int} {l : MagArray} {x : UInt32} (h : x ≠ 0)
    (hsize : (value (l ++ [x])).size + 7 < 2 ^ 32) :
    magnitudeToBytes ⟨s, l ++ [x]⟩ =
      some (l.flatMap limbBytes ++ (limbBytes x).take ((bitLengthU32 x + 7) / 8)).reverse := by
  have hnum := toNat_bytesNum (b := ⟨s, l ++ [x]⟩) (normalized_concat.mpr h)
  obtain ⟨_, hpos⟩ := bitLengthU32_eq h
  have hle : bitLengthU32 x ≤ 32 := Nat.sub_le _ _
  dsimp only at hnum
  rw [Nat.mod_eq_of_lt hsize, size_value h] at hnum
  generalize hr : (bitLengthU32 x + 7) / 8 = r
  have hbytes : ((BigInteger.getBitLength ⟨s, l ++ [x]⟩ + 7) / 8).toNat = r + 4 * l.length := by
    rw [hnum]
    omega
  have hbelow : (l ++ [x]).length - 1 = l.length := by simp
  have hlimbs := storeLimbs_spec l r []
  have htop := storeTop_spec x r [] (l.flatMap limbBytes).reverse (by omega)
  rw [List.append_nil, List.append_nil] at hlimbs
  rw [List.nil_append, List.nil_append, List.length_nil] at htop
  unfold magnitudeToBytes
  dsimp only
  rw [hbytes, if_neg (by omega), List.dropLast_concat, hlimbs, hbelow]
  simp only [Option.bind_eq_bind, Option.bind_some]
  have hremaining : ((r + 4 * l.length : Nat) : Int) - 4 * (l.length : Int) = r := by omega
  rw [hremaining, if_pos (by omega), Int.toNat_natCast, List.getLastD_concat, htop, List.reverse_append]

/-- **`MagnitudeToBytes`**: as many bytes as the bits take, at least one. -/
theorem magnitudeToBytes_spec {b : BigInteger} (h : Normalized b.mag) (hsize : (value b.mag).size + 7 < 2 ^ 32) :
    ∃ bytes, magnitudeToBytes b = some bytes ∧ Bytes.value bytes.reverse = value b.mag ∧
      bytes.length = max 1 (((value b.mag).size + 7) / 8) := by
  obtain ⟨s, mag⟩ := b
  dsimp only at h hsize ⊢
  obtain rfl | ⟨l, x, rfl⟩ := eq_nil_or_concat mag
  · exact ⟨[0], magnitudeToBytes_zero s, rfl, rfl⟩
  · have hx := normalized_concat.mp h
    obtain ⟨hbits, hpos⟩ := bitLengthU32_eq hx
    have hle : bitLengthU32 x ≤ 32 := Nat.sub_le _ _
    refine ⟨_, magnitudeToBytes_concat hx hsize, ?_, ?_⟩
    · have htop : x.toNat < 256 ^ ((bitLengthU32 x + 7) / 8) := by
        have hlt : x.toNat < 2 ^ bitLengthU32 x := Nat.size_le.mp hbits.ge
        refine hlt.trans_le ?_
        rw [show 256 = 2 ^ 8 from rfl, ← Nat.pow_mul]
        exact Nat.pow_le_pow_right (by decide) (by omega)
      have hlength : (l.flatMap limbBytes).length = 4 * l.length := by
        rw [List.length_flatMap, Nat.mul_comm]
        simp [limbBytes]
      rw [List.reverse_reverse, Bytes.value_append, value_flatMap_limbBytes, value_limbBytes x (by omega),
        Nat.mod_eq_of_lt htop, hlength, value_concat, Nat.pow_mul, show 256 ^ 4 = 2 ^ 32 by decide]
    · have hlength : (limbBytes x).length = 4 := rfl
      rw [List.length_reverse, List.length_append, List.length_take, hlength, size_value hx, List.length_flatMap]
      simp [limbBytes]
      omega

/-- Where the bit length wraps, no bytes of the number come out. -/
theorem magnitudeToBytes_wrapped {b : BigInteger} (h : Normalized b.mag) (hsize : 2 ^ 32 ≤ (value b.mag).size + 7) :
    magnitudeToBytes b = none ∨ magnitudeToBytes b = some [0] := by
  have hnum := toNat_bytesNum h
  obtain ⟨s, mag⟩ := b
  dsimp only at h hsize hnum ⊢
  obtain rfl | ⟨l, x, rfl⟩ := eq_nil_or_concat mag
  · exact .inr (magnitudeToBytes_zero s)
  · have hle : bitLengthU32 x ≤ 32 := Nat.sub_le _ _
    rw [size_value (normalized_concat.mp h)] at hsize hnum
    unfold magnitudeToBytes
    dsimp only
    generalize ((BigInteger.getBitLength ⟨s, l ++ [x]⟩ + 7) / 8).toNat = n at hnum ⊢
    by_cases hn : n = 0
    · exact .inr (if_pos hn)
    · left
      rw [if_neg hn, List.dropLast_concat, storeLimbs_eq_none _ (by omega) (by omega)]
      rfl

/-- Zeros before the bytes are skipped. -/
theorem significant_zeros (n : Nat) (bytes : List UInt8) :
    significant (List.replicate n 0 ++ bytes) true = significant bytes true := by
  simp only [significant, if_true]
  rw [List.dropWhile_append_of_pos]
  intro x hx
  rw [(List.mem_replicate.mp hx).2]
  rfl

theorem length_significant_le (bytes : List UInt8) (bigEndian : Bool) :
    (significant bytes bigEndian).length ≤ bytes.length := by
  unfold significant
  split
  · rw [List.length_reverse]
    exact (List.dropWhile_sublist _).length_le
  · exact (List.rdropWhile_prefix _ _).length_le

theorem significant_reverse (bytes : List UInt8) : significant bytes.reverse true = significant bytes false := by
  rw [significant, significant, if_pos rfl, if_neg Bool.false_ne_true, List.rdropWhile]

/-- The bytes of a number, after zeros, are read back. -/
theorem ofBytesAt_of_bytes {b : BigInteger} (h : b.Canonical) {bytes : List UInt8} (n : Nat)
    (hlen : bytes.length < 2147483645) (hvalue : Bytes.value bytes.reverse = value b.mag) :
    ofBytesAt (List.replicate n 0 ++ bytes) b.sign true = some b := by
  have hshort := (length_significant_le bytes true).trans_lt hlen
  rw [ofBytesAt_eq _ (by rw [significant_zeros]; omega), significant_zeros, if_pos hshort]
  refine congrArg some ((canonical_ofBytes _ h.sign true).ext h ?_)
  rw [toInt_ofBytes, if_pos rfl, List.reverse_append, List.reverse_replicate,
    Bytes.value_append_zeros fun x hx => by rw [(List.mem_replicate.mp hx).2]; rfl, hvalue]
  rfl

/-- **Bytes and back**: what `MagnitudeToBytes` writes is read back exactly when
the bits of the number, and seven more, are counted in 32 bits, and the two byte
orders agree exactly when the limbs of the bytes that count are. -/
theorem bytes_round_trip_iff {b : BigInteger} (h : b.Canonical) (val : List UInt8) (hlen : val.length < 2 ^ 31)
    (sign : Int) :
    ((∃ bytes, magnitudeToBytes b = some bytes ∧
      ∀ n, n + bytes.length < 2 ^ 31 → ofBytesAt (List.replicate n 0 ++ bytes) b.sign true = some b) ↔
      (value b.mag).size + 7 < 2 ^ 32) ∧
    ((∃ v, ofBytesAt val sign false = some v ∧ ofBytesAt val.reverse sign true = some v ∧
      v.toInt = sign * Bytes.value val) ↔ (significant val false).length < 2147483645) := by
  refine ⟨⟨?_, fun hsize => ?_⟩, ?_⟩
  · rintro ⟨bytes, hbytes, hread⟩
    by_contra hnot
    have hlarge : 2 ^ 32 ≤ (value b.mag).size + 7 := Nat.le_of_not_lt hnot
    rcases magnitudeToBytes_wrapped h.normalized hlarge with hnone | hzero
    · rw [hnone] at hbytes
      cases hbytes
    · -- The number read back is zero.
      obtain rfl : [0] = bytes := Option.some.inj (hzero.symm.trans hbytes)
      have hback : some b = some (assignInt64 0) := (hread 0 (by decide)).symm
      rw [Option.some.inj hback] at hlarge
      exact absurd hlarge (by decide)
  · obtain ⟨bytes, hbytes, hvalue, hcount⟩ := magnitudeToBytes_spec h.normalized hsize
    exact ⟨bytes, hbytes, fun n hn => ofBytesAt_of_bytes h n (by omega) hvalue⟩
  · have hlong : (significant val false).length < 2147483648 :=
      (length_significant_le val false).trans_lt hlen
    rw [ofBytesAt_eq sign hlong, ofBytesAt_eq sign (by rw [significant_reverse]; exact hlong), significant_reverse]
    constructor
    · rintro ⟨v, hv, -, -⟩
      by_contra hnot
      rw [if_neg hnot] at hv
      cases hv
    · intro hshort
      rw [if_pos hshort, if_pos hshort]
      have hvalue : (ofBytes val sign false).toInt = sign * Bytes.value val := by rw [toInt_ofBytes]; rfl
      have hreverse : (ofBytes val.reverse sign true) = ofBytes val sign false := by
        have hbytes := significant_reverse val
        unfold significant at hbytes
        unfold ofBytes
        rw [hbytes]
      exact ⟨ofBytes val sign false, rfl, congrArg some hreverse, hvalue⟩

/-- `-300` in two bytes after three zeros, and `513` in both orders. -/
theorem bytes_round_trip_iff_negative :
    (∃ bytes, magnitudeToBytes (assignInt64 (-300)) = some bytes ∧
      ∀ n, n + bytes.length < 2 ^ 31 →
        ofBytesAt (List.replicate n 0 ++ bytes) (assignInt64 (-300)).sign true = some (assignInt64 (-300))) ∧
    ∃ b, ofBytesAt [1, 2, 0] 1 false = some b ∧ ofBytesAt [0, 2, 1] 1 true = some b ∧ b.toInt = 513 :=
  ⟨(bytes_round_trip_iff (canonical_assignInt64 (-300)) [] (by decide) 1).1.mpr (by decide),
    (bytes_round_trip_iff canonical_zero [1, 2, 0] (by decide) 1).2.mpr (by decide)⟩

/-- `2 ^ (2 ^ 32 - 1)`, a number of `2 ^ 32` bits. -/
def wrappedNumber : BigInteger := ⟨1, List.replicate 134217727 0 ++ [0x80000000]⟩

/-- Bits that are none modulo `2 ^ 32` come out as one zero byte. -/
theorem magnitudeToBytes_of_wrapped {n : Nat} (hbits : UInt32.ofNat (bitLengthU32 0x80000000 + n * 32) = 0) :
    magnitudeToBytes ⟨1, List.replicate n 0 ++ [0x80000000]⟩ = some [0] := by
  have hlength : (List.replicate n (0 : UInt32) ++ [0x80000000]).length - 1 = n := by simp
  have hbit : (⟨1, List.replicate n 0 ++ [0x80000000]⟩ : BigInteger).getBitLength = 0 := by
    unfold getBitLength
    simp only [List.getLast?_concat, hlength]
    exact hbits
  unfold magnitudeToBytes
  rw [hbit]
  exact if_pos (show ((0 + 7) / 8 : UInt32).toNat = 0 by decide)

/-- An array of bytes whose limbs are not counted in 32 bits. -/
theorem ofBytesAt_of_wrapped {n : Nat} (hlow : 2147483645 ≤ n + 1) (hhigh : n + 1 < 2147483648) :
    ofBytesAt (List.replicate n 0 ++ [1]) 1 false = none := by
  have hlength : (significant (List.replicate n 0 ++ [1]) false).length = n + 1 := by
    rw [significant, if_neg Bool.false_ne_true, List.rdropWhile_concat_neg _ _ _ (by decide)]
    simp
  rw [ofBytesAt_eq 1 (by omega), hlength, if_neg (Nat.not_lt.mpr hlow)]

/-- **Bytes that are not read back**: one zero byte for a number of `2 ^ 32`
bits, and nothing from `2 ^ 31 - 1` bytes. -/
theorem bytes_not_round_trip :
    (wrappedNumber.Canonical ∧ magnitudeToBytes wrappedNumber = some [0] ∧
      ofBytesAt [0] wrappedNumber.sign true ≠ some wrappedNumber) ∧
    ofBytesAt (List.replicate 2147483646 0 ++ [1]) 1 false = none := by
  refine ⟨⟨.ofPos (normalized_concat.mpr (by decide)), magnitudeToBytes_of_wrapped (by decide), fun hread => ?_⟩,
    ofBytesAt_of_wrapped (by decide) (by decide)⟩
  have hmag : ([] : MagArray) = List.replicate 134217727 0 ++ [0x80000000] :=
    congrArg mag (Option.some.inj hread)
  exact List.append_ne_nil_of_right_ne_nil _ (by decide) hmag.symm

end BigInteger

end DocumentDbOdbc
