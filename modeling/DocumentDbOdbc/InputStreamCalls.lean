/-
Every call on an `InteropInputStream`: scalars, scalars at a position, arrays,
`Position` and `Ignore`.

What is left is compared with what is asked for as signed numbers, so a negative
count passes, and `Position` looks at one end only. `bounded_iff_safe` says for
each call when it stays inside the memory block, and `along_bounded_iff` says it
for runs.
-/
import DocumentDbOdbc.Lib.Outcome
import DocumentDbOdbc.TimestampWire

namespace DocumentDbOdbc

open Outcome

namespace Interop

/-- How a call can end other than by returning. -/
inductive InputError where
  | stream (e : StreamError)
  /-- `DOCUMENTDB_ERR_MEMORY` of `Position`, with the values its text lists. -/
  | position (msg : Str) (len pos : Int32)
  /-- `ThrowOnInvalidHeader`. -/
  | header (msg : Str) (position : Int32) (expected actual : UInt8)
  deriving DecidableEq, Repr

namespace InputError

/-- An exception, not a fault or a failed assertion. -/
def Thrown : InputError → Prop
  | .stream .outOfBounds | .stream .assertionFailed => False
  | _ => True

end InputError

/-- The call of a function that only the stream can stop. -/
def onStream {α : Type} (x : Except StreamError α) : Except InputError α := x.mapError .stream

open InputError (Thrown)

namespace InteropInputStream

/-! ## The operations -/

/-- `DOCUMENTDB_INTEROP_IN_READ`, of a value that its bytes determine. -/
def readScalar {α : Type} (s : InteropInputStream) (len : Int32) (value : Nat → α) :
    Except StreamError (α × InteropInputStream) := do
  let (bytes, s) ← s.read len
  .ok (value (Bytes.value bytes), s)

def readInt8 (s : InteropInputStream) : Except StreamError (UInt8 × InteropInputStream) := s.readScalar 1 UInt8.ofNat

def readBool (s : InteropInputStream) : Except StreamError (Bool × InteropInputStream) := do
  let (x, s) ← s.readInt8
  .ok (x == 1, s)

def readInt16 (s : InteropInputStream) : Except StreamError (Int16 × InteropInputStream) := s.readScalar 2 Int16.ofNat

def readUInt16 (s : InteropInputStream) : Except StreamError (UInt16 × InteropInputStream) := s.readScalar 2 UInt16.ofNat

/-- The bits of the number. -/
def readFloat (s : InteropInputStream) : Except StreamError (UInt32 × InteropInputStream) := do
  let (i, s) ← s.readInt32
  .ok (i.toUInt32, s)

/-- The bits of the number. -/
def readDouble (s : InteropInputStream) : Except StreamError (UInt64 × InteropInputStream) := do
  let (i, s) ← s.readInt64
  .ok (i.toUInt64, s)

/-- `*(data + pos)`, for a value of that many bytes. -/
def readAt (s : InteropInputStream) (pos size : Int32) : Except StreamError (List UInt8) := do
  let delta := pos + size - s.pos
  if delta > 0 then s.ensureEnoughData delta
  { s with pos := pos }.load size

def readInt8At (s : InteropInputStream) (pos : Int32) : Except StreamError Int32 := do
  let bytes ← s.readAt pos 1
  .ok (Int8.ofNat (Bytes.value bytes)).toInt32

def readInt16At (s : InteropInputStream) (pos : Int32) : Except StreamError Int32 := do
  let bytes ← s.readAt pos 2
  .ok (Int16.ofNat (Bytes.value bytes)).toInt32

def readInt32At (s : InteropInputStream) (pos : Int32) : Except StreamError Int32 := do
  let bytes ← s.readAt pos 4
  .ok (Int32.ofNat (Bytes.value bytes))

/-- `DOCUMENTDB_INTEROP_IN_READ_ARRAY`: the bytes copied to `res`. -/
def readArray (s : InteropInputStream) (len shift : Int32) : Except StreamError (List UInt8 × InteropInputStream) :=
  s.read (len <<< shift)

def readInt8Array (s : InteropInputStream) (len : Int32) : Except StreamError (List UInt8 × InteropInputStream) :=
  s.readArray len 0

def readInt16Array (s : InteropInputStream) (len : Int32) : Except StreamError (List UInt8 × InteropInputStream) :=
  s.readArray len 1

def readUInt16Array (s : InteropInputStream) (len : Int32) : Except StreamError (List UInt8 × InteropInputStream) :=
  s.readArray len 1

def readInt32Array (s : InteropInputStream) (len : Int32) : Except StreamError (List UInt8 × InteropInputStream) :=
  s.readArray len 2

def readInt64Array (s : InteropInputStream) (len : Int32) : Except StreamError (List UInt8 × InteropInputStream) :=
  s.readArray len 3

def readFloatArray (s : InteropInputStream) (len : Int32) : Except StreamError (List UInt8 × InteropInputStream) :=
  s.readArray len 2

def readDoubleArray (s : InteropInputStream) (len : Int32) : Except StreamError (List UInt8 × InteropInputStream) :=
  s.readArray len 3

/-- The loop of `ReadBoolArray`; the values read before an exception stay read. -/
def readBools (s : InteropInputStream) : Nat → Except StreamError (List Bool) × InteropInputStream
  | 0 => (.ok [], s)
  | n + 1 =>
    match s.readBool with
    | .error e => (.error e, s)
    | .ok (x, s) => ((s.readBools n).1.map (x :: ·), (s.readBools n).2)

def readBoolArray (s : InteropInputStream) (len : Int32) : Except StreamError (List Bool) × InteropInputStream :=
  s.readBools len.toInt.toNat

/-- `Position(pos)`. -/
def position (s : InteropInputStream) (pos : Int32) : Except InputError InteropInputStream :=
  if pos ≤ s.len then .ok { s with pos := pos }
  else .error (.position (ascii "Requested input stream position is out of bounds") s.len pos)

def ignore (s : InteropInputStream) (cnt : Int32) : InteropInputStream := s.shift cnt

/-! ## Calls -/

inductive Call where
  | readInt8 | readBool | readInt16 | readUInt16 | readInt32 | readInt64 | readFloat | readDouble
  | readInt8At (pos : Int32)
  | readInt16At (pos : Int32)
  | readInt32At (pos : Int32)
  | readInt8Array (len : Int32)
  | readBoolArray (len : Int32)
  | readInt16Array (len : Int32)
  | readUInt16Array (len : Int32)
  | readInt32Array (len : Int32)
  | readInt64Array (len : Int32)
  | readFloatArray (len : Int32)
  | readDoubleArray (len : Int32)
  | position (pos : Int32)
  | ignore (cnt : Int32)
  deriving DecidableEq, Repr

/-- A call that moves the stream last, and so not at all where it throws. -/
def moving {ε α : Type} (s : InteropInputStream) (error : ε → InputError) (x : Except ε (α × InteropInputStream)) :
    Except InputError Unit × InteropInputStream :=
  match x with
  | .ok (_, s') => (.ok (), s')
  | .error e => (.error (error e), s)

/-- A call that leaves the stream where it is. -/
def still {α : Type} (s : InteropInputStream) (x : Except StreamError α) :
    Except InputError Unit × InteropInputStream :=
  (onStream (x.map fun _ => ()), s)

/-- How the call ends, and the stream after it. -/
def perform (s : InteropInputStream) : Call → Except InputError Unit × InteropInputStream
  | .readInt8 => s.moving .stream s.readInt8
  | .readBool => s.moving .stream s.readBool
  | .readInt16 => s.moving .stream s.readInt16
  | .readUInt16 => s.moving .stream s.readUInt16
  | .readInt32 => s.moving .stream s.readInt32
  | .readInt64 => s.moving .stream s.readInt64
  | .readFloat => s.moving .stream s.readFloat
  | .readDouble => s.moving .stream s.readDouble
  | .readInt8At pos => s.still (s.readInt8At pos)
  | .readInt16At pos => s.still (s.readInt16At pos)
  | .readInt32At pos => s.still (s.readInt32At pos)
  | .readInt8Array len => s.moving .stream (s.readInt8Array len)
  | .readBoolArray len => ((s.readBoolArray len).2.still (s.readBoolArray len).1)
  | .readInt16Array len => s.moving .stream (s.readInt16Array len)
  | .readUInt16Array len => s.moving .stream (s.readUInt16Array len)
  | .readInt32Array len => s.moving .stream (s.readInt32Array len)
  | .readInt64Array len => s.moving .stream (s.readInt64Array len)
  | .readFloatArray len => s.moving .stream (s.readFloatArray len)
  | .readDoubleArray len => s.moving .stream (s.readDoubleArray len)
  | .position pos => s.moving id ((s.position pos).map ((), ·))
  | .ignore cnt => (.ok (), s.ignore cnt)

/-! ## The invariant -/

/-- The position is in the memory block, or at its end. -/
structure InBounds (s : InteropInputStream) : Prop where
  len : s.len.toInt = s.data.length
  nonneg : 0 ≤ s.pos.toInt
  le : s.pos.toInt ≤ s.data.length

theorem InBounds.ofMemory {data : List UInt8} (h : data.length < 2 ^ 31) : (ofMemory data).InBounds :=
  ⟨toInt32_ofNat h, Int.le_refl 0, Int.natCast_nonneg _⟩

/-- The call returns or throws, and leaves the stream in bounds. -/
def Kept (r : Except InputError Unit × InteropInputStream) : Prop := Ends Thrown r.1 (fun _ => True) ∧ r.2.InBounds

/-- A value of that many bytes at that position is in the memory block, or the
check of what is left says that it is not. -/
def Reaches (s : InteropInputStream) (pos size : Int32) : Prop :=
  if 0 ≤ pos.toInt then pos.toInt + size.toInt < s.pos.toInt + 2 ^ 31
  else s.data.length < pos.toInt + size.toInt ∨ pos.toInt + size.toInt < s.pos.toInt - 2 ^ 31

/-- When a call stays in bounds. -/
def Safe (s : InteropInputStream) : Call → Prop
  | .readInt8At pos => s.Reaches pos 1
  | .readInt16At pos => s.Reaches pos 2
  | .readInt32At pos => s.Reaches pos 4
  | .readInt8Array len => 0 ≤ (len <<< 0).toInt
  | .readInt16Array len | .readUInt16Array len => 0 ≤ (len <<< 1).toInt
  | .readInt32Array len | .readFloatArray len => 0 ≤ (len <<< 2).toInt
  | .readInt64Array len | .readDoubleArray len => 0 ≤ (len <<< 3).toInt
  | .position pos => 0 ≤ pos.toInt
  | .ignore cnt => 0 ≤ s.pos.toInt + cnt.toInt ∧ s.pos.toInt + cnt.toInt ≤ s.data.length
  | _ => True

variable {s : InteropInputStream} {α β : Type}

/-- What is left is compared with the count as a signed number. -/
theorem InBounds.ensureEnoughData_eq (h : s.InBounds) (cnt : Int32) :
    s.ensureEnoughData cnt =
      if s.data.length < s.pos.toInt + cnt.toInt then
        .error (.memory (ascii "Not enough data in the stream") s.len s.pos cnt)
      else .ok () := by
  obtain ⟨hlen, hnonneg, hle⟩ := h
  have hmax := s.len.toInt_lt
  have hremaining : (s.len - s.pos).toInt = s.data.length - s.pos.toInt := by
    rw [toInt32_sub (by omega) (by omega), hlen]
  have henough : s.len - s.pos ≥ cnt ↔ ¬(s.data.length : Int) < s.pos.toInt + cnt.toInt := by
    rw [ge_iff_le, Int32.le_iff_toInt_le, hremaining]
    omega
  unfold ensureEnoughData
  by_cases hmany : (s.data.length : Int) < s.pos.toInt + cnt.toInt
  · rw [if_pos hmany, if_neg fun hge => henough.mp hge hmany]
  · rw [if_neg hmany, if_pos (henough.mpr hmany)]

/-- A sum past the largest number is negative. -/
theorem toInt_add_wrap {a b : Int32} (h : 2 ^ 31 ≤ a.toInt + b.toInt) : (a + b).toInt = a.toInt + b.toInt - 2 ^ 32 := by
  have ha := a.toInt_lt
  have hb := b.toInt_lt
  rw [Int32.toInt_add, ← Int.sub_bmod_right, Int.bmod_eq_of_le (by simp; omega) (by simp; omega)]
  simp

theorem InBounds.shift_iff (h : s.InBounds) (cnt : Int32) :
    (s.shift cnt).InBounds ↔ 0 ≤ s.pos.toInt + cnt.toInt ∧ s.pos.toInt + cnt.toInt ≤ s.data.length := by
  obtain ⟨hlen, hnonneg, hle⟩ := h
  have hmax := s.len.toInt_lt
  have hlow := cnt.le_toInt
  have hhigh := cnt.toInt_lt
  by_cases hwrap : s.pos.toInt + cnt.toInt < 2 ^ 31
  · have hpos : (s.pos + cnt).toInt = s.pos.toInt + cnt.toInt := toInt32_add (by omega) hwrap
    constructor
    · intro hin
      have h1 := hin.nonneg
      have h2 := hin.le
      simp only [shift, hpos] at h1 h2
      exact ⟨h1, h2⟩
    · intro hin
      exact ⟨hlen, by rw [shift, hpos]; exact hin.1, by rw [shift, hpos]; exact hin.2⟩
  · have hpos : (s.pos + cnt).toInt = s.pos.toInt + cnt.toInt - 2 ^ 32 := toInt_add_wrap (by omega)
    constructor
    · intro hin
      have h1 := hin.nonneg
      simp only [shift, hpos] at h1
      omega
    · intro hin
      omega

/-- The bytes before which the stream stands. -/
def window (s : InteropInputStream) (cnt : Int32) : List UInt8 := (s.data.drop s.pos.toInt.toNat).take cnt.toInt.toNat

/-- **A read**, of any count. -/
theorem InBounds.read_eq (h : s.InBounds) (cnt : Int32) :
    s.read cnt =
      if s.data.length < s.pos.toInt + cnt.toInt then
        .error (.memory (ascii "Not enough data in the stream") s.len s.pos cnt)
      else if 0 ≤ cnt.toInt then .ok (s.window cnt, s.shift cnt)
      else .error .outOfBounds := by
  rw [read, h.ensureEnoughData_eq]
  unfold load
  by_cases hmany : (s.data.length : Int) < s.pos.toInt + cnt.toInt
  · rw [if_pos hmany, if_pos hmany]
    rfl
  · rw [if_neg hmany, if_neg hmany]
    by_cases hcnt : 0 ≤ cnt.toInt
    · rw [if_pos hcnt, if_pos ⟨h.nonneg, hcnt, by omega⟩]
      rfl
    · rw [if_neg hcnt, if_neg fun hload => hcnt hload.2.1]
      rfl

theorem kept_moving_map {ε : Type} (error : ε → InputError) (x : Except ε (α × InteropInputStream)) (f : α → β) :
    Kept (s.moving error (x >>= fun a => .ok (f a.1, a.2))) ↔ Kept (s.moving error x) := by
  cases x <;> rfl

/-- **Arrays**: a count that is not negative. -/
theorem InBounds.kept_read (h : s.InBounds) (cnt : Int32) : Kept (s.moving .stream (s.read cnt)) ↔ 0 ≤ cnt.toInt := by
  have hnonneg := h.nonneg
  have hle := h.le
  rw [h.read_eq]
  split
  · next hmany => exact iff_of_true ⟨trivial, h⟩ (by omega)
  · next hmany =>
    split
    · next hcnt => exact iff_of_true ⟨trivial, (h.shift_iff cnt).mpr (by omega)⟩ hcnt
    · next hcnt => exact iff_of_false (fun hkept => hkept.1) hcnt

theorem InBounds.kept_readScalar (h : s.InBounds) {len : Int32} (hlen : 0 ≤ len.toInt) (value : Nat → α) :
    Kept (s.moving .stream (s.readScalar len value)) :=
  (kept_moving_map InputError.stream (s.read len) fun bytes => value (Bytes.value bytes)).mpr ((h.kept_read len).mpr hlen)

theorem kept_still_map (h : s.InBounds) (x : Except StreamError α) (f : α → β) :
    Kept (s.still (x >>= fun a => .ok (f a))) ↔ Ends (Thrown ∘ InputError.stream) x fun _ => True := by
  cases x with
  | ok a => exact ⟨fun _ => trivial, fun _ => ⟨trivial, h⟩⟩
  | error e => exact ⟨fun hkept => hkept.1, fun hthrown => ⟨hthrown, h⟩⟩

/-- The distance to the end of a value, in 32 bits. -/
theorem toInt_delta (pos size cur : Int32) :
    ∃ k : Int, (pos + size - cur).toInt = pos.toInt + size.toInt - cur.toInt + 2 ^ 32 * k := by
  rw [Int32.toInt_sub, Int32.toInt_add, Int.bmod_sub_bmod]
  obtain ⟨k, hk⟩ := Int.dvd_bmod_sub_self (x := pos.toInt + size.toInt - cur.toInt) (m := 2 ^ 32)
  exact ⟨k, by push_cast at hk ⊢; omega⟩

/-- **A value at a position.** -/
theorem InBounds.readAt_iff (h : s.InBounds) (pos : Int32) {size : Int32} (hpos : 0 < size.toInt) (hsize : size.toInt ≤ 8) :
    Ends (Thrown ∘ InputError.stream) (s.readAt pos size) (fun _ => True) ↔ s.Reaches pos size := by
  obtain ⟨hlen, hnonneg, hle⟩ := h
  have hmax := s.len.toInt_lt
  have hlow := pos.le_toInt
  have hhigh := pos.toInt_lt
  have hload : Ends (Thrown ∘ InputError.stream) ({ s with pos := pos }.load size) (fun _ => True) ↔
      0 ≤ pos.toInt ∧ pos.toInt + size.toInt ≤ s.data.length := by
    unfold load
    split
    · next hin => exact iff_of_true trivial ⟨hin.1, hin.2.2⟩
    · next hout => exact iff_of_false id fun hin => hout ⟨hin.1, by omega, hin.2⟩
  have hread : Ends (Thrown ∘ InputError.stream) (s.readAt pos size) (fun _ => True) ↔
      (0 < (pos + size - s.pos).toInt ∧ s.data.length < s.pos.toInt + (pos + size - s.pos).toInt) ∨
        (0 ≤ pos.toInt ∧ pos.toInt + size.toInt ≤ s.data.length) := by
    unfold readAt
    dsimp only
    by_cases hdelta : pos + size - s.pos > 0
    · have hgt : 0 < (pos + size - s.pos).toInt := Int32.lt_iff_toInt_lt.mp hdelta
      rw [if_pos hdelta, InBounds.ensureEnoughData_eq ⟨hlen, hnonneg, hle⟩, ends_bind]
      split
      · next hmany => exact iff_of_true trivial (.inl ⟨hgt, hmany⟩)
      · next hmany =>
        rw [ends_ok, hload]
        exact ⟨.inr, fun hor => hor.resolve_left fun hl => hmany hl.2⟩
    · have hgt : ¬0 < (pos + size - s.pos).toInt := fun hlt => hdelta (Int32.lt_iff_toInt_lt.mpr hlt)
      rw [if_neg hdelta]
      exact hload.trans ⟨.inr, fun hor => hor.resolve_left fun hl => hgt hl.1⟩
  obtain ⟨k, hk⟩ := toInt_delta pos size s.pos
  have hmin := (pos + size - s.pos).le_toInt
  have hlt := (pos + size - s.pos).toInt_lt
  rw [hread, hk, Reaches]
  rw [hk] at hmin hlt
  split
  · next hpos' => constructor <;> omega
  · next hneg => constructor <;> omega

theorem InBounds.kept_readInt8 (h : s.InBounds) : Kept (s.moving .stream s.readInt8) :=
  h.kept_readScalar (by decide) UInt8.ofNat

theorem InBounds.kept_readBool (h : s.InBounds) : Kept (s.moving .stream s.readBool) :=
  (kept_moving_map InputError.stream s.readInt8 (· == 1)).mpr h.kept_readInt8

theorem InBounds.kept_readInt32 (h : s.InBounds) : Kept (s.moving .stream s.readInt32) :=
  h.kept_readScalar (by decide) Int32.ofNat

theorem InBounds.kept_readInt64 (h : s.InBounds) : Kept (s.moving .stream s.readInt64) :=
  h.kept_readScalar (by decide) Int64.ofNat

/-- The loop stays in bounds, also where it is cut off. -/
theorem InBounds.kept_readBools (h : s.InBounds) (n : Nat) : Kept ((s.readBools n).2.still (s.readBools n).1) := by
  induction n generalizing s with
  | zero => exact ⟨trivial, h⟩
  | succ n ih =>
    have hread := h.kept_readBool
    unfold readBools
    cases hbool : s.readBool with
    | error e =>
      rw [hbool] at hread
      exact ⟨hread.1, h⟩
    | ok v =>
      obtain ⟨x, s'⟩ := v
      rw [hbool] at hread
      have hrest : Kept ((s'.readBools n).2.still (s'.readBools n).1) := ih hread.2
      dsimp only
      cases hbools : (s'.readBools n).1 with
      | ok xs => exact ⟨trivial, hrest.2⟩
      | error e =>
        rw [hbools] at hrest
        exact ⟨hrest.1, hrest.2⟩

theorem InBounds.kept_position (h : s.InBounds) (pos : Int32) :
    Kept (s.moving id ((s.position pos).map ((), ·))) ↔ 0 ≤ pos.toInt := by
  have hlen := h.len
  unfold position
  by_cases hle : pos ≤ s.len
  · rw [if_pos hle]
    rw [Int32.le_iff_toInt_le, hlen] at hle
    exact ⟨fun hkept => hkept.2.nonneg, fun hpos => ⟨trivial, hlen, hpos, hle⟩⟩
  · rw [if_neg hle]
    rw [Int32.le_iff_toInt_le, hlen] at hle
    exact iff_of_true ⟨trivial, h⟩ (by omega)

/-! ## Runs -/

/-- The call returns or throws, and leaves the stream in bounds. -/
def Bounded (s : InteropInputStream) (call : Call) : Prop := Kept (s.perform call)

/-- **Each call**: it stays in bounds just where it is safe. -/
theorem InBounds.bounded_iff_safe (h : s.InBounds) (call : Call) : s.Bounded call ↔ s.Safe call := by
  cases call with
  | readInt8 => exact iff_of_true h.kept_readInt8 trivial
  | readBool => exact iff_of_true h.kept_readBool trivial
  | readInt16 => exact iff_of_true (h.kept_readScalar (by decide) Int16.ofNat) trivial
  | readUInt16 => exact iff_of_true (h.kept_readScalar (by decide) UInt16.ofNat) trivial
  | readInt32 => exact iff_of_true h.kept_readInt32 trivial
  | readInt64 => exact iff_of_true h.kept_readInt64 trivial
  | readFloat =>
    exact iff_of_true ((kept_moving_map InputError.stream s.readInt32 Int32.toUInt32).mpr h.kept_readInt32) trivial
  | readDouble =>
    exact iff_of_true ((kept_moving_map InputError.stream s.readInt64 Int64.toUInt64).mpr h.kept_readInt64) trivial
  | readInt8At pos => exact (kept_still_map h _ _).trans (h.readAt_iff pos (by decide) (by decide))
  | readInt16At pos => exact (kept_still_map h _ _).trans (h.readAt_iff pos (by decide) (by decide))
  | readInt32At pos => exact (kept_still_map h _ _).trans (h.readAt_iff pos (by decide) (by decide))
  | readInt8Array len => exact h.kept_read (len <<< 0)
  | readBoolArray len => exact iff_of_true (h.kept_readBools len.toInt.toNat) trivial
  | readInt16Array len => exact h.kept_read (len <<< 1)
  | readUInt16Array len => exact h.kept_read (len <<< 1)
  | readInt32Array len => exact h.kept_read (len <<< 2)
  | readInt64Array len => exact h.kept_read (len <<< 3)
  | readFloatArray len => exact h.kept_read (len <<< 2)
  | readDoubleArray len => exact h.kept_read (len <<< 3)
  | position pos => exact h.kept_position pos
  | ignore cnt => exact (and_iff_right trivial).trans (h.shift_iff cnt)

/-- What holds of every call of a run, and of the stream before it. -/
def Along (p : InteropInputStream → Call → Prop) (s : InteropInputStream) : List Call → Prop
  | [] => True
  | call :: calls => p s call ∧ Along p (s.perform call).2 calls

/-- **A run** stays in bounds just where each of its calls is safe. -/
theorem InBounds.along_bounded_iff (h : s.InBounds) (calls : List Call) :
    Along Bounded s calls ↔ Along Safe s calls := by
  induction calls generalizing s with
  | nil => exact Iff.rfl
  | cons call calls ih =>
    constructor
    · intro hrun
      exact ⟨(h.bounded_iff_safe call).mp hrun.1, (ih hrun.1.2).mp hrun.2⟩
    · intro hsafe
      have hcall : s.Bounded call := (h.bounded_iff_safe call).mpr hsafe.1
      exact ⟨hcall, (ih hcall.2).mpr hsafe.2⟩

end InteropInputStream

end Interop

end DocumentDbOdbc
