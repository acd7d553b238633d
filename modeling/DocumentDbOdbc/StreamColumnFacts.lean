/-
Columns stay inside the memory block.

Reading only moves the stream forward (`Forward`). Where a length of the data is
added to the position the column ends in the block exactly when the length is
not negative and the sum is a position (`Fits`).
-/
import DocumentDbOdbc.StreamColumn

namespace DocumentDbOdbc

open Outcome Interop Binary
open InputError (Thrown)

namespace Interop

theorem ends_onStream {α : Type} {F : InputError → Prop} {Q : α → Prop} (x : Except StreamError α) :
    Ends F (onStream x) Q ↔ Ends (F ∘ InputError.stream) x Q := by
  cases x <;> rfl

@[simp] theorem onStream_ok {α : Type} (a : α) : onStream (.ok a) = .ok a := rfl

@[simp] theorem onStream_error {α : Type} (e : StreamError) :
    (onStream (.error e) : Except InputError α) = .error (.stream e) :=
  rfl

namespace InteropInputStream

/-- The same block, not before the position and not after the end. -/
structure Forward (s s' : InteropInputStream) : Prop where
  data : s'.data = s.data
  len : s'.len = s.len
  le : s.pos.toInt ≤ s'.pos.toInt
  within : s'.pos.toInt ≤ s.data.length

variable {s s' s'' : InteropInputStream} {α : Type}

theorem InBounds.refl (h : s.InBounds) : s.Forward s := ⟨rfl, rfl, Int.le_refl _, h.le⟩

theorem Forward.trans (h : s.Forward s') (h' : s'.Forward s'') : s.Forward s'' :=
  ⟨h'.data.trans h.data, h'.len.trans h.len, h.le.trans h'.le, h.data ▸ h'.within⟩

theorem Forward.inBounds (h : s.Forward s') (hs : s.InBounds) : s'.InBounds :=
  ⟨by rw [h.len, h.data]; exact hs.len, hs.nonneg.trans h.le, by rw [h.data]; exact h.within⟩

theorem InBounds.toInt_shift (h : s.InBounds) {cnt : Int32} (hcnt : 0 ≤ cnt.toInt)
    (hle : s.pos.toInt + cnt.toInt ≤ s.data.length) : (s.shift cnt).pos.toInt = s.pos.toInt + cnt.toInt := by
  have hlen := h.len
  have hnonneg := h.nonneg
  have hmax := s.len.toInt_lt
  exact toInt32_add (by omega) (by omega)

/-- The stream only moves forward, if the function does not throw. -/
def Advances (f : InteropInputStream → Except StreamError (α × InteropInputStream)) : Prop :=
  ∀ s : InteropInputStream, s.InBounds → Ends (Thrown ∘ InputError.stream) (f s) fun x => s.Forward x.2

theorem InBounds.forward_shift (h : s.InBounds) {cnt : Int32} (hcnt : 0 ≤ cnt.toInt)
    (hle : s.pos.toInt + cnt.toInt ≤ s.data.length) : s.Forward (s.shift cnt) := by
  have hpos := h.toInt_shift hcnt hle
  exact ⟨rfl, rfl, by rw [hpos]; omega, by rw [hpos]; exact hle⟩

theorem advances_read {cnt : Int32} (hcnt : 0 ≤ cnt.toInt) : Advances (·.read cnt) := by
  intro s h
  dsimp only
  rw [h.read_eq, if_pos hcnt]
  split
  · trivial
  · next hmany => exact h.forward_shift hcnt (by omega)

theorem Advances.map {f : InteropInputStream → Except StreamError (α × InteropInputStream)} (hf : Advances f) {β : Type}
    (g : α → β) : Advances fun s => f s >>= fun a => .ok (g a.1, a.2) :=
  fun s h => (hf s h).bind fun _ ha => ha

theorem Advances.seq {β γ : Type} {f : InteropInputStream → Except StreamError (α × InteropInputStream)}
    {g : InteropInputStream → Except StreamError (β × InteropInputStream)} (hf : Advances f) (hg : Advances g)
    (k : α → β → γ) :
    Advances fun s => f s >>= fun a => g a.2 >>= fun b => .ok (k a.1 b.1, b.2) :=
  fun s h => (hf s h).bind fun a ha => (hg a.2 (ha.inBounds h)).bind fun _ hb => ha.trans hb

theorem advances_readInt8 : Advances readInt8 :=
  (@advances_read 1 (by decide)).map fun bytes => UInt8.ofNat (Bytes.value bytes)

theorem advances_readInt32 : Advances readInt32 :=
  (@advances_read 4 (by decide)).map fun bytes => Int32.ofNat (Bytes.value bytes)

theorem advances_readInt64 : Advances readInt64 :=
  (@advances_read 8 (by decide)).map fun bytes => Int64.ofNat (Bytes.value bytes)

theorem advances_readGuid : Advances Binary.readGuid := advances_readInt64.seq advances_readInt64 _

theorem advances_readTimestamp : Advances readTimestamp := advances_readInt64.seq advances_readInt32 _

/-! ## Values of the data -/

/-- The number in the four bytes so far behind the position. -/
def int32At (s : InteropInputStream) (off : Nat) : Option Int32 :=
  if s.pos.toInt + off + 4 ≤ s.data.length then
    some (Int32.ofNat (Bytes.value ((s.data.drop (s.pos.toInt.toNat + off)).take 4)))
  else none

/-- A byte, unless the stream is at its end. -/
theorem InBounds.readInt8_cases (h : s.InBounds) :
    s.data[s.pos.toInt.toNat]? = none ∧
        s.readInt8 = .error (.memory (ascii "Not enough data in the stream") s.len s.pos 1) ∨
      ∃ x, s.data[s.pos.toInt.toNat]? = some x ∧ s.readInt8 = .ok (x, s.shift 1) ∧ s.Forward (s.shift 1) := by
  have hnonneg := h.nonneg
  have hle := h.le
  have hone : (1 : Int32).toInt = 1 := rfl
  unfold readInt8 readScalar
  rw [h.read_eq, hone, if_pos (show (0 : Int) ≤ 1 by decide)]
  by_cases hin : s.pos.toInt.toNat < s.data.length
  · have hvalue : Bytes.value (s.window 1) = (s.data[s.pos.toInt.toNat]).toNat := by
      rw [window, hone, List.drop_eq_getElem_cons hin]
      exact (Bytes.value_cons _ _).trans (by rw [List.take_zero, Bytes.value_nil, Nat.mul_zero, Nat.add_zero])
    refine .inr ⟨_, List.getElem?_eq_getElem hin, ?_, h.forward_shift (by decide) (by rw [hone]; omega)⟩
    rw [if_neg (by omega)]
    show Except.ok (UInt8.ofNat (Bytes.value (s.window 1)), s.shift 1) = _
    rw [hvalue, UInt8.ofNat_toNat]
  · refine .inl ⟨List.getElem?_eq_none (by omega), ?_⟩
    rw [if_pos (by omega)]
    rfl

/-- The four bytes at the position, if there are as many. -/
theorem InBounds.readInt32_cases (h : s.InBounds) :
    s.int32At 0 = none ∧ s.readInt32 = .error (.memory (ascii "Not enough data in the stream") s.len s.pos 4) ∨
      ∃ x, s.int32At 0 = some x ∧ s.readInt32 = .ok (x, s.shift 4) ∧ s.Forward (s.shift 4) := by
  have hfour : (4 : Int32).toInt = 4 := rfl
  unfold readInt32 int32At
  rw [h.read_eq, hfour, if_pos (show (0 : Int) ≤ 4 by decide)]
  by_cases hin : (s.data.length : Int) < s.pos.toInt + 4
  · rw [if_pos hin, if_neg (by omega)]
    exact .inl ⟨rfl, rfl⟩
  · rw [if_neg hin, if_pos (by omega)]
    exact .inr ⟨_, rfl, rfl, h.forward_shift (by decide) (by rw [hfour]; omega)⟩

/-- A value further on is the same value seen from there. -/
theorem InBounds.int32At_shift (h : s.InBounds) {cnt : Int32} (hcnt : 0 ≤ cnt.toInt) (hin : (s.shift cnt).InBounds)
    (off : Nat) : (s.shift cnt).int32At off = s.int32At (cnt.toInt.toNat + off) := by
  have hnonneg := h.nonneg
  have hle := ((h.shift_iff cnt).mp hin).2
  have hpos := h.toInt_shift hcnt hle
  have hnat : (s.pos.toInt + cnt.toInt).toNat + off = s.pos.toInt.toNat + (cnt.toInt.toNat + off) := by omega
  have hdata : (s.shift cnt).data = s.data := rfl
  unfold int32At
  rw [hpos, hnat, hdata]
  by_cases hin : s.pos.toInt + cnt.toInt + off + 4 ≤ s.data.length
  · rw [if_pos hin, if_pos (by omega)]
  · rw [if_neg hin, if_neg (by omega)]

theorem int32At_none {off off' : Nat} (h : s.int32At off = none) (hle : off ≤ off') : s.int32At off' = none := by
  unfold int32At at h ⊢
  split at h
  · cases h
  · rw [if_neg (by omega)]

end InteropInputStream

end Interop

/-! ## The reader -/

namespace Binary.BinaryReaderImpl

open InteropInputStream

variable {r : BinaryReaderImpl} {α : Type}

theorem ends_checkRaw (r : BinaryReaderImpl) : Ends (Thrown ∘ InputError.stream) r.checkRaw fun _ => True := by
  unfold checkRaw
  split
  · trivial
  · split <;> trivial

theorem ends_readRaw (h : r.stream.InBounds) {cnt : Int32} (hcnt : 0 ≤ cnt.toInt) :
    Ends (Thrown ∘ InputError.stream) (r.readRaw cnt) fun x => r.stream.Forward x.2.stream :=
  (ends_checkRaw r).bind fun _ _ => (advances_read hcnt r.stream h).bind fun _ hread => hread

theorem ends_readNullable (h : r.stream.InBounds) {func : InteropInputStream → Except StreamError (α × InteropInputStream)}
    (hfunc : Advances func) (expHdr : UInt8) :
    Ends Thrown (r.readNullable func expHdr) fun x => r.stream.Forward x.2 := by
  refine ((ends_onStream _).mpr (ends_checkRaw r)).bind fun _ _ => ?_
  refine ((ends_onStream _).mpr (advances_readInt8 r.stream h)).bind fun x hhdr => ?_
  dsimp only
  split
  · exact ((ends_onStream _).mpr (hfunc x.2 (hhdr.inBounds h))).bind fun y hy => hhdr.trans hy
  · split
    · exact hhdr
    · trivial

/-- Back over a header and a length. -/
theorem position_back (h : r.stream.InBounds) :
    ((r.stream.shift 1).shift 4).position (((r.stream.shift 1).shift 4).pos - 4 - 1) = .ok r.stream := by
  have hback : r.stream.pos + 1 + 4 - 4 - 1 = r.stream.pos := by
    rw [Int32.add_sub_cancel, Int32.add_sub_cancel]
  have hle : r.stream.pos ≤ r.stream.len := by
    rw [Int32.le_iff_toInt_le, h.len]
    exact h.le
  simp only [position, shift, hback, if_pos hle]

/-- The length of a string, with the stream back before its header. -/
theorem ends_readStringInternal_none (h : r.stream.InBounds) :
    Ends Thrown (r.readStringInternal none) fun x =>
      x.1.1 = -1 ∧ r.stream.Forward x.2 ∨
        x.2 = r.stream ∧ r.stream.readInt8 = .ok (documentdbTypeString, r.stream.shift 1) ∧
          r.stream.Forward (r.stream.shift 1) ∧
          (r.stream.shift 1).readInt32 = .ok (x.1.1, (r.stream.shift 1).shift 4) ∧
          (r.stream.shift 1).Forward ((r.stream.shift 1).shift 4) := by
  unfold readStringInternal
  obtain ⟨-, hend⟩ | ⟨hdr, -, hhdr, hforward⟩ := h.readInt8_cases
  · simp only [hend, onStream_error, ends_bind, ends_error]
    trivial
  · simp only [hhdr, onStream_ok, ends_bind, ends_ok]
    by_cases hstring : hdr = documentdbTypeString
    · rw [if_pos hstring]
      obtain ⟨-, hend⟩ | ⟨realLen, -, hlen, hforward'⟩ := (hforward.inBounds h).readInt32_cases
      · simp only [hend, onStream_error, ends_bind, ends_error]
        trivial
      · simp only [hlen, onStream_ok, ends_bind, ends_ok, Option.filter_none, position_back h]
        exact .inr ⟨trivial, by rw [hstring], hforward, trivial, hforward'⟩
    · rw [if_neg hstring]
      split
      · trivial
      · exact .inl ⟨rfl, hforward⟩

/-- The string itself, where the buffer takes it. -/
theorem ends_readStringInternal_some (h : r.stream.InBounds) {realLen len : Int32}
    (hhdr : r.stream.readInt8 = .ok (documentdbTypeString, r.stream.shift 1)) (hforward : r.stream.Forward (r.stream.shift 1))
    (hlen : (r.stream.shift 1).readInt32 = .ok (realLen, (r.stream.shift 1).shift 4))
    (hforward' : (r.stream.shift 1).Forward ((r.stream.shift 1).shift 4)) (hnonneg : 0 ≤ realLen.toInt)
    (hfits : realLen ≤ len) : Ends Thrown (r.readStringInternal (some len)) fun x => r.stream.Forward x.2 := by
  have hcount : (realLen <<< 0).toInt = realLen.toInt := by
    rw [Int32.shiftLeft_zero]
  have hread := advances_read (hcount ▸ hnonneg) _ ((hforward.trans hforward').inBounds h)
  unfold readStringInternal
  simp only [hhdr, hlen, onStream_ok, ends_bind, ends_ok, if_true, Option.filter_some, hfits, decide_true]
  exact ((ends_onStream _).mpr hread).mono fun _ hbytes => (hforward.trans hforward').trans hbytes

/-- **A string** is read forward, also where its length is negative. -/
theorem ends_readString (h : r.stream.InBounds) : Ends Thrown (Binary.readString r) fun x => r.stream.Forward x.2 := by
  unfold Binary.readString BinaryReaderImpl.readString
  refine (((ends_onStream _).mpr (ends_checkRaw r)).bind fun _ _ => ends_readStringInternal_none h).bind fun x hlen => ?_
  obtain ⟨⟨strLen, written⟩, stream⟩ := x
  dsimp only at hlen ⊢
  obtain ⟨hnull, hforward⟩ | ⟨hstream, hhdr, hforward, hlen, hforward'⟩ := hlen
  · rw [hnull, if_neg (by decide), if_neg (by decide)]
    exact hforward
  · rw [hstream]
    have hsecond : ∀ {len : Int32}, 0 ≤ strLen.toInt → strLen ≤ len →
        Ends Thrown (onStream r.checkRaw >>= fun _ => r.readStringInternal (some len)) fun x => r.stream.Forward x.2 :=
      fun hnonneg hfits => ((ends_onStream _).mpr (ends_checkRaw r)).bind fun _ _ =>
        ends_readStringInternal_some h hhdr hforward hlen hforward' hnonneg hfits
    by_cases hpos : strLen > 0
    · have hgt : 0 < strLen.toInt := Int32.lt_iff_toInt_lt.mp hpos
      rw [if_pos hpos]
      exact (hsecond (by omega) (Int32.le_refl strLen)).bind fun _ hread => hread
    · rw [if_neg hpos]
      by_cases hzero : strLen = 0
      · rw [if_pos hzero]
        exact (hsecond (by rw [hzero]; decide) (by rw [hzero]; decide)).bind fun _ hread => hread
      · rw [if_neg hzero]
        exact h.refl

theorem checkRaw_cases (r : BinaryReaderImpl) : r.checkRaw = .ok () ∨ ∃ msg, r.checkRaw = .error (.binary msg) := by
  unfold checkRaw
  split
  · exact .inr ⟨_, rfl⟩
  · split
    · exact .inr ⟨_, rfl⟩
    · exact .inl rfl

theorem readInt8_of_raw (hraw : r.checkRaw = .ok ()) :
    r.readInt8 = r.stream.readInt8 >>= fun x => .ok (x.1, { r with stream := x.2 }) := by
  simp only [readInt8, readRaw, hraw, InteropInputStream.readInt8, readScalar]
  cases r.stream.read 1 <;> rfl

theorem readInt32_of_raw (hraw : r.checkRaw = .ok ()) :
    r.readInt32 = r.stream.readInt32 >>= fun x => .ok (x.1, { r with stream := x.2 }) := by
  simp only [readInt32, readRaw, hraw, InteropInputStream.readInt32]
  cases r.stream.read 4 <;> rfl

/-- The four bytes at the position, if there are as many. -/
theorem readInt32_cases (hraw : r.checkRaw = .ok ()) (h : r.stream.InBounds) :
    r.stream.int32At 0 = none ∧
        r.readInt32 = .error (.memory (ascii "Not enough data in the stream") r.stream.len r.stream.pos 4) ∨
      ∃ x, r.stream.int32At 0 = some x ∧ r.readInt32 = .ok (x, { r with stream := r.stream.shift 4 }) ∧
        r.stream.Forward (r.stream.shift 4) := by
  rw [readInt32_of_raw hraw]
  obtain ⟨hnone, hend⟩ | ⟨x, hsome, hread, hforward⟩ := h.readInt32_cases
  · exact .inl ⟨hnone, by rw [hend]; rfl⟩
  · exact .inr ⟨x, hsome, by rw [hread]; rfl, hforward⟩

/-- The bytes of a decimal make one, as many as a stream holds. -/
theorem ofBytes_isSome {mag : List UInt8} (hlen : mag.length < 2147483645) (scale : Int32) (sign : Int) :
    (Common.Decimal.ofBytes mag scale sign true).isSome = true := by
  have hshort := (BigInteger.length_significant_le mag true).trans_lt hlen
  rw [Common.Decimal.ofBytes, BigInteger.ofBytesAt_eq sign (by omega), if_pos hshort]
  rfl

/-- The bytes of a decimal, from their number on. -/
theorem ends_magnitude_iff {Q : Common.Decimal × BinaryReaderImpl → Prop} (h : r.stream.InBounds)
    (hQ : ∀ x, r.stream.Forward x.2.stream → Q x) (hpos : 4 ≤ r.stream.pos.toInt) (scale : Int32) {len : Int32}
    (hcount : 0 ≤ len.toInt) :
    Ends (Thrown ∘ InputError.stream) (r.readInt8Array len >>= fun read =>
      match read.1 with
      | [] => .error .outOfBounds
      | x :: rest =>
        match if 0x80 ≤ x then Common.Decimal.ofBytes ((x &&& 0x7F) :: rest) scale (-1) true
          else Common.Decimal.ofBytes (x :: rest) scale 1 true with
        | none => .error .outOfBounds
        | some decimal => .ok (decimal, read.2)) Q ↔ len ≠ 0 := by
  have hnonneg := h.nonneg
  have hmax := r.stream.len.toInt_lt
  rw [h.len] at hmax
  unfold readInt8Array
  rw [h.read_eq, if_pos hcount]
  split
  · next hmany =>
    have hle := h.le
    refine iff_of_true trivial fun hzero => ?_
    rw [hzero] at hmany
    exact absurd hmany (by simpa using hle)
  · next hmany =>
    have hlength : (r.stream.window len).length = len.toInt.toNat := by
      rw [window, List.length_take, List.length_drop]
      omega
    simp only [ends_bind, ends_ok]
    cases hmag : r.stream.window len with
    | nil =>
      rw [hmag, List.length_nil] at hlength
      refine iff_of_false id fun hne => hne ?_
      rw [← Int32.toInt_inj]
      exact Int.le_antisymm (show len.toInt ≤ 0 by omega) hcount
    | cons x rest =>
      rw [hmag, List.length_cons] at hlength
      have hbytes : ∃ decimal, (if 0x80 ≤ x then Common.Decimal.ofBytes ((x &&& 0x7F) :: rest) scale (-1) true
          else Common.Decimal.ofBytes (x :: rest) scale 1 true) = some decimal := by
        split <;> exact Option.isSome_iff_exists.mp (ofBytes_isSome (by rw [List.length_cons]; omega) scale _)
      obtain ⟨decimal, hdecimal⟩ := hbytes
      simp only [hdecimal, ends_ok]
      refine iff_of_true (hQ _ (h.forward_shift hcount (by omega))) fun hzero => ?_
      rw [hzero] at hlength
      exact absurd hlength (by simp)

/-- **A decimal** is read forward, unless it has no bytes. -/
theorem ends_readDecimal_iff {Q : Common.Decimal × BinaryReaderImpl → Prop} (h : r.stream.InBounds)
    (hQ : ∀ x, r.stream.Forward x.2.stream → Q x)
    (hhdr : r.stream.data[r.stream.pos.toInt.toNat]? = some Common.Decimal.documentdbTypeDecimal) :
    Ends (Thrown ∘ InputError.stream) (Common.Decimal.readDecimal r) Q ↔
      (r.checkRaw = .ok () → ∀ len ∈ r.stream.int32At 5, len ≠ 0) := by
  obtain hraw | ⟨msg, hraw⟩ := r.checkRaw_cases
  · obtain ⟨hnone, -⟩ | ⟨hdr, hsome, hread, hforward⟩ := h.readInt8_cases
    · rw [hhdr] at hnone
      cases hnone
    · rw [hhdr] at hsome
      obtain rfl := Option.some.inj hsome
      have hheader : r.readInt8 = .ok (Common.Decimal.documentdbTypeDecimal, { r with stream := r.stream.shift 1 }) := by
        rw [readInt8_of_raw hraw, hread]
        rfl
      have hin := hforward.inBounds h
      have hlenField : ((r.stream.shift 1).shift 4).InBounds → ((r.stream.shift 1).shift 4).int32At 0 = r.stream.int32At 5 :=
        fun hin' => (hin.int32At_shift (by decide) hin' 0).trans (h.int32At_shift (by decide) hin 4)
      unfold Common.Decimal.readDecimal
      simp only [hheader, ends_bind, ends_ok, ne_eq, not_true, if_false, hraw, true_imp_iff]
      obtain ⟨hnone, hend⟩ | ⟨scale, -, hscale, hforward'⟩ := @readInt32_cases { r with stream := r.stream.shift 1 } hraw hin
      · rw [h.int32At_shift (by decide) hin] at hnone
        simp only [hend, ends_error, int32At_none hnone (show (1 : Int32).toInt.toNat + 0 ≤ 5 by decide)]
        exact iff_of_true trivial fun len hlen => by cases hlen
      · have hin' := hforward'.inBounds hin
        simp only [hscale, ends_ok]
        obtain ⟨hnone, hend⟩ | ⟨len, hlen, hread', hforward''⟩ :=
          @readInt32_cases { r with stream := (r.stream.shift 1).shift 4 } hraw hin'
        · rw [hlenField hin'] at hnone
          simp only [hend, ends_error, hnone]
          exact iff_of_true trivial fun len hlen => by cases hlen
        · rw [hlenField hin'] at hlen
          have hin'' := hforward''.inBounds hin'
          simp only [hread', ends_ok, hlen, Option.mem_def, Option.some.injEq, forall_eq']
          split
          · next hneg => exact iff_of_true trivial fun hzero => by rw [hzero] at hneg; exact absurd hneg (by decide)
          · next hneg =>
            have hcount : 0 ≤ len.toInt := by
              rw [Int32.lt_iff_toInt_lt] at hneg
              exact Int.not_lt.mp hneg
            have hpos := hin'.toInt_shift (by decide) ((hin'.shift_iff 4).mp hin'').2
            have hfour : (4 : Int32).toInt = 4 := rfl
            have hnonneg := hin'.nonneg
            exact ends_magnitude_iff hin'' (fun x hx => hQ x (((hforward.trans hforward').trans hforward'').trans hx))
              (by dsimp only; rw [hpos]; omega) scale hcount
  · have hheader : r.readInt8 = .error (.binary msg) := by
      rw [readInt8, readRaw, hraw]
      rfl
    unfold Common.Decimal.readDecimal
    rw [hheader]
    exact iff_of_true trivial fun hok => by rw [hraw] at hok; cases hok

end Binary.BinaryReaderImpl

/-! ## The column -/

namespace Column

open InteropInputStream BinaryReaderImpl

variable {s : InteropInputStream} {r : BinaryReaderImpl}

/-- An invalid column, or one between the ends of a block of that many bytes. -/
def Within (len : Nat) (c : Column) : Prop :=
  c.isValid = false ∨ 0 ≤ c.startPos.toInt ∧ c.startPos.toInt ≤ c.endPos.toInt ∧ c.endPos.toInt ≤ len

/-- A length that may be added to a position: not negative, and the sum is a
position too. -/
def Fits (pos len : Int32) : Prop := 0 ≤ len.toInt ∧ pos.toInt + len.toInt < 2 ^ 31

/-- The lengths that the data of a column give fit where they are added, a
decimal has bytes, and where assertions are checked the header is known. -/
def LengthsFit (asserts : Bool) (r : BinaryReaderImpl) : Prop :=
  ∀ hdr, r.stream.data[r.stream.pos.toInt.toNat]? = some hdr →
    match ColumnHeader.ofByte hdr with
    | .binary => ∀ len ∈ r.stream.int32At 1, Fits r.stream.pos (1 + 4 + len + 4)
    | .object => r.stream.data[r.stream.pos.toInt.toNat + 1]? = some documentdbProtoVer →
        ∀ len ∈ r.stream.int32At 12, Fits r.stream.pos len
    | .decimal => r.checkRaw = .ok () → ∀ len ∈ r.stream.int32At 5, len ≠ 0
    | .arrayByte => r.checkRaw = .ok () → ∀ size ∈ r.stream.int32At 1, Fits (r.stream.pos + 1 + 4) size
    | .other => asserts = false
    | _ => True

/-- **Adding a length** to the position throws, or leaves the stream not before
it and not after the end, exactly when the length fits. -/
theorem ends_position_iff (h : s.InBounds) (len : Int32) :
    Ends Thrown (s.position (s.pos + len)) (s.Forward ·) ↔ Fits s.pos len := by
  have hlen := h.len
  have hnonneg := h.nonneg
  have hend := h.le
  have hmax := s.len.toInt_lt
  have hlow := len.le_toInt
  have hhigh := len.toInt_lt
  unfold position Fits
  by_cases hwrap : s.pos.toInt + len.toInt < 2 ^ 31
  · have hpos : (s.pos + len).toInt = s.pos.toInt + len.toInt := toInt32_add (by omega) hwrap
    split
    · next hle =>
      rw [Int32.le_iff_toInt_le, hlen, hpos] at hle
      constructor
      · intro hforward
        have hge := hforward.le
        dsimp only at hge
        exact ⟨by omega, hwrap⟩
      · intro hfits
        exact ⟨rfl, rfl, by dsimp only; omega, by dsimp only; omega⟩
    · next hle =>
      rw [Int32.le_iff_toInt_le, hlen, hpos] at hle
      exact iff_of_true trivial ⟨by omega, hwrap⟩
  · have hpos : (s.pos + len).toInt = s.pos.toInt + len.toInt - 2 ^ 32 := toInt_add_wrap (by omega)
    have hle : s.pos + len ≤ s.len := by
      rw [Int32.le_iff_toInt_le, hlen, hpos]
      omega
    rw [if_pos hle]
    refine iff_of_false (fun hforward => ?_) fun hfits => hwrap hfits.2
    have hge := hforward.le
    dsimp only at hge
    omega

/-- The guard puts the stream back. -/
theorem guarded_of_ok {α : Type} (h : s.InBounds) {body : Except InputError (α × InteropInputStream)} {a : α}
    {s' : InteropInputStream} (hbody : body = .ok (a, s')) (hdata : s'.data = s.data) (hlen : s'.len = s.len) :
    s.guarded body = .ok (a, s) := by
  have hle : s.pos ≤ s'.len := by
    rw [Int32.le_iff_toInt_le, hlen, h.len]
    exact h.le
  have hback : ({ s' with pos := s.pos } : InteropInputStream) = s := by
    rw [hdata, hlen]
  unfold guarded position
  rw [hbody]
  show (if s.pos ≤ s'.len then (Except.ok _ : Except InputError _) else _) >>= _ = _
  rw [if_pos hle, hback]
  rfl

/-- The four bytes so far behind the position. -/
theorem readInt32At_cases (h : s.InBounds) {off : Int32} (hoff : 0 ≤ off.toInt) (hsmall : off.toInt < 1024) :
    s.int32At off.toInt.toNat = none ∧
        (∃ cnt, s.readInt32At (s.pos + off) = .error (.memory (ascii "Not enough data in the stream") s.len s.pos cnt)) ∨
      ∃ x, s.int32At off.toInt.toNat = some x ∧ s.readInt32At (s.pos + off) = .ok x := by
  have hnonneg := h.nonneg
  have hlen := h.len
  have hmax := s.len.toInt_lt
  have hfour : (4 : Int32).toInt = 4 := rfl
  have hdelta : s.pos + off + 4 - s.pos = off + 4 := by
    rw [Int32.add_assoc, Int32.add_comm, Int32.add_sub_cancel]
  have htoInt : (off + 4).toInt = off.toInt + 4 := by
    rw [toInt32_add (by omega) (by omega), hfour]
  have hgt : off + 4 > 0 := by
    rw [gt_iff_lt, Int32.lt_iff_toInt_lt, htoInt]
    exact Int.lt_of_lt_of_le (by decide) (Int.add_le_add_right hoff 4)
  unfold readInt32At readAt int32At
  simp only [hdelta, if_pos hgt, h.ensureEnoughData_eq, htoInt]
  by_cases hmany : (s.data.length : Int) < s.pos.toInt + (off.toInt + 4)
  · rw [if_pos hmany, if_neg (by omega)]
    exact .inl ⟨rfl, _, rfl⟩
  · have hpos : (s.pos + off).toInt = s.pos.toInt + off.toInt := toInt32_add (by omega) (by omega)
    have hnat : (s.pos.toInt + off.toInt).toNat = s.pos.toInt.toNat + off.toInt.toNat := by omega
    rw [if_neg hmany, if_pos (by omega)]
    refine .inr ⟨_, rfl, ?_⟩
    simp only [load, hpos, hfour, hnat]
    rw [if_pos (by omega)]
    rfl

/-- What becomes of a column once its value is read from the stream: the stream
is put back, and the column lies in the block. -/
def Sound (s : InteropInputStream) (hdr : UInt8) (found : Option (Int32 × Int32) × InteropInputStream) : Prop :=
  Ends Thrown (found.2.position s.pos) fun _ => (assign hdr found).Within s.data.length

theorem sound_iff (h : s.InBounds) {hdr : UInt8} {found : Option (Int32 × Int32) × InteropInputStream}
    (hlen : found.2.len = s.len) : Sound s hdr found ↔ (assign hdr found).Within s.data.length := by
  have hle : s.pos ≤ found.2.len := by
    rw [Int32.le_iff_toInt_le, hlen, h.len]
    exact h.le
  rw [Sound, position, if_pos hle]
  exact Iff.rfl

theorem sound_none (h : s.InBounds) (hdr : UInt8) {s' : InteropInputStream} (hlen : s'.len = s.len) :
    Sound s hdr (none, s') :=
  (sound_iff h hlen).mpr (.inl rfl)

/-- A column that starts after the position lies in the block exactly when the
stream stands after its start. -/
theorem sound_some_iff (h : s.InBounds) {start s' : InteropInputStream} (hstart : s.Forward start)
    (hdata : s'.data = start.data) (hlen : s'.len = start.len) (hdr : UInt8) (size : Int32) :
    Sound s hdr (some (start.pos, size), s') ↔ start.Forward s' := by
  rw [sound_iff h (hlen.trans hstart.len)]
  have hnonneg : 0 ≤ start.pos.toInt := h.nonneg.trans hstart.le
  have hvalid : (assign hdr (some (start.pos, size), s')).isValid ≠ false := by
    rw [isValid, assign]
    simpa [Int32.le_iff_toInt_le] using hnonneg
  constructor
  · intro hwithin
    obtain ⟨-, hle, hend⟩ := hwithin.resolve_left hvalid
    exact ⟨hdata, hlen, hle, hstart.data ▸ hend⟩
  · intro hforward
    exact .inr ⟨hnonneg, hforward.le, hstart.data ▸ hforward.within⟩

/-- A value that is read forward. -/
theorem ends_extent {α : Type} (h : s.InBounds) {start : InteropInputStream} (hstart : s.Forward start)
    {x : Except InputError α} {stream : α → InteropInputStream} (hx : Ends Thrown x fun a => start.Forward (stream a))
    (hdr : UInt8) (size : α → Int32) :
    Ends Thrown (x >>= fun a => .ok (some (start.pos, size a), stream a)) (Sound s hdr) :=
  hx.bind fun _ ha => (sound_some_iff h hstart ha.data ha.len hdr _).mpr ha

/-- A length that is added to the position. -/
theorem ends_jump_iff (h : s.InBounds) {start : InteropInputStream} (hstart : s.Forward start) (hdr : UInt8) (len : Int32) :
    Ends Thrown (start.position (start.pos + len) >>= fun stream => .ok (some (start.pos, len), stream)) (Sound s hdr) ↔
      Fits start.pos len := by
  rw [← ends_position_iff (hstart.inBounds h), ends_bind]
  refine ends_congr fun stream hstream => ?_
  obtain ⟨hdata, hlen⟩ : stream.data = start.data ∧ stream.len = start.len := by
    unfold position at hstream
    split at hstream
    · obtain rfl := Except.ok.inj hstream
      exact ⟨rfl, rfl⟩
    · cases hstream
  exact sound_some_iff h hstart hdata hlen hdr len

theorem guarded_of_error {α : Type} {body : Except InputError (α × InteropInputStream)} {e : InputError}
    (hbody : body = .error e) : s.guarded body = .error e := by
  rw [hbody]
  rfl

/-- The length of a binary value. -/
theorem ends_getObjectLength_binary (h : s.InBounds) (hhdr : s.data[s.pos.toInt.toNat]? = some documentdbTypeBinary)
    (Q : Option Int32 × InteropInputStream → Prop) :
    Ends Thrown (getObjectLength s) Q ↔ ∀ len ∈ s.int32At 1, Q (some (1 + 4 + len + 4), s) := by
  unfold getObjectLength
  obtain ⟨hnone, -⟩ | ⟨hdr, hsome, hread, hforward⟩ := h.readInt8_cases
  · rw [hhdr] at hnone
    cases hnone
  · rw [hhdr] at hsome
    obtain rfl := Option.some.inj hsome
    have hin := hforward.inBounds h
    have hfield : (s.shift 1).int32At 0 = s.int32At 1 := h.int32At_shift (by decide) hin 0
    rw [← hfield]
    obtain ⟨hnone, hend⟩ | ⟨len, hsome', hread', hforward'⟩ := hin.readInt32_cases
    · simp only [hread, hend, onStream_ok, onStream_error, ok_bind, error_bind, if_true, hnone]
      rw [guarded_of_error rfl]
      exact iff_of_true trivial fun len hlen => by cases hlen
    · have hback := hforward.trans hforward'
      simp only [hread, hread', onStream_ok, ok_bind, if_true, hsome']
      rw [guarded_of_ok h rfl hback.data hback.len]
      simp only [ends_ok, Option.mem_def, Option.some.injEq, forall_eq']

/-- The length of an object, behind the version of the protocol. -/
theorem ends_getObjectLength_object (h : s.InBounds) (hhdr : s.data[s.pos.toInt.toNat]? = some documentdbTypeObject)
    (Q : Option Int32 × InteropInputStream → Prop) :
    Ends Thrown (getObjectLength s) Q ↔
      ∀ protoVer, s.data[s.pos.toInt.toNat + 1]? = some protoVer →
        if protoVer = documentdbProtoVer then ∀ len ∈ s.int32At 12, Q (some len, s) else Q (none, s) := by
  unfold getObjectLength
  obtain ⟨hnone, -⟩ | ⟨hdr, hsome, hread, hforward⟩ := h.readInt8_cases
  · rw [hhdr] at hnone
    cases hnone
  · rw [hhdr] at hsome
    obtain rfl := Option.some.inj hsome
    have hne : documentdbTypeObject ≠ documentdbTypeBinary := by decide
    have hin := hforward.inBounds h
    have hnonneg := h.nonneg
    have hone : (1 : Int32).toInt = 1 := rfl
    have hnext : (s.shift 1).pos.toInt.toNat = s.pos.toInt.toNat + 1 := by
      rw [h.toInt_shift (by decide) ((h.shift_iff 1).mp hin).2, hone]
      omega
    have hdata : (s.shift 1).data = s.data := rfl
    obtain ⟨hnone, hend⟩ | ⟨protoVer, hsome', hread', hforward'⟩ := hin.readInt8_cases
    · rw [hnext, hdata] at hnone
      simp only [hread, hend, onStream_ok, onStream_error, ok_bind, error_bind, if_neg hne, if_true, hnone]
      rw [guarded_of_error rfl]
      exact iff_of_true trivial fun protoVer hsome => by cases hsome
    · rw [hnext, hdata] at hsome'
      have hback := hforward.trans hforward'
      have hin' := hforward'.inBounds hin
      simp only [hread, hread', onStream_ok, ok_bind, if_neg hne, if_true, hsome', Option.some.injEq, forall_eq']
      by_cases hversion : protoVer = documentdbProtoVer
      · have hoff : ((s.shift 1).shift 1).pos + 2 + 4 + 4 = ((s.shift 1).shift 1).pos + 10 := by
          rw [Int32.add_assoc, Int32.add_assoc]
          rfl
        have hfield : ((s.shift 1).shift 1).int32At 10 = s.int32At 12 :=
          (hin.int32At_shift (by decide) hin' 10).trans (h.int32At_shift (by decide) hin 11)
        rw [if_neg (not_not.mpr hversion), if_pos hversion, hoff, ← hfield]
        obtain ⟨hnone, cnt, hend⟩ | ⟨len, hlen, hread''⟩ := @readInt32At_cases _ hin' 10 (by decide) (by decide)
        · have hten : ((s.shift 1).shift 1).int32At 10 = none := hnone
          simp only [hend, onStream_error, error_bind, hten]
          rw [guarded_of_error rfl]
          exact iff_of_true trivial fun len hlen => by cases hlen
        · have hten : ((s.shift 1).shift 1).int32At 10 = some len := hlen
          simp only [hread'', onStream_ok, ok_bind, hten]
          rw [guarded_of_ok h rfl hback.data hback.len]
          simp only [ends_ok, Option.mem_def, Option.some.injEq, forall_eq']
      · rw [if_pos hversion, if_neg hversion, guarded_of_ok h rfl hback.data hback.len]
        exact Iff.rfl

theorem readColumnHeader_cases (h : s.InBounds) :
    s.data[s.pos.toInt.toNat]? = none ∧
        readColumnHeader s = .error (.stream (.memory (ascii "Not enough data in the stream") s.len s.pos 1)) ∨
      ∃ hdr, s.data[s.pos.toInt.toNat]? = some hdr ∧ s.Forward (s.shift 1) ∧
        readColumnHeader s = .ok (hdr, if (ColumnHeader.ofByte hdr).isRead then s.shift 1 else s) := by
  unfold readColumnHeader
  obtain ⟨hnone, hend⟩ | ⟨hdr, hsome, hread, hforward⟩ := h.readInt8_cases
  · exact .inl ⟨hnone, by rw [hend]; rfl⟩
  · refine .inr ⟨hdr, hsome, hforward, ?_⟩
    have hle : s.pos ≤ (s.shift 1).len := by
      rw [Int32.le_iff_toInt_le, hforward.len, h.len]
      exact h.le
    simp only [hread, onStream_ok, ok_bind, position, if_pos hle]
    split <;> rfl

theorem ofByte_ofNat : ∀ n < 256,
    (ColumnHeader.ofByte (UInt8.ofNat n) = .binary → UInt8.ofNat n = documentdbTypeBinary) ∧
      (ColumnHeader.ofByte (UInt8.ofNat n) = .object → UInt8.ofNat n = documentdbTypeObject) ∧
      (ColumnHeader.ofByte (UInt8.ofNat n) = .decimal → UInt8.ofNat n = Common.Decimal.documentdbTypeDecimal) := by
  decide +kernel

/-- The headers whose functions look at the byte again. -/
theorem eq_of_ofByte (hdr : UInt8) :
    (ColumnHeader.ofByte hdr = .binary → hdr = documentdbTypeBinary) ∧
      (ColumnHeader.ofByte hdr = .object → hdr = documentdbTypeObject) ∧
      (ColumnHeader.ofByte hdr = .decimal → hdr = Common.Decimal.documentdbTypeDecimal) := by
  have hbyte := ofByte_ofNat hdr.toNat hdr.toNat_lt
  rwa [UInt8.ofNat_toNat] at hbyte

/-- An array of bytes: its length is read, and the array skipped. -/
theorem ends_arrayByte_iff (asserts : Bool) (h : r.stream.InBounds) (hin : (r.stream.shift 1).InBounds)
    (hforward : r.stream.Forward (r.stream.shift 1)) {hdr : UInt8} (hcase : ColumnHeader.ofByte hdr = .arrayByte) :
    Ends Thrown (extent asserts { r with stream := r.stream.shift 1 } hdr) (Sound r.stream hdr) ↔
      (r.checkRaw = .ok () → ∀ size ∈ r.stream.int32At 1, Fits (r.stream.pos + 1 + 4) size) := by
  unfold extent
  simp only [hcase]
  obtain hraw | ⟨msg, hraw⟩ := r.checkRaw_cases
  · have hfield : (r.stream.shift 1).int32At 0 = r.stream.int32At 1 := h.int32At_shift (by decide) hin 0
    simp only [hraw, true_imp_iff, ← hfield]
    obtain ⟨hnone, hend⟩ | ⟨size, hsize, hread, hforward'⟩ := @readInt32_cases { r with stream := r.stream.shift 1 } hraw hin
    · simp only [hend, onStream_error, error_bind, hnone]
      exact iff_of_true trivial fun len hlen => by cases hlen
    · have hjump := ends_jump_iff h (hforward.trans hforward') hdr size
      simp only [hread, onStream_ok, ok_bind, hsize, Option.mem_def, Option.some.injEq, forall_eq']
      by_cases hassert : (asserts && decide (size < 0)) = true
      · rw [if_pos hassert]
        have hneg : size < 0 := of_decide_eq_true (Bool.and_eq_true_iff.mp hassert).2
        exact iff_of_false id fun hfits => Int.not_lt.mpr hfits.1 (Int32.lt_iff_toInt_lt.mp hneg)
      · rw [if_neg hassert]
        exact hjump
  · have hend : ({ r with stream := r.stream.shift 1 } : BinaryReaderImpl).readInt32 = .error (.binary msg) := by
      have hraw' : ({ r with stream := r.stream.shift 1 } : BinaryReaderImpl).checkRaw = .error (.binary msg) := hraw
      rw [BinaryReaderImpl.readInt32, readRaw, hraw']
      rfl
    simp only [hend, onStream_error, error_bind]
    exact iff_of_true trivial fun hok => by rw [hraw] at hok; cases hok

/-- A decimal: its size is that of the magnitude. -/
theorem ends_decimal_iff (asserts : Bool) (h : r.stream.InBounds) {hdr : UInt8}
    (hcase : ColumnHeader.ofByte hdr = .decimal)
    (hhdr : r.stream.data[r.stream.pos.toInt.toNat]? = some Common.Decimal.documentdbTypeDecimal) :
    Ends Thrown (extent asserts r hdr) (Sound r.stream hdr) ↔
      (r.checkRaw = .ok () → ∀ len ∈ r.stream.int32At 5, len ≠ 0) := by
  unfold extent
  simp only [hcase]
  refine ends_bind.trans ((ends_onStream _).trans (ends_readDecimal_iff h (fun x hx => ?_) hhdr))
  exact (sound_some_iff h h.refl hx.data hx.len hdr _).mpr hx

/-- A binary value is skipped, with its header and its offset. -/
theorem ends_binary_iff (asserts : Bool) (h : r.stream.InBounds) {hdr : UInt8} (hcase : ColumnHeader.ofByte hdr = .binary)
    (hhdr : r.stream.data[r.stream.pos.toInt.toNat]? = some documentdbTypeBinary) :
    Ends Thrown (extent asserts r hdr) (Sound r.stream hdr) ↔
      ∀ len ∈ r.stream.int32At 1, Fits r.stream.pos (1 + 4 + len + 4) := by
  unfold extent
  simp only [hcase]
  refine ends_bind.trans ((ends_getObjectLength_binary h hhdr _).trans ?_)
  exact forall₂_congr fun len _ => ends_jump_iff h h.refl hdr (1 + 4 + len + 4)

/-- An object is skipped, unless it is of another version. -/
theorem ends_object_iff (asserts : Bool) (h : r.stream.InBounds) {hdr : UInt8} (hcase : ColumnHeader.ofByte hdr = .object)
    (hhdr : r.stream.data[r.stream.pos.toInt.toNat]? = some documentdbTypeObject) :
    Ends Thrown (extent asserts r hdr) (Sound r.stream hdr) ↔
      (r.stream.data[r.stream.pos.toInt.toNat + 1]? = some documentdbProtoVer →
        ∀ len ∈ r.stream.int32At 12, Fits r.stream.pos len) := by
  have hjump : ∀ len, Ends Thrown (r.stream.position (r.stream.pos + len) >>= fun stream =>
      .ok (some (r.stream.pos, len), stream)) (Sound r.stream hdr) ↔ Fits r.stream.pos len :=
    fun len => ends_jump_iff h h.refl hdr len
  unfold extent
  simp only [hcase]
  refine ends_bind.trans ((ends_getObjectLength_object h hhdr _).trans ?_)
  constructor
  · intro hsound hversion len hlen
    have hcurrent := hsound documentdbProtoVer hversion
    rw [if_pos rfl] at hcurrent
    exact (hjump len).mp (hcurrent len hlen)
  · intro hfits protoVer hsome
    split
    · next hversion => exact fun len hlen => (hjump len).mpr (hfits (hversion ▸ hsome) len hlen)
    · exact sound_none h hdr rfl

/-- A scalar of its size is inside the block. -/
theorem ends_scalar (h : r.stream.InBounds) (hforward : r.stream.Forward (r.stream.shift 1)) (hdr : UInt8) {size : Int32}
    (hsize : 0 ≤ size.toInt) : Ends Thrown (scalar { r with stream := r.stream.shift 1 } size) (Sound r.stream hdr) :=
  ends_extent h hforward ((ends_onStream _).mpr (ends_readRaw (hforward.inBounds h) hsize)) hdr fun _ => size

/-- So is what is read behind a header of its own. -/
theorem ends_nullable (h : r.stream.InBounds) {α : Type}
    {func : InteropInputStream → Except StreamError (α × InteropInputStream)} (hfunc : Advances func)
    (expHdr hdr : UInt8) (size : Int32) :
    Ends Thrown (r.readNullable func expHdr >>= fun read => .ok (some (r.stream.pos, size), read.2)) (Sound r.stream hdr) :=
  ends_extent h h.refl (ends_readNullable h hfunc expHdr) hdr fun _ => size

/-- **A column** once its header is read. -/
theorem ends_extent_iff (asserts : Bool) (h : r.stream.InBounds) {hdr : UInt8}
    (hhdr : r.stream.data[r.stream.pos.toInt.toNat]? = some hdr) (hforward : r.stream.Forward (r.stream.shift 1)) :
    Ends Thrown
        (extent asserts { r with stream := if (ColumnHeader.ofByte hdr).isRead then r.stream.shift 1 else r.stream } hdr)
        (Sound r.stream hdr) ↔
      LengthsFit asserts r := by
  have hin := hforward.inBounds h
  unfold LengthsFit
  simp only [hhdr, Option.some.injEq, forall_eq']
  cases hcase : ColumnHeader.ofByte hdr with
  | arrayByte => exact ends_arrayByte_iff asserts h hin hforward hcase
  | binary => exact ends_binary_iff asserts h hcase (by rw [hhdr, (eq_of_ofByte hdr).1 hcase])
  | object => exact ends_object_iff asserts h hcase (by rw [hhdr, (eq_of_ofByte hdr).2.1 hcase])
  | decimal => exact ends_decimal_iff asserts h hcase (by rw [hhdr, (eq_of_ofByte hdr).2.2 hcase])
  | null =>
    unfold extent
    simp only [hcase]
    exact iff_of_true ((sound_some_iff h hforward rfl rfl hdr 1).mpr hin.refl) trivial
  | other =>
    unfold extent
    simp only [hcase]
    cases asserts with
    | true => exact iff_of_false id fun hno => by cases hno
    | false => exact iff_of_true (sound_none h hdr rfl) rfl
  | string =>
    unfold extent
    simp only [hcase]
    exact iff_of_true (ends_extent h h.refl (ends_readString h) hdr fun x => Int32.ofNat x.1.length) trivial
  | uuid =>
    unfold extent
    simp only [hcase]
    exact iff_of_true (ends_nullable h advances_readGuid documentdbTypeUuid hdr 16) trivial
  | date =>
    unfold extent
    simp only [hcase]
    exact iff_of_true (ends_nullable h advances_readInt64 documentdbTypeDate hdr 8) trivial
  | time =>
    unfold extent
    simp only [hcase]
    exact iff_of_true (ends_nullable h advances_readInt64 documentdbTypeTime hdr 8) trivial
  | timestamp =>
    unfold extent
    simp only [hcase]
    exact iff_of_true (ends_nullable h advances_readTimestamp documentdbTypeTimestamp hdr 12) trivial
  | byte | bool =>
    unfold extent
    simp only [hcase]
    exact iff_of_true (ends_scalar h hforward hdr (by decide)) trivial
  | short | char =>
    unfold extent
    simp only [hcase]
    exact iff_of_true (ends_scalar h hforward hdr (by decide)) trivial
  | int | float =>
    unfold extent
    simp only [hcase]
    exact iff_of_true (ends_scalar h hforward hdr (by decide)) trivial
  | long | double =>
    unfold extent
    simp only [hcase]
    exact iff_of_true (ends_scalar h hforward hdr (by decide)) trivial

/-- **Constructing a column** throws, or gives an invalid column or one inside
the memory block, exactly when the lengths in the data fit. -/
theorem ends_ofReader_iff (asserts : Bool) (h : r.stream.InBounds) :
    Ends Thrown (ofReader asserts r) (fun x => x.1.Within r.stream.data.length) ↔ LengthsFit asserts r := by
  unfold ofReader guarded
  obtain ⟨hnone, hend⟩ | ⟨hdr, hsome, hforward, hread⟩ := readColumnHeader_cases h
  · simp only [hend, error_bind]
    refine iff_of_true trivial fun hdr hsome => ?_
    rw [hnone] at hsome
    cases hsome
  · rw [← ends_extent_iff asserts h hsome hforward]
    simp only [hread, ok_bind, ends_bind, ends_ok]
    exact Iff.rfl

end Column

open InteropInputStream

/-- **Inside the block**: every call of a run throws or reads bytes of the block
only, with the position between its ends afterwards, exactly when every call is
safe where it is made; and a column is inside the block, or invalid, or throws,
exactly when the lengths in its data fit. -/
theorem inputStream_bounded_iff {data : List UInt8} (hdata : data.length < 2 ^ 31) :
    (∀ calls, Along Bounded (ofMemory data) calls ↔ Along Safe (ofMemory data) calls) ∧
      ∀ (asserts : Bool) (r : BinaryReaderImpl), r.stream.data = data → r.stream.InBounds →
        (Ends Thrown (Column.ofReader asserts r) (fun x => x.1.Within data.length) ↔ Column.LengthsFit asserts r) := by
  constructor
  · exact fun calls => (InBounds.ofMemory hdata).along_bounded_iff calls
  · intro asserts r hr h
    rw [← hr]
    exact Column.ends_ofReader_iff asserts h

/-- Two bytes, then the end; and an `int` after its header. -/
theorem inputStream_bounded_iff_int :
    Along Bounded (ofMemory [3, 7, 0, 0, 0]) [.readInt16, .position 5] ∧
      Ends Thrown (Column.ofReader true (.ofStream (.ofMemory [3, 7, 0, 0, 0]))) fun x => x.1.Within 5 := by
  obtain ⟨hruns, hcolumns⟩ := @inputStream_bounded_iff [3, 7, 0, 0, 0] (by decide)
  constructor
  · exact (hruns _).mpr ⟨trivial, show (0 : Int) ≤ (5 : Int32).toInt by decide, trivial⟩
  · refine (hcolumns true _ rfl (InBounds.ofMemory (by decide))).mpr fun hdr hsome => ?_
    obtain rfl := Option.some.inj hsome
    trivial

/-- A position before the block, and a binary value of length `-10`: its column
ends before it starts. -/
theorem inputStream_not_bounded :
    ¬Along Bounded (ofMemory []) [.position (-1)] ∧
      ¬Ends Thrown (Column.ofReader false (.ofStream (.ofMemory [27, 246, 255, 255, 255]))) fun x => x.1.Within 5 := by
  constructor
  · intro hrun
    exact absurd hrun.1.2.nonneg (by decide)
  · have hcolumn : Column.ofReader false (.ofStream (.ofMemory [27, 246, 255, 255, 255])) =
        .ok (⟨27, 0, -1, 0, -1⟩, .ofMemory [27, 246, 255, 255, 255]) := by decide +kernel
    rw [hcolumn, ends_ok, Column.Within]
    decide

end DocumentDbOdbc
