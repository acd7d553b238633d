/-
What a `Put` leaves in memory, and how a `Get` reads it.

`stored` is memory after a `Put`. A `Put` that returns has stored some bytes
in the data and one length in the indicator; where the two are apart, the data
are read back as they were stored (`read_data`), and the length is
(`read_len`). `readInteger` reads an integer of some bytes.
-/
import DocumentDbOdbc.ApplicationDataBufferResults
import DocumentDbOdbc.Lib.Bytes

namespace DocumentDbOdbc

open Effect

/-! ## Integers in memory -/

theorem value_leBytes (n : Nat) (v : Int) : (Bytes.value (leBytes n v) : Int) = v % 256 ^ n := Bytes.value_digits v n

theorem value_leBytes_natCast (n k : Nat) : Bytes.value (leBytes n (k : Int)) = k % 256 ^ n := by
  exact_mod_cast value_leBytes n k

theorem signedValue_leBytes (n : Nat) (v : Int) : Bytes.signedValue (leBytes n v) = v.bmod (256 ^ n) :=
  Bytes.signedValue_digits v n

/-- An integer of `size` bytes at an address. -/
def readInteger (m : Memory.Mem) (a : Int) (size : Nat) (signed : Bool) : Int :=
  if signed then Bytes.signedValue (Memory.read m a size) else Bytes.value (Memory.read m a size)

/-- The integers an object of `size` bytes can hold. -/
def Fits (size : Nat) (signed : Bool) (v : Int) : Prop :=
  if signed then -(256 ^ size / 2) ≤ v ∧ v < 256 ^ size / 2 else 0 ≤ v ∧ v < 256 ^ size

instance (size : Nat) (signed : Bool) (v : Int) : Decidable (Fits size signed v) := by
  unfold Fits
  infer_instance

theorem Fits.mono {size size' : Nat} {v : Int} (hle : size ≤ size') (h : Fits size true v) : Fits size' true v := by
  have hpow : (256 : Int) ^ size ≤ 256 ^ size' := pow_le_pow_right₀ (by decide) hle
  rw [Fits, if_pos rfl] at h ⊢
  omega

/-- What is between zero and a number that fits does, too. -/
theorem Fits.of_between {size : Nat} {signed : Bool} {v w : Int} (hw : Fits size signed w)
    (h : 0 ≤ v ∧ v ≤ w ∨ w ≤ v ∧ v ≤ 0) : Fits size signed v := by
  cases signed with
  | true =>
    rw [Fits, if_pos rfl] at hw ⊢
    omega
  | false =>
    rw [Fits, if_neg (by decide)] at hw ⊢
    omega

/-- Only zero is a multiple of the range. -/
theorem Fits.eq_zero_of_dvd {size : Nat} {signed : Bool} {v : Int} (h : Fits size signed v) (hdvd : 256 ^ size ∣ v) :
    v = 0 := by
  have hpow : (0 : Int) < 256 ^ size := Int.pow_pos (by decide)
  refine Int.eq_zero_of_abs_lt_dvd hdvd (abs_lt.mpr ?_)
  cases signed with
  | true =>
    rw [Fits, if_pos rfl] at h
    omega
  | false =>
    rw [Fits, if_neg (by decide)] at h
    omega

theorem fits_one {v : Int} : Fits 1 true v ↔ -128 ≤ v ∧ v ≤ 127 := by
  rw [Fits, if_pos rfl]
  omega

theorem fits_two {v : Int} : Fits 2 true v ↔ -32768 ≤ v ∧ v ≤ 32767 := by
  rw [Fits, if_pos rfl]
  omega

theorem fits_four {v : Int} : Fits 4 true v ↔ -2147483648 ≤ v ∧ v ≤ 2147483647 := by
  rw [Fits, if_pos rfl]
  omega

theorem fits_eight {v : Int} : Fits 8 true v ↔ -9223372036854775808 ≤ v ∧ v ≤ 9223372036854775807 := by
  rw [Fits, if_pos rfl]
  omega

/-- What `static_cast` makes of an integer. -/
def castInteger (size : Nat) (signed : Bool) (v : Int) : Int := if signed then v.bmod (256 ^ size) else v % 256 ^ size

theorem readInteger_of_read {m : Memory.Mem} {a : Int} {size : Nat} {v : Int} (signed : Bool)
    (h : Memory.read m a size = leBytes size v) : readInteger m a size signed = castInteger size signed v := by
  rw [readInteger, castInteger, h, signedValue_leBytes, value_leBytes]

theorem castInteger_of_fits {size : Nat} {signed : Bool} {v : Int} (h : Fits size signed v) :
    castInteger size signed v = v := by
  unfold Fits at h
  unfold castInteger
  cases signed with
  | true =>
    rw [if_pos rfl] at h ⊢
    exact Int.bmod_eq_of_le (by push_cast; exact h.1) (by push_cast; omega)
  | false =>
    rw [if_neg (by decide)] at h ⊢
    exact Int.emod_eq_of_lt h.1 h.2

/-- A cast changes nothing up to multiples of its range. -/
theorem castInteger_emod (size : Nat) (signed : Bool) (v : Int) : castInteger size signed v % 256 ^ size = v % 256 ^ size := by
  unfold castInteger
  split
  · exact_mod_cast Int.bmod_emod
  · exact Int.emod_emod_of_dvd v (dvd_refl _)

theorem fits_castInteger {size : Nat} (hpos : 0 < size) (signed : Bool) (v : Int) :
    Fits size signed (castInteger size signed v) := by
  obtain ⟨n, rfl⟩ : ∃ n, size = n + 1 := ⟨size - 1, by omega⟩
  have hpow : (0 : Int) < 256 ^ (n + 1) := Int.pow_pos (by decide)
  have heven : (256 : Int) ^ (n + 1) = 2 * (256 ^ (n + 1) / 2) := by
    rw [Int.pow_succ]
    omega
  unfold Fits castInteger
  cases signed with
  | true =>
    rw [if_pos rfl, if_pos rfl]
    have hlow := Int.le_bmod (x := v) (m := 256 ^ (n + 1)) (by positivity)
    have hhigh := Int.bmod_lt (x := v) (m := 256 ^ (n + 1)) (by positivity)
    push_cast at hlow hhigh
    omega
  | false =>
    rw [if_neg (by decide), if_neg (by decide)]
    exact ⟨Int.emod_nonneg v hpow.ne', Int.emod_lt_of_pos v hpow⟩

/-- A cast changes nothing exactly where there is room. -/
theorem castInteger_eq_self_iff {size : Nat} (hpos : 0 < size) {signed : Bool} {v : Int} :
    castInteger size signed v = v ↔ Fits size signed v :=
  ⟨fun h => h ▸ fits_castInteger hpos signed v, castInteger_of_fits⟩

/-- The bytes tell integers that fit apart. -/
theorem leBytes_injective {size : Nat} {signed : Bool} {v w : Int} (hv : Fits size signed v) (hw : Fits size signed w)
    (h : leBytes size v = leBytes size w) : v = w := by
  rw [← castInteger_of_fits hv, ← castInteger_of_fits hw, castInteger, castInteger, ← signedValue_leBytes,
    ← signedValue_leBytes, ← value_leBytes, ← value_leBytes, h]

/-! ## Texts in memory -/

/-- The characters of `w` bytes at an address before a zero, at most `n`. -/
def readText (m : Memory.Mem) (w : Nat) : Nat → Int → List Nat
  | 0, _ => []
  | n + 1, a =>
    match Bytes.value (Memory.read m a w) with
    | 0 => []
    | c => c :: readText m w n (a + w)

/-- A text is read back that fills the room or has a terminator. -/
theorem readText_of_read {m : Memory.Mem} {w : Nat} : ∀ {cs : List Nat} {a : Int} {n : Nat},
    (∀ c ∈ cs, 0 < c ∧ c < 256 ^ w) →
    Memory.read m a (w * cs.length) = (cs.flatMap fun c : Nat => leBytes w (c : Int)) →
    (cs.length < n → Memory.read m (a + (w * cs.length : Nat)) w = leBytes w 0) → cs.length ≤ n → readText m w n a = cs
  | [], a, 0, _, _, _, _ => rfl
  | [], a, n + 1, _, _, hend, _ => by
    have hvalue : Bytes.value (Memory.read m a w) = 0 := by
      have h := value_leBytes w 0
      rw [← hend (Nat.succ_pos n)] at h
      simpa using h
    rw [readText, hvalue]
    rfl
  | c :: cs, a, n, hc, hread, hend, hn => by
    obtain ⟨n, rfl⟩ : ∃ k, n = k + 1 := ⟨n - 1, by rw [List.length_cons] at hn; omega⟩
    have hsplit : w * (c :: cs).length = w + w * cs.length := by
      rw [List.length_cons, Nat.mul_succ, Nat.add_comm]
    rw [hsplit, Memory.read_add, List.flatMap_cons] at hread
    obtain ⟨hfirst, hrest⟩ := List.append_inj hread (by simp)
    obtain ⟨hpos, hlt⟩ := hc c (List.mem_cons_self ..)
    have hvalue : Bytes.value (Memory.read m a w) = c := by
      rw [hfirst, value_leBytes_natCast, Nat.mod_eq_of_lt hlt]
    have hnext : readText m w n (a + w) = cs := by
      refine readText_of_read (fun x hx => hc x (List.mem_cons_of_mem c hx)) hrest (fun hlt => ?_) (by simpa using hn)
      rw [← hend (by simpa using hlt), hsplit, Nat.cast_add, Int.add_assoc]
    obtain ⟨k, rfl⟩ : ∃ k, c = k + 1 := ⟨c - 1, by omega⟩
    rw [readText, hvalue, hnext]
    rfl

theorem int32Cast_of_lt {n : Nat} (h : n < 2 ^ 31) : int32Cast n = n :=
  Int.bmod_eq_of_le (by norm_num) (by norm_num; omega)

theorem flatMap_leBytes_one (text : Str) : ((text.map UInt8.toNat).flatMap fun c : Nat => leBytes 1 (c : Int)) = text := by
  induction text with
  | nil => rfl
  | cons c text ih =>
    have hc : leBytes 1 (c.toNat : Int) = [c] := by
      have := c.toNat_lt
      rw [leBytes, List.range_one, List.map_singleton, Int.pow_zero, Int.ediv_one, Int.emod_eq_of_lt (by omega) (by omega),
        Int.toNat_natCast, UInt8.ofNat_toNat]
    rw [List.map_cons, List.flatMap_cons, ih, hc]
    rfl

/-- Characters and a terminator, of `w` bytes each. -/
def charsBytes (w : Nat) (cs : List Nat) : List UInt8 := (cs.flatMap fun c : Nat => leBytes w (c : Int)) ++ leBytes w 0

theorem length_charsBytes (w : Nat) (cs : List Nat) : (charsBytes w cs).length = w * (cs.length + 1) := by
  rw [charsBytes, List.length_append, ApplicationDataBuffer.length_flatMap_leBytes, length_leBytes, Nat.mul_succ]

/-- As many characters are read back as are asked for. -/
theorem readText_charsBytes {w : Nat} {cs : List Nat} (hcs : ∀ c ∈ cs, 0 < c ∧ c < 256 ^ w) (m : Memory.Mem) (p : Int)
    (n : Nat) : readText (Memory.write m ⟨p, charsBytes w cs⟩) w n p = cs.take n := by
  have hlen := ApplicationDataBuffer.length_flatMap_leBytes w (cs.take n)
  have hall := length_charsBytes w cs
  have hle : (cs.take n).length ≤ cs.length := by simp
  refine readText_of_read (fun c hc => hcs c (List.mem_of_mem_take hc)) ?_ (fun hlt => ?_) (by simp)
  · have hread := Memory.read_write m p (charsBytes w cs) (k := 0) (n := w * (cs.take n).length) (by
      rw [hall, Nat.zero_add]
      exact Nat.mul_le_mul_left _ (by omega))
    rw [Nat.cast_zero, Int.add_zero, List.drop_zero] at hread
    have hsplit : charsBytes w cs = ((cs.take n).flatMap fun c : Nat => leBytes w (c : Int)) ++ charsBytes w (cs.drop n) := by
      rw [charsBytes, charsBytes, ← List.append_assoc, ← List.flatMap_append, List.take_append_drop]
    rw [hread, hsplit, ← hlen, List.take_left]
  · -- the text is shorter than what is asked for
    have hshort : cs.take n = cs := List.take_of_length_le (by rw [List.length_take] at hlt; omega)
    rw [hshort] at hlen ⊢
    have hread := Memory.read_write m p (charsBytes w cs) (k := w * cs.length) (n := w) (by rw [hall, Nat.mul_succ])
    rw [hread, charsBytes, ← hlen, List.drop_left, List.take_of_length_le (by rw [length_leBytes])]

/-- Those of an ASCII text. -/
def textBytes (w : Nat) (s : Str) : List UInt8 := charsBytes w (s.map UInt8.toNat)

theorem length_textBytes (w : Nat) (s : Str) : (textBytes w s).length = w * (s.length + 1) := by
  rw [textBytes, length_charsBytes, List.length_map]

theorem readText_textBytes {w : Nat} (hw : 0 < w) {s : Str} (hplain : ∀ c ∈ s, isPlainChar c = true) (m : Memory.Mem)
    (p : Int) (n : Nat) : readText (Memory.write m ⟨p, textBytes w s⟩) w n p = (s.take n).map UInt8.toNat := by
  have hpow : 256 ≤ 256 ^ w := Nat.le_self_pow (by omega) 256
  rw [textBytes, readText_charsBytes, List.map_take]
  intro c hc
  obtain ⟨x, hx, rfl⟩ := List.mem_map.mp hc
  have := lt_of_isPlainChar (hplain x hx)
  omega

/-! ## Hexadecimal digits -/

/-- The digit of a number below sixteen. -/
def hexDigit (d : Nat) : UInt8 := UInt8.ofNat (Nat.digitChar d).toNat

theorem hexDigit_spec {d : Nat} (h : d < 16) :
    digitValue (hexDigit d) = some d ∧ isDigitOf 16 (hexDigit d) = true ∧ isPlainChar (hexDigit d) = true ∧
      isSpace (hexDigit d) = false ∧ hexDigit d ≠ 45 ∧ hexDigit d ≠ 43 ∧ toLowerChar (hexDigit d) ≠ 120 := by
  interval_cases d <;> decide

/-- The highest digit comes first. -/
theorem hexDigits_succ (n v : Nat) : hexDigits (n + 1) v = hexDigit (v / 16 ^ n % 16) :: hexDigits n v := by
  simp [hexDigits, hexDigit, List.range_succ]

theorem length_hexDigits (n v : Nat) : (hexDigits n v).length = n := by simp [hexDigits]

theorem mem_hexDigits {n v : Nat} {c : UInt8} (h : c ∈ hexDigits n v) : ∃ d, d < 16 ∧ c = hexDigit d := by
  obtain ⟨i, -, rfl⟩ := List.mem_map.mp h
  exact ⟨v / 16 ^ i % 16, Nat.mod_lt _ (by decide), rfl⟩

theorem isPlainChar_hexDigits (n v : Nat) : ∀ c ∈ hexDigits n v, isPlainChar c = true := by
  intro c hc
  obtain ⟨d, hd, rfl⟩ := mem_hexDigits hc
  exact (hexDigit_spec hd).2.2.1

theorem isPlainChar_hexText (data : Str) : ∀ c ∈ hexText data, isPlainChar c = true := by
  intro c hc
  obtain ⟨x, -, hx⟩ := List.mem_flatMap.mp hc
  exact isPlainChar_hexDigits 2 x.toNat c hx

theorem length_hexText (data : Str) : (hexText data).length = 2 * data.length := by
  induction data with
  | nil => rfl
  | cons x data ih =>
    rw [hexText, List.flatMap_cons, List.length_append, length_hexDigits, ← hexText, ih, List.length_cons]
    omega

/-- The bytes of a C type of integers and whether it has a sign. -/
def OdbcNativeType.integer : OdbcNativeType → Option (Nat × Bool)
  | .signedTinyint => some (1, true)
  | .bit | .unsignedTinyint => some (1, false)
  | .signedShort => some (2, true)
  | .unsignedShort => some (2, false)
  | .signedLong => some (4, true)
  | .unsignedLong => some (4, false)
  | .signedBigint => some (8, true)
  | .unsignedBigint => some (8, false)
  | _ => none

namespace ApplicationDataBuffer

/-- Memory after a `Put`. -/
def stored (b : ApplicationDataBuffer) (x : Put) (m : Memory.Mem) : Memory.Mem :=
  Memory.writes m (x.log.filterMap b.resolve)

/-- The bytes of a character in the buffer. -/
def charBytes (P : Platform) (b : ApplicationDataBuffer) : Nat :=
  match b.type with
  | .wchar => P.wcharBytes
  | _ => 1

/-- The indicator and the first `n` bytes of the data do not overlap. -/
def Apart (b : ApplicationDataBuffer) (n : Nat) : Prop :=
  ∀ p ∈ b.getData, ∀ r ∈ b.getResLen, r + 8 ≤ p ∨ p + n ≤ r

section

variable {b : ApplicationDataBuffer} {p r : Int} {n : Nat}

theorem isSome_buffer (hp : b.getData = some p) : b.buffer.isSome := by
  rw [getData, applyOffset] at hp
  obtain ⟨_, hbuffer, -⟩ := Option.map_eq_some_iff.mp hp
  rw [hbuffer]
  rfl

theorem isSome_reslen (hr : b.getResLen = some r) : b.reslen.isSome := by
  rw [getResLen, applyOffset] at hr
  obtain ⟨_, hreslen, -⟩ := Option.map_eq_some_iff.mp hr
  rw [hreslen]
  rfl

theorem storeData_of_getData (hp : b.getData = some p) (offset : Nat) (bytes : List UInt8) :
    b.storeData offset bytes = emit ⟨.data, offset, bytes⟩ :=
  if_pos (isSome_buffer hp)

theorem ifData_of_getData (hp : b.getData = some p) (x : Eff Store Fault Unit) : b.ifData x = x :=
  if_pos (isSome_buffer hp)

theorem storeLen_of_getResLen (hr : b.getResLen = some r) (v : Int) :
    b.storeLen v = emit ⟨.indicator, 0, leBytes 8 v⟩ :=
  if_pos (isSome_reslen hr)

theorem resolve_data_some (hp : b.getData = some p) (offset : Nat) (bytes : List UInt8) :
    b.resolve ⟨.data, offset, bytes⟩ = some ⟨p + offset, bytes⟩ := by
  rw [resolve, hp]
  rfl

theorem resolve_indicator_some (hr : b.getResLen = some r) (v : Int) :
    b.resolve ⟨.indicator, 0, leBytes 8 v⟩ = some ⟨r, leBytes 8 v⟩ := by
  rw [resolve, hr]
  simp

/-- What is stored in the indicator is not in the data. -/
theorem storeLen_apart (hp : b.getData = some p) (h : b.Apart n) (v : Int) {w : Memory.Write}
    (hw : w ∈ (b.storeLen v).log.filterMap b.resolve) : w.addr + w.bytes.length ≤ p ∨ p + n ≤ w.addr := by
  obtain ⟨s, hs, hres⟩ := List.mem_filterMap.mp hw
  unfold storeLen at hs
  split at hs
  · obtain rfl := List.mem_singleton.mp hs
    obtain ⟨r, hr, rfl⟩ := resolve_indicator rfl hres
    have := h p hp r hr
    simpa using this
  · cases hs

theorem stored_eq (x : Put) (m : Memory.Mem) {l l' : List Store} (hlog : x.log = l ++ l') :
    b.stored x m = Memory.writes (Memory.writes m (l.filterMap b.resolve)) (l'.filterMap b.resolve) := by
  rw [stored, hlog, List.filterMap_append, Memory.writes_append]

/-- The data are what was stored in them, if the length is stored last. -/
theorem read_data {x : Put} {l : List Store} {v : Int} (hp : b.getData = some p) (hapart : b.Apart n)
    (hlog : x.log = l ++ (b.storeLen v).log) (m : Memory.Mem) {offset k : Nat} (h : offset + k ≤ n) :
    Memory.read (b.stored x m) (p + offset) k =
      Memory.read (Memory.writes m (l.filterMap b.resolve)) (p + offset) k := by
  rw [stored_eq x m hlog]
  refine Memory.read_writes_of_disjoint _ fun w hw => ?_
  have := storeLen_apart hp hapart v hw
  omega

/-- Fields that do not overlap are read back if the length is stored last. -/
theorem read_field {x : Put} {l : List Store} {v : Int} (hp : b.getData = some p) (hapart : b.Apart n)
    (hlog : x.log = l ++ (b.storeLen v).log) (hdata : ∀ s ∈ l, s.region = .data ∧ s.offset + s.bytes.length ≤ n)
    (hdisjoint : l.Pairwise fun s t => s.offset + s.bytes.length ≤ t.offset ∨ t.offset + t.bytes.length ≤ s.offset)
    (m : Memory.Mem) (s : Store) (h : s ∈ l) : Memory.read (b.stored x m) (p + s.offset) s.bytes.length = s.bytes := by
  have hl : l.filterMap b.resolve = l.map fun s => ⟨p + s.offset, s.bytes⟩ := by
    rw [← List.filterMap_eq_map]
    refine List.filterMap_congr fun s hs => ?_
    obtain ⟨region, offset, bytes⟩ := s
    obtain rfl := (hdata _ hs).1
    exact resolve_data_some hp offset bytes
  rw [read_data hp hapart hlog m (hdata _ h).2, hl]
  have hw := List.mem_map_of_mem (f := fun s : Store => (⟨p + s.offset, s.bytes⟩ : Memory.Write)) h
  refine Memory.read_writes_of_mem (List.pairwise_map.mpr (hdisjoint.imp fun {s t} hst => ?_)) hw m
  unfold Memory.Write.Disjoint
  dsimp only
  omega

/-- The indicator is the length, if that is stored last. -/
theorem read_len {x : Put} {l : List Store} {v : Int} (hr : b.getResLen = some r)
    (hlog : x.log = l ++ (b.storeLen v).log) (m : Memory.Mem) : Memory.read (b.stored x m) r 8 = leBytes 8 v := by
  rw [stored_eq x m hlog, storeLen_of_getResLen hr, log_emit, List.filterMap_cons, resolve_indicator_some hr]
  have h := Memory.read_write_self (Memory.writes m (l.filterMap b.resolve)) r (leBytes 8 v)
  rwa [length_leBytes] at h

/-! ## Numbers -/

variable {P : Platform}

theorem putNumToNumBuffer_eq (hp : b.getData = some p) (bytes : List UInt8) :
    b.putNumToNumBuffer bytes = ⟨[⟨.data, 0, bytes⟩] ++ (b.storeLen bytes.length).log, .ok .success⟩ := by
  unfold putNumToNumBuffer
  rw [ifData_of_getData hp, storeData_of_getData hp, emit_bind, bind_of_ok (storeLen_value b _)]
  simp

/-- What is put is what is read. -/
theorem read_putNumToNumBuffer (hp : b.getData = some p) {bytes : List UInt8} (hapart : b.Apart bytes.length)
    (m : Memory.Mem) : Memory.read (b.stored (b.putNumToNumBuffer bytes) m) p bytes.length = bytes := by
  have h := read_field hp hapart (congrArg Eff.log (putNumToNumBuffer_eq hp bytes)) (by simp) (by simp) m _
    (List.mem_cons_self ..)
  rwa [Nat.cast_zero, Int.add_zero] at h

/-- A number put into an integer is cast. -/
theorem putNum_integer {size : Nat} {signed : Bool} (hb : b.type.integer = some (size, signed)) (value : Num) :
    b.putNum P value = b.putNumToNumBuffer (leBytes size (value.toInt P size signed)) := by
  cases ht : b.type with
  | signedTinyint | bit | unsignedTinyint | signedShort | unsignedShort | signedLong | unsignedLong | signedBigint
  | unsignedBigint =>
    rw [ht] at hb
    obtain ⟨rfl, rfl⟩ := Prod.mk.inj (Option.some.inj hb)
    rw [putNum, ht]
  | _ =>
    rw [ht] at hb
    cases hb

/-! ## Texts -/

/-- A text of ASCII is one character a byte. -/
theorem fromBytes_plain {text : Str} (h : ∀ c ∈ text, isPlainChar c = true) :
    P.fromBytes text = some (text.map UInt8.toNat) := by
  have hascii : ∀ c ∈ text, c < 0x80 := fun c hc => UInt8.lt_iff_toNat_lt.mpr (lt_of_isPlainChar (h c hc)).2
  rw [Platform.fromBytes, cStr_plain h, Platform.nextChar, Utf8.decode_ascii _ _ _ hascii]
  simp

/-- `std::ctype::narrow` gives back the characters of ASCII. -/
def NarrowsAscii (P : Platform) : Prop := ∀ c < 128, P.narrow c = UInt8.ofNat c

theorem map_narrow {text : Str} (hnarrow : NarrowsAscii P) (h : ∀ c ∈ text, isPlainChar c = true) :
    (text.map UInt8.toNat).map P.narrow = text := by
  rw [List.map_map, List.map_congr_left (g := id), List.map_id]
  intro c hc
  rw [Function.comp_apply, hnarrow _ (lt_of_isPlainChar (h c hc)).2, UInt8.ofNat_toNat]
  rfl

/-- A text put into narrow characters, cut to the room beside the terminator. -/
theorem putStrToCharBuffer_eq {value : Str} {chars : List Nat} (hp : b.getData = some p) (hlen : 1 ≤ b.buflen)
    (hchars : P.fromBytes value = some chars) :
    let n := min chars.length (b.buflen.toNat - 1)
    b.putStrToCharBuffer P value =
      ⟨[⟨.data, 0, (chars.take n).map P.narrow⟩, ⟨.data, n, [0]⟩] ++ (b.storeLen (int32Cast n)).log,
        .ok (if n < chars.length then .varlenDataTruncated else .success)⟩ := by
  have hbuf : ¬ b.buffer.isNone = true := by
    rw [Option.isNone_iff_eq_none]
    exact Option.isSome_iff_ne_none.mp (isSome_buffer hp)
  unfold putStrToCharBuffer
  rw [if_neg hbuf, if_neg (by omega), hchars, sizeT_of_nonneg (by omega)]
  simp only [storeData_of_getData hp, emit_bind, bind_of_ok (storeLen_value b _)]
  simp

/-- A text put into wide characters. -/
theorem putStrToWcharBuffer_eq (value : Str) (hp : b.getData = some p) (hlen : P.wcharBytes ≤ b.buflen) :
    let out := P.convertIn value (b.buflen.toNat / P.wcharBytes - 1)
    b.putStrToWcharBuffer P value =
      ⟨[⟨.data, 0, out.1.flatMap fun c : Nat => leBytes P.wcharBytes (c : Int)⟩,
          ⟨.data, P.wcharBytes * out.1.length, leBytes P.wcharBytes 0⟩] ++
          (b.storeLen (int32Cast (out.1.length * P.wcharBytes))).log,
        .ok (if out.2 then .success else .varlenDataTruncated)⟩ := by
  have hbuf : ¬ b.buffer.isNone = true := by
    rw [Option.isNone_iff_eq_none]
    exact Option.isSome_iff_ne_none.mp (isSome_buffer hp)
  have hw := P.wcharBytes_range
  have hrange := b.buflen_range
  unfold putStrToWcharBuffer copyUtf8StringToSqlWcharString
  rw [if_neg hbuf, if_neg (by omega), sizeT_of_nonneg (by omega), if_neg (by omega),
    outBufferLenChars_eq (by omega) (by omega)]
  simp only [storeData_of_getData hp, emit_bind, log_pure, value_pure]
  rw [bind_of_ok rfl, bind_of_ok (storeLen_value b _)]
  cases (P.convertIn value (b.buflen.toNat / P.wcharBytes - 1)).2 <;> simp

/-- The stores of a text and its terminator. -/
def textStores (w : Nat) (s : Str) : List Store :=
  [⟨.data, 0, (s.map UInt8.toNat).flatMap fun c : Nat => leBytes w (c : Int)⟩, ⟨.data, w * s.length, leBytes w 0⟩]

theorem writes_textStores (hp : b.getData = some p) (w : Nat) (s : Str) (m : Memory.Mem) :
    Memory.writes m ((textStores w s).filterMap b.resolve) = Memory.write m ⟨p, textBytes w s⟩ := by
  have hlen := length_flatMap_leBytes w (s.map UInt8.toNat)
  rw [List.length_map] at hlen
  have happend := Memory.write_append m p ((s.map UInt8.toNat).flatMap fun c : Nat => leBytes w (c : Int)) (leBytes w 0)
  rw [hlen] at happend
  rw [textStores, List.filterMap_cons, resolve_data_some hp, List.filterMap_cons, resolve_data_some hp, List.filterMap_nil,
    textBytes, charsBytes, ← happend, Nat.cast_zero, Int.add_zero]
  rfl

/-- The text may be stored before the length or after it. -/
theorem stored_textStores {x : Put} {w : Nat} {s : Str} {v : Int} (hp : b.getData = some p) (hapart : b.Apart n)
    (hlog : x.log = textStores w s ++ (b.storeLen v).log) (hroom : w * (s.length + 1) ≤ n) (m : Memory.Mem) :
    b.stored x m = Memory.write (Memory.writes m ((b.storeLen v).log.filterMap b.resolve)) ⟨p, textBytes w s⟩ := by
  rw [stored_eq x m hlog, writes_textStores hp]
  refine Memory.writes_write_comm m fun w' hw' => ?_
  have := storeLen_apart hp hapart v hw'
  rw [Memory.Write.Disjoint, length_textBytes]
  dsimp only
  omega

/-- A text of ASCII put as a string, in characters of either width. -/
theorem putStrToCharBuffer_plain (hnarrow : NarrowsAscii P) {s : Str} (hplain : ∀ c ∈ s, isPlainChar c = true)
    (hp : b.getData = some p) (hlen : 1 ≤ b.buflen) :
    let t := s.take (b.buflen.toNat - 1)
    b.putStrToCharBuffer P s =
      ⟨textStores 1 t ++ (b.storeLen (int32Cast t.length)).log,
        .ok (if s.length ≤ b.buflen.toNat - 1 then .success else .varlenDataTruncated)⟩ := by
  intro t
  have htake : ((s.map UInt8.toNat).take (min s.length (b.buflen.toNat - 1))).map P.narrow = t := by
    rw [← List.map_take, map_narrow hnarrow fun c hc => hplain c (List.mem_of_mem_take hc), Nat.min_comm, ← List.take_take,
      List.take_length]
  have hmin : min s.length (b.buflen.toNat - 1) = t.length := by rw [List.length_take, Nat.min_comm]
  have hcut : (t.length < s.length) = ¬ s.length ≤ b.buflen.toNat - 1 := by
    rw [← hmin]
    exact propext (by omega)
  have h := putStrToCharBuffer_eq hp hlen (fromBytes_plain hplain (P := P))
  simp only [List.length_map, htake] at h
  rw [h, hmin, textStores, flatMap_leBytes_one, Nat.one_mul]
  simp only [hcut, ite_not]
  rfl

theorem putStrToWcharBuffer_plain {s : Str} (hplain : ∀ c ∈ s, isPlainChar c = true) (hp : b.getData = some p)
    (hlen : P.wcharBytes ≤ b.buflen) :
    let t := s.take (b.buflen.toNat / P.wcharBytes - 1)
    b.putStrToWcharBuffer P s =
      ⟨textStores P.wcharBytes t ++ (b.storeLen (int32Cast (t.length * P.wcharBytes))).log,
        .ok (if s.length ≤ b.buflen.toNat / P.wcharBytes - 1 then .success else .varlenDataTruncated)⟩ := by
  intro t
  rw [putStrToWcharBuffer_eq s hp hlen, convertIn_plain_eq hplain]
  simp only [List.length_map, decide_eq_true_eq]
  rfl

end

end ApplicationDataBuffer

end DocumentDbOdbc
