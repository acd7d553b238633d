/-
`Guid` in a buffer: `PutGuid` and `GetGuid`.

The text of a GUID is read back group by group (`readGuid_text`). The object
is not: `GetGuid` assigns the shifted bytes of `Data4` one after the other to
the same variable, and the last of them is what it keeps
(`guid_round_trip_iff`).
-/
import DocumentDbOdbc.BufferMemory

namespace DocumentDbOdbc

open Effect ApplicationDataBuffer

/-! ## Reading a stream -/

/-- A `std::stringstream` that is read. -/
structure IStream where
  rest : Str
  fail : Bool
  deriving DecidableEq, Repr

/-- What the language leaves open in `operator>>(Guid&)` and `GetGuid`: what is
in a part and the delimiter before they are assigned, and an `int` shifted by 32
bits or more. -/
structure Unassigned where
  part : Nat → UInt64
  delim : UInt8
  shifted : UInt8 → Nat → UInt64

/-- The number of a row of hexadecimal digits. -/
def hexNumber (digits : Str) : Nat := digits.foldl (fun n c => n * 16 + (digitValue c).getD 0) 0

/-- A numeral may begin with `0x`. -/
def skipHexPrefix : Str → Str
  | 48 :: x :: t => if toLowerChar x = 120 then t else 48 :: x :: t
  | t => t

namespace IStream

/-- `is >> std::hex >> n`, into a `uint64_t` that holds `old`. -/
def hex (s : IStream) (old : UInt64) : UInt64 × IStream :=
  if s.fail then (old, s)
  else
    match s.rest.dropWhile isSpace with
    | [] => (old, ⟨[], true⟩)
    | c :: t =>
      let t := skipHexPrefix (if c = 45 ∨ c = 43 then t else c :: t)
      let digits := t.takeWhile (isDigitOf 16)
      let rest := t.dropWhile (isDigitOf 16)
      if digits = [] then (0, ⟨rest, true⟩)
      else if 18446744073709551616 ≤ hexNumber digits then (18446744073709551615, ⟨rest, true⟩)
      else (if c = 45 then -.ofNat (hexNumber digits) else .ofNat (hexNumber digits), ⟨rest, false⟩)

/-- `is >> c`, into a `char` that holds `old`. -/
def char (s : IStream) (old : UInt8) : UInt8 × IStream :=
  if s.fail then (old, s)
  else
    match s.rest.dropWhile isSpace with
    | [] => (old, ⟨[], true⟩)
    | c :: t => (c, ⟨t, false⟩)

/-- The loop over the groups a delimiter follows, from the `i`th on; none if it
leaves early. -/
def groups (u : Unassigned) (s : IStream) (delim : UInt8) (i : Nat) : Nat → Option (List UInt64 × IStream)
  | 0 => some ([], s)
  | k + 1 =>
    let part := s.hex (u.part i)
    let next := part.2.char delim
    if next.1 ≠ 45 then none
    else (groups u next.2 next.1 (i + 1) k).map fun r => (part.1 :: r.1, r.2)

end IStream

/-- `Guid(most, least)` of the groups. -/
def Guid.ofParts (p0 p1 p2 p3 p4 : UInt64) : Guid := ⟨p0 <<< 32 ||| p1 <<< 16 ||| p2, p3 <<< 48 ||| p4⟩

/-- `std::istream >> guid` from a text. -/
def readGuid (u : Unassigned) (text : Str) (guid : Guid) : Guid :=
  match IStream.groups u ⟨text, false⟩ u.delim 0 4 with
  | some ([p0, p1, p2, p3], s) => .ofParts p0 p1 p2 p3 (s.hex (u.part 4)).1
  | _ => guid

/-! ## Strings of the driver manager -/

/-- `utility::SqlCharToString`. -/
def Utility.sqlCharToString (m : Memory.Mem) (sqlStr : Option Int) (sqlStrLen : Int32) : Str :=
  match sqlStr with
  | none => []
  | some a =>
    if sqlStrLen = -3 then (readText m 1 18446744073709551616 a).map .ofNat  -- `SQL_NTS`
    else if 0 < sqlStrLen then Memory.read m a sqlStrLen.toInt.toNat
    else []

/-- `wstring_convert::to_bytes`; `none` if it throws. -/
def Platform.toBytes (P : Platform) (chars : List Nat) : Option Str :=
  if chars.all fun c => c ≤ P.wchar.maxCode && (P.surrogates || c < 0xD800 || 0xDFFF < c) then
    some (chars.flatMap Utf8.encode)
  else none

/-- `utility::SqlWcharToString` of a length in bytes. -/
def Utility.sqlWcharToString (P : Platform) (m : Memory.Mem) (sqlStr : Option Int) (sqlStrLen : Int32) : Option Str :=
  match sqlStr with
  | none => some []
  | some a =>
    let n := if sqlStrLen = -3 then 18446744073709551616 else sqlStrLen.toInt.toNat / P.wcharBytes
    P.toBytes (readText m P.wcharBytes n a)

/-- `SQLGUID`. -/
structure SqlGuid where
  data1 : UInt32
  data2 : UInt16
  data3 : UInt16
  data4 : List UInt8
  deriving DecidableEq, Repr

/-- The object at an address. -/
def SqlGuid.load (m : Memory.Mem) (p : Int) : SqlGuid :=
  ⟨.ofNat (Bytes.value (Memory.read m p 4)), .ofNat (Bytes.value (Memory.read m (p + 4) 2)),
    .ofNat (Bytes.value (Memory.read m (p + 6) 2)), Memory.read m (p + 8) 8⟩

/-- A byte as an `int`, shifted to the left and cast to `uint64_t`. -/
def shiftByte (u : Unassigned) (x : UInt8) (n : Nat) : UInt64 :=
  if n < 32 then .ofInt (((x.toNat : Int) * 2 ^ n).bmod 4294967296) else u.shifted x n

namespace ApplicationDataBuffer

/-! ## The length of an input -/

/-- `*GetResLen()`. -/
def indicator (b : ApplicationDataBuffer) (m : Memory.Mem) : Option Int :=
  b.getResLen.map fun r => readInteger m r 8 true

/-- The cast is to `int32_t`; `-2` is `SQL_DATA_AT_EXEC`, `-100` is
`SQL_LEN_DATA_AT_EXEC_OFFSET`. -/
def isDataAtExec (b : ApplicationDataBuffer) (m : Memory.Mem) : Bool :=
  match b.indicator m with
  | none => false
  | some len => let ilen := Int32.ofInt len; ilen ≤ -100 || ilen = -2

def getDataAtExecSize (b : ApplicationDataBuffer) (m : Memory.Mem) : Int :=
  match b.type with
  | .wchar | .char | .binary =>
    match b.indicator m with
    | none => 0
    | some len =>
      let ilen := Int32.ofInt len
      let ilen := if ilen ≤ -100 then -ilen + -100 else 0
      if b.type = .wchar then (ilen * 2).toInt else ilen.toInt
  | .signedLong | .unsignedLong => 8
  | _ => b.getElementSize

def getInputSize (b : ApplicationDataBuffer) (m : Memory.Mem) : Int :=
  if b.isDataAtExec m then b.getDataAtExecSize m else (b.indicator m).getD (-3)

/-! ## Reading -/

/-- The text is the one in the buffer unless that is empty. -/
def getGuid (P : Platform) (u : Unassigned) (b : ApplicationDataBuffer) (m : Memory.Mem) : Except Fault Guid :=
  let res : Guid := ⟨0, 0⟩
  match b.type with
  | .char =>
    let paramLen := b.getInputSize m
    if paramLen = 0 then .ok res
    else .ok (readGuid u (Utility.sqlCharToString m b.getData (.ofInt paramLen)) res)
  | .wchar =>
    let paramLen := b.getInputSize m
    if paramLen = 0 then .ok res
    else
      match Utility.sqlWcharToString P m b.getData (.ofInt paramLen) with
      | none => .error .exception
      | some str => .ok (readGuid u str res)
  | .guid =>
    match b.getData with
    | none => .error .nullPointer
    | some p =>
      let guid := SqlGuid.load m p
      let msb := guid.data1.toUInt64 <<< 32 ||| guid.data2.toUInt64 <<< 16 ||| guid.data3.toUInt64
      let lsb := (List.range 8).foldl (fun _ i => shiftByte u (guid.data4.getD i 0) ((8 - i - 1) * 8)) 0
      .ok ⟨msb, lsb⟩
  | _ => .ok res

end ApplicationDataBuffer

/-! ## Hexadecimal digits -/

/-- The digits of a number, read behind others. -/
theorem foldl_hexDigits (n v acc : Nat) :
    (hexDigits n v).foldl (fun n c => n * 16 + (digitValue c).getD 0) acc = acc * 16 ^ n + v % 16 ^ n := by
  induction n generalizing acc with
  | zero => simp [hexDigits, Nat.mod_one]
  | succ n ih =>
    obtain ⟨hdigit, -⟩ := hexDigit_spec (Nat.mod_lt (v / 16 ^ n) (by decide : 0 < 16))
    have hsplit : v % 16 ^ (n + 1) = v % 16 ^ n + 16 ^ n * (v / 16 ^ n % 16) := by
      rw [Nat.pow_succ, Nat.mod_mul]
    rw [hexDigits_succ, List.foldl_cons, hdigit, Option.getD_some, ih, hsplit, Nat.pow_succ]
    ring

theorem hexNumber_hexDigits (n v : Nat) : hexNumber (hexDigits n v) = v % 16 ^ n := by
  rw [hexNumber, foldl_hexDigits, Nat.zero_mul, Nat.zero_add]

/-! ## The text -/

theorem skipHexPrefix_of_ne {x : UInt8} (h : toLowerChar x ≠ 120) (c : UInt8) (t : Str) :
    skipHexPrefix (c :: x :: t) = c :: x :: t := by
  unfold skipHexPrefix
  split
  · next heq =>
    obtain ⟨-, rfl, rfl⟩ := List.cons_eq_cons.mp heq |>.imp_right List.cons_eq_cons.mp
    rw [if_neg h, heq]
  · rfl

/-- A group is read up to what follows it. -/
theorem IStream.hex_hexDigits {n v : Nat} (h2 : 2 ≤ n) (h16 : n ≤ 16) {rest : Str} (old : UInt64)
    (hrest : ∀ c ∈ rest.head?, isDigitOf 16 c = false) :
    IStream.hex ⟨hexDigits n v ++ rest, false⟩ old = (.ofNat (v % 16 ^ n), ⟨rest, false⟩) := by
  obtain ⟨k, rfl⟩ : ∃ k, n = k + 2 := ⟨n - 2, by omega⟩
  have hfirst := hexDigit_spec (Nat.mod_lt (v / 16 ^ (k + 1)) (by decide : 0 < 16))
  have hsecond := hexDigit_spec (Nat.mod_lt (v / 16 ^ k) (by decide : 0 < 16))
  obtain ⟨-, -, -, hspace, hminus, hplus, -⟩ := hfirst
  obtain ⟨-, -, -, -, -, -, hx⟩ := hsecond
  have hall : ∀ c ∈ hexDigits (k + 2) v, isDigitOf 16 c = true := by
    intro c hc
    obtain ⟨d, hd, rfl⟩ := mem_hexDigits hc
    exact (hexDigit_spec hd).2.1
  have htake := Separated.takeWhile_row hall hrest
  have hdrop := Separated.dropWhile_row hall hrest
  have hne : hexDigits (k + 2) v ≠ [] := by
    rw [hexDigits_succ]
    exact List.cons_ne_nil _ _
  have hsmall : ¬ 18446744073709551616 ≤ v % 16 ^ (k + 2) := by
    have hlt := Nat.mod_lt v (Nat.pow_pos (n := k + 2) (by decide : 0 < 16))
    have hpow : 16 ^ (k + 2) ≤ 16 ^ 16 := Nat.pow_le_pow_right (by decide) h16
    omega
  have hshape : hexDigits (k + 2) v ++ rest =
      hexDigit (v / 16 ^ (k + 1) % 16) :: hexDigit (v / 16 ^ k % 16) :: (hexDigits k v ++ rest) := by
    rw [hexDigits_succ, hexDigits_succ]
    rfl
  have hblank : (hexDigits (k + 2) v ++ rest).dropWhile isSpace = hexDigits (k + 2) v ++ rest := by
    rw [hshape, List.dropWhile_cons, hspace]
    rfl
  unfold IStream.hex
  rw [if_neg Bool.false_ne_true]
  dsimp only
  rw [hblank, hshape]
  dsimp only
  rw [if_neg (not_or.mpr ⟨hminus, hplus⟩), skipHexPrefix_of_ne hx, ← hshape, htake, hdrop, if_neg hne,
    hexNumber_hexDigits, if_neg hsmall, if_neg hminus]

/-- Bits shifted above others. -/
theorem toNat_shiftLeft_or {x y s : UInt64} {k : Nat} (hs : s.toNat = k) (hk : k < 64) (hx : x.toNat * 2 ^ k < 2 ^ 64)
    (hy : y.toNat < 2 ^ k) : (x <<< s ||| y).toNat = x.toNat * 2 ^ k + y.toNat := by
  rw [UInt64.toNat_or, UInt64.toNat_shiftLeft, hs, Nat.mod_eq_of_lt hk, Nat.shiftLeft_eq, Nat.mod_eq_of_lt hx,
    ← Nat.shiftLeft_eq, ← Nat.shiftLeft_add_eq_or_of_lt hy, Nat.shiftLeft_eq]

theorem toNat_ofNat_of_lt {n : Nat} (h : n < 2 ^ 64) : (UInt64.ofNat n).toNat = n := by
  rw [UInt64.toNat_ofNat', Nat.mod_eq_of_lt h]

/-- A number cut in three as the halves of a GUID are. -/
theorem or_three (x : UInt64) :
    UInt64.ofNat (x.toNat / 2 ^ 32) <<< 32 ||| UInt64.ofNat (x.toNat / 2 ^ 16 % 2 ^ 16) <<< 16 |||
      UInt64.ofNat (x.toNat % 2 ^ 16) = x := by
  have hx := x.toNat_lt
  have h0 := toNat_ofNat_of_lt (n := x.toNat / 2 ^ 32) (by omega)
  have h1 := toNat_ofNat_of_lt (n := x.toNat / 2 ^ 16 % 2 ^ 16) (by omega)
  have h2 := toNat_ofNat_of_lt (n := x.toNat % 2 ^ 16) (by omega)
  have hlow : (UInt64.ofNat (x.toNat / 2 ^ 16 % 2 ^ 16) <<< 16 ||| UInt64.ofNat (x.toNat % 2 ^ 16)).toNat =
      x.toNat / 2 ^ 16 % 2 ^ 16 * 2 ^ 16 + x.toNat % 2 ^ 16 := by
    rw [toNat_shiftLeft_or (k := 16) rfl (by decide) (by omega) (by omega), h1, h2]
  rw [UInt64.or_assoc, ← UInt64.toNat_inj, toNat_shiftLeft_or (k := 32) rfl (by decide) (by omega) (by rw [hlow]; omega),
    hlow, h0]
  omega

/-- A number cut in two. -/
theorem or_two (x : UInt64) :
    UInt64.ofNat (x.toNat / 2 ^ 48) <<< 48 ||| UInt64.ofNat (x.toNat % 2 ^ 48) = x := by
  have hx := x.toNat_lt
  have h0 := toNat_ofNat_of_lt (n := x.toNat / 2 ^ 48) (by omega)
  have h1 := toNat_ofNat_of_lt (n := x.toNat % 2 ^ 48) (by omega)
  rw [← UInt64.toNat_inj, toNat_shiftLeft_or (k := 48) rfl (by decide) (by omega) (by omega), h0, h1]
  omega

theorem toNat_shiftRight {x s : UInt64} {k : Nat} (hs : s.toNat = k) (hk : k < 64) : (x >>> s).toNat = x.toNat / 2 ^ k := by
  rw [UInt64.toNat_shiftRight, hs, Nat.mod_eq_of_lt hk, Nat.shiftRight_eq_div_pow]

/-- **The text of a GUID**, leading zeros included. -/
theorem readGuid_text (u : Unassigned) (g res : Guid) : readGuid u g.text res = g := by
  have hstop : ∀ s : Str, ∀ c ∈ (ascii "-" ++ s).head?, isDigitOf 16 c = false := by
    intro s c hc
    obtain rfl : 45 = c := Option.some.inj hc
    decide
  have hchar : ∀ (s : Str) (old : UInt8), IStream.char ⟨ascii "-" ++ s, false⟩ old = (45, ⟨s, false⟩) :=
    fun _ _ => rfl
  have hlast : ∀ old, IStream.hex ⟨hexDigits 12 g.least.toNat, false⟩ old =
      (.ofNat (g.least.toNat % 16 ^ 12), ⟨[], false⟩) := by
    intro old
    have h := @IStream.hex_hexDigits 12 g.least.toNat (by decide) (by decide) [] old (by simp)
    rwa [List.append_nil] at h
  have hp0 : (g.most >>> 32).toNat % 16 ^ 8 = g.most.toNat / 2 ^ 32 := by
    have := g.most.toNat_lt
    rw [toNat_shiftRight (k := 32) rfl (by decide)]
    omega
  have hp1 : (g.most >>> 16).toNat % 16 ^ 4 = g.most.toNat / 2 ^ 16 % 2 ^ 16 := by
    rw [toNat_shiftRight (k := 16) rfl (by decide)]
    omega
  have hp3 : (g.least >>> 48).toNat % 16 ^ 4 = g.least.toNat / 2 ^ 48 := by
    have := g.least.toNat_lt
    rw [toNat_shiftRight (k := 48) rfl (by decide)]
    omega
  unfold readGuid Guid.text
  simp only [List.append_assoc, IStream.groups,
    IStream.hex_hexDigits (n := 8) (by decide) (by decide) _ (hstop _),
    IStream.hex_hexDigits (n := 4) (by decide) (by decide) _ (hstop _), hchar, hlast, Option.map_some, ne_eq,
    not_true_eq_false, if_false]
  rw [hp0, hp1, hp3, Guid.ofParts]
  exact congrArg₂ Guid.mk (or_three g.most) (or_two g.least)

/-! ## The object -/

/-- The byte that is not shifted. -/
theorem shiftByte_zero (u : Unassigned) (x : UInt8) : shiftByte u x 0 = .ofNat x.toNat := by
  have hx := x.toNat_lt
  rw [shiftByte, if_pos (by decide), Int.pow_zero, Int.mul_one, Int.bmod_eq_of_le (by omega) (by omega)]
  rw [← UInt64.toNat_inj, UInt64.toNat_ofNat']
  simp only [UInt64.ofInt, UInt64.toNat_ofNat']
  omega

namespace ApplicationDataBuffer

variable {P : Platform} {b : ApplicationDataBuffer} {p : Int}

theorem log_putGuid (hb : b.type = .guid) (hp : b.getData = some p) (g : Guid) :
    (b.putGuid P g).log =
      [⟨.data, 0, leBytes 4 (g.most >>> 32).toNat⟩, ⟨.data, 4, leBytes 2 (g.most >>> 16).toNat⟩,
        ⟨.data, 6, leBytes 2 g.most.toNat⟩, ⟨.data, 8, (leBytes 8 g.least.toNat).reverse⟩] ++ (b.storeLen 16).log := by
  unfold putGuid
  rw [hb]
  simp only [storeData_of_getData hp, emit_bind, bind_of_ok (storeLen_value b 16)]
  simp

/-- The fields as `PutGuid` stores them. -/
theorem load_putGuid (hb : b.type = .guid) (hp : b.getData = some p) (hapart : b.Apart 16) (m : Memory.Mem) (g : Guid) :
    SqlGuid.load (b.stored (b.putGuid P g) m) p =
      ⟨.ofNat (g.most.toNat / 2 ^ 32), .ofNat (g.most.toNat / 2 ^ 16 % 2 ^ 16), .ofNat (g.most.toNat % 2 ^ 16),
        (leBytes 8 g.least.toNat).reverse⟩ := by
  have hfield := read_field hp hapart (log_putGuid (P := P) hb hp g) (by simp) (by simp) m
  have h0 := hfield _ (List.mem_cons_self ..)
  have h4 := hfield _ (List.mem_cons_of_mem _ (List.mem_cons_self ..))
  have h6 := hfield _ (List.mem_cons_of_mem _ (List.mem_cons_of_mem _ (List.mem_cons_self ..)))
  have h8 := hfield _ (List.mem_cons_of_mem _ (List.mem_cons_of_mem _ (List.mem_cons_of_mem _ (List.mem_cons_self ..))))
  simp only [length_leBytes, List.length_reverse, Nat.cast_zero, Int.add_zero, Nat.cast_ofNat] at h0 h4 h6 h8
  have hm := g.most.toNat_lt
  have e0 : (g.most >>> 32).toNat % 256 ^ 4 = g.most.toNat / 2 ^ 32 := by
    rw [toNat_shiftRight (k := 32) rfl (by decide)]
    omega
  have e1 : (g.most >>> 16).toNat % 256 ^ 2 = g.most.toNat / 2 ^ 16 % 2 ^ 16 := by
    rw [toNat_shiftRight (k := 16) rfl (by decide)]
    omega
  rw [SqlGuid.load, h0, h4, h6, h8, value_leBytes_natCast, value_leBytes_natCast, value_leBytes_natCast, e0, e1]
  rfl

/-- **The object of a GUID.** The first half comes back; of the other only the
last byte does. -/
theorem getGuid_putGuid (hb : b.type = .guid) (hp : b.getData = some p) (hapart : b.Apart 16) (m : Memory.Mem) (g : Guid)
    (u : Unassigned) :
    b.getGuid P u (b.stored (b.putGuid P g) m) = .ok ⟨g.most, .ofNat (g.least.toNat % 256)⟩ := by
  have hm := g.most.toNat_lt
  have hd1 : (UInt32.ofNat (g.most.toNat / 2 ^ 32)).toUInt64 = .ofNat (g.most.toNat / 2 ^ 32) := by
    rw [← UInt64.toNat_inj, UInt32.toNat_toUInt64, UInt32.toNat_ofNat', UInt64.toNat_ofNat']
    omega
  have hd2 : ∀ n, (UInt16.ofNat (n % 2 ^ 16)).toUInt64 = .ofNat (n % 2 ^ 16) := by
    intro n
    rw [← UInt64.toNat_inj, UInt16.toNat_toUInt64, UInt16.toNat_ofNat', UInt64.toNat_ofNat']
    omega
  have hlast : ((leBytes 8 g.least.toNat).reverse.getD 7 0).toNat = g.least.toNat % 256 := by
    simp [leBytes, List.range_succ]
    omega
  unfold getGuid
  rw [hb]
  dsimp only
  rw [hp]
  dsimp only
  rw [load_putGuid hb hp hapart m g, hd1, hd2, hd2, or_three]
  simp only [List.range_succ, List.range_zero, List.nil_append, List.cons_append, List.foldl_cons, List.foldl_nil]
  rw [show (8 - 7 - 1) * 8 = 0 by rfl, shiftByte_zero, hlast]

/-! ## The text in a buffer -/

theorem isPlainChar_guidText (g : Guid) : ∀ c ∈ g.text, isPlainChar c = true := by
  have hdash : ∀ c ∈ ascii "-", isPlainChar c = true := List.all_eq_true.mp (by decide)
  intro c hc
  simp only [Guid.text, List.mem_append] at hc
  rcases hc with (((((((hc | hc) | hc) | hc) | hc) | hc) | hc) | hc) | hc
  all_goals first
    | exact isPlainChar_hexDigits _ _ c hc
    | exact hdash c hc

theorem length_guidText (g : Guid) : g.text.length = 36 := by simp [Guid.text, length_hexDigits, ascii]

theorem toInt_ofInt_natCast {n : Nat} (hn : n < 2 ^ 31) : (Int32.ofInt (n : Int)).toInt = n := by
  rw [Int32.toInt_ofInt]
  exact Int.bmod_eq_of_le (by simp) (by simp; omega)

/-- A length is not one of the codes for none. -/
theorem ofInt_natCast_ne {n : Nat} (hn : n < 2 ^ 31) {c : Int32} (hc : c.toInt < 0) : Int32.ofInt (n : Int) ≠ c := by
  have hlen := toInt_ofInt_natCast hn
  rintro rfl
  omega

/-- The length of the input is the one that was stored, or that of a C string
where there is no indicator. -/
theorem getInputSize_stored {x : Put} {l : List Store} {n : Nat} (hlog : x.log = l ++ (b.storeLen (int32Cast n)).log)
    (hn : n < 2 ^ 31) (m : Memory.Mem) :
    b.getInputSize (b.stored x m) = n ∨ b.getInputSize (b.stored x m) = -3 := by
  unfold getInputSize isDataAtExec
  cases hr : b.getResLen with
  | none => simp [indicator, hr]
  | some r =>
    have hread := read_len hr hlog m
    have hlen : b.indicator (b.stored x m) = some (n : Int) := by
      have hfits : Fits 8 true (n : Int) := by
        rw [Fits, if_pos rfl]
        norm_num
        omega
      rw [int32Cast_of_lt hn] at hread
      rw [indicator, hr, Option.map_some, readInteger_of_read true hread, castInteger_of_fits hfits]
    have hnot : ¬ (Int32.ofInt (n : Int) ≤ -100 ∨ Int32.ofInt (n : Int) = -2) := by
      rw [Int32.le_iff_toInt_le, toInt_ofInt_natCast hn]
      refine not_or.mpr ⟨?_, ofInt_natCast_ne hn (by decide)⟩
      have hcode : (-100 : Int32).toInt = -100 := rfl
      omega
    rw [hlen]
    simp only [Bool.or_eq_true, decide_eq_true_eq]
    rw [if_neg hnot]
    exact .inl rfl

/-- ASCII is one byte a character. -/
theorem toBytes_plain {text : Str} (h : ∀ c ∈ text, isPlainChar c = true) : P.toBytes (text.map UInt8.toNat) = some text := by
  have hall : (text.map UInt8.toNat).all fun c => c ≤ P.wchar.maxCode && (P.surrogates || c < 0xD800 || 0xDFFF < c) := by
    have hmax : 0xFFFF ≤ P.wchar.maxCode := by cases P.wchar <;> decide
    refine List.all_eq_true.mpr fun c hc => ?_
    obtain ⟨x, hx, rfl⟩ := List.mem_map.mp hc
    have := lt_of_isPlainChar (h x hx)
    have hlow : x.toNat < 0xD800 := by omega
    simp [hlow]
    omega
  rw [Platform.toBytes, if_pos hall, List.flatMap_map, Option.some.injEq]
  refine (List.flatMap_congr fun c hc => ?_).trans (List.flatMap_singleton' text)
  rw [Utf8.encode, if_pos (lt_of_isPlainChar (h c hc)).2, UInt8.ofNat_toNat]

section

variable {x : Put} {s : Str} {n : Nat}

/-- **Narrow text.** -/
theorem sqlCharToString_stored (hplain : ∀ c ∈ s, isPlainChar c = true) (hp : b.getData = some p) (hapart : b.Apart n)
    (hlog : x.log = textStores 1 s ++ (b.storeLen (int32Cast s.length)).log) (hroom : s.length + 1 ≤ n)
    (hs : 0 < s.length ∧ s.length < 2 ^ 31) (m : Memory.Mem) :
    b.getInputSize (b.stored x m) ≠ 0 ∧
      Utility.sqlCharToString (b.stored x m) (some p) (.ofInt (b.getInputSize (b.stored x m))) = s := by
  have hstored := stored_textStores hp hapart hlog (by rwa [Nat.one_mul]) m
  have hsize := getInputSize_stored hlog hs.2 m
  refine ⟨by omega, ?_⟩
  rcases hsize with h | h
  · have hpos : 0 < Int32.ofInt (s.length : Int) := by
      rw [Int32.lt_iff_toInt_lt, toInt_ofInt_natCast hs.2, Int32.toInt_zero]
      omega
    have hread := Memory.read_write (Memory.writes m ((b.storeLen (int32Cast s.length)).log.filterMap b.resolve)) p
      (textBytes 1 s) (k := 0) (n := s.length) (by rw [length_textBytes]; omega)
    rw [Nat.cast_zero, Int.add_zero, List.drop_zero, textBytes, charsBytes, flatMap_leBytes_one, List.take_left] at hread
    rw [h, Utility.sqlCharToString, if_neg (ofInt_natCast_ne hs.2 (by decide)), if_pos hpos, toInt_ofInt_natCast hs.2,
      Int.toNat_natCast, hstored, textBytes, charsBytes, flatMap_leBytes_one]
    exact hread
  · have htext : readText (b.stored x m) 1 18446744073709551616 p = s.map UInt8.toNat := by
      rw [hstored, readText_textBytes (by decide) hplain, List.take_of_length_le (by omega)]
    have hback : (s.map UInt8.toNat).map UInt8.ofNat = s := by
      rw [List.map_map]
      exact (List.map_congr_left fun c _ => UInt8.ofNat_toNat).trans (List.map_id _)
    rw [h]
    exact (congrArg (List.map UInt8.ofNat) htext).trans hback

/-- **Wide text.** -/
theorem sqlWcharToString_stored (hplain : ∀ c ∈ s, isPlainChar c = true) (hp : b.getData = some p) (hapart : b.Apart n)
    (hlog : x.log = textStores P.wcharBytes s ++ (b.storeLen (int32Cast (s.length * P.wcharBytes))).log)
    (hroom : P.wcharBytes * (s.length + 1) ≤ n) (hs : 0 < s.length ∧ s.length * P.wcharBytes < 2 ^ 31) (m : Memory.Mem) :
    b.getInputSize (b.stored x m) ≠ 0 ∧
      Utility.sqlWcharToString P (b.stored x m) (some p) (.ofInt (b.getInputSize (b.stored x m))) = some s := by
  have hw : 0 < P.wcharBytes := by have := P.wcharBytes_range; omega
  have hsize := getInputSize_stored hlog hs.2 m
  have hpos := Nat.mul_pos hs.1 hw
  refine ⟨by omega, ?_⟩
  have htext : ∀ k, s.length ≤ k → readText (b.stored x m) P.wcharBytes k p = s.map UInt8.toNat := fun k hk => by
    rw [stored_textStores hp hapart hlog hroom m, readText_textBytes hw hplain, List.take_of_length_le hk]
  have hback : P.toBytes (s.map UInt8.toNat) = some s := toBytes_plain hplain
  rcases hsize with h | h
  · rw [h, Utility.sqlWcharToString, if_neg (ofInt_natCast_ne hs.2 (by decide)), toInt_ofInt_natCast hs.2, Int.toNat_natCast,
      Nat.mul_div_cancel _ hw, htext _ (Nat.le_refl _), hback]
  · have hle := Nat.le_mul_of_pos_right s.length hw
    rw [h]
    exact (congrArg P.toBytes (htext 18446744073709551616 (by omega))).trans hback

end

theorem getGuid_putGuid_char (hnarrow : NarrowsAscii P) (hb : b.type = .char) (hp : b.getData = some p)
    (hroom : 37 ≤ b.buflen) (hapart : b.Apart b.buflen.toNat) (m : Memory.Mem) (g : Guid) (u : Unassigned) :
    b.getGuid P u (b.stored (b.putGuid P g) m) = .ok g := by
  have hplain := isPlainChar_guidText g
  have hlength := length_guidText g
  have hput : b.putGuid P g = b.putStrToCharBuffer P g.text := by rw [putGuid, hb]
  have hlog := congrArg Eff.log (putStrToCharBuffer_plain hnarrow hplain hp (by omega))
  rw [List.take_of_length_le (show g.text.length ≤ b.buflen.toNat - 1 by omega)] at hlog
  obtain ⟨hne, htext⟩ := sqlCharToString_stored hplain hp hapart hlog (by omega) (by rw [hlength]; decide) m
  unfold getGuid
  rw [hb]
  dsimp only
  rw [hput, if_neg hne, hp, htext, readGuid_text]

theorem getGuid_putGuid_wchar (hb : b.type = .wchar) (hp : b.getData = some p)
    (hroom : (P.wcharBytes * 37 : Nat) ≤ b.buflen) (hapart : b.Apart b.buflen.toNat) (m : Memory.Mem) (g : Guid)
    (u : Unassigned) : b.getGuid P u (b.stored (b.putGuid P g) m) = .ok g := by
  have hplain := isPlainChar_guidText g
  have hlength := length_guidText g
  have hw := P.wcharBytes_range
  have hput : b.putGuid P g = b.putStrToWcharBuffer P g.text := by rw [putGuid, hb]
  have hchars : g.text.length ≤ b.buflen.toNat / P.wcharBytes - 1 := by
    have := (Nat.le_div_iff_mul_le (by omega)).mpr (show 37 * P.wcharBytes ≤ b.buflen.toNat by omega)
    omega
  have hlog := congrArg Eff.log (putStrToWcharBuffer_plain (P := P) hplain hp (by omega))
  rw [List.take_of_length_le hchars] at hlog
  obtain ⟨hne, htext⟩ := sqlWcharToString_stored hplain hp hapart hlog (by rw [hlength]; omega) (by rw [hlength]; omega) m
  unfold getGuid
  rw [hb]
  dsimp only
  rw [hput, if_neg hne, hp, htext]
  exact congrArg Except.ok (readGuid_text u g ⟨0, 0⟩)

/-- The buffer takes a GUID: the object, or the whole of its text. -/
def TakesGuid (P : Platform) (b : ApplicationDataBuffer) : Prop :=
  match b.type with
  | .guid => b.Apart 16
  | .char => 37 ≤ b.buflen ∧ b.Apart b.buflen.toNat
  | .wchar => (P.wcharBytes * 37 : Nat) ≤ b.buflen ∧ b.Apart b.buflen.toNat
  | _ => False

/-- What `GetGuid` makes of a GUID that was put: the text is exact, the object
has lost all but the last byte of the second half. -/
theorem getGuid_after (hnarrow : NarrowsAscii P) (hp : b.getData = some p) (hb : TakesGuid P b) (g : Guid) (u : Unassigned)
    (m : Memory.Mem) :
    b.getGuid P u (b.after P (.guid g) m) =
      .ok (if b.type = .guid then ⟨g.most, .ofNat (g.least.toNat % 256)⟩ else g) := by
  show b.getGuid P u (b.stored (b.putGuid P g) m) = _
  unfold TakesGuid at hb
  split at hb
  · next ht => rw [if_pos ht, getGuid_putGuid ht hp hb]
  · next ht => rw [getGuid_putGuid_char hnarrow ht hp hb.1 hb.2, if_neg (by rw [ht]; decide)]
  · next ht => rw [getGuid_putGuid_wchar ht hp hb.1 hb.2, if_neg (by rw [ht]; decide)]
  · exact hb.elim

/-- **GUID round trip.** A GUID that was put is read back from every text, and
from the object if and only if seven of its last eight bytes are zero. -/
theorem guid_round_trip_iff (hnarrow : NarrowsAscii P) (hp : b.getData = some p) (hb : TakesGuid P b) (g : Guid) :
    (∀ u m, b.getGuid P u (b.after P (.guid g) m) = .ok g) ↔ (b.type = .guid → g.least < 256) := by
  simp only [getGuid_after hnarrow hp hb]
  by_cases ht : b.type = .guid
  · rw [if_pos ht]
    have hleast : UInt64.ofNat (g.least.toNat % 256) = g.least ↔ g.least < 256 := by
      have := g.least.toNat_lt
      rw [← UInt64.toNat_inj, UInt64.toNat_ofNat', UInt64.lt_iff_toNat_lt]
      simp only [UInt64.reduceToNat]
      omega
    constructor
    · intro h _
      have hu := h ⟨fun _ => 0, 0, fun _ _ => 0⟩ fun _ => 0
      exact hleast.mp (congrArg Guid.least (Except.ok.inj hu))
    · intro h u m
      rw [hleast.mpr (h ht)]
  · rw [if_neg ht]
    exact iff_of_true (fun _ _ => rfl) fun h => absurd h ht

/-- A GUID object, and another GUID as narrow text. -/
theorem guid_round_trip_runs :
    let object : ApplicationDataBuffer := ⟨.guid, some 100, 16, some 200, 0, 0, by decide⟩
    let text : ApplicationDataBuffer := ⟨.char, some 100, 37, some 200, 0, 0, by decide⟩
    ((∀ u m, object.getGuid .unixOdbc u (object.after .unixOdbc (.guid ⟨1, 7⟩) m) = .ok ⟨1, 7⟩) ↔
      (object.type = .guid → (7 : UInt64) < 256)) ∧
    ((∀ u m, text.getGuid .unixOdbc u (text.after .unixOdbc (.guid ⟨1, 256⟩) m) = .ok ⟨1, 256⟩) ↔
      (text.type = .guid → (256 : UInt64) < 256)) := by
  intro object text
  have hnarrow : NarrowsAscii .unixOdbc := fun c hc => if_pos hc
  have hobject : TakesGuid .unixOdbc object := by
    rintro p ⟨⟩ r ⟨⟩
    decide
  have htext : TakesGuid .unixOdbc text := by
    refine ⟨by decide, ?_⟩
    rintro p ⟨⟩ r ⟨⟩
    decide
  exact ⟨guid_round_trip_iff hnarrow rfl hobject ⟨1, 7⟩, guid_round_trip_iff hnarrow rfl htext ⟨1, 256⟩⟩

/-- `00000000-0000-0001-0000-000000000100`: the last byte is zero and the one
before it is not. -/
theorem guid_not_round_trip :
    let object : ApplicationDataBuffer := ⟨.guid, some 100, 16, some 200, 0, 0, by decide⟩
    ¬ ∀ u m, object.getGuid .unixOdbc u (object.after .unixOdbc (.guid ⟨1, 256⟩) m) = .ok ⟨1, 256⟩ := by
  intro object h
  have hu := h ⟨fun _ => 0, 0, fun _ _ => 0⟩ fun _ => 0
  exact absurd hu (by decide)

end ApplicationDataBuffer

end DocumentDbOdbc
