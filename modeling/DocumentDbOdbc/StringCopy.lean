/-
The copies of `utility.cpp` from a UTF-8 string to a buffer of the
application.

The lengths are unsigned. In a wide buffer of fewer bytes than a character has,
the room beside the terminator is the largest number there is; that is the one
case in which the contract of the copies does not hold (`copy_contract_iff`).
`resolve_copyUtf8` connects the copies with the stores of a bound column.
-/
import DocumentDbOdbc.BufferMemory

namespace DocumentDbOdbc

open Effect ApplicationDataBuffer

/-- What a copy returns and stores, and `isTruncated` after it. -/
structure Copied where
  length : Nat
  isTruncated : Bool
  writes : List Memory.Write
  deriving DecidableEq, Repr

namespace Utility

variable (P : Platform)

/-- `CopyUtf8StringToSqlCharString`; `none` if the conversion throws. -/
def copyUtf8StringToSqlCharString (inBuffer : Option Str) (outBuffer : Option Int) (outBufferLenBytes : Nat)
    (isTruncated : Bool) : Option Copied :=
  match inBuffer, outBuffer with
  | none, _ => some ⟨0, isTruncated, []⟩
  | some s, none => (P.fromBytes s).map fun inString => ⟨inString.length, isTruncated, []⟩
  | some s, some p =>
    if outBufferLenBytes = 0 then some ⟨0, isTruncated, []⟩
    else (P.fromBytes s).map fun inString =>
      let n := min inString.length (outBufferLenBytes - 1)
      ⟨n, n < inString.length, [⟨p, (inString.take n).map P.narrow⟩, ⟨p + n, [0]⟩]⟩

/-- `CopyUtf8StringToWcharString`, for the type that has the size of
`SQLWCHAR`. Without an output, the characters go to a vector that is long
enough for one of each byte. -/
def copyUtf8StringToWcharString (s : Str) (outBuffer : Option Int) (outBufferLenBytes : Nat) (isTruncated : Bool) : Copied :=
  match outBuffer with
  | none =>
    let out := P.convertIn s (cStr s).length
    ⟨out.1.length * P.wcharBytes, !out.2, []⟩
  | some p =>
    if outBufferLenBytes = 0 then ⟨0, isTruncated, []⟩
    else
      let out := P.convertIn s (outBufferLenChars P outBufferLenBytes)
      ⟨out.1.length * P.wcharBytes, !out.2,
        [⟨p, out.1.flatMap fun c : Nat => leBytes P.wcharBytes (c : Int)⟩,
          ⟨p + (P.wcharBytes * out.1.length : Nat), leBytes P.wcharBytes 0⟩]⟩

def copyUtf8StringToSqlWcharString (inBuffer : Option Str) (outBuffer : Option Int) (outBufferLenBytes : Nat)
    (isTruncated : Bool) : Copied :=
  match inBuffer with
  | none => ⟨0, isTruncated, []⟩
  | some s => copyUtf8StringToWcharString P s outBuffer outBufferLenBytes isTruncated

/-- `CopyStringToBuffer`; the length is in bytes or in characters, and so is
what is returned. -/
def copyStringToBuffer (str : Str) (buf : Option Int) (buflen : Nat) (isLenInBytes : Bool) : Copied :=
  let bufLenInBytes := if isLenInBytes then buflen else buflen * P.wcharBytes % 18446744073709551616
  let c := copyUtf8StringToSqlWcharString P (some str) buf bufLenInBytes false
  { c with length := if isLenInBytes then c.length else c.length / P.wcharBytes }

end Utility

/-! ## The contract -/

/-- The entry points: to narrow characters, to wide ones, and to wide ones
with a length in bytes or in characters. -/
inductive CopyCall where
  | toChars
  | toWchars
  | toBuffer (isLenInBytes : Bool)
  deriving DecidableEq, Repr

namespace CopyCall

variable (P : Platform)

/-- The copy into a buffer of `n` bytes. -/
def run (s : Str) (n : Nat) (isTruncated : Bool) (out : Option Int) : CopyCall → Option Copied
  | toChars => Utility.copyUtf8StringToSqlCharString P (some s) out n isTruncated
  | toWchars => some (Utility.copyUtf8StringToSqlWcharString P (some s) out n isTruncated)
  | toBuffer true => some (Utility.copyStringToBuffer P s out n true)
  | toBuffer false => some (Utility.copyStringToBuffer P s out (n / P.wcharBytes) false)

/-- The bytes of a character. -/
def charBytes : CopyCall → Nat
  | toChars => 1
  | _ => P.wcharBytes

/-- The bytes of a unit of what is returned. -/
def unitBytes : CopyCall → Nat
  | toBuffer false => P.wcharBytes
  | _ => 1

/-- The full conversion. -/
def conversion (chars : List Nat) : CopyCall → List Nat
  | toChars => chars.map fun c => (P.narrow c).toNat
  | _ => chars

/-- The largest character the conversion facet reads. -/
def maxCode : CopyCall → Nat
  | toChars => P.wchar.maxCode
  | _ => P.sqlWchar.maxCode

/-- The length is in bytes, of wide characters. -/
def WideBytes : CopyCall → Prop
  | toWchars | toBuffer true => True
  | _ => False

end CopyCall

/-- The copy stays in the buffer; it leaves a prefix of the conversion before a
terminator, returns its length and says whether it is a proper one; and it
returns the full length where there is no buffer. -/
structure CopyContract (w unit : Nat) (full : List Nat) (n : Nat) (copy : Option Int → Option Copied) : Prop where
  frame : ∀ p c, copy (some p) = some c → ∀ m a, a < p ∨ p + n ≤ a → Memory.writes m c.writes a = m a
  text : w ≤ n → ∀ p, ∃ c k, copy (some p) = some c ∧ k ≤ full.length ∧ c.length * unit = k * w ∧
    (c.isTruncated = true ↔ k < full.length) ∧
    ∀ m, readText (Memory.writes m c.writes) w (n / w) p = full.take k ∧
      Memory.read (Memory.writes m c.writes) (p + (w * k : Nat)) w = leBytes w 0
  null : ∃ c, copy none = some c ∧ c.length * unit = full.length * w ∧ c.writes = []

/-! ## What is stored -/

/-- The stores of some characters and a terminator. -/
def textWrites (w : Nat) (p : Int) (cs : List Nat) : List Memory.Write :=
  [⟨p, cs.flatMap fun c : Nat => leBytes w (c : Int)⟩, ⟨p + (w * cs.length : Nat), leBytes w 0⟩]

theorem writes_textWrites (w : Nat) (p : Int) (cs : List Nat) (m : Memory.Mem) :
    Memory.writes m (textWrites w p cs) = Memory.write m ⟨p, charsBytes w cs⟩ := by
  have happend := Memory.write_append m p (cs.flatMap fun c : Nat => leBytes w (c : Int)) (leBytes w 0)
  rw [length_flatMap_leBytes] at happend
  exact happend

section

variable {w unit n k len : Nat} {full : List Nat} {copy : Option Int → Option Copied}

/-- A copy of as many characters as there is room for. -/
theorem copyContract_of_room (hw : 0 < w) (hfull : ∀ c ∈ full, 0 < c ∧ c < 256 ^ w) (hroom : w * (k + 1) ≤ n) (hk : k ≤ full.length)
    (hlen : len * unit = k * w)
    (hcopy : ∀ p, copy (some p) = some ⟨len, decide (k < full.length), textWrites w p (full.take k)⟩)
    (hnull : ∃ c, copy none = some c ∧ c.length * unit = full.length * w ∧ c.writes = []) :
    CopyContract w unit full n copy := by
  have htake : (full.take k).length = k := List.length_take_of_le hk
  refine ⟨fun p c hc m a ha => ?_, fun hn p => ?_, hnull⟩
  · obtain rfl := Option.some.inj ((hcopy p).symm.trans hc)
    dsimp only
    rw [writes_textWrites]
    refine Memory.write_of_not_covers m fun hcovers => ?_
    rw [Memory.Write.Covers, length_charsBytes, htake] at hcovers
    dsimp only at hcovers
    omega
  · refine ⟨_, k, hcopy p, hk, hlen, by simp, fun m => ?_⟩
    dsimp only
    rw [writes_textWrites]
    have hread := Memory.read_write m p (charsBytes w (full.take k)) (k := w * k) (n := w) (by
      rw [length_charsBytes, htake, Nat.mul_succ])
    have hchars := length_flatMap_leBytes w (full.take k)
    rw [htake] at hchars
    constructor
    · rw [readText_charsBytes fun c hc => hfull c (List.mem_of_mem_take hc), List.take_of_length_le]
      have := (Nat.le_div_iff_mul_le hw).mpr (Nat.mul_comm w _ ▸ hroom)
      omega
    · rw [hread, charsBytes, ← hchars, List.drop_left, List.take_of_length_le (by rw [length_leBytes])]

/-- A copy that has no room for a character and stores nothing. -/
theorem copyContract_of_none (hn : n < w) (hcopy : ∀ p c, copy (some p) = some c → c.writes = [])
    (hnull : ∃ c, copy none = some c ∧ c.length * unit = full.length * w ∧ c.writes = []) :
    CopyContract w unit full n copy := by
  refine ⟨fun p c hc m a _ => ?_, fun h => absurd hn (by omega), hnull⟩
  rw [hcopy p c hc]
  rfl

/-- A terminator behind the buffer. -/
theorem not_copyContract {p : Int} {c : Copied} {cs : List Nat} (hn : n < w) (hcopy : copy (some p) = some c)
    (hwrites : c.writes = textWrites w p cs) : ¬ CopyContract w unit full n copy := by
  intro h
  have hframe := Memory.frame_iff.mp fun m => h.frame p c hcopy m (p + (w * cs.length : Nat) + w - 1) (.inr (by omega))
  rw [hwrites] at hframe
  refine hframe _ (List.mem_cons_of_mem _ (List.mem_singleton_self _)) ?_
  rw [Memory.Write.Covers, length_leBytes]
  dsimp only
  omega

end

/-! ## The conversions -/

section

variable {P : Platform} {chars : List Nat}

/-- A string without NUL is a C string as a whole. -/
theorem cStr_encode {maxCode : Nat} (h : ∀ x ∈ chars, Utf8.Scalar maxCode x ∧ x ≠ 0) :
    cStr (chars.flatMap Utf8.encode) = chars.flatMap Utf8.encode := by
  rw [cStr, List.takeWhile_eq_self_iff]
  intro c hc
  obtain ⟨x, hx, hcx⟩ := List.mem_flatMap.mp hc
  rw [bne_iff_ne]
  rintro rfl
  exact Utf8.zero_notMem_encode (h x hx).2 (h x hx).1.2.1 hcx

theorem convertIn_encode (h : ∀ x ∈ chars, Utf8.Scalar P.sqlWchar.maxCode x ∧ x ≠ 0) (n : Nat) :
    P.convertIn (chars.flatMap Utf8.encode) n = (chars.take n, decide (chars.length ≤ n)) := by
  rw [Platform.convertIn, cStr_encode h, Platform.nextChar]
  exact Utf8.decode_encode (fun x hx => (h x hx).1) _ n

/-- A character takes at least a byte. -/
theorem length_le_flatMap_encode (chars : List Nat) : chars.length ≤ (chars.flatMap Utf8.encode).length := by
  induction chars with
  | nil => exact Nat.zero_le _
  | cons x chars ih =>
    have hpos := List.length_pos_of_ne_nil (Utf8.encode_ne_nil x)
    rw [List.flatMap_cons, List.length_append, List.length_cons]
    omega

theorem fromBytes_encode (h : ∀ x ∈ chars, Utf8.Scalar P.wchar.maxCode x ∧ x ≠ 0) :
    P.fromBytes (chars.flatMap Utf8.encode) = some chars := by
  have hlen := length_le_flatMap_encode chars
  rw [Platform.fromBytes, cStr_encode h, Platform.nextChar, Utf8.decode_encode (fun x hx => (h x hx).1), decide_eq_true hlen,
    List.take_of_length_le hlen]
  rfl

/-- A character that is read into the type fits into its bytes. -/
theorem wide_range (h : ∀ x ∈ chars, Utf8.Scalar P.sqlWchar.maxCode x ∧ x ≠ 0) :
    ∀ x ∈ chars, 0 < x ∧ x < 256 ^ P.wcharBytes := by
  intro x hx
  obtain ⟨⟨hmax, -⟩, hne⟩ := h x hx
  unfold Platform.wcharBytes
  cases hw : P.sqlWchar with
  | two =>
    rw [hw] at hmax
    simp only [WcharSize.maxCode] at hmax
    simp only [WcharSize.bytes]
    omega
  | four =>
    rw [hw] at hmax
    simp only [WcharSize.maxCode] at hmax
    simp only [WcharSize.bytes]
    omega

/-! ## The three copies -/

/-- Narrow characters take one byte each, so that any length has room. -/
theorem toChars_contract (h : ∀ x ∈ chars, Utf8.Scalar P.wchar.maxCode x ∧ x ≠ 0)
    (hnarrow : ∀ x ∈ chars, P.narrow x ≠ 0) {n : Nat} (hn : 1 ≤ n) (isTruncated : Bool) :
    CopyContract 1 1 (chars.map fun c => (P.narrow c).toNat) n
      fun out => Utility.copyUtf8StringToSqlCharString P (some (chars.flatMap Utf8.encode)) out n isTruncated := by
  have hconvert := fromBytes_encode h
  refine copyContract_of_room (k := min chars.length (n - 1)) (by decide) ?_ (by omega) (by rw [List.length_map]; omega) rfl
    (fun p => ?_) ⟨_, by simp only [Utility.copyUtf8StringToSqlCharString, hconvert]; rfl, by simp, rfl⟩
  · intro c hc
    obtain ⟨x, hx, rfl⟩ := List.mem_map.mp hc
    have hne : (P.narrow x).toNat ≠ 0 := fun h0 => hnarrow x hx (UInt8.toNat_inj.mp h0)
    have := (P.narrow x).toNat_lt
    omega
  · have htake : (chars.map fun c => (P.narrow c).toNat).take (min chars.length (n - 1)) =
        ((chars.take (min chars.length (n - 1))).map P.narrow).map UInt8.toNat := by
      rw [← List.map_take, List.map_map]
      rfl
    simp only [Utility.copyUtf8StringToSqlCharString, hconvert, textWrites, htake, flatMap_leBytes_one]
    rw [if_neg (by omega)]
    simp
    rfl

theorem wide_null (h : ∀ x ∈ chars, Utf8.Scalar P.sqlWchar.maxCode x ∧ x ≠ 0) (n : Nat) (isTruncated : Bool) :
    Utility.copyUtf8StringToSqlWcharString P (some (chars.flatMap Utf8.encode)) none n isTruncated =
      ⟨chars.length * P.wcharBytes, false, []⟩ := by
  have hlen := length_le_flatMap_encode chars
  unfold Utility.copyUtf8StringToSqlWcharString Utility.copyUtf8StringToWcharString
  dsimp only
  rw [convertIn_encode h, cStr_encode h, List.take_of_length_le hlen, decide_eq_true hlen]
  rfl

theorem wide_some (h : ∀ x ∈ chars, Utf8.Scalar P.sqlWchar.maxCode x ∧ x ≠ 0) {n : Nat} (hn : n ≠ 0) (isTruncated : Bool)
    (p : Int) :
    let k := min (outBufferLenChars P n) chars.length
    Utility.copyUtf8StringToSqlWcharString P (some (chars.flatMap Utf8.encode)) (some p) n isTruncated =
      ⟨k * P.wcharBytes, decide (k < chars.length), textWrites P.wcharBytes p (chars.take k)⟩ := by
  intro k
  have htake : chars.take (outBufferLenChars P n) = chars.take k := by
    rw [← List.take_take, List.take_length]
  have hlen : (chars.take k).length = k := List.length_take_of_le (Nat.min_le_right _ _)
  have hcut : (!decide (chars.length ≤ outBufferLenChars P n)) = decide (k < chars.length) := by
    rw [← decide_not]
    exact decide_eq_decide.mpr (by omega)
  unfold Utility.copyUtf8StringToSqlWcharString Utility.copyUtf8StringToWcharString
  dsimp only
  rw [if_neg hn, convertIn_encode h, htake, hcut]
  simp only [textWrites, hlen]

/-- With a length in bytes, there has to be room for a character. -/
theorem toWchars_contract_iff (h : ∀ x ∈ chars, Utf8.Scalar P.sqlWchar.maxCode x ∧ x ≠ 0) {n : Nat}
    (hn : 1 ≤ n ∧ n < 18446744073709551616) (isTruncated : Bool) :
    (CopyContract P.wcharBytes 1 chars n fun out =>
      some (Utility.copyUtf8StringToSqlWcharString P (some (chars.flatMap Utf8.encode)) out n isTruncated)) ↔
      P.wcharBytes ≤ n := by
  have hw := P.wcharBytes_range
  have hsome := wide_some h (show n ≠ 0 by omega) isTruncated
  constructor
  · intro hcontract
    by_contra hlt
    exact not_copyContract (p := 0) (by omega) (congrArg some (hsome 0)) rfl hcontract
  · intro hle
    rw [outBufferLenChars_eq hle hn.2] at hsome
    have hdiv : 1 ≤ n / P.wcharBytes := (Nat.one_le_div_iff (by omega)).mpr hle
    have hroom : P.wcharBytes * (min (n / P.wcharBytes - 1) chars.length + 1) ≤ n :=
      (Nat.mul_le_mul_left _ (by omega)).trans (Nat.mul_div_le n P.wcharBytes)
    exact copyContract_of_room (by omega) (wide_range h) hroom (Nat.min_le_right _ _) (Nat.mul_one _)
      (fun p => congrArg some (hsome p)) ⟨_, congrArg some (wide_null h n isTruncated), Nat.mul_one _, rfl⟩

/-- A length in characters is a multiple of their size. -/
theorem toBuffer_chars_contract (h : ∀ x ∈ chars, Utf8.Scalar P.sqlWchar.maxCode x ∧ x ≠ 0) {n : Nat}
    (hn : n < 18446744073709551616) :
    CopyContract P.wcharBytes P.wcharBytes chars n fun out =>
      some (Utility.copyStringToBuffer P (chars.flatMap Utf8.encode) out (n / P.wcharBytes) false) := by
  have hw := P.wcharBytes_range
  have hle := Nat.div_mul_le_self n P.wcharBytes
  have hbytes : n / P.wcharBytes * P.wcharBytes % 18446744073709551616 = n / P.wcharBytes * P.wcharBytes :=
    Nat.mod_eq_of_lt (by omega)
  have hcopy : ∀ out, Utility.copyStringToBuffer P (chars.flatMap Utf8.encode) out (n / P.wcharBytes) false =
      let c := Utility.copyUtf8StringToSqlWcharString P (some (chars.flatMap Utf8.encode)) out
        (n / P.wcharBytes * P.wcharBytes) false
      { c with length := c.length / P.wcharBytes } := by
    intro out
    simp only [Utility.copyStringToBuffer, if_neg Bool.false_ne_true, hbytes]
  have hnull : ∃ c, some (Utility.copyStringToBuffer P (chars.flatMap Utf8.encode) none (n / P.wcharBytes) false) = some c ∧
      c.length * P.wcharBytes = chars.length * P.wcharBytes ∧ c.writes = [] := by
    refine ⟨_, rfl, ?_, ?_⟩
    · rw [hcopy, wide_null h]
      dsimp only
      rw [Nat.mul_div_cancel _ (by omega)]
    · rw [hcopy, wide_null h]
  rcases Nat.lt_or_ge n P.wcharBytes with hlt | hge
  · refine copyContract_of_none hlt (fun p c hc => ?_) hnull
    obtain rfl := Option.some.inj hc
    rw [hcopy, Nat.div_eq_of_lt hlt, Nat.zero_mul]
    rfl
  · have hdiv : 1 ≤ n / P.wcharBytes := (Nat.one_le_div_iff (by omega)).mpr hge
    have hsize : P.wcharBytes ≤ n / P.wcharBytes * P.wcharBytes := Nat.le_mul_of_pos_left _ hdiv
    have hroom : P.wcharBytes * (min (n / P.wcharBytes - 1) chars.length + 1) ≤ n :=
      (Nat.mul_le_mul_left _ (by omega)).trans (Nat.mul_div_le n P.wcharBytes)
    refine copyContract_of_room (by omega) (wide_range h) hroom (Nat.min_le_right _ _) rfl (fun p => congrArg some ?_) hnull
    have hsome := wide_some h (show n / P.wcharBytes * P.wcharBytes ≠ 0 by omega) false p
    rw [outBufferLenChars_eq hsize (by omega), Nat.mul_div_cancel _ (by omega)] at hsome
    rw [hcopy, hsome]
    dsimp only
    rw [Nat.mul_div_cancel _ (by omega)]

/-- **String copies.** For every string of characters that the target has, the
copies keep their contract if and only if a length of wide characters in bytes
is that of one at least. -/
theorem copy_contract_iff (call : CopyCall) (h : ∀ x ∈ chars, Utf8.Scalar (call.maxCode P) x ∧ x ≠ 0)
    (hnarrow : call = .toChars → ∀ x ∈ chars, P.narrow x ≠ 0) {n : Nat} (hn : 1 ≤ n ∧ n < 18446744073709551616)
    (isTruncated : Bool) :
    CopyContract (call.charBytes P) (call.unitBytes P) (call.conversion P chars) n
      (fun out => call.run P (chars.flatMap Utf8.encode) n isTruncated out) ↔ (call.WideBytes → P.wcharBytes ≤ n) := by
  cases call with
  | toChars => exact iff_of_true (toChars_contract h (hnarrow rfl) hn.1 isTruncated) nofun
  | toWchars => exact (toWchars_contract_iff h hn isTruncated).trans (true_imp_iff).symm
  | toBuffer isLenInBytes =>
    cases isLenInBytes with
    | true => exact (toWchars_contract_iff h hn false).trans (true_imp_iff).symm
    | false => exact iff_of_true (toBuffer_chars_contract h hn.2) nofun

/-- Three characters into eleven bytes of `SQLWCHAR`. -/
theorem copy_contract_runs :
    (CopyContract 2 1 [104, 233, 20320] 11 fun out =>
      CopyCall.toWchars.run .unixOdbc ([104, 233, 20320].flatMap Utf8.encode) 11 false out) ↔ (True → 2 ≤ 11) :=
  copy_contract_iff (P := .unixOdbc) .toWchars (by simp [Utf8.Scalar, CopyCall.maxCode, Platform.unixOdbc, WcharSize.maxCode])
    nofun (by decide) false

/-- The name of a column into one byte, as `SQLColAttribute` may be asked for
it: the copy is as long as the name. -/
theorem copy_contract_fails :
    ¬ CopyContract 2 1 [97, 98, 99] 1 fun out => CopyCall.run .unixOdbc (ascii "abc") 1 false out (.toBuffer true) := by
  intro h
  have hframe := h.frame 0 _ rfl (fun _ => 1) 6 (.inr (by decide))
  exact absurd hframe (by decide +kernel)

end

/-! ## Bound columns -/

namespace ApplicationDataBuffer

variable {P : Platform} {b : ApplicationDataBuffer} {p : Int}

/-- A bound column stores what the copy into its data stores. -/
theorem resolve_copyUtf8 (hp : b.getData = some p) (s : Str) (n : Nat) :
    let c := Utility.copyUtf8StringToSqlWcharString P (some s) (some p) n false
    (b.copyUtf8StringToSqlWcharString P s n).value = .ok (c.length, c.isTruncated) ∧
      (b.copyUtf8StringToSqlWcharString P s n).log.filterMap b.resolve = c.writes := by
  unfold copyUtf8StringToSqlWcharString Utility.copyUtf8StringToSqlWcharString Utility.copyUtf8StringToWcharString
  dsimp only
  split
  · exact ⟨rfl, rfl⟩
  · simp only [storeData_of_getData hp, emit_bind]
    refine ⟨rfl, ?_⟩
    simp [resolve_data_some hp]

/-- The narrow copy is followed by its length in the indicator. -/
theorem resolve_putStrToCharBuffer (hp : b.getData = some p) (hlen : 1 ≤ b.buflen) {s : Str} {c : Copied}
    (hcopy : Utility.copyUtf8StringToSqlCharString P (some s) (some p) (sizeT b.buflen) false = some c) :
    (b.putStrToCharBuffer P s).value = .ok (if c.isTruncated then .varlenDataTruncated else .success) ∧
      (b.putStrToCharBuffer P s).log.filterMap b.resolve =
        c.writes ++ (b.storeLen (int32Cast c.length)).log.filterMap b.resolve := by
  have hsize := sizeT_of_nonneg (b := b) (by omega)
  rw [Utility.copyUtf8StringToSqlCharString, if_neg (by omega)] at hcopy
  obtain ⟨chars, hchars, rfl⟩ := Option.map_eq_some_iff.mp hcopy
  rw [putStrToCharBuffer_eq hp hlen hchars, hsize]
  simp [resolve_data_some hp]

end ApplicationDataBuffer

end DocumentDbOdbc
