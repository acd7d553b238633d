/-
Rows of parameters: what `ParameterSet::WriteRow` writes, value by value.

A value is right if it is there, is null where the indicator of its element says
so, and is decided by the bytes of its element (`WritesElement`). It is right
exactly where the first indicator is the one of the element, since that is the
one `Write` looks at, and where the conversion writes something and keeps to the
element (`Writable`); `writeRow_iff` puts the values of a row together.
-/
import DocumentDbOdbc.Parameter
import DocumentDbOdbc.Lib.Outcome

namespace DocumentDbOdbc

open ApplicationDataBuffer

variable (L : InputLib)

namespace App

/-! ## Conversions -/

/-- The conversion returns. -/
def Returns {α : Type} (x : Except Fault α) : Prop := ∃ a, x = .ok a

namespace Parameter

/-- What `Get` makes of the element is written. -/
def Converts (columnSize : Nat) (b : ApplicationDataBuffer) (m : Memory.Mem) : ParameterCase → Prop
  | .string => Returns (b.getString L m columnSize)
  | .smallint => Returns (b.getNum L.platform L.outside 2 m)
  | .integer => Returns (b.getNum L.platform L.outside 4 m)
  | .float => Returns (b.getFloat L m)
  | .double => Returns (b.getDouble L m)
  | .tinyint | .bit => Returns (b.getNum L.platform L.outside 1 m)
  | .bigint => Returns (b.getNum L.platform L.outside 8 m)
  | .date => Returns (b.getDate L m)
  | .timestamp => Returns (b.getTimestamp L m)
  | .time => Returns (b.getTime L m)
  | .binary => b.getData.isSome ∧ ∃ len ∈ b.indicator m, 0 ≤ Int32.ofInt len
  | .guid => Returns (b.getGuid L.platform L.unassigned m)
  | .decimal => Returns (b.getDecimal L m)
  | .other => False

/-- All integers of eight bytes that end in the four of the element are converted
alike. -/
def ConvertsAlike {α : Type} (f : Int → α) (b : ApplicationDataBuffer) (m : Memory.Mem) : Prop :=
  ∀ q ∈ b.getData, ∀ v w, Fits 8 (b.type = .signedLong) v → Fits 8 (b.type = .signedLong) w →
    v % 256 ^ 4 = readInteger m q 4 false → w % 256 ^ 4 = readInteger m q 4 false → f v = f w

/-- What the conversion reads is in the element: not the eight bytes of a `long`
whose high half matters, and no more bytes than there are. -/
def KeepsToElement (b : ApplicationDataBuffer) (m : Memory.Mem) : ParameterCase → Prop
  | .string | .bigint | .decimal => ¬ b.IsLong
  | .float => b.IsLong → ConvertsAlike L.platform.intToFloat b m
  | .double => b.IsLong → ConvertsAlike L.platform.intToDouble b m
  | .binary => ∀ len ∈ b.indicator m, (Int32.ofInt len).toInt.toNat ≤ b.elementLen L m
  | _ => True

variable {L} {columnSize : Nat} {b : ApplicationDataBuffer} {m m' : Memory.Mem} {c : ParameterCase}

theorem map_writes_iff {α : Type} {f : α → WireValue} (hf : ∀ a, f a ≠ .null) (x : Except Fault α) :
    (∃ v, (x.map fun a => [f a]) = .ok [v] ∧ v ≠ .null) ↔ Returns x := by
  cases x with
  | ok a => exact ⟨fun _ => ⟨a, rfl⟩, fun _ => ⟨f a, rfl, hf a⟩⟩
  | error e =>
    constructor
    · rintro ⟨v, hv, -⟩
      cases hv
    · rintro ⟨a, ha⟩
      cases ha

theorem writeBinary_iff : (∃ v, writeBinary b m = .ok [v] ∧ v ≠ .null) ↔
    b.getData.isSome ∧ ∃ len ∈ b.indicator m, 0 ≤ Int32.ofInt len := by
  unfold writeBinary
  cases hlen : b.indicator m with
  | none => simp
  | some len =>
    cases hp : b.getData with
    | none => simp
    | some p =>
      by_cases hneg : Int32.ofInt len < 0
      · have hnot : ¬ 0 ≤ Int32.ofInt len := by simpa using hneg
        simp [hneg, hnot]
      · have hnonneg : 0 ≤ Int32.ofInt len := by simpa using hneg
        simp [hneg, hnonneg]

/-- A value that is no null is written exactly if the conversion returns. -/
theorem writeCase_iff : (∃ v, writeCase L columnSize b m c = .ok [v] ∧ v ≠ .null) ↔ Converts L columnSize b m c := by
  cases c with
  | binary => exact writeBinary_iff
  | other => simp [writeCase, Converts]
  | _ => exact map_writes_iff (fun _ h => by cases h) _

/-! ## The bytes that decide -/

theorem getData_isSome_of_deref {α : Type} {f : Int → α} (h : Returns (b.deref f)) : b.getData.isSome := by
  obtain ⟨a, ha⟩ := h
  unfold deref at ha
  cases hp : b.getData with
  | none =>
    rw [hp] at ha
    cases ha
  | some p => rfl

/-- The four low bytes of a number of eight. -/
theorem readInteger_low (m : Memory.Mem) (q : Int) (signed : Bool) :
    readInteger m q 8 signed % 256 ^ 4 = readInteger m q 4 false := by
  have hcast := castInteger_readInteger m q (show 4 ≤ 4 by decide) (show 4 ≤ 8 by decide) signed
  have hmod : ∀ n, castInteger 4 true (readInteger m q n signed) % 256 ^ 4 = readInteger m q n signed % 256 ^ 4 :=
    fun n => castInteger_emod 4 true _
  rw [← hmod 8, hcast, hmod 4, readInteger_emod]
  rfl

theorem fits_readInteger (m : Memory.Mem) (q : Int) (signed : Bool) : Fits 8 signed (readInteger m q 8 signed) := by
  have hlt := Bytes.value_lt (Memory.read m q 8)
  rw [Memory.length_read] at hlt
  have hcast : readInteger m q 8 signed = castInteger 8 signed (Bytes.value (Memory.read m q 8)) := by
    rw [readInteger, castInteger, Bytes.signedValue, Memory.length_read, Int.emod_eq_of_lt (by omega) (by exact_mod_cast hlt)]
  rw [hcast]
  exact fits_castInteger (by decide) signed _

theorem getReal_long {α : Type} {ofText : Str → α} {ofInt : Int → α} {ofFloat : UInt32 → α} {ofDouble : UInt64 → α} {zero : α}
    (hlong : b.IsLong) : b.getReal L ofText ofInt ofFloat ofDouble zero m =
      b.deref fun q => ofInt (readInteger m q 8 (b.type = .signedLong)) := by
  unfold getReal
  obtain hb | hb := hlong
  · simp [hb, loadedInteger, sizeofLong]
  · simp [hb, loadedInteger, sizeofLong]

/-- A conversion that keeps to the element is the same where the element is. -/
theorem getReal_alike {α : Type} {ofText : Str → α} {ofInt : Int → α} {ofFloat : UInt32 → α} {ofDouble : UInt64 → α}
    {zero : α}
    (h : b.SameElement L m m') (halike : b.IsLong → ConvertsAlike ofInt b m) :
    b.getReal L ofText ofInt ofFloat ofDouble zero m = b.getReal L ofText ofInt ofFloat ofDouble zero m' := by
  by_cases hlong : b.IsLong
  · rw [getReal_long hlong, getReal_long hlong]
    refine deref_congr fun q hq => halike hlong q hq _ _ (fits_readInteger ..) (fits_readInteger ..) (readInteger_low ..) ?_
    have hlen : 4 ≤ b.elementLen L m := by
      obtain hb | hb := hlong
      · simp [elementLen, getElementSize, hb]
      · simp [elementLen, getElementSize, hb]
    rw [readInteger_low, readInteger_congr (h.data q hq) hlen]
  · exact getReal_same h hlong ..

theorem writeBinary_same (h : b.SameElement L m m') (hkeeps : KeepsToElement L b m .binary) :
    writeBinary b m = writeBinary b m' := by
  unfold writeBinary
  rw [← h.indicator_eq]
  cases hlen : b.indicator m with
  | none => rfl
  | some len =>
    cases hp : b.getData with
    | none => rfl
    | some p =>
      dsimp only
      rw [read_congr_of (h.data p hp) (hkeeps len hlen)]

theorem writeCase_same (h : b.SameElement L m m') (hkeeps : KeepsToElement L b m c) :
    writeCase L columnSize b m c = writeCase L columnSize b m' c := by
  have hnum : ∀ T ≤ 4, b.getNum L.platform L.outside T m = b.getNum L.platform L.outside T m' :=
    fun T hT => getNum_same h fun _ => hT
  cases c with
  | string => exact congrArg (Except.map _) (getString_same h hkeeps columnSize)
  | smallint | integer | tinyint | bit => exact congrArg (Except.map _) (hnum _ (by decide))
  | bigint => exact congrArg (Except.map _) (getNum_same h fun hb => absurd hb hkeeps)
  | float => exact congrArg (Except.map _) (getReal_alike h hkeeps)
  | double => exact congrArg (Except.map _) (getReal_alike h hkeeps)
  | date => simp only [writeCase, getDate, getDateTm_same h]
  | timestamp => simp only [writeCase, getTimestamp, getDateTm_same h, getNanos_same h]
  | time => simp only [writeCase, getTime, getTimeTm_same h]
  | binary => exact writeBinary_same h hkeeps
  | guid => exact congrArg (Except.map _) (getGuid_same h)
  | decimal => exact congrArg (Except.map _) (getDecimal_same h hkeeps)
  | other => rfl

/-! ## The bytes that do not -/

variable (L) in
/-- The byte is one of the indicator or of the data. -/
def InElement (b : ApplicationDataBuffer) (m : Memory.Mem) (a : Int) : Prop :=
  (∃ r ∈ b.getResLen, r ≤ a ∧ a < r + 8) ∨ ∃ q ∈ b.getData, q ≤ a ∧ a < q + b.elementLen L m

variable (L) in
/-- The four bytes behind the data are not those of the indicator. -/
def FreeBehind (b : ApplicationDataBuffer) (m : Memory.Mem) : Prop :=
  ∀ q ∈ b.getData, ∀ a, q + b.elementLen L m ≤ a → a < q + b.elementLen L m + 4 → ¬ InElement L b m a

theorem sameElement_write {w : Memory.Write} (h : ∀ a, w.Covers a → ¬ InElement L b m a) :
    b.SameElement L m (Memory.write m w) := by
  have hframe : ∀ a, InElement L b m a → m a = Memory.write m w a := fun a ha =>
    (Memory.write_of_not_covers m fun hcovers => h a hcovers ha).symm
  exact ⟨fun r hr a hlow hhigh => hframe a (.inl ⟨r, hr, hlow, hhigh⟩),
    fun q hq a hlow hhigh => hframe a (.inr ⟨q, hq, hlow, hhigh⟩)⟩

theorem elementLen_long (hlong : b.IsLong) : b.elementLen L m = 4 := by
  obtain hb | hb := hlong
  · simp [elementLen, getElementSize, hb]
  · simp [elementLen, getElementSize, hb]

/-- Every integer that ends in the four bytes of the element is one that can be
read there. -/
theorem exists_same_long (hlong : b.IsLong) {q : Int} (hq : b.getData = some q) (hfree : FreeBehind L b m) {w : Int}
    {signed : Bool}
    (hw : Fits 8 signed w) (hlow : w % 256 ^ 4 = readInteger m q 4 false) :
    ∃ m', b.SameElement L m m' ∧ readInteger m' q 8 signed = w := by
  have hlen : b.elementLen L m = 4 := elementLen_long hlong
  refine ⟨Memory.write m ⟨q + (4 : Nat), leBytes 4 (w / 256 ^ 4)⟩, sameElement_write fun a hcovers => ?_, ?_⟩
  · obtain ⟨hle, hlt⟩ := hcovers
    rw [length_leBytes] at hlt
    exact hfree q hq a (by rw [hlen]; exact hle) (by rw [hlen]; exact hlt)
  · -- the low bytes are those of the element, the high ones are stored behind it
    have hfirst : Memory.read (Memory.write m ⟨q + (4 : Nat), leBytes 4 (w / 256 ^ 4)⟩) q 4 = Memory.read m q 4 :=
      Memory.read_write_of_disjoint m (.inr (Int.le_refl _))
    have hsecond := Memory.read_write_self m (q + (4 : Nat)) (leBytes 4 (w / 256 ^ 4))
    rw [length_leBytes] at hsecond
    generalize Memory.write m ⟨q + (4 : Nat), leBytes 4 (w / 256 ^ 4)⟩ = m' at hfirst hsecond
    have hvalue : readInteger m' q 8 signed % 256 ^ 8 = w % 256 ^ 8 := by
      rw [readInteger_emod, show 8 = 4 + 4 from rfl, Memory.read_add, Bytes.value_append, Memory.length_read, hfirst, hsecond]
      have hread : (Bytes.value (Memory.read m q 4) : Int) = w % 256 ^ 4 := hlow.symm
      push_cast
      rw [hread, value_leBytes]
      omega
    rw [← castInteger_of_fits (fits_readInteger m' q signed), castInteger_congr signed hvalue, castInteger_of_fits hw]

variable (L) in
/-- The value made of a `long`. -/
def ofLong (signed : Bool) : ParameterCase → Int → WireValue
  | .string, v => .string (intText (castInteger 8 signed v))
  | .float, v => .float (L.platform.intToFloat v)
  | .double, v => .double (L.platform.intToDouble v)
  | .bigint, v => .int64 (castInteger 8 true v)
  | .decimal, v =>
    .decimal ⟨0, if signed then BigInteger.assignInt64 (.ofInt (castInteger 8 true v))
      else BigInteger.assignUint64 (.ofInt (castInteger 8 false v))⟩
  | _, _ => .null

theorem writeCase_long (hlong : b.IsLong) (hc : c ∈ [.string, .float, .double, .bigint, .decimal]) :
    writeCase L columnSize b m c =
      b.deref fun q => [ofLong L (b.type = .signedLong) c (readInteger m q 8 (b.type = .signedLong))] := by
  have hnum : b.getNum L.platform L.outside 8 m =
      b.deref fun q => castInteger 8 true (readInteger m q 8 (b.type = .signedLong)) :=
    getNum_long hlong m
  have hreal : ∀ {α : Type} (ofText : Str → α) (ofInt : Int → α) (ofFloat : UInt32 → α) (ofDouble : UInt64 → α) (zero : α),
      b.getReal L ofText ofInt ofFloat ofDouble zero m = b.deref fun q => ofInt (readInteger m q 8 (b.type = .signedLong)) :=
    fun _ _ _ _ _ => getReal_long hlong
  have huint : b.type = .unsignedLong → b.getUint64 m = b.deref fun q => castInteger 8 false (readInteger m q 8 false) := by
    intro hb
    simp [getUint64, hb, loadedInteger, sizeofLong]
  simp only [List.mem_cons, List.not_mem_nil, or_false] at hc
  unfold deref at hnum hreal huint ⊢
  cases hq : b.getData with
  | none =>
    simp only [hq] at hnum hreal huint
    obtain hb | hb := hlong <;> obtain rfl | rfl | rfl | rfl | rfl := hc <;>
      simp [writeCase, getString, getFloat, getDouble, getDecimal, hb, hnum, hreal, huint, Except.map]
  | some q =>
    simp only [hq] at hnum hreal huint
    obtain hb | hb := hlong <;> obtain rfl | rfl | rfl | rfl | rfl := hc <;>
      simp [writeCase, getString, getFloat, getDouble, getDecimal, hb, hnum, hreal, huint, Except.map, ofLong]

theorem intText_injective {v w : Int} (h : intText v = intText w) : v = w := by
  have hv := streamInt_intText 0 (min_le_left v w) (le_max_left v w)
  have hw := streamInt_intText 0 (min_le_right v w) (le_max_right v w)
  rw [← hv, h, hw]

/-- A text, an integer and a decimal tell all the numbers apart. -/
theorem ofLong_injective (hc : c ∈ [.string, .bigint, .decimal]) {signed : Bool} {v w : Int} (hv : Fits 8 signed v)
    (hw : Fits 8 signed w) (h : ofLong L signed c v = ofLong L signed c w) : v = w := by
  simp only [List.mem_cons, List.not_mem_nil, or_false] at hc
  obtain rfl | rfl | rfl := hc
  · have htext := intText_injective (WireValue.string.inj h)
    rwa [castInteger_of_fits hv, castInteger_of_fits hw] at htext
  · have hcast : v % 256 ^ 8 = w % 256 ^ 8 := by
      rw [← castInteger_emod 8 true v, ← castInteger_emod 8 true w, WireValue.int64.inj h]
    rw [← castInteger_of_fits hv, castInteger_congr signed hcast, castInteger_of_fits hw]
  · have hmagnitude := congrArg BigInteger.toInt (Common.Decimal.mk.inj (WireValue.decimal.inj h)).2
    cases signed with
    | true =>
      simp only [if_true, castInteger_of_fits hv, castInteger_of_fits hw, BigInteger.toInt_assignInt64] at hmagnitude
      rw [fits_eight] at hv hw
      rwa [Int64.toInt_ofInt_of_le (by omega) (by omega), Int64.toInt_ofInt_of_le (by omega) (by omega)] at hmagnitude
    | false =>
      simp only [Bool.false_eq_true, if_false, castInteger_of_fits hv, castInteger_of_fits hw, BigInteger.toInt,
        BigInteger.sign_assignUint64, BigInteger.value_assignUint64, UInt64.ofInt, UInt64.toNat_ofNat'] at hmagnitude
      rw [Fits, if_neg (by decide)] at hv hw
      norm_num at hv hw hmagnitude
      omega

/-- What is decided by the element is made alike of all the integers that end in
it. -/
theorem convertsAlike_of_same (hlong : b.IsLong) (hfree : FreeBehind L b m)
    (hc : c ∈ [.string, .float, .double, .bigint, .decimal])
    (hsame : ∀ m', b.SameElement L m m' → writeCase L columnSize b m' c = writeCase L columnSize b m c) :
    ConvertsAlike (ofLong L (b.type = .signedLong) c) b m := by
  intro q hq v w hv hw hvlow hwlow
  obtain ⟨mv, hmv, hreadv⟩ := exists_same_long hlong hq hfree hv hvlow
  obtain ⟨mw, hmw, hreadw⟩ := exists_same_long hlong hq hfree hw hwlow
  have hboth := (hsame mv hmv).trans (hsame mw hmw).symm
  rw [writeCase_long hlong hc, writeCase_long hlong hc, deref, deref, hq] at hboth
  dsimp only at hboth
  rw [hreadv, hreadw] at hboth
  exact List.singleton_inj.mp (Except.ok.inj hboth)

/-- Two integers end in the same four bytes. -/
theorem not_convertsAlike (hc : c ∈ [.string, .bigint, .decimal]) (hdata : b.getData.isSome) :
    ¬ ConvertsAlike (ofLong L (b.type = .signedLong) c) b m := by
  obtain ⟨q, hq⟩ := Option.isSome_iff_exists.mp hdata
  intro halike
  have h := halike q hq
  have hlow : 0 ≤ readInteger m q 4 false ∧ readInteger m q 4 false < 256 ^ 4 := by
    rw [← readInteger_low m q false]
    exact ⟨Int.emod_nonneg _ (by decide), Int.emod_lt_of_pos _ (by decide)⟩
  have hfits : ∀ v : Int, 0 ≤ v → v < 2 * 256 ^ 4 → Fits 8 (b.type = .signedLong) v := by
    intro v hpos hlt
    unfold Fits
    split <;> omega
  generalize readInteger m q 4 false = low at hlow h
  have hv := hfits low (by omega) (by omega)
  have hw := hfits (low + 256 ^ 4) (by omega) (by omega)
  have heq := ofLong_injective hc hv hw (h _ _ hv hw (by omega) (by omega))
  omega

theorem binary_keeps_of_same (hfree : FreeBehind L b m) (hconv : Converts L columnSize b m .binary)
    (hsame : ∀ m', b.SameElement L m m' → writeCase L columnSize b m' .binary = writeCase L columnSize b m .binary) :
    KeepsToElement L b m .binary := by
  intro len hlen
  by_contra hgt
  obtain ⟨hdata, len', hlen', hnonneg⟩ := hconv
  obtain rfl := Option.some.inj (hlen.symm.trans hlen')
  obtain ⟨q, hq⟩ := Option.isSome_iff_exists.mp hdata
  -- the byte behind the data is another one
  have hother := sameElement_write (w := ⟨q + b.elementLen L m, [m (q + b.elementLen L m) + 1]⟩) fun a hcovers => by
    obtain ⟨hle, hlt⟩ := hcovers
    exact hfree q hq a hle (by simp at hlt; omega)
  have hboth := hsame _ hother
  have hwrite : ∀ m₀ : Memory.Mem, b.indicator m₀ = some len →
      writeCase L columnSize b m₀ .binary = .ok [.byteArray (Memory.read m₀ q (Int32.ofInt len).toInt.toNat)] := by
    intro m₀ hlen₀
    have hnot : ¬ Int32.ofInt len < 0 := by simpa using hnonneg
    simp [writeCase, writeBinary, hlen₀, hq, hnot]
  rw [hwrite _ (hother.indicator_eq ▸ hlen), hwrite m hlen] at hboth
  have hread := congrArg (·[b.elementLen L m]?) (WireValue.byteArray.inj (List.singleton_inj.mp (Except.ok.inj hboth)))
  generalize (Int32.ofInt len).toInt.toNat = n at hgt hread
  have hplace : b.elementLen L m < n := by omega
  simp [Memory.read, hplace, Memory.write_byte] at hread

theorem keepsToElement_of_same (hfree : FreeBehind L b m) (hconv : Converts L columnSize b m c)
    (hsame : ∀ m', b.SameElement L m m' → writeCase L columnSize b m' c = writeCase L columnSize b m c) :
    KeepsToElement L b m c := by
  have hdata : b.IsLong → c ∈ [.string, .float, .double, .bigint, .decimal] → b.getData.isSome := by
    intro hlong hc
    obtain ⟨v, hv, -⟩ := writeCase_iff.mpr hconv
    exact getData_isSome_of_deref ⟨[v], (writeCase_long hlong hc).symm.trans hv⟩
  cases c with
  | string | bigint | decimal =>
    exact fun hlong => not_convertsAlike (by simp) (hdata hlong (by simp)) (convertsAlike_of_same hlong hfree (by simp) hsame)
  | float =>
    intro hlong q hq v w hv hw hvlow hwlow
    exact WireValue.float.inj (convertsAlike_of_same hlong hfree (by simp) hsame q hq v w hv hw hvlow hwlow)
  | double =>
    intro hlong q hq v w hv hw hvlow hwlow
    exact WireValue.double.inj (convertsAlike_of_same hlong hfree (by simp) hsame q hq v w hv hw hvlow hwlow)
  | binary => exact binary_keeps_of_same hfree hconv hsame
  | _ => trivial

/-! ## A value -/

variable (L) in
/-- The value is the one written; it is a null exactly if the indicator of the
element says so, and the bytes of the element decide what it is. -/
structure WritesElement (p : Parameter) (m : Memory.Mem) (offset : Int) (idx : Nat) (v : WireValue) : Prop where
  write_eq : p.write L m offset idx = .ok [v]
  null_iff : v = .null ↔ (p.elementBuffer offset idx).indicator m = some (-1)
  same : ∀ m', (p.elementBuffer offset idx).SameElement L m m' → p.write L m' offset idx = .ok [v]

variable (L) in
/-- The first indicator is the one of the element, and what it calls for is
converted: the data that was stored, or the element. -/
def Writable (p : Parameter) (m : Memory.Mem) (offset : Int) (idx : Nat) : Prop :=
  let b := p.elementBuffer offset idx
  let c := ParameterCase.ofSqlType p.sqlType
  p.buffer.getResLen = b.getResLen ∧
    (b.indicator m ≠ some (-1) →
      if b.isDataAtExec m then
        p.storedData ≠ [] ∧
          Converts L p.columnSize (storedBuffer p.buffer.type p.storedData) (storedMemory L p.storedData) c
      else Converts L p.columnSize b m c ∧ KeepsToElement L b m c)

variable (L) in
/-- Another first indicator is not in the element, and no indicator is right
behind it. -/
structure ElementApart (p : Parameter) (m : Memory.Mem) (offset : Int) (idx : Nat) : Prop where
  first : p.buffer.getResLen ≠ (p.elementBuffer offset idx).getResLen → ∀ r ∈ p.buffer.getResLen, ∀ a, r ≤ a → a < r + 8 →
    ¬ InElement L (p.elementBuffer offset idx) m a
  behind : FreeBehind L (p.elementBuffer offset idx) m

theorem not_isDataAtExec_of_null (h : b.indicator m = some (-1)) : b.isDataAtExec m = false := by
  rw [isDataAtExec, h]
  rfl

theorem toInt_double_ne (x : Int32) : (x * 2).toInt ≠ -1 := by
  intro h
  have hparity := @Int.bmod_emod (x.toInt * 2) (2 ^ 32)
  rw [Int32.toInt_mul, show (2 : Int32).toInt = 2 from rfl] at h
  rw [h] at hparity
  omega

theorem toInt_dataAtExec_ne (x : Int32) : (if x ≤ -100 then -x + -100 else 0).toInt ≠ -1 := by
  split
  · next hx =>
    intro h
    have heq : -x + -100 = -1 := Int32.toInt_inj.mp h
    obtain rfl : x = -99 := by grind
    exact absurd hx (by decide)
  · decide

/-- What an application is to send has no length that means a null. -/
theorem getDataAtExecSize_ne (b : ApplicationDataBuffer) (m : Memory.Mem) : b.getDataAtExecSize m ≠ -1 := by
  unfold getDataAtExecSize
  cases hb : b.type with
  | char | binary =>
    cases b.indicator m with
    | none => simp
    | some len =>
      simp only [reduceCtorEq, if_false]
      exact toInt_dataAtExec_ne _
  | wchar =>
    cases b.indicator m with
    | none => simp
    | some len =>
      simp only [if_true]
      exact toInt_double_ne _
  | signedLong | unsignedLong => simp
  | _ => simp [getElementSize, hb]

/-- The size is `SQL_NULL_DATA` exactly if the indicator is. -/
theorem getInputSize_eq_iff : b.getInputSize m = -1 ↔ b.indicator m = some (-1) := by
  unfold getInputSize
  by_cases hexec : b.isDataAtExec m
  · rw [if_pos hexec]
    refine iff_of_false (getDataAtExecSize_ne b m) fun h => ?_
    rw [not_isDataAtExec_of_null h] at hexec
    cases hexec
  · rw [if_neg hexec]
    cases b.indicator m with
    | none => simp
    | some len => simp

variable {p : Parameter} {offset : Int} {idx : Nat}

theorem write_null (h : p.buffer.indicator m = some (-1)) : p.write L m offset idx = .ok [.null] := by
  rw [write, if_pos (getInputSize_eq_iff.mpr h)]

theorem write_dataAtExec (h : p.buffer.indicator m ≠ some (-1)) (hexec : p.buffer.isDataAtExec m = true) :
    p.write L m offset idx = if p.storedData = [] then .error .outOfRange
      else writeCase L p.columnSize (storedBuffer p.buffer.type p.storedData) (storedMemory L p.storedData)
        (.ofSqlType p.sqlType) := by
  rw [write, if_neg (mt getInputSize_eq_iff.mp h), if_pos hexec]

theorem write_element (h : p.buffer.indicator m ≠ some (-1)) (hexec : p.buffer.isDataAtExec m = false) :
    p.write L m offset idx = writeCase L p.columnSize (p.elementBuffer offset idx) m (.ofSqlType p.sqlType) := by
  rw [write, if_neg (mt getInputSize_eq_iff.mp h), hexec]
  rfl

/-- There is no null for a pointer that is none. -/
theorem writeCase_ne_null (hdata : b.getData.isSome) : writeCase L columnSize b m c ≠ .ok [.null] := by
  have hmap : ∀ {α : Type} (x : Except Fault α) (f : α → WireValue), (∀ a, f a ≠ .null) →
      (x.map fun a => [f a]) ≠ .ok [.null] := by
    intro α x f hf h
    cases x with
    | ok a => exact hf a (List.singleton_inj.mp (Except.ok.inj h))
    | error e => cases h
  cases c with
  | binary =>
    obtain ⟨q, hq⟩ := Option.isSome_iff_exists.mp hdata
    unfold writeCase writeBinary
    cases b.indicator m with
    | none => simp
    | some len =>
      simp only [hq]
      split <;> simp
  | other => simp [writeCase]
  | _ => exact hmap _ _ fun _ h => by cases h

theorem isSome_getData_storedBuffer (type : OdbcNativeType) (data : List UInt8) :
    (storedBuffer type data).getData.isSome := rfl

/-- Where the first indicator is another one it is looked at, not the one of the
element. -/
theorem not_writesElement_of_first {v : WireValue} (happart : ElementApart L p m offset idx)
    (hne : p.buffer.getResLen ≠ (p.elementBuffer offset idx).getResLen) : ¬ WritesElement L p m offset idx v := by
  cases hr : p.buffer.getResLen with
  | none =>
    have hnone : p.buffer.reslen = none := Option.map_eq_none_iff.mp hr
    refine absurd (hr.trans (Eq.symm ?_)) hne
    exact Option.map_eq_none_iff.mpr hnone
  | some r =>
    intro h
    -- the first indicator is set to a null, and to data at execution
    have hset : ∀ x : Int, Fits 8 true x →
        ∃ m', p.write L m' offset idx = .ok [v] ∧ p.buffer.indicator m' = some x := by
      intro x hx
      refine ⟨_, h.same (Memory.write m ⟨r, leBytes 8 x⟩) (sameElement_write fun a hcovers => ?_), ?_⟩
      · obtain ⟨hle, hlt⟩ := hcovers
        rw [length_leBytes] at hlt
        exact happart.first hne r hr a hle hlt
      · have hread := Memory.read_write_self m r (leBytes 8 x)
        rw [length_leBytes] at hread
        rw [indicator, hr, Option.map_some, readInteger_of_read true hread, castInteger_of_fits hx]
    obtain ⟨m₁, hwrite₁, hind₁⟩ := hset (-1) (by decide)
    obtain ⟨m₂, hwrite₂, hind₂⟩ := hset (-2) (by decide)
    obtain rfl : v = .null := List.singleton_inj.mp (Except.ok.inj (hwrite₁.symm.trans (write_null hind₁)))
    have hexec : p.buffer.isDataAtExec m₂ = true := by
      rw [isDataAtExec, hind₂]
      rfl
    rw [write_dataAtExec (by rw [hind₂]; decide) hexec] at hwrite₂
    split at hwrite₂
    · cases hwrite₂
    · exact writeCase_ne_null (isSome_getData_storedBuffer ..) hwrite₂

theorem indicator_eq_of_place (hplace : p.buffer.getResLen = b.getResLen) : p.buffer.indicator m = b.indicator m := by
  rw [indicator, indicator, hplace]

theorem isDataAtExec_eq_of_place (hplace : p.buffer.getResLen = b.getResLen) :
    p.buffer.isDataAtExec m = b.isDataAtExec m := by
  rw [isDataAtExec, isDataAtExec, indicator_eq_of_place hplace]

theorem writesElement_of_writable (h : Writable L p m offset idx) : ∃ v, WritesElement L p m offset idx v := by
  obtain ⟨hplace, hvalue⟩ := h
  suffices hall : ∃ v, (v = .null ↔ (p.elementBuffer offset idx).indicator m = some (-1)) ∧
      ∀ m', (p.elementBuffer offset idx).SameElement L m m' → p.write L m' offset idx = .ok [v] by
    obtain ⟨v, hv, hwrite⟩ := hall
    exact ⟨v, hwrite m (.refl _ m), hv, hwrite⟩
  have hfirst : ∀ {m'}, (p.elementBuffer offset idx).SameElement L m m' →
      p.buffer.indicator m' = (p.elementBuffer offset idx).indicator m ∧
        p.buffer.isDataAtExec m' = (p.elementBuffer offset idx).isDataAtExec m := fun hm' => by
    rw [indicator_eq_of_place hplace, isDataAtExec_eq_of_place hplace, hm'.indicator_eq, isDataAtExec_congr hm'.indicator_eq]
    exact ⟨rfl, rfl⟩
  by_cases hnull : (p.elementBuffer offset idx).indicator m = some (-1)
  · exact ⟨.null, iff_of_true rfl hnull, fun m' hm' => write_null ((hfirst hm').1.trans hnull)⟩
  · have hvalue := hvalue hnull
    split at hvalue
    · next hexec =>
      obtain ⟨v, hv, hne⟩ := writeCase_iff.mpr hvalue.2
      refine ⟨v, iff_of_false hne hnull, fun m' hm' => ?_⟩
      rw [write_dataAtExec (by rwa [(hfirst hm').1]) ((hfirst hm').2.trans hexec), if_neg hvalue.1, hv]
    · next hexec =>
      obtain ⟨v, hv, hne⟩ := writeCase_iff.mpr hvalue.1
      refine ⟨v, iff_of_false hne hnull, fun m' hm' => ?_⟩
      rw [write_element (by rwa [(hfirst hm').1]) ((hfirst hm').2.trans (by simpa using hexec)),
        ← writeCase_same hm' hvalue.2, hv]

theorem writable_of_writesElement {v : WireValue} (happart : ElementApart L p m offset idx)
    (h : WritesElement L p m offset idx v) : Writable L p m offset idx := by
  have hplace : p.buffer.getResLen = (p.elementBuffer offset idx).getResLen := by
    by_contra hne
    exact not_writesElement_of_first happart hne h
  obtain ⟨hv, hnullv, hsame⟩ := h
  refine ⟨hplace, fun hnull => ?_⟩
  have hne : v ≠ .null := mt hnullv.mp hnull
  have hind := indicator_eq_of_place (m := m) hplace
  split
  · next hexec =>
    rw [write_dataAtExec (by rwa [hind]) ((isDataAtExec_eq_of_place hplace).trans hexec)] at hv
    split at hv
    · cases hv
    · next hstored => exact ⟨hstored, writeCase_iff.mp ⟨v, hv, hne⟩⟩
  · next hexec =>
    have hcase : ∀ m', (p.elementBuffer offset idx).SameElement L m m' → p.write L m' offset idx =
        writeCase L p.columnSize (p.elementBuffer offset idx) m' (.ofSqlType p.sqlType) := fun m' hm' => by
      refine write_element ?_ ?_
      · rwa [indicator_eq_of_place hplace, ← hm'.indicator_eq]
      · rw [isDataAtExec_eq_of_place hplace, ← isDataAtExec_congr hm'.indicator_eq]
        simpa using hexec
    have hself := hcase m (.refl _ m)
    have hconv := writeCase_iff.mp ⟨v, hself.symm.trans hv, hne⟩
    refine ⟨hconv, keepsToElement_of_same happart.behind hconv fun m' hm' => ?_⟩
    rw [← hcase m' hm', ← hself, hv, hsame m' hm']

end Parameter

/-! ## A row -/

namespace ParameterSet

/-- The values after number `prev`: one for each entry at its number, up to the
last, and a null for each number between. -/
structure Filled (emits : UInt16 × Parameter → WireValue → Prop) (prev : Nat) (l : List (UInt16 × Parameter))
    (values : List WireValue) : Prop where
  length : prev + values.length = (l.getLast?.map fun e => e.1.toNat).getD prev
  value : ∀ e ∈ l, ∃ v, values[e.1.toNat - prev - 1]? = some v ∧ emits e v
  gap : ∀ k, prev < k → k ≤ prev + values.length → (∀ e ∈ l, e.1.toNat ≠ k) → values[k - prev - 1]? = some .null

/-- A row is written completely, and its values independently of each other. -/
structure RowWritten (s : ParameterSet) (m : Memory.Mem) (idx : Nat) (values : List WireValue) : Prop where
  length : values.length = s.calculateRowLen
  gap : ∀ k : UInt16, 0 < k.toNat → k.toNat ≤ s.calculateRowLen → s.getParameter k = none →
    values[k.toNat - 1]? = some .null
  value : ∀ k p, s.getParameter k = some p →
    ∃ v, values[k.toNat - 1]? = some v ∧ p.WritesElement L m (s.appOffset m) idx v

variable {L} {m : Memory.Mem} {offset : Int} {idx : Nat}

theorem writeFrom_cons {e : UInt16 × Parameter} {rest : List (UInt16 × Parameter)} {v : WireValue} {values : List WireValue}
    {prev : Nat} (hv : e.2.write L m offset idx = .ok [v]) (hrest : writeFrom L m offset idx e.1.toNat rest = .ok values) :
    writeFrom L m offset idx prev (e :: rest) = .ok (List.replicate (e.1.toNat - prev - 1) .null ++ v :: values) := by
  rw [writeFrom, hv, hrest, Outcome.ok_bind, Outcome.ok_bind, List.append_assoc, List.singleton_append]

theorem filled_cons {emits : UInt16 × Parameter → WireValue → Prop} {e : UInt16 × Parameter}
    {rest : List (UInt16 × Parameter)} {v : WireValue} {values : List WireValue} {prev : Nat} (hprev : prev < e.1.toNat)
    (hafter : ∀ x ∈ rest, e.1.toNat < x.1.toNat) (hv : emits e v) (h : Filled emits e.1.toNat rest values) :
    Filled emits prev (e :: rest) (List.replicate (e.1.toNat - prev - 1) .null ++ v :: values) := by
  have hlength := h.length
  have hlast : ((e :: rest).getLast?.map fun x => x.1.toNat).getD prev =
      (rest.getLast?.map fun x => x.1.toNat).getD e.1.toNat := by
    rw [List.getLast?_cons]
    cases rest.getLast? <;> rfl
  have hbehind : ∀ k, e.1.toNat < k →
      (List.replicate (e.1.toNat - prev - 1) WireValue.null ++ v :: values)[k - prev - 1]? = values[k - e.1.toNat - 1]? := by
    intro k hk
    rw [List.getElem?_append_right (by rw [List.length_replicate]; omega), List.length_replicate,
      show k - prev - 1 - (e.1.toNat - prev - 1) = k - e.1.toNat - 1 + 1 by omega, List.getElem?_cons_succ]
  have hself : (List.replicate (e.1.toNat - prev - 1) WireValue.null ++ v :: values)[e.1.toNat - prev - 1]? = some v := by
    rw [List.getElem?_append_right (by rw [List.length_replicate]), List.length_replicate, Nat.sub_self,
      List.getElem?_cons_zero]
  refine ⟨?_, fun x hx => ?_, fun k hlow hhigh hnot => ?_⟩
  · rw [hlast, ← hlength]
    simp only [List.length_append, List.length_replicate, List.length_cons]
    omega
  · obtain rfl | hx := List.mem_cons.mp hx
    · exact ⟨v, hself, hv⟩
    · rw [hbehind _ (hafter x hx)]
      exact h.value x hx
  · simp only [List.length_append, List.length_replicate, List.length_cons] at hhigh
    have hne := hnot e List.mem_cons_self
    by_cases hk : e.1.toNat < k
    · rw [hbehind k hk]
      exact h.gap k hk (by omega) fun x hx => hnot x (List.mem_cons_of_mem e hx)
    · rw [List.getElem?_append_left (by rw [List.length_replicate]; omega), List.getElem?_replicate, if_pos (by omega)]

/-- Parameters that each write a value fill the row. -/
theorem writeFrom_filled {emits : UInt16 × Parameter → WireValue → Prop}
    (hemits : ∀ e v, emits e v → e.2.write L m offset idx = .ok [v]) {l : List (UInt16 × Parameter)}
    (hordered : l.Pairwise fun a b => a.1 < b.1) (hall : ∀ e ∈ l, ∃ v, emits e v) {prev : Nat}
    (hprev : ∀ e ∈ l, prev < e.1.toNat) :
    ∃ values, writeFrom L m offset idx prev l = .ok values ∧ Filled emits prev l values := by
  induction l generalizing prev with
  | nil =>
    exact ⟨[], rfl, rfl, fun e he => absurd he List.not_mem_nil,
      fun k hlow hhigh _ => absurd hlow (Nat.not_lt.mpr hhigh)⟩
  | cons e rest ih =>
    obtain ⟨hfirst, hrest⟩ := List.pairwise_cons.mp hordered
    have hafter : ∀ x ∈ rest, e.1.toNat < x.1.toNat := fun x hx => UInt16.lt_iff_toNat_lt.mp (hfirst x hx)
    obtain ⟨v, hv⟩ := hall e List.mem_cons_self
    obtain ⟨values, hwrite, hfilled⟩ := ih hrest (fun x hx => hall x (List.mem_cons_of_mem e hx)) hafter
    exact ⟨_, writeFrom_cons (hemits e v hv) hwrite, filled_cons (hprev e List.mem_cons_self) hafter hv hfilled⟩

variable {s : ParameterSet}

theorem mem_entries {k : UInt16} {p : Parameter} : (k, p) ∈ s.parameters.entries ↔ s.getParameter k = some p :=
  s.parameters.mem_entries k

theorem calculateRowLen_eq : s.calculateRowLen = (s.parameters.entries.getLast?.map fun e => e.1.toNat).getD 0 := by
  unfold calculateRowLen
  cases s.parameters.entries.getLast? <;> rfl

/-- A parameter with number zero is written where no number has a place. -/
theorem length_writeRow_of_zero {p : Parameter} (h : s.getParameter 0 = some p)
    (hall : ∀ k q, s.getParameter k = some q → ∃ v, q.write L m (s.appOffset m) idx = .ok [v]) {values : List WireValue}
    (hwrite : s.writeRow L m idx = .ok values) : values.length = s.calculateRowLen + 1 := by
  have hmem := mem_entries.mpr h
  have hordered := s.parameters.ordered
  have hentries : ∀ e ∈ s.parameters.entries, ∃ v, e.2.write L m (s.appOffset m) idx = .ok [v] :=
    fun e he => hall e.1 e.2 (mem_entries.mp he)
  rw [calculateRowLen_eq]
  unfold writeRow at hwrite
  cases hl : s.parameters.entries with
  | nil =>
    rw [hl] at hmem
    cases hmem
  | cons e rest =>
    rw [hl] at hmem hordered hentries hwrite
    obtain ⟨hfirst, hrest⟩ := List.pairwise_cons.mp hordered
    obtain rfl : (0, p) = e := by
      refine (List.mem_cons.mp hmem).resolve_right fun hin => ?_
      exact absurd (hfirst _ hin) UInt16.not_lt_zero
    obtain ⟨v, hv⟩ := hentries _ List.mem_cons_self
    obtain ⟨rest', hrest', hfilled⟩ := writeFrom_filled (fun _ _ hv => hv) hrest
      (fun x hx => hentries x (List.mem_cons_of_mem _ hx))
      (show ∀ x ∈ rest, 0 < x.1.toNat from fun x hx => UInt16.lt_iff_toNat_lt.mp (hfirst x hx))
    have hlength := hfilled.length
    rw [writeFrom_cons hv hrest'] at hwrite
    obtain rfl := Except.ok.inj hwrite
    rw [List.getLast?_cons]
    cases hlast : rest.getLast? with
    | none =>
      rw [hlast] at hlength
      simpa using hlength
    | some x =>
      rw [hlast] at hlength
      simpa using hlength

theorem rowWritten_of_all (hzero : s.getParameter 0 = none)
    (hall : ∀ k p, s.getParameter k = some p → ∃ v, p.WritesElement L m (s.appOffset m) idx v) :
    ∃ values, s.writeRow L m idx = .ok values ∧ s.RowWritten L m idx values := by
  have hpos : ∀ e ∈ s.parameters.entries, 0 < e.1.toNat := by
    intro e he
    by_contra hnot
    have hkey : e.1 = 0 := UInt16.toNat_inj.mp (by simpa using hnot)
    obtain ⟨k, p⟩ := e
    obtain rfl : k = 0 := hkey
    rw [mem_entries.mp he] at hzero
    cases hzero
  obtain ⟨values, hwrite, hfilled⟩ := writeFrom_filled
    (fun (e : UInt16 × Parameter) v (hv : e.2.WritesElement L m (s.appOffset m) idx v) => hv.write_eq) s.parameters.ordered (fun e he => hall e.1 e.2 (mem_entries.mp he)) hpos
  have hlength := hfilled.length
  rw [Nat.zero_add] at hlength
  refine ⟨values, hwrite, hlength.trans calculateRowLen_eq.symm, fun k hlow hhigh hnone => ?_, fun k p hp => ?_⟩
  · refine hfilled.gap k.toNat hlow (by rw [Nat.zero_add, hlength, ← calculateRowLen_eq]; exact hhigh) fun e he hkey => ?_
    obtain ⟨k', p⟩ := e
    obtain rfl : k' = k := UInt16.toNat_inj.mp hkey
    rw [mem_entries.mp he] at hnone
    cases hnone
  · exact hfilled.value (k, p) (mem_entries.mpr hp)

/-- **Rows.** A row is written completely and its values independently if no
parameter has the number zero and each is writable. Where the elements do not
overlap with the first indicators, it is only then. -/
theorem writeRow_iff (L : InputLib) (s : ParameterSet) (m : Memory.Mem) (idx : Nat) :
    (s.getParameter 0 = none ∧ (∀ k p, s.getParameter k = some p → p.Writable L m (s.appOffset m) idx) →
      ∃ values, s.writeRow L m idx = .ok values ∧ s.RowWritten L m idx values) ∧
    ((∀ k p, s.getParameter k = some p → p.ElementApart L m (s.appOffset m) idx) →
      (∃ values, s.writeRow L m idx = .ok values ∧ s.RowWritten L m idx values) →
      s.getParameter 0 = none ∧ ∀ k p, s.getParameter k = some p → p.Writable L m (s.appOffset m) idx) := by
  constructor
  · intro h
    exact rowWritten_of_all h.1 fun k p hp => Parameter.writesElement_of_writable (h.2 k p hp)
  · intro happart h
    obtain ⟨values, hwrite, hrow⟩ := h
    refine ⟨?_, fun k p hp => ?_⟩
    · by_contra hzero
      obtain ⟨p, hp⟩ := Option.ne_none_iff_exists'.mp hzero
      have hlength := length_writeRow_of_zero hp (fun k q hq => ?_) hwrite
      · rw [hrow.length] at hlength
        omega
      · obtain ⟨v, -, hv⟩ := hrow.value k q hq
        exact ⟨v, hv.write_eq⟩
    · obtain ⟨v, -, hv⟩ := hrow.value k p hp
      exact Parameter.writable_of_writesElement (happart k p hp) hv

end ParameterSet

end App

/-- The libraries of a platform, for parameters that are integers. -/
def InputLib.ieee : InputLib where
  platform := .ieee
  outside := .zeros
  unassigned := ⟨fun _ => 0, 0, fun _ _ => 0⟩
  streamFloat _ := 0
  doubleText16 _ := ascii "0"
  toTimeGm _ := some 0
  heap _ := 0
  scanOverflow _ := 0

namespace App.ParameterSet

/-- Two integers with indicators, the second of them null, bound as number three:
the first row is complete. -/
theorem writeRow_runs :
    let p : Parameter :=
      { buffer := ⟨.signedLong, some 100, 4, some 200, 0, 0, by decide⟩, sqlType := 4, columnSize := 0, decDigits := 0 }
    let s := ({} : ParameterSet).bindParameter 3 p
    let m : Memory.Mem := fun a => if a = 100 then 5 else if 208 ≤ a ∧ a < 216 then 255 else 0
    ∃ values, s.writeRow .ieee m 0 = .ok values ∧ s.RowWritten .ieee m 0 values := by
  intro p s m
  refine (writeRow_iff .ieee s m 0).1 ⟨rfl, fun k q hq => ?_⟩
  have hentries : s.parameters.entries = [(3, p)] := rfl
  have hmem := mem_entries.mpr hq
  rw [hentries, List.mem_singleton] at hmem
  obtain ⟨rfl, rfl⟩ := Prod.mk.inj hmem
  refine ⟨rfl, fun _ => ?_⟩
  rw [if_neg (by decide)]
  exact ⟨show Returns _ from ⟨5, by decide⟩, trivial⟩

/-- The second row has a value where the second indicator is null, and for
`SQL_REAL` there is no value. -/
theorem writeRow_not_complete :
    let p : Parameter :=
      { buffer := ⟨.signedLong, some 100, 4, some 200, 0, 0, by decide⟩, sqlType := 4, columnSize := 0, decDigits := 0 }
    let m : Memory.Mem := fun a => if a = 100 then 5 else if 208 ≤ a ∧ a < 216 then 255 else 0
    (¬ ∃ values, (({} : ParameterSet).bindParameter 3 p).writeRow .ieee m 1 = .ok values ∧
      (({} : ParameterSet).bindParameter 3 p).RowWritten .ieee m 1 values) ∧
    ¬ ∃ values, (({} : ParameterSet).bindParameter 3 { p with sqlType := 7 }).writeRow .ieee m 0 = .ok values ∧
      (({} : ParameterSet).bindParameter 3 { p with sqlType := 7 }).RowWritten .ieee m 0 values := by
  intro p m
  constructor
  · intro h
    obtain ⟨values, -, hrow⟩ := h
    obtain ⟨v, -, hv⟩ := hrow.value 3 p rfl
    have hwrite : p.write .ieee m 0 1 = .ok [.int32 0] := by decide +kernel
    obtain rfl : WireValue.int32 0 = v := List.singleton_inj.mp (Except.ok.inj (hwrite.symm.trans hv.write_eq))
    have hnull := hv.null_iff.mpr (show (p.elementBuffer 0 1).indicator m = some (-1) by decide)
    cases hnull
  · intro h
    obtain ⟨values, -, hrow⟩ := h
    obtain ⟨v, -, hv⟩ := hrow.value 3 { p with sqlType := 7 } rfl
    have hwrite : ({ p with sqlType := 7 } : Parameter).write .ieee m 0 0 = .ok [] := by decide
    cases hwrite.symm.trans hv.write_eq

end App.ParameterSet

end DocumentDbOdbc
