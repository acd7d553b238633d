/-
Integer columns: the numbers they deliver.

A column of integers has a width by the SQL standard (`integerBytes`), and its
read goes through a helper of a width of its own (`helperBytes`). The two
differ for `TINYINT` and `SMALLINT`, whose helpers are exchanged; and of a date
or a timestamp a helper makes a plain cast.
-/
import DocumentDbOdbc.ColumnFacts
import DocumentDbOdbc.BufferMemory
import DocumentDbOdbc.NumeralText

namespace DocumentDbOdbc

open Effect ApplicationDataBuffer

/-- The number an element is: an integer, the milliseconds of a date, the
seconds of a timestamp. -/
def BsonElement.integer : BsonElement → Option Int
  | .int32 v => some v.toInt
  | .int64 v => some v.toInt
  | .date ms => some ms.toInt
  | .timestamp s => some s.toNat
  | _ => none

/-- An `int32` or an `int64`, which `ToValidLong` sees. -/
def BsonElement.isInt : BsonElement → Prop
  | .int32 _ | .int64 _ => True
  | _ => False

instance (e : BsonElement) : Decidable e.isInt := by
  cases e <;> unfold BsonElement.isInt <;> infer_instance

/-- The bytes of an integer of the SQL type. -/
def JdbcType.integerBytes : JdbcType → Option Nat
  | .tinyint => some 1
  | .smallint => some 2
  | .integer => some 4
  | .bigint => some 8
  | _ => none

/-- The bytes of the integer the helper of the column makes. -/
def JdbcType.helperBytes : JdbcType → Nat
  | .smallint => 1
  | .tinyint => 2
  | .integer => 4
  | _ => 8

namespace DocumentDbColumn

variable {P : Platform} {type : JdbcType} {e : BsonElement} {n : Nat} {v : Int}

/-! ## What a helper makes of a number -/

/-- `ToValidLong` passes what is in its bounds, and fails on all else. -/
theorem validInt_toValidLong (k : Nat) (v max min : Int) :
    validInt k (toValidLong v max min) =
      if min ≤ v ∧ v ≤ max then .drops (.num (some (.int k v))) else .returns .failure := by
  unfold validInt toValidLong
  by_cases hmax : max < v
  · rw [if_pos hmax, if_neg (by omega)]
    rfl
  by_cases hmin : v < min
  · rw [if_neg hmax, if_pos hmin, if_neg (by omega)]
    rfl
  · rw [if_neg hmax, if_neg hmin, if_pos (by omega)]
    rfl

/-- An integer is checked against the width of the helper. -/
theorem readElement_int (hn : type.integerBytes = some n) (hv : e.integer = some v) (he : e.isInt) :
    readElement P type e =
      if Fits type.helperBytes true v then .drops (.num (some (.int type.helperBytes v))) else .returns .failure := by
  have hvalid : ∀ k max min, (Fits k true v ↔ min ≤ v ∧ v ≤ max) → validInt k (toValidLong v max min) =
      if Fits k true v then .drops (.num (some (.int k v))) else .returns .failure := fun k max min h =>
    (validInt_toValidLong k v max min).trans (if_congr h.symm rfl rfl)
  cases e with
  | int32 x | int64 x =>
    obtain rfl := Option.some.inj hv
    cases type with
    | smallint =>
      unfold readElement putInt8
      exact hvalid 1 _ _ fits_one
    | tinyint =>
      unfold readElement putInt16 putInt
      exact hvalid 2 _ _ fits_two
    | integer =>
      unfold readElement putInt32 putInt
      exact hvalid 4 _ _ fits_four
    | bigint =>
      unfold readElement putInt64 putInt
      exact hvalid 8 _ _ fits_eight
    | _ => cases hn
  | _ => exact he.elim

/-- A date and a timestamp are cast; the narrowest helper does not read them. -/
theorem readElement_not_int (hn : type.integerBytes = some n) (hv : e.integer = some v) (he : ¬ e.isInt) :
    readElement P type e =
      if type = .smallint then .returns .unsupportedConversion
      else .drops (.num (some (.int type.helperBytes (castInteger type.helperBytes true v)))) := by
  have hcast : ∀ (k : Nat) (v : Int), v.bmod (2 ^ (8 * k)) = castInteger k true v := fun k v => by
    rw [castInteger, if_pos rfl, pow_mul]
    rfl
  cases e with
  | int32 x | int64 x => exact absurd trivial he
  | date x | timestamp x =>
    obtain rfl := Option.some.inj hv
    cases type with
    | smallint => rfl
    | tinyint =>
      unfold readElement putInt16 putInt
      dsimp only
      rw [hcast]
      rfl
    | integer =>
      unfold readElement putInt32 putInt
      dsimp only
      rw [hcast]
      rfl
    | bigint =>
      unfold readElement putInt64 putInt
      dsimp only
      rw [hcast]
      rfl
    | _ => cases hn
  | _ => cases hv

/-! ## What the buffer gets -/

variable {b : ApplicationDataBuffer} {p : Int}

/-- The number is in the buffer if it is in the range of the column, and else
the read fails and stores nothing. -/
def DeliversInteger (b : ApplicationDataBuffer) (p : Int) (n : Nat) (v : Int) (x : Put) : Prop :=
  if Fits n true v then x.value = .ok .success ∧ ∀ m, readInteger (b.stored x m) p 8 true = v
  else x = pure .failure

theorem delivers_failure : DeliversInteger b p n v (ColumnRead.run P b (.returns .failure)) ↔ ¬ Fits n true v := by
  unfold DeliversInteger
  split
  · next h => exact iff_of_false (fun hx => nomatch hx.1) (not_not.mpr h)
  · next h => exact iff_of_true rfl h

theorem delivers_unsupported :
    ¬ DeliversInteger b p n v (ColumnRead.run P b (.returns .unsupportedConversion)) := by
  unfold DeliversInteger
  split
  · exact fun hx => nomatch hx.1
  · exact fun hx => nomatch congrArg Eff.value hx

/-- A number put into a 64-bit integer is what is read there. -/
theorem delivers_num (hb : b.type = .signedBigint) (hp : b.getData = some p) (hapart : b.Apart 8) {k : Nat} {w : Int}
    (hw : Fits 8 true w) :
    DeliversInteger b p n v (ColumnRead.run P b (.drops (.num (some (.int k w))))) ↔ Fits n true v ∧ w = v := by
  have hinteger : b.type.integer = some (8, true) := by rw [hb]; rfl
  have hput : b.putNum P (.int k w) = b.putNumToNumBuffer (leBytes 8 w) := putNum_integer hinteger _
  have hlen : b.Apart (leBytes 8 w).length := by rwa [length_leBytes]
  have hrun : ColumnRead.run P b (.drops (.num (some (.int k w)))) = b.putNumToNumBuffer (leBytes 8 w) := by
    rw [ColumnRead.run, put, Option.elim_some, hput, putNumToNumBuffer_eq hp, bind_of_ok rfl]
    simp
  have hread : ∀ m, readInteger (b.stored (b.putNumToNumBuffer (leBytes 8 w)) m) p 8 true = w := by
    intro m
    have h := read_putNumToNumBuffer hp hlen m
    rw [length_leBytes] at h
    rw [readInteger_of_read true h, castInteger_of_fits hw]
  have hvalue : (b.putNumToNumBuffer (leBytes 8 w)).value = .ok .success := congrArg Eff.value (putNumToNumBuffer_eq hp _)
  unfold DeliversInteger
  rw [hrun]
  simp only [hread, hvalue, true_and, forall_const]
  split
  · next h => exact ⟨fun hx => ⟨h, hx⟩, fun hx => hx.2⟩
  · next h =>
    refine iff_of_false (fun hx => ?_) fun hx => h hx.1
    cases hvalue.symm.trans (congrArg Eff.value hx)

/-- The read delivers the number: it is in the range of the column or out of
that of the helper as well, and what is cast is in both. -/
def ReadsInteger (type : JdbcType) (e : BsonElement) (v : Int) : Prop :=
  match type with
  | .tinyint => Fits 1 true v ∨ e.isInt ∧ ¬ Fits 2 true v
  | .smallint => e.isInt ∧ (Fits 1 true v ∨ ¬ Fits 2 true v)
  | .integer => e.isInt ∨ Fits 4 true v
  | _ => True

/-- The numbers of elements have 64 bits. -/
theorem fits_integer (hv : e.integer = some v) : Fits 8 true v := by
  rw [fits_eight]
  cases e with
  | int32 x =>
    obtain rfl := Option.some.inj hv
    have hlow := x.le_toInt
    have hhigh := x.toInt_lt
    omega
  | int64 x | date x =>
    obtain rfl := Option.some.inj hv
    have hlow := x.le_toInt
    have hhigh := x.toInt_lt
    omega
  | timestamp x =>
    obtain rfl := Option.some.inj hv
    have hhigh := x.toNat_lt
    omega
  | _ => cases hv

/-- The width of the helper decides, with that of the column. -/
theorem readsInteger_iff (hn : type.integerBytes = some n) (hv : e.integer = some v) :
    ReadsInteger type e v ↔
      if e.isInt then Fits n true v ↔ Fits type.helperBytes true v
      else type ≠ .smallint ∧ Fits n true v ∧ Fits type.helperBytes true v := by
  have h8 := fits_integer hv
  have h12 : Fits 1 true v → Fits 2 true v := Fits.mono (by decide)
  have h48 : Fits 4 true v → Fits 8 true v := Fits.mono (by decide)
  cases type with
  | tinyint | smallint | integer | bigint =>
    obtain rfl := Option.some.inj hn
    simp only [ReadsInteger, JdbcType.helperBytes]
    split <;> simp_all <;> tauto
  | _ => cases hn

/-- **Integer columns.** The number of an element is delivered, or the read
fails, if and only if the width of the helper makes no difference for it. -/
theorem readToBuffer_integer_iff {c : DocumentDbColumn} (hn : c.type.integerBytes = some n)
    (he : c.document.find c.path = some e) (hv : e.integer = some v) (hb : b.type = .signedBigint)
    (hp : b.getData = some p) (hapart : b.Apart 8) :
    DeliversInteger b p n v (c.readToBuffer P b) ↔ ReadsInteger c.type e v := by
  have hread : c.read P = readElement P c.type e := by rw [read, he]
  rw [readToBuffer, hread, readsInteger_iff hn hv]
  by_cases hint : e.isInt
  · rw [if_pos hint, readElement_int hn hv hint]
    by_cases hfits : Fits c.type.helperBytes true v
    · rw [if_pos hfits, delivers_num hb hp hapart (fits_integer hv)]
      tauto
    · rw [if_neg hfits, delivers_failure]
      tauto
  · rw [if_neg hint, readElement_not_int hn hv hint]
    by_cases hsmall : c.type = .smallint
    · rw [if_pos hsmall]
      exact iff_of_false delivers_unsupported fun h => h.1 hsmall
    · have hpos : 0 < c.type.helperBytes := by cases c.type <;> decide
      have hle : c.type.helperBytes ≤ 8 := by cases c.type <;> decide
      rw [if_neg hsmall, delivers_num hb hp hapart ((fits_castInteger hpos true v).mono hle), castInteger_eq_self_iff hpos]
      tauto

/-- The number 5 in a column of small integers, and a date in one of integers
beyond its range. -/
theorem readToBuffer_integer_runs :
    let b : ApplicationDataBuffer := ⟨.signedBigint, some 100, 8, some 200, 0, 0, by decide⟩
    let small : DocumentDbColumn := ⟨.smallint, [(ascii "a", .int32 5)], ascii "a"⟩
    let date : DocumentDbColumn := ⟨.integer, [(ascii "a", .date 4294967296)], ascii "a"⟩
    (DeliversInteger b 100 2 5 (small.readToBuffer .unixOdbc b) ↔ ReadsInteger .smallint (.int32 5) 5) ∧
    (DeliversInteger b 100 4 4294967296 (date.readToBuffer .unixOdbc b) ↔
      ReadsInteger .integer (.date 4294967296) 4294967296) := by
  intro b small date
  have hapart : b.Apart 8 := by
    rintro p ⟨⟩ r ⟨⟩
    decide
  exact ⟨readToBuffer_integer_iff rfl rfl rfl rfl rfl hapart, readToBuffer_integer_iff rfl rfl rfl rfl rfl hapart⟩

/-- 300 is a small integer, and the read of it fails. -/
theorem readToBuffer_integer_fails :
    let b : ApplicationDataBuffer := ⟨.signedBigint, some 100, 8, some 200, 0, 0, by decide⟩
    let c : DocumentDbColumn := ⟨.smallint, [(ascii "a", .int32 300)], ascii "a"⟩
    Fits 2 true 300 ∧ ¬ DeliversInteger b 100 2 300 (c.readToBuffer .unixOdbc b) := by
  intro b c
  have hfits : Fits 2 true 300 := by decide
  refine ⟨hfits, fun h => ?_⟩
  rw [DeliversInteger, if_pos hfits] at h
  exact absurd h.1 (by decide)

/-! ## Texts -/

/-- The number if there is one in the range. -/
def inRange (size : Nat) (v : Option Int) : Option Int := v.filter fun v => Fits size true v

theorem inRange_eq_some {size : Nat} {o : Option Int} {v : Int} : inRange size o = some v ↔ o = some v ∧ Fits size true v := by
  simp [inRange, Option.filter_eq_some_iff]

theorem inRange_eq_none {size : Nat} {o : Option Int} : inRange size o = none ↔ ∀ v, o = some v → ¬ Fits size true v := by
  simp [inRange, Option.filter_eq_none_iff]

/-- A number is delivered, and none is a failure. -/
def deliver (size : Nat) (o : Option Int) : ColumnRead :=
  o.elim (.returns .failure) fun v => .drops (.num (some (.int size v)))

theorem deliver_inRange (size : Nat) (v : Int) : deliver size (inRange size (some v)) =
    if Fits size true v then .drops (.num (some (.int size v))) else .returns .failure := by
  split
  · next h =>
    rw [inRange_eq_some.mpr ⟨rfl, h⟩]
    rfl
  · next h =>
    rw [inRange_eq_none.mpr fun w hw => Option.some.inj hw ▸ h]
    rfl

/-- The columns of four and eight bytes read the literal of a text. -/
theorem readElement_text {size : Nat} {s : Str} (htype : type = .integer ∨ type = .bigint)
    (hsize : type.integerBytes = some size) (he : e = .utf8 s ∨ e = .decimal128 s) :
    readElement P type e = deliver size (inRange size (literal s)) := by
  have htext : ∀ {size : Nat} {max min : Int}, size ≤ 8 → (∀ {v}, Fits size true v ↔ min ≤ v ∧ v ≤ max) →
      validInt size (toValidLongText s max min) = deliver size (inRange size (literal s)) := by
    intro size max min hle hfits
    unfold toValidLongText
    cases hstoll : stoll s with
    | some v =>
      rw [(stoll_eq_some.mp hstoll).1, deliver_inRange]
      exact (validInt_toValidLong size v max min).trans (if_congr hfits.symm rfl rfl)
    | none =>
      rw [inRange_eq_none.mpr]
      · rfl
      · intro v hv hfit
        rw [stoll_eq_some.mpr ⟨hv, fits_eight.mp (hfit.mono hle)⟩] at hstoll
        cases hstoll
  rcases htype with rfl | rfl
  · obtain rfl := Option.some.inj hsize
    rcases he with rfl | rfl
    · unfold readElement putInt32 putInt
      exact htext (by decide) fits_four
    · unfold readElement putInt32 putInt
      exact htext (by decide) fits_four
  · obtain rfl := Option.some.inj hsize
    rcases he with rfl | rfl
    · unfold readElement putInt64 putInt
      exact htext (by decide) fits_eight
    · unfold readElement putInt64 putInt
      exact htext (by decide) fits_eight

/-- A buffer of eight bytes tells every number from every other and from a
failure. -/
theorem deliver_injective {size : Nat} {o o' : Option Int} (ho : ∀ v, o = some v → Fits 8 true v)
    (ho' : ∀ v, o' = some v → Fits 8 true v) (h : ∀ b, (deliver size o).run P b = (deliver size o').run P b) : o = o' := by
  have hb := h ⟨.signedBigint, some 0, 8, none, 0, 0, by decide⟩
  cases o with
  | none =>
    cases o' with
    | none => rfl
    | some v' => cases congrArg Eff.value hb
  | some v =>
    cases o' with
    | none => cases congrArg Eff.value hb
    | some v' =>
      have hlog : [(⟨.data, 0, leBytes 8 v⟩ : Store)] = [⟨.data, 0, leBytes 8 v'⟩] := congrArg Eff.log hb
      have hbytes := (Store.mk.inj (List.head_eq_of_cons_eq hlog)).2.2
      exact congrArg some (leBytes_injective (ho v rfl) (ho' v' rfl) hbytes)

/-- The column reads its element as it would an `int64`, and fails on a number
of more than 64 bits. -/
def ReadsAs (P : Platform) (c : DocumentDbColumn) (n : Int) : Prop :=
  ∀ b, c.readToBuffer P b =
    if Fits 8 true n then (c.update [(c.path, .int64 (.ofInt n))]).readToBuffer P b else pure .failure

/-- The column reads a text as the integer it is a numeral of, and fails on
one that is none. -/
def ReadsNumeral (P : Platform) (c : DocumentDbColumn) (s : Str) : Prop :=
  (∀ n, DecimalNumeral.Denotes s n → ReadsAs P c n) ∧
    ((∀ n, ¬ DecimalNumeral.Denotes s n) → ∀ b, c.readToBuffer P b = pure .failure)

theorem readsAs_iff {c : DocumentDbColumn} {size : Nat} {o : Option Int} (hc : c.read P = deliver size (inRange size o))
    (hsize : c.type.integerBytes = some size) (hhelper : c.type.helperBytes = size) (v : Int) :
    ReadsAs P c v ↔ inRange size o = inRange size (some v) := by
  have hle : size ≤ 8 := by rw [← hhelper]; cases c.type <;> decide
  have h8 : ∀ {o : Option Int} (w : Int), inRange size o = some w → Fits 8 true w :=
    fun w hw => (inRange_eq_some.mp hw).2.mono hle
  have hnumber : ∀ b, (if Fits 8 true v then (c.update [(c.path, .int64 (.ofInt v))]).readToBuffer P b
      else pure .failure) = (deliver size (inRange size (some v))).run P b := by
    intro b
    split
    · next hfits =>
      have hv : (Int64.ofInt v).toInt = v := by
        have := fits_eight.mp hfits
        exact Int64.toInt_ofInt_of_le (by norm_num; omega) (by norm_num; omega)
      have hread : (c.update [(c.path, .int64 (.ofInt v))]).read P = deliver size (inRange size (some v)) := by
        have hfind : Document.find [(c.path, .int64 (.ofInt v))] c.path = some (.int64 (.ofInt v)) := by
          simp [Document.find]
        rw [read, update]
        dsimp only
        rw [hfind]
        dsimp only
        have hinteger : (BsonElement.int64 (.ofInt v)).integer = some v := congrArg some hv
        rw [readElement_int hsize hinteger trivial, hhelper, deliver_inRange]
      rw [readToBuffer, hread]
    · next hfits =>
      rw [inRange_eq_none.mpr fun w hw => Option.some.inj hw ▸ fun h => hfits (h.mono hle)]
      rfl
  unfold ReadsAs readToBuffer
  rw [hc]
  constructor
  · exact fun h => deliver_injective h8 h8 fun b => (h b).trans (hnumber b)
  · intro h b
    rw [h]
    exact (hnumber b).symm

/-- The text is a plain numeral of a number in the range of the column; or it
is no numeral of one, and begins with no literal of C of one either. -/
def LiteralIsNumeral (size : Nat) (s : Str) : Prop :=
  (∃ n, DecimalNumeral.Plain s n ∧ Fits size true n) ∨
    (∀ n, DecimalNumeral.Denotes s n → ¬ Fits size true n) ∧ ∀ n, literal s = some n → ¬ Fits size true n

/-- **Texts in integer columns.** `std::stoll` with the base detected reads the
literal of C at the beginning of a text, so the column reads the text as decimal if and
only if that makes no difference in the range of the column. -/
theorem readToBuffer_numeral_iff {c : DocumentDbColumn} {size : Nat} {s : Str} (htype : c.type = .integer ∨ c.type = .bigint)
    (hsize : c.type.integerBytes = some size)
    (he : c.document.find c.path = some (.utf8 s) ∨ c.document.find c.path = some (.decimal128 s)) :
    ReadsNumeral P c s ↔ LiteralIsNumeral size s := by
  have hhelper : c.type.helperBytes = size := by
    rcases htype with h | h <;> rw [h] at hsize ⊢ <;> exact Option.some.inj hsize
  have hle : size ≤ 8 := by rw [← hhelper]; cases c.type <;> decide
  have hread : c.read P = deliver size (inRange size (literal s)) := by
    rw [read]
    rcases he with he | he
    · rw [he]
      exact readElement_text htype hsize (.inl rfl)
    · rw [he]
      exact readElement_text htype hsize (.inr rfl)
  have hfails : (∀ b, c.readToBuffer P b = pure .failure) ↔ inRange size (literal s) = none := by
    unfold readToBuffer
    rw [hread]
    constructor
    · intro h
      have hnone : ∀ v, (none : Option Int) = some v → Fits 8 true v := fun v hv => nomatch hv
      exact deliver_injective (fun v hv => (inRange_eq_some.mp hv).2.mono hle) hnone h
    · intro h b
      rw [h]
      rfl
  have hsmall : ∀ {n : Int}, Fits size true n → n.natAbs < 10 ^ 19 := fun h => by
    have := fits_eight.mp (h.mono hle)
    omega
  unfold ReadsNumeral LiteralIsNumeral
  rw [hfails]
  simp only [readsAs_iff hread hsize hhelper]
  constructor
  · rintro ⟨hnumeral, hother⟩
    by_cases hin : ∃ n, DecimalNumeral.Denotes s n ∧ Fits size true n
    · obtain ⟨n, hn, hfits⟩ := hin
      have hliteral := inRange_eq_some.mp ((hnumeral n hn).trans (inRange_eq_some.mpr ⟨rfl, hfits⟩))
      exact .inl ⟨n, (hn.literal_iff (hsmall hfits)).mp hliteral.1, hfits⟩
    · have hout : ∀ n, DecimalNumeral.Denotes s n → ¬ Fits size true n := fun n hn hfits => hin ⟨n, hn, hfits⟩
      refine .inr ⟨hout, inRange_eq_none.mp ?_⟩
      by_cases hany : ∃ n, DecimalNumeral.Denotes s n
      · obtain ⟨n, hn⟩ := hany
        exact (hnumeral n hn).trans (inRange_eq_none.mpr fun w hw => Option.some.inj hw ▸ hout n hn)
      · exact hother fun n hn => hany ⟨n, hn⟩
  · rintro (⟨n, hplain, hfits⟩ | ⟨hout, hliteral⟩)
    · have hn := hplain.denotes
      refine ⟨fun n' hn' => ?_, fun hnone => absurd hn (hnone n)⟩
      rw [hn'.unique hn, (hn.literal_iff (hsmall hfits)).mpr hplain]
    · have hnone := inRange_eq_none.mpr hliteral
      refine ⟨fun n hn => ?_, fun _ => hnone⟩
      rw [hnone, inRange_eq_none.mpr fun w hw => Option.some.inj hw ▸ hout n hn]

/-- A text and a decimal. -/
theorem readToBuffer_numeral_runs :
    let text : DocumentDbColumn := ⟨.integer, [(ascii "a", .utf8 (ascii "-7"))], ascii "a"⟩
    let decimal : DocumentDbColumn := ⟨.bigint, [(ascii "a", .decimal128 (ascii "1E+3"))], ascii "a"⟩
    (ReadsNumeral .unixOdbc text (ascii "-7") ↔ LiteralIsNumeral 4 (ascii "-7")) ∧
      (ReadsNumeral .unixOdbc decimal (ascii "1E+3") ↔ LiteralIsNumeral 8 (ascii "1E+3")) :=
  ⟨readToBuffer_numeral_iff (.inl rfl) rfl (.inl rfl), readToBuffer_numeral_iff (.inr rfl) rfl (.inr rfl)⟩

/-- `010` is ten, and is read as eight. -/
theorem readToBuffer_octal :
    let c : DocumentDbColumn := ⟨.integer, [(ascii "a", .utf8 (ascii "010"))], ascii "a"⟩
    DecimalNumeral.Denotes (ascii "010") 10 ∧ ¬ ReadsNumeral .unixOdbc c (ascii "010") := by
  intro c
  have hten : DecimalNumeral.Denotes (ascii "010") 10 := by
    refine ⟨⟨.absent, ascii "010", none, none⟩, ⟨⟨by decide, List.all_eq_true.mp (by decide)⟩, nofun, nofun⟩, nofun,
      by decide, ?_⟩
    have hdigits : Numeral.numeralValue (ascii "010") = 10 := by decide
    have hempty : Numeral.numeralValue [] = 0 := rfl
    simp [DecimalNumeral.value, DecimalNumeral.exponentValue, DecimalNumeral.fractionDigits, BigInteger.NumeralSign.factor,
      hdigits, hempty]
  refine ⟨hten, fun h => ?_⟩
  have hlog := congrArg Eff.log (h.1 10 hten ⟨.signedBigint, some 0, 8, none, 0, 0, by decide⟩)
  exact absurd hlog (by decide)

end DocumentDbColumn

end DocumentDbOdbc
