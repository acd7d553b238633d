/-
Milliseconds before the epoch.

A BSON date counts milliseconds. `Timestamp(ms)` splits them into seconds and
a fraction by the division of C++, which rounds towards zero, so that the
fraction of a time before the epoch is not positive. `PutString`, `PutDate`,
`PutTime` and `PutTimestamp` divide on their own and round the same way; what
they deliver is the date and the time of day of one second
(`denotesSecond_ofMilliseconds`).
-/
import DocumentDbOdbc.BufferMemory
import DocumentDbOdbc.Column

namespace DocumentDbOdbc

open Effect ApplicationDataBuffer

/-! ## The objects of dates and times -/

/-- `SQL_DATE_STRUCT`. -/
structure SqlDate where
  year : Int
  month : Int
  day : Int
  deriving DecidableEq, Repr

/-- `SQL_TIME_STRUCT`. -/
structure SqlTime where
  hour : Int
  minute : Int
  second : Int
  deriving DecidableEq, Repr

/-- `SQL_TIMESTAMP_STRUCT`, but for its fraction. -/
structure SqlTimestamp where
  date : SqlDate
  time : SqlTime
  deriving DecidableEq, Repr

def SqlDate.load (m : Memory.Mem) (p : Int) : SqlDate :=
  ⟨readInteger m p 2 true, readInteger m (p + 2) 2 false, readInteger m (p + 4) 2 false⟩

def SqlTime.load (m : Memory.Mem) (p : Int) : SqlTime :=
  ⟨readInteger m p 2 false, readInteger m (p + 2) 2 false, readInteger m (p + 4) 2 false⟩

def SqlTimestamp.load (m : Memory.Mem) (p : Int) : SqlTimestamp := ⟨SqlDate.load m p, SqlTime.load m (p + 6)⟩

def Tm.sqlDate (t : Tm) : SqlDate := ⟨t.year, t.mon + 1, t.mday⟩

def Tm.sqlTime (t : Tm) : SqlTime := ⟨t.hour, t.min, t.sec⟩

def Tm.sqlTimestamp (t : Tm) : SqlTimestamp := ⟨t.sqlDate, t.sqlTime⟩

namespace ApplicationDataBuffer

variable {P : Platform} {b : ApplicationDataBuffer} {p : Int}

/-- The stores of `storeDate`. -/
def dateStores (t : Tm) : List Store :=
  [⟨.data, 0, leBytes 2 t.year⟩, ⟨.data, 2, leBytes 2 (t.mon + 1)⟩, ⟨.data, 4, leBytes 2 t.mday⟩]

/-- The stores of `storeTime`. -/
def timeStores (at_ : Nat) (t : Tm) : List Store :=
  [⟨.data, at_, leBytes 2 t.hour⟩, ⟨.data, at_ + 2, leBytes 2 t.min⟩, ⟨.data, at_ + 4, leBytes 2 t.sec⟩]

/-- The stores of `storeTimestamp`. -/
def timestampStores (t : Tm) (fraction : Int) : List Store :=
  dateStores t ++ timeStores 6 t ++ [⟨.data, 12, leBytes 4 fraction⟩]

theorem storeDate_of_getData (hp : b.getData = some p) (t : Tm) : b.storeDate t = ⟨dateStores t, .ok ()⟩ := by
  unfold storeDate
  simp only [storeData_of_getData hp]
  rfl

theorem storeTime_of_getData (hp : b.getData = some p) (at_ : Nat) (t : Tm) :
    b.storeTime at_ t = ⟨timeStores at_ t, .ok ()⟩ := by
  unfold storeTime
  simp only [storeData_of_getData hp]
  rfl

theorem storeTimestamp_of_getData (hp : b.getData = some p) (t : Tm) (fraction : Int) :
    b.storeTimestamp t fraction = ⟨timestampStores t fraction, .ok ()⟩ := by
  unfold storeTimestamp
  rw [storeDate_of_getData hp, storeTime_of_getData hp, storeData_of_getData hp]
  rfl

/-- Stores and the length, whatever the result. -/
theorem log_then_storeLen (l : List Store) (v : Int) (r : ConversionResult) :
    (do
      (⟨l, .ok ()⟩ : Eff Store Fault Unit)
      b.storeLen v
      pure r : Put).log = l ++ (b.storeLen v).log := by
  rw [bind_of_ok rfl, bind_of_ok (storeLen_value b v)]
  simp

/-- The members stored are in memory. -/
def Holds (m : Memory.Mem) (p : Int) (l : List Store) : Prop :=
  ∀ (offset size : Nat) (signed : Bool) (v : Int), ⟨.data, offset, leBytes size v⟩ ∈ l → Fits size signed v →
    readInteger m (p + offset) size signed = v

/-- What is stored and does not overlap is held, if the length is stored last. -/
theorem holds_stored {x : Put} {l : List Store} {n : Nat} {len : Int} (hp : b.getData = some p) (hapart : b.Apart n)
    (hlog : x.log = l ++ (b.storeLen len).log) (hdata : ∀ s ∈ l, s.region = .data ∧ s.offset + s.bytes.length ≤ n)
    (hdisjoint : l.Pairwise fun s t => s.offset + s.bytes.length ≤ t.offset ∨ t.offset + t.bytes.length ≤ s.offset)
    (m : Memory.Mem) : Holds (b.stored x m) p l := by
  intro offset size signed v hmem hfits
  have hread := read_field hp hapart hlog hdata hdisjoint m _ hmem
  dsimp only at hread
  rw [length_leBytes] at hread
  rw [readInteger_of_read signed hread, castInteger_of_fits hfits]

theorem fits_year (t : Tm) : Fits 2 true t.year := by
  have := t.year_range
  rw [fits_two]
  omega

/-- The members beside the year are small. -/
theorem fits_small {k : Int} (h : 0 ≤ k ∧ k < 100) : Fits 2 false k := by
  rw [Fits, if_neg (by decide)]
  omega

variable {m : Memory.Mem} {l : List Store} {t : Tm}

theorem sqlDate_of_holds (h : Holds m p l) (hl : dateStores t ⊆ l) : SqlDate.load m p = t.sqlDate := by
  obtain ⟨hmon, hmday⟩ := And.intro t.mon_lt t.mday_range
  have hyear := h 0 2 true t.year (hl (by simp [dateStores])) (fits_year t)
  have hmonth := h 2 2 false (t.mon + 1) (hl (by simp [dateStores])) (fits_small (by omega))
  have hday := h 4 2 false t.mday (hl (by simp [dateStores])) (fits_small (by omega))
  rw [Nat.cast_zero, Int.add_zero] at hyear
  rw [SqlDate.load, hyear, Tm.sqlDate, ← hmonth, ← hday]
  rfl

theorem sqlTime_of_holds {at_ : Nat} (h : Holds m p l) (hl : timeStores at_ t ⊆ l) :
    SqlTime.load m (p + at_) = t.sqlTime := by
  obtain ⟨hh, hm, hs⟩ := And.intro t.hour_lt (And.intro t.min_lt t.sec_lt)
  have hhour := h at_ 2 false t.hour (hl (by simp [timeStores])) (fits_small (by omega))
  have hmin := h (at_ + 2) 2 false t.min (hl (by simp [timeStores])) (fits_small (by omega))
  have hsec := h (at_ + 4) 2 false t.sec (hl (by simp [timeStores])) (fits_small (by omega))
  rw [Nat.cast_add, ← Int.add_assoc] at hmin hsec
  rw [SqlTime.load, hhour, Tm.sqlTime, ← hmin, ← hsec]
  rfl

/-! ## Objects put and loaded -/

/-- A time the calendar does not have is not put. -/
theorem putDate_none {ms : Int} (h : P.toGmTime (ms.tdiv 1000) = none) : b.putDate P ms = raise .exception := by
  rw [putDate, h]

theorem putTime_none {ms : Int} (h : P.toGmTime (ms.tdiv 1000) = none) : b.putTime P ms = raise .exception := by
  rw [putTime, h]

theorem putTimestamp_none {value : Timestamp} (h : P.toGmTime value.seconds = none) :
    b.putTimestamp P value = raise .exception := by
  rw [putTimestamp, h]

theorem load_putDate {ms : Int} (ht : P.toGmTime (ms.tdiv 1000) = some t) (hb : b.type = .tdate)
    (hp : b.getData = some p) (hapart : b.Apart 6) (m : Memory.Mem) :
    SqlDate.load (b.stored (b.putDate P ms) m) p = t.sqlDate := by
  have hlog : (b.putDate P ms).log = dateStores t ++ (b.storeLen 6).log := by
    rw [putDate, ht, hb]
    simp only [storeDate_of_getData hp, log_then_storeLen]
  exact sqlDate_of_holds (holds_stored hp hapart hlog (by simp [dateStores]) (by simp [dateStores]) m) (List.Subset.refl _)

theorem load_putTime {ms : Int} (ht : P.toGmTime (ms.tdiv 1000) = some t) (hb : b.type = .ttime)
    (hp : b.getData = some p) (hapart : b.Apart 6) (m : Memory.Mem) :
    SqlTime.load (b.stored (b.putTime P ms) m) p = t.sqlTime := by
  have hlog : (b.putTime P ms).log = timeStores 0 t ++ (b.storeLen 6).log := by
    rw [putTime, ht, hb]
    simp only [storeTime_of_getData hp, log_then_storeLen]
  have hheld := holds_stored hp hapart hlog (by simp [timeStores]) (by simp [timeStores]) m
  have h := sqlTime_of_holds hheld (List.Subset.refl (timeStores 0 t))
  rwa [Nat.cast_zero, Int.add_zero] at h

theorem load_putTimestamp {value : Timestamp} (ht : P.toGmTime value.seconds = some t) (hb : b.type = .ttimestamp)
    (hp : b.getData = some p) (hapart : b.Apart 16) (m : Memory.Mem) :
    SqlTimestamp.load (b.stored (b.putTimestamp P value) m) p = t.sqlTimestamp := by
  have hlog : (b.putTimestamp P value).log = timestampStores t value.fractionNs ++ (b.storeLen 16).log := by
    rw [putTimestamp, ht, hb]
    simp only [storeTimestamp_of_getData hp, log_then_storeLen]
  have hheld := holds_stored hp hapart hlog (by simp [timestampStores, dateStores, timeStores])
    (by simp [timestampStores, dateStores, timeStores]) m
  have hdate : dateStores t ⊆ timestampStores t value.fractionNs := fun s hs =>
    List.mem_append_left _ (List.mem_append_left _ hs)
  have htime : timeStores 6 t ⊆ timestampStores t value.fractionNs := fun s hs =>
    List.mem_append_left _ (List.mem_append_right _ hs)
  rw [SqlTimestamp.load, Tm.sqlTimestamp, sqlDate_of_holds hheld hdate]
  exact congrArg _ (sqlTime_of_holds hheld htime)

end ApplicationDataBuffer

/-! ## One second -/

/-- What the application loads after the read, or that the read throws. -/
def ColumnRead.Shows {α : Type} (P : Platform) (x : ColumnRead) (b : ApplicationDataBuffer) (load : Memory.Mem → α) :
    Option α → Prop
  | none => (x.run P b).value = .error .exception
  | some v => ∀ m, load (b.stored (x.run P b) m) = v

/-- The four reads of a date deliver the calendar's time of the second. -/
structure DenotesSecond (P : Platform) (ms : Int64) (s : Int) : Prop where
  string : DocumentDbColumn.putString P (.date ms) =
    (P.toGmTime s).elim .throws fun t => .drops (.string (some t.timestampText))
  date : ∀ (b : ApplicationDataBuffer) (p : Int), b.type = .tdate → b.getData = some p → b.Apart 6 →
    (DocumentDbColumn.putDate (.date ms)).Shows P b (SqlDate.load · p) ((P.toGmTime s).map Tm.sqlDate)
  time : ∀ (b : ApplicationDataBuffer) (p : Int), b.type = .ttime → b.getData = some p → b.Apart 6 →
    (DocumentDbColumn.putTime (.date ms)).Shows P b (SqlTime.load · p) ((P.toGmTime s).map Tm.sqlTime)
  timestamp : ∀ (b : ApplicationDataBuffer) (p : Int), b.type = .ttimestamp → b.getData = some p → b.Apart 16 →
    (DocumentDbColumn.putTimestamp (.date ms)).Shows P b (SqlTimestamp.load · p) ((P.toGmTime s).map Tm.sqlTimestamp)

/-- The stores of a read are those of its call. -/
theorem stored_run_drops (P : Platform) (b : ApplicationDataBuffer) (call : PutCall) :
    b.stored ((ColumnRead.drops call).run P b) = b.stored (b.put P call) := by
  have hlog : ((ColumnRead.drops call).run P b).log = (b.put P call).log := by
    show (b.put P call >>= fun _ => pure .success : Put).log = _
    cases h : (b.put P call).value with
    | ok r => rw [bind_of_ok h, log_pure, List.append_nil]
    | error e => rw [bind_of_error h]
  funext m
  rw [stored, stored, hlog]

/-- A read shows what its call puts. -/
theorem shows_drops {α : Type} {P : Platform} {b : ApplicationDataBuffer} {call : PutCall} {load : Memory.Mem → α}
    {see : Tm → α} {o : Option Tm} (hnone : o = none → b.put P call = raise .exception)
    (hsome : ∀ t, o = some t → ∀ m, load (b.stored (b.put P call) m) = see t) :
    (ColumnRead.drops call).Shows P b load (o.map see) := by
  cases o with
  | none =>
    show ((ColumnRead.drops call).run P b).value = .error .exception
    rw [ColumnRead.run, hnone rfl]
    rfl
  | some t =>
    intro m
    rw [stored_run_drops]
    exact hsome t rfl m

/-- The second is that of `Timestamp(ms)`. -/
theorem denotesSecond_ofMilliseconds (P : Platform) (ms : Int64) :
    DenotesSecond P ms (Timestamp.ofMilliseconds ms.toInt).seconds where
  string := by
    show (DocumentDbColumn.posixTimeText P (ms.toInt.tdiv 1000)).elim _ _ = _
    rw [DocumentDbColumn.posixTimeText, Option.elim_map]
    rfl
  date b p hb hp hapart := shows_drops putDate_none fun _ ht => load_putDate ht hb hp hapart
  time b p hb hp hapart := shows_drops putTime_none fun _ ht => load_putTime ht hb hp hapart
  timestamp b p hb hp hapart := shows_drops putTimestamp_none fun _ ht => load_putTimestamp ht hb hp hapart

/-! ## The fraction -/

/-- The fraction is in the range that is documented for it, and with the
seconds makes up the milliseconds. -/
def FloorsMilliseconds (ms : Int) : Prop :=
  let v := Timestamp.ofMilliseconds ms
  (0 ≤ v.fractionNs ∧ v.fractionNs < 1000000000) ∧ v.seconds * 1000 + v.fractionNs / 1000000 = ms

theorem floorsMilliseconds_iff (ms : Int) : FloorsMilliseconds ms ↔ 0 ≤ ms ∨ 1000 ∣ ms := by
  have hsum := Int.mul_tdiv_add_tmod ms 1000
  have hfrac : ms.tmod 1000 * 1000000 / 1000000 = ms.tmod 1000 := Int.mul_ediv_cancel _ (by decide)
  unfold FloorsMilliseconds Timestamp.ofMilliseconds
  dsimp only
  rw [hfrac]
  constructor
  · rintro ⟨⟨hlow, -⟩, -⟩
    by_contra hno
    have hneg : 0 ≤ (-ms).tmod 1000 := Int.tmod_nonneg 1000 (by omega)
    rw [Int.neg_tmod] at hneg
    exact hno (.inr (Int.dvd_of_tmod_eq_zero (by omega)))
  · intro h
    have hrange : 0 ≤ ms.tmod 1000 ∧ ms.tmod 1000 < 1000 := by
      rcases h with h | h
      · exact ⟨Int.tmod_nonneg _ h, Int.tmod_lt_of_pos _ (by decide)⟩
      · rw [Int.tmod_eq_zero_of_dvd h]
        decide
    omega

/-- **Milliseconds before the epoch.** All reads of a date agree on a second;
it and the fraction are those below the date if and only if the date is not
before the epoch or is a second. -/
theorem date_floor_iff (P : Platform) (ms : Int64) :
    (FloorsMilliseconds ms.toInt ∧ ∃ s, DenotesSecond P ms s) ↔ 0 ≤ ms.toInt ∨ 1000 ∣ ms.toInt :=
  (and_iff_left ⟨_, denotesSecond_ofMilliseconds P ms⟩).trans (floorsMilliseconds_iff ms.toInt)

/-- A millisecond before the epoch is second 0 and a fraction of -1000000. -/
theorem date_before_epoch : ¬ (FloorsMilliseconds (-1 : Int64).toInt ∧ ∃ s, DenotesSecond .unixOdbc (-1) s) := by
  rintro ⟨⟨⟨hlow, -⟩, -⟩, -⟩
  exact absurd hlow (by decide)

end DocumentDbOdbc
