/-
What `ReadToBuffer` makes of the result of its `Put` call.

Only the columns of binary data and of type null return it
(`call_of_forwarding`); all other columns, and a missing element, return
`AI_SUCCESS` whatever the buffer says. `readToBuffer_reports_iff` says when
nothing is lost by that. `Fails`, `Warns` and `Faulty` say by the element and
the buffer what else than `AI_SUCCESS` comes of a read.
-/
import DocumentDbOdbc.Column
import DocumentDbOdbc.ApplicationDataBufferFaults

namespace DocumentDbOdbc

open Effect ApplicationDataBuffer

/-- The read returns the result of its call, if it makes one, and else says
that the element does not go into the column. -/
def ColumnRead.Forwards : ColumnRead → Prop
  | .drops _ => False
  | .returns r => r = .failure ∨ r = .unsupportedConversion
  | _ => True

/-- The read drops the result of its call, if it makes one, and else says that
the element does not go into the column. -/
def ColumnRead.Drops : ColumnRead → Prop
  | .forwards _ => False
  | .returns r => r = .failure ∨ r = .unsupportedConversion
  | _ => True

namespace DocumentDbColumn

variable {P : Platform}

/-! ## The helpers -/

theorem toValidLong_result (value max min : Int) :
    (toValidLong value max min).2 = .success ∨ (toValidLong value max min).2 = .failure := by
  unfold toValidLong
  split
  · exact .inr rfl
  split
  · exact .inr rfl
  · exact .inl rfl

theorem toValidLongText_result (value : Str) (max min : Int) :
    (toValidLongText value max min).2 = .success ∨ (toValidLongText value max min).2 = .failure := by
  unfold toValidLongText
  split
  · exact toValidLong_result _ _ _
  · exact .inr rfl

theorem validInt_drops {v : Int × ConversionResult} (h : v.2 = .success ∨ v.2 = .failure) (bytes : Nat) :
    (validInt bytes v).Drops := by
  unfold validInt ColumnRead.checked
  rcases h with h | h
  · rw [if_pos h]
    trivial
  · rw [h]
    exact .inl rfl

theorem elim_drops {α : Type} (v : Option α) (f : α → PutCall) :
    (v.elim ColumnRead.throws fun x => .drops (f x)).Drops := by
  cases v <;> trivial

/-- A failure, or a number that is dropped with the result of its call. -/
theorem ite_drops {c : Prop} [Decidable c] (call : PutCall) :
    (if c then ColumnRead.returns .failure else .drops call).Drops := by
  split
  · exact .inl rfl
  · trivial

theorem putInt8_drops (e : BsonElement) : (putInt8 P e).Drops := by
  cases e with
  | int32 v => exact validInt_drops (toValidLong_result _ _ _) 1
  | int64 v => exact validInt_drops (toValidLong_result _ _ _) 1
  | double x => exact ite_drops _
  | decimal128 s => exact validInt_drops (toValidLongText_result _ _ _) 1
  | utf8 s => exact validInt_drops (toValidLongText_result _ _ _) 1
  | bool v => trivial
  | null => trivial
  | _ => exact .inr rfl

theorem putInt_drops (bytes : Nat) (max min : Int) (e : BsonElement) : (putInt P bytes max min e).Drops := by
  cases e with
  | int32 v => exact validInt_drops (toValidLong_result _ _ _) bytes
  | int64 v => exact validInt_drops (toValidLong_result _ _ _) bytes
  | double x => exact ite_drops _
  | decimal128 s => exact validInt_drops (toValidLongText_result _ _ _) bytes
  | utf8 s => exact validInt_drops (toValidLongText_result _ _ _) bytes
  | bool v => trivial
  | date ms => trivial
  | timestamp s => trivial
  | null => trivial
  | _ => exact .inr rfl

theorem putReal_drops (ofInt : Int → Num) (ofDouble : UInt64 → Num) (ofText : Str → Option Num)
    (e : BsonElement) : (putReal ofInt ofDouble ofText e).Drops := by
  cases e with
  | int32 v => trivial
  | int64 v => trivial
  | double x => trivial
  | decimal128 s => exact elim_drops _ _
  | utf8 s => exact elim_drops _ _
  | bool v => trivial
  | date ms => trivial
  | timestamp s => trivial
  | null => trivial
  | _ => exact .inr rfl

theorem putString_drops (e : BsonElement) : (putString P e).Drops := by
  cases e with
  | date ms => exact elim_drops _ _
  | timestamp s => exact elim_drops _ _
  | other => exact .inr rfl
  | _ => trivial

theorem putBinaryData_forwards (e : BsonElement) : (putBinaryData P e).Forwards := by
  cases e with
  | utf8 s => trivial
  | binary data => trivial
  | oid bytes => trivial
  | null => trivial
  | _ => exact .inr rfl

/-! ## The column -/

/-- The element is there and the column is of a type whose read returns what
the buffer says. -/
def Forwarding (c : DocumentDbColumn) : Prop :=
  (c.document.find c.path).isSome ∧ (c.type = .null ∨ c.type = .binary ∨ c.type = .varbinary)

theorem call_of_forwarding {c : DocumentDbColumn} (h : c.Forwarding) : (c.read P).Forwards := by
  obtain ⟨he, ht⟩ := h
  obtain ⟨e, he⟩ := Option.isSome_iff_exists.mp he
  unfold read
  rw [he]
  rcases ht with ht | ht | ht
  · rw [ht]
    trivial
  · rw [ht]
    exact putBinaryData_forwards e
  · rw [ht]
    exact putBinaryData_forwards e

theorem call_of_not_forwarding {c : DocumentDbColumn} (h : ¬ c.Forwarding) : (c.read P).Drops := by
  unfold read
  cases he : c.document.find c.path with
  | none => trivial
  | some e =>
  have ht : ¬ (c.type = .null ∨ c.type = .binary ∨ c.type = .varbinary) :=
    fun ht => h ⟨Option.isSome_iff_exists.mpr ⟨e, he⟩, ht⟩
  cases hty : c.type with
  | boolean | smallint => exact putInt8_drops e
  | tinyint | integer | bigint => exact putInt_drops _ _ _ e
  | float =>
    show (putFloat P e).Drops
    exact putReal_drops _ _ _ e
  | double =>
    show (putDouble P e).Drops
    exact putReal_drops _ _ _ e
  | varchar | char | nchar | nvarchar | longvarchar | longnvarchar => exact putString_drops e
  | null => exact absurd (.inl hty) ht
  | binary => exact absurd (.inr (.inl hty)) ht
  | varbinary => exact absurd (.inr (.inr hty)) ht
  | decimal | date | timestamp | time => cases e <;> first | exact .inr rfl | trivial
  | other => exact .inr rfl

/-- What the buffer's operation returns is what `ReadToBuffer` returns. -/
def Reports (P : Platform) (c : DocumentDbColumn) (b : ApplicationDataBuffer) : Prop :=
  ∀ call, (c.read P).call? = some call → ∀ r, (b.put P call).value = .ok r →
    (c.readToBuffer P b).value = .ok r

theorem value_run_drops (b : ApplicationDataBuffer) {call : PutCall} {r : ConversionResult}
    (h : (b.put P call).value = .ok r) : ((ColumnRead.drops call).run P b).value = .ok .success := by
  rw [ColumnRead.run, value_bind, h]
  rfl

/-- The element has no value in the type of the column. -/
def Fails (P : Platform) (c : DocumentDbColumn) : Prop := c.read P = .returns .failure

/-- The element is of a type the column does not read, or the buffer has
something to say and the column passes it on. -/
def Warns (P : Platform) (c : DocumentDbColumn) (b : ApplicationDataBuffer) : Prop :=
  c.read P = .returns .unsupportedConversion ∨
    c.Forwarding ∧ ∃ call, (c.read P).call? = some call ∧ b.Lossy P call

/-- The element cannot be converted, or the buffer cannot take what it is
converted to. -/
def Faulty (P : Platform) (c : DocumentDbColumn) (b : ApplicationDataBuffer) : Prop :=
  c.read P = .throws ∨ ∃ call, (c.read P).call? = some call ∧ b.Faulty P call

/-- The faults of a read are those of its call. -/
theorem readToBuffer_faults_iff (c : DocumentDbColumn) (b : ApplicationDataBuffer) :
    Faults (c.readToBuffer P b) ↔ c.Faulty P b := by
  unfold readToBuffer Faulty
  cases c.read P with
  | returns r => simp [ColumnRead.run, ColumnRead.call?, faults_pure]
  | throws => simp [ColumnRead.run, faults_raise]
  | forwards call => simp [ColumnRead.run, ColumnRead.call?, put_faults_iff]
  | drops call =>
    simp only [ColumnRead.run, ColumnRead.call?, reduceCtorEq, false_or, Option.some.injEq, exists_eq_left',
      ← put_faults_iff]
    cases h : (b.put P call).value with
    | ok r =>
      rw [faults_bind_ok h]
      exact iff_of_false (faults_pure _) fun ⟨e, he⟩ => by cases h.symm.trans he
    | error e => exact iff_of_true (faults_bind_error h _) ⟨e, h⟩

theorem read_returns {c : DocumentDbColumn} {r : ConversionResult} (h : c.read P = .returns r) :
    r = .failure ∨ r = .unsupportedConversion := by
  by_cases hf : c.Forwarding
  · have := call_of_forwarding (P := P) hf
    rwa [h] at this
  · have := call_of_not_forwarding (P := P) hf
    rwa [h] at this

/-- A read that returns fails, warns, or has nothing to report. -/
theorem readToBuffer_value (c : DocumentDbColumn) (b : ApplicationDataBuffer) {r : ConversionResult}
    (h : (c.readToBuffer P b).value = .ok r) :
    (r = .failure ∧ c.Fails P ∧ ¬ c.Warns P b) ∨
      (isPutResult r = true ∧ r ≠ .success ∧ ¬ c.Fails P ∧ c.Warns P b) ∨
      (r = .success ∧ ¬ c.Fails P ∧ ¬ c.Warns P b) := by
  unfold readToBuffer at h
  unfold Fails Warns
  cases hread : c.read P with
  | returns r' =>
    rw [hread] at h
    obtain rfl : r' = r := Except.ok.inj h
    rcases read_returns hread with rfl | rfl
    · simp [ColumnRead.call?]
    · simp [isPutResult]
  | throws =>
    rw [hread] at h
    cases h
  | forwards call =>
    rw [hread] at h
    have hf : c.Forwarding := by
      by_contra hf
      have := call_of_not_forwarding (P := P) hf
      rw [hread] at this
      exact this
    by_cases hr : r = .success
    · have hno : ¬ b.Lossy P call := by
        rw [← put_loses_iff]
        intro ⟨r', hr', hne⟩
        exact hne (Except.ok.inj (hr'.symm.trans h) |>.trans hr)
      simp [hr, ColumnRead.call?, hno]
    · have hyes : b.Lossy P call := put_loses_iff call |>.mp ⟨r, h, hr⟩
      have hput := put_returns (P := P) (b := b) call r h
      refine .inr (.inl ⟨hput, hr, by simp, .inr ⟨hf, call, rfl, hyes⟩⟩)
  | drops call =>
    have hf : ¬ c.Forwarding := by
      intro hf
      have := call_of_forwarding (P := P) hf
      rw [hread] at this
      exact this
    rw [hread, ColumnRead.run] at h
    obtain ⟨-, -, hr⟩ := value_bind_eq_ok.mp h
    obtain rfl : ConversionResult.success = r := Except.ok.inj hr
    simp [hf]

end DocumentDbColumn

end DocumentDbOdbc
