/-
The slots of a bound column, and the writes of a row to them.

Row `i` of a rowset has a slot of the data and one of the indicator of each
bound column. A read stores into the slots of its row and column only
(`written_readDocument_nil`), and the same bytes whatever the row is
(`written_readDocument_shift`); so does the fetch of a document.
-/
import DocumentDbOdbc.StatementFacts

namespace DocumentDbOdbc

open Effect

namespace ApplicationDataBuffer

/-- The address of the slot of row `i`. -/
def slot (b : ApplicationDataBuffer) (region : Region) (i : Nat) : Option Int :=
  match region with
  | .data => { b with elementOffset := i }.getData
  | .indicator => { b with elementOffset := i }.getResLen

/-- The bytes of a slot. -/
def slotSize (b : ApplicationDataBuffer) : Region → Nat
  | .data => b.extent
  | .indicator => 8

/-- The address is in the slot of row `i`. -/
def InSlot (b : ApplicationDataBuffer) (region : Region) (i : Nat) (a : Int) : Prop :=
  ∃ p, b.slot region i = some p ∧ p ≤ a ∧ a < p + b.slotSize region

/-- The bytes from one slot to the next. -/
def stride (b : ApplicationDataBuffer) : Region → Int
  | .data => b.getElementSize
  | .indicator => 8

variable {b : ApplicationDataBuffer}

theorem slot_eq (b : ApplicationDataBuffer) (region : Region) (i : Nat) :
    b.slot region i = (b.slot region 0).map (· + b.stride region * i) := by
  cases region with
  | data =>
    show (b.buffer.map (· + (b.byteOffset + b.getElementSize * i))) =
      (b.buffer.map (· + (b.byteOffset + b.getElementSize * (0 : Nat)))).map (· + b.getElementSize * i)
    cases b.buffer with
    | none => rfl
    | some p =>
      simp only [Option.map_some, Option.some.injEq]
      omega
  | indicator =>
    show (b.reslen.map (· + (b.byteOffset + 8 * i))) =
      (b.reslen.map (· + (b.byteOffset + 8 * (0 : Nat)))).map (· + 8 * (i : Int))
    cases b.reslen with
    | none => rfl
    | some p =>
      simp only [Option.map_some, Option.some.injEq]
      omega

theorem resolve_slot (b : ApplicationDataBuffer) (i : Nat) (s : Store) :
    { b with elementOffset := i }.resolve s = (b.slot s.region i).map fun p => ⟨p + s.offset, s.bytes⟩ := by
  unfold resolve slot
  cases s.region <;> rfl

/-- The byte a store of row `i` leaves at an address. -/
def storedAt (b : ApplicationDataBuffer) (i : Nat) (s : Store) (a : Int) : Option UInt8 :=
  ({ b with elementOffset := i }.resolve s).bind (·.byteAt a)

/-- A store within bounds leaves nothing outside its slot. -/
theorem storedAt_eq_none {i : Nat} {s : Store} {a : Int} (hs : s.Within b.extent)
    (ha : ¬ b.InSlot s.region i a) : b.storedAt i s a = none := by
  unfold storedAt
  rw [resolve_slot]
  cases hp : b.slot s.region i with
  | none => rfl
  | some p =>
    have hsize : s.offset + s.bytes.length ≤ b.slotSize s.region := by
      unfold Store.Within at hs
      unfold slotSize
      cases hr : s.region with
      | data => simpa [hr] using hs
      | indicator => simpa [hr] using hs
    show Memory.Write.byteAt ⟨p + s.offset, s.bytes⟩ a = none
    rw [Memory.byteAt_eq_none]
    intro hc
    simp only [Memory.Write.Covers] at hc
    exact ha ⟨p, hp, by omega, by omega⟩

/-- The same byte at the same place of every row. -/
theorem storedAt_shift (b : ApplicationDataBuffer) (i : Nat) (s : Store) (a : Int) :
    b.storedAt i s (a + b.stride s.region * i) = b.storedAt 0 s a := by
  unfold storedAt
  rw [resolve_slot, resolve_slot, slot_eq b s.region i]
  cases b.slot s.region 0 with
  | none => rfl
  | some p =>
    have hw : (⟨p + b.stride s.region * i + s.offset, s.bytes⟩ : Memory.Write) =
        Memory.Write.shift (b.stride s.region * i) ⟨p + s.offset, s.bytes⟩ := by
      simp only [Memory.Write.shift, Memory.Write.mk.injEq, and_true]
      omega
    show Memory.Write.byteAt ⟨p + b.stride s.region * i + s.offset, s.bytes⟩ _ = Memory.Write.byteAt _ a
    rw [hw, Memory.byteAt_shift]

/-- A slot is as long as the distance to the next, for all types but the
default. -/
theorem slotSize_eq_stride (h0 : 0 ≤ b.buflen) {region : Region} (h : region = .data → b.type ≠ .default) :
    (b.slotSize region : Int) = b.stride region := by
  cases region with
  | indicator => rfl
  | data =>
    have hne := h rfl
    unfold slotSize stride extent getElementSize
    dsimp only
    cases ht : b.type with
    | default => exact absurd ht hne
    | char | wchar | binary => exact Int.toNat_of_nonneg h0
    | _ => rfl

/-- The slots of two rows do not overlap. -/
theorem InSlot.row_unique {region : Region} {i j : Nat} {a : Int} (h0 : 0 ≤ b.buflen)
    (h : region = .data → b.type ≠ .default) (hi : b.InSlot region i a) (hj : b.InSlot region j a) : i = j := by
  have hsize := slotSize_eq_stride h0 h
  have hpos : 0 ≤ b.stride region := by omega
  -- the slot of an earlier row ends before that of a later one starts
  have key : ∀ {i j : Nat}, i < j → b.InSlot region i a → ¬ b.InSlot region j a := by
    intro i j hij ⟨p, hp, _, hlt⟩ ⟨q, hq, hle, _⟩
    rw [slot_eq] at hp hq
    obtain ⟨p₀, hp₀, rfl⟩ := Option.map_eq_some_iff.mp hp
    obtain ⟨q₀, hq₀, rfl⟩ := Option.map_eq_some_iff.mp hq
    obtain rfl : p₀ = q₀ := Option.some.inj (hp₀.symm.trans hq₀)
    have hmul : b.stride region * (i + 1 : Int) ≤ b.stride region * j :=
      Int.mul_le_mul_of_nonneg_left (by omega) hpos
    rw [Int.mul_add, Int.mul_one] at hmul
    omega
  rcases Nat.lt_trichotomy i j with hlt | heq | hgt
  · exact absurd hj (key hlt hi)
  · exact heq
  · exact absurd hi (key hgt hj)

end ApplicationDataBuffer

/-! ## The writes of an action -/

def writesIn {α : Type} (x : Action α) : List Memory.Write := x.log.filterMap Event.write?

section

variable {α β : Type}

theorem writesIn_bind_ok {x : Action α} {a : α} (h : x.value = .ok a) (f : α → Action β) :
    writesIn (x >>= f) = writesIn x ++ writesIn (f a) := by
  rw [writesIn, bind_of_ok h, List.filterMap_append]
  rfl

theorem writesIn_bind_error {x : Action α} {e : Fault} (h : x.value = .error e) (f : α → Action β) :
    writesIn (x >>= f) = writesIn x := by
  rw [writesIn, bind_of_error h]
  rfl

@[simp] theorem writesIn_pure (a : α) : writesIn (pure a) = [] := rfl

/-- Writes, then something that writes nothing. -/
theorem writesIn_bind_silent (x : Action α) {f : α → Action β} (hf : ∀ a, writesIn (f a) = []) :
    writesIn (x >>= f) = writesIn x := by
  cases h : x.value with
  | ok a => rw [writesIn_bind_ok h, hf, List.append_nil]
  | error e => exact writesIn_bind_error h f

end

theorem writesIn_processConversionResult (r : ConversionResult) (rowIdx columnIdx : Int) :
    writesIn (DataQuery.processConversionResult r rowIdx columnIdx) = [] := by
  cases r <;> rfl

theorem writesIn_writesOf (b : ApplicationDataBuffer) (x : Put) :
    writesIn (b.writesOf x) = x.log.filterMap b.resolve := by
  show (x.log.filterMap fun s => (b.resolve s).map Event.write).filterMap Event.write? = _
  rw [List.filterMap_filterMap]
  congr 1
  funext s
  cases b.resolve s <;> rfl

namespace DataQuery

variable {P : Platform} {result : ResultColumns} {b : ApplicationDataBuffer} {d : Document}

/-- What a read leaves at an address, store by store. -/
theorem written_readDocument (d : Document) (i : Nat) (b : ApplicationDataBuffer) (row : Nat) (a : Int) :
    Memory.written (writesIn (readDocument P result d i { b with elementOffset := row })) a =
      (result.read P d i b).log.filterMap fun s => b.storedAt row s a := by
  unfold readDocument
  rw [writesIn_bind_silent _ fun r => writesIn_processConversionResult r 0 i, writesIn_writesOf,
    Memory.written, List.filterMap_filterMap]
  rfl

/-- Nothing outside the slots of the row. -/
theorem written_readDocument_nil {i row : Nat} {a : Int}
    (hwithin : All (Store.Within b.extent) (result.read P d i b)) (ha : ∀ region, ¬ b.InSlot region row a) :
    Memory.written (writesIn (readDocument P result d i { b with elementOffset := row })) a = [] := by
  rw [written_readDocument, List.filterMap_eq_nil_iff]
  intro s hs
  exact ApplicationDataBuffer.storedAt_eq_none (hwithin s hs) (ha s.region)

/-- The same in the slot of a row as in that of the first row, where the other
slot of the column is elsewhere. -/
theorem written_readDocument_shift {i row : Nat} {a : Int} {region : Region}
    (hwithin : All (Store.Within b.extent) (result.read P d i b))
    (ha : ∀ r, r ≠ region → ¬ b.InSlot r row (a + b.stride region * row) ∧ ¬ b.InSlot r 0 a) :
    Memory.written (writesIn (readDocument P result d i { b with elementOffset := row }))
        (a + b.stride region * row) =
      Memory.written (writesIn (readDocument P result d i { b with elementOffset := 0 })) a := by
  rw [written_readDocument, written_readDocument]
  refine List.filterMap_congr fun s hs => ?_
  by_cases hr : s.region = region
  · rw [← hr]
    exact b.storedAt_shift row s a
  · obtain ⟨hrow, hfirst⟩ := ha s.region hr
    rw [ApplicationDataBuffer.storedAt_eq_none (hwithin s hs) hrow,
      ApplicationDataBuffer.storedAt_eq_none (hwithin s hs) hfirst]

/-- The offset of a row does not change the result of a read. -/
theorem readDocument_value_row (d : Document) (i : Nat) (b : ApplicationDataBuffer) (row : Nat) :
    (readDocument P result d i { b with elementOffset := row }).value = (readDocument P result d i b).value := by
  rw [readDocument_value, readDocument_value]
  rfl

/-! ## The writes of a row -/

variable {columnBindings : ColumnBindingMap}

theorem setElementOffset_apply (columnBindings : ColumnBindingMap) (row : Nat) (k : UInt16) :
    columnBindings.setElementOffset row k = (columnBindings k).map fun b => { b with elementOffset := row } :=
  rfl

theorem fetchDocument_value_row (d : Document) (row : Nat) (is : List Nat) :
    (fetchDocument P result (columnBindings.setElementOffset row) d is).value =
      (fetchDocument P result columnBindings d is).value := by
  induction is with
  | nil => rfl
  | cons i is ih =>
    cases hb : columnBindings (UInt16.ofNat i) with
    | none =>
      rw [fetchDocument_cons_none (by rw [setElementOffset_apply, hb]; rfl), fetchDocument_cons_none hb, ih]
    | some b =>
      rw [fetchDocument_cons_some (by rw [setElementOffset_apply, hb]; rfl), fetchDocument_cons_some hb,
        value_bind, value_bind, readDocument_value_row]
      congr 1
      funext r
      split
      · rfl
      · exact ih

/-- Nothing where no column of the row writes. -/
theorem written_fetchDocument_nil {row : Nat} {a : Int} (is : List Nat)
    (h : ∀ i ∈ is, ∀ b, columnBindings (UInt16.ofNat i) = some b →
      Memory.written (writesIn (readDocument P result d i { b with elementOffset := row })) a = []) :
    Memory.written (writesIn (fetchDocument P result (columnBindings.setElementOffset row) d is)) a = [] := by
  induction is with
  | nil => rfl
  | cons i is ih =>
    have ih := ih fun j hj => h j (List.mem_cons_of_mem i hj)
    cases hb : columnBindings (UInt16.ofNat i) with
    | none => rwa [fetchDocument_cons_none (by rw [setElementOffset_apply, hb]; rfl)]
    | some b =>
      have hcol := h i (List.mem_cons_self ..) b hb
      rw [fetchDocument_cons_some (by rw [setElementOffset_apply, hb]; rfl)]
      cases hv : (readDocument P result d i { b with elementOffset := row }).value with
      | error e => rwa [writesIn_bind_error hv]
      | ok r =>
        rw [writesIn_bind_ok hv, Memory.written_append, hcol, List.nil_append]
        split
        · rfl
        · exact ih

/-- The same in two rows at two addresses, where every column writes the same
there. -/
theorem written_fetchDocument_congr {row row' : Nat} {a a' : Int} (is : List Nat)
    (h : ∀ i ∈ is, ∀ b, columnBindings (UInt16.ofNat i) = some b →
      Memory.written (writesIn (readDocument P result d i { b with elementOffset := row })) a =
        Memory.written (writesIn (readDocument P result d i { b with elementOffset := row' })) a') :
    Memory.written (writesIn (fetchDocument P result (columnBindings.setElementOffset row) d is)) a =
      Memory.written (writesIn (fetchDocument P result (columnBindings.setElementOffset row') d is)) a' := by
  induction is with
  | nil => rfl
  | cons i is ih =>
    have ih := ih fun j hj => h j (List.mem_cons_of_mem i hj)
    cases hb : columnBindings (UInt16.ofNat i) with
    | none =>
      rwa [fetchDocument_cons_none (by rw [setElementOffset_apply, hb]; rfl),
        fetchDocument_cons_none (by rw [setElementOffset_apply, hb]; rfl)]
    | some b =>
      have hcol := h i (List.mem_cons_self ..) b hb
      have hsame : (readDocument P result d i { b with elementOffset := row }).value =
          (readDocument P result d i { b with elementOffset := row' }).value :=
        (readDocument_value_row d i b row).trans (readDocument_value_row d i b row').symm
      rw [fetchDocument_cons_some (by rw [setElementOffset_apply, hb]; rfl),
        fetchDocument_cons_some (by rw [setElementOffset_apply, hb]; rfl)]
      cases hv : (readDocument P result d i { b with elementOffset := row }).value with
      | error e => rwa [writesIn_bind_error hv, writesIn_bind_error (hsame.symm.trans hv)]
      | ok r =>
        rw [writesIn_bind_ok hv, writesIn_bind_ok (hsame.symm.trans hv), Memory.written_append,
          Memory.written_append, hcol]
        congr 1
        split
        · rfl
        · exact ih

end DataQuery

end DocumentDbOdbc
