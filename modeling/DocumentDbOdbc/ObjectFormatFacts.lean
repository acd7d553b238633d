/-
What an object's writer leaves in memory, and what its readers find there.

`Stored` is the layout: a header, the values, the raw data, and a footer of ids
and offsets with the raw offset behind it. `stored_of_writeTopObject` gives it
of the writer, which fills the header in afterwards.
-/
import DocumentDbOdbc.ObjectFormat

namespace DocumentDbOdbc

open Interop Outcome Slice

namespace Binary

/-! ## What is written -/

/-- The bytes of a write of the raw mode. -/
def Write.rawBytes : Write → List UInt8
  | .raw value => value
  | _ => []

/-- The fields, in the order they are written in. -/
def fieldWrites : List Write → List (Int32 × List UInt8)
  | [] => []
  | .field fieldId value :: rest => (fieldId, value) :: fieldWrites rest
  | _ :: rest => fieldWrites rest

/-- The raw data, of an object that has a raw part. -/
def rawWrites : List Write → Option (List UInt8)
  | [] => none
  | .setRawMode :: rest => some (rest.flatMap Write.rawBytes)
  | _ :: rest => rawWrites rest

/-- The ids and offsets of fields that are written from an offset on. -/
def fieldInfos : Nat → List (Int32 × List UInt8) → List BinarySchemaFieldInfo
  | _, [] => []
  | off, (fieldId, value) :: rest => ⟨fieldId, Int32.ofNat off⟩ :: fieldInfos (off + value.length) rest

def fieldBytes (fields : List (Int32 × List UInt8)) : List UInt8 := fields.flatMap (·.2)

namespace ObjectWriter

theorem rawPos_of_checkRawMode {w : ObjectWriter} {expected : Bool} {u : Unit} (h : w.checkRawMode expected = .ok u) :
    (w.rawPos != -1) = expected := by
  unfold checkRawMode at h
  dsimp only at h
  split at h
  · cases h
  · next hraw =>
    split at h
    · cases h
    · next hnamed => cases expected <;> simp_all

/-- What a write does, and in which mode. -/
theorem perform_ok {w w' : ObjectWriter} {write : Write} (h : w.perform write = .ok w') :
    match write with
    | .field fieldId value => w.rawPos = -1 ∧ w' = (w.writeFieldId fieldId).put value
    | .setRawMode => w.rawPos = -1 ∧ w' = { w with rawPos := w.stream.length }
    | .raw value => w.rawPos ≠ -1 ∧ w' = w.put value := by
  cases write with
  | field fieldId value =>
    obtain ⟨u, hcheck, h⟩ := bind_eq_ok.mp h
    exact ⟨by simpa using rawPos_of_checkRawMode hcheck, (Except.ok.inj h).symm⟩
  | setRawMode =>
    obtain ⟨u, hcheck, h⟩ := bind_eq_ok.mp h
    exact ⟨by simpa using rawPos_of_checkRawMode hcheck, (Except.ok.inj h).symm⟩
  | raw value =>
    obtain ⟨u, hcheck, h⟩ := bind_eq_ok.mp h
    exact ⟨by simpa using rawPos_of_checkRawMode hcheck, (Except.ok.inj h).symm⟩

theorem fieldsInfo_addField (schema : BinarySchema) (fieldId offset : Int32) :
    (schema.addField fieldId offset).fieldsInfo = schema.fieldsInfo ++ [⟨fieldId, offset⟩] := rfl

/-- In raw mode only raw writes go through. -/
theorem performAll_raw : ∀ {writes : List Write} {w w' : ObjectWriter}, w.rawPos ≠ -1 →
    writes.foldlM perform w = .ok w' →
      w' = { w with stream := w.stream ++ writes.flatMap Write.rawBytes } ∧ fieldWrites writes = []
  | [], w, w', _, h => by
    cases h
    simp [fieldWrites]
  | write :: rest, w, w', hraw, h => by
    rw [List.foldlM_cons] at h
    obtain ⟨w₁, hfirst, h⟩ := bind_eq_ok.mp h
    have hfirst := perform_ok hfirst
    cases write with
    | field fieldId value => exact absurd hfirst.1 hraw
    | setRawMode => exact absurd hfirst.1 hraw
    | raw value =>
      obtain ⟨-, rfl⟩ := hfirst
      obtain ⟨hw, hfields⟩ := performAll_raw (w := w.put value) hraw h
      refine ⟨?_, hfields⟩
      rw [hw]
      simp [put, Write.rawBytes]

/-- Before, the fields are noted in the schema with their offsets. -/
theorem performAll_named : ∀ {writes : List Write} {w w' : ObjectWriter}, w.rawPos = -1 → w.start ≤ w.stream.length →
    writes.foldlM perform w = .ok w' →
      w'.start = w.start ∧ w'.stream = w.stream ++ fieldBytes (fieldWrites writes) ++ (rawWrites writes).getD [] ∧
        w'.schema.fieldsInfo = w.schema.fieldsInfo ++ fieldInfos (w.stream.length - w.start) (fieldWrites writes) ∧
        w'.rawPos = if (rawWrites writes).isSome then (w.stream.length + (fieldBytes (fieldWrites writes)).length : Int) else -1
  | [], w, w', hraw, _, h => by
    cases h
    simp [fieldWrites, rawWrites, fieldBytes, fieldInfos, hraw]
  | write :: rest, w, w', hraw, hstart, h => by
    rw [List.foldlM_cons] at h
    obtain ⟨w₁, hfirst, h⟩ := bind_eq_ok.mp h
    have hfirst := perform_ok hfirst
    cases write with
    | field fieldId value =>
      obtain ⟨-, rfl⟩ := hfirst
      have hlength : ((w.writeFieldId fieldId).put value).stream.length = w.stream.length + value.length :=
        List.length_append
      obtain ⟨hs, hstream, hinfo, hpos⟩ := performAll_named (w := (w.writeFieldId fieldId).put value) hraw
        (by rw [hlength]; exact hstart.trans (Nat.le_add_right _ _)) h
      rw [hlength] at hinfo hpos
      refine ⟨hs, ?_, ?_, ?_⟩
      · rw [hstream]
        simp [put, writeFieldId, fieldWrites, rawWrites, fieldBytes]
      · have hoff : w.stream.length + value.length - w.start = w.stream.length - w.start + value.length := by omega
        rw [hinfo]
        change (w.schema.addField fieldId _).fieldsInfo ++ fieldInfos (w.stream.length + value.length - w.start) _ = _
        rw [hoff, fieldsInfo_addField]
        simp [fieldWrites, fieldInfos]
      · rw [hpos]
        simp only [fieldWrites, rawWrites, fieldBytes, List.length_append, List.flatMap_cons]
        push_cast
        rw [add_assoc]
    | setRawMode =>
      obtain ⟨-, rfl⟩ := hfirst
      obtain ⟨rfl, hfields⟩ := performAll_raw (w := { w with rawPos := w.stream.length }) (by simp) h
      simp [fieldWrites, hfields, rawWrites, fieldBytes, fieldInfos]
    | raw value => exact absurd hraw hfirst.1

end ObjectWriter

/-! ## The layout -/

/-- What an object is made of. -/
structure Content where
  fields : List (Int32 × List UInt8)
  raw : Option (List UInt8)

namespace Content

variable (c : Content)

def body : List UInt8 := fieldBytes c.fields

def rawBytes : List UInt8 := c.raw.getD []

def schema : BinarySchema := ⟨fieldInfos BinaryObjectHeader.size c.fields⟩

def hasSchema : Bool := !c.fields.isEmpty

/-- Where the raw data begins, from the object on. -/
def rawStart : Nat := BinaryObjectHeader.size + c.body.length

/-- Where the data ends and the footer begins. -/
def dataEnd : Nat := c.rawStart + c.rawBytes.length

/-- The entries of the fields, and the raw offset behind them. -/
def footer : List UInt8 :=
  if c.hasSchema then c.schema.write ++ if c.raw.isSome then leBytes 4 c.rawStart else [] else []

def len : Nat := c.dataEnd + c.footer.length

def flags : Int16 :=
  let flags := if c.raw.isSome then binaryFlagUserType ||| binaryFlagHasRaw else binaryFlagUserType
  if c.hasSchema then
    let flags := flags ||| binaryFlagHasSchema
    match c.schema.getType with
    | .oneByte => flags ||| binaryFlagOffsetOneByte
    | .twoBytes => flags ||| binaryFlagOffsetTwoBytes
    | .fourBytes => flags
  else flags

def schemaOrRawOff : Nat := if c.hasSchema then c.dataEnd else if c.raw.isSome then c.rawStart else c.dataEnd

end Content

/-- An object of this content lies in the memory at `start`. -/
structure Stored (mem : List UInt8) (start : Nat) (typeId hashCode : Int32) (c : Content) : Prop where
  le : start + c.len ≤ mem.length
  magic : Holds mem start [documentdbTypeObject, documentdbProtoVer]
  flags : Holds mem (start + 2) (leBytes 2 c.flags.toInt)
  typeId : Holds mem (start + 4) (leBytes 4 typeId.toInt)
  hashCode : Holds mem (start + 8) (leBytes 4 hashCode.toInt)
  len : Holds mem (start + 12) (leBytes 4 c.len)
  schemaId : Holds mem (start + 16) (leBytes 4 c.schema.id.toInt)
  schemaOrRawOff : Holds mem (start + 20) (leBytes 4 c.schemaOrRawOff)
  data : Holds mem (start + 24) (c.body ++ c.rawBytes)
  footer : Holds mem (start + c.dataEnd) c.footer

/-! ## The header -/

/-- The four writes into the header that `PostWrite` ends with. -/
theorem holds_fillHeader {m b₂ b₁₂ b₁₆ b₂₀ : List UInt8} {s : Nat} (hin : s + 24 ≤ m.length) (h₂ : b₂.length = 2)
    (h₁₂ : b₁₂.length = 4) (h₁₆ : b₁₆.length = 4) (h₂₀ : b₂₀.length = 4) :
    ∃ m', m' = patch (patch (patch (patch m (s + 2) b₂) (s + 12) b₁₂) (s + 16) b₁₆) (s + 20) b₂₀ ∧
      m'.length = m.length ∧ Holds m' (s + 2) b₂ ∧ Holds m' (s + 12) b₁₂ ∧ Holds m' (s + 16) b₁₆ ∧ Holds m' (s + 20) b₂₀ ∧
      ∀ pos l, Holds m pos l → (pos + l.length ≤ s + 2 ∨ s + 4 ≤ pos ∧ pos + l.length ≤ s + 12 ∨ s + 24 ≤ pos) →
        Holds m' pos l := by
  have hlen₁ : (patch m (s + 2) b₂).length = m.length := length_patch (by omega)
  have hlen₂ : (patch (patch m (s + 2) b₂) (s + 12) b₁₂).length = m.length := by rw [length_patch (by omega), hlen₁]
  have hlen₃ : (patch (patch (patch m (s + 2) b₂) (s + 12) b₁₂) (s + 16) b₁₆).length = m.length := by
    rw [length_patch (by omega), hlen₂]
  refine ⟨_, rfl, ?_, ?_, ?_, ?_, ?_, fun pos l h hapart => ?_⟩
  · rw [length_patch (by omega), hlen₃]
  · exact (((holds_patch_self (by omega)).patch (by omega) (by omega)).patch (by omega) (by omega)).patch (by omega) (by omega)
  · exact ((holds_patch_self (by omega)).patch (by omega) (by omega)).patch (by omega) (by omega)
  · exact (holds_patch_self (by omega)).patch (by omega) (by omega)
  · exact holds_patch_self (by omega)
  · exact (((h.patch (by omega) (by omega)).patch (by omega) (by omega)).patch (by omega) (by omega)).patch (by omega) (by omega)

theorem Content.rawStart_pos (c : Content) : 0 < c.rawStart :=
  Nat.lt_of_lt_of_le (by decide) (Nat.le_add_right BinaryObjectHeader.size _)

/-- `PostWrite` in terms of the content: what is put behind the data, and what
goes into the header. -/
theorem stream_postWrite {w : ObjectWriter} {c : Content} (hlength : w.stream.length = w.start + c.dataEnd)
    (hschema : w.schema = c.schema) (hraw : w.rawPos = if c.raw.isSome then (w.start + c.rawStart : Int) else -1) :
    w.postWrite.stream =
      patch (patch (patch (patch (w.stream ++ c.footer) (w.start + 2) (leBytes 2 c.flags.toInt)) (w.start + 12)
        (leBytes 4 c.len)) (w.start + 16) (leBytes 4 c.schema.id.toInt)) (w.start + 20) (leBytes 4 c.schemaOrRawOff) := by
  have hpos : w.rawPos > 0 ↔ c.raw.isSome = true := by
    have hrawStart := c.rawStart_pos
    rw [hraw]
    split
    · next h => exact iff_of_true (by omega) h
    · next h => exact iff_of_false (by omega) h
  have hhas : w.hasSchema = c.hasSchema := by
    rw [ObjectWriter.hasSchema, hschema, Content.hasSchema, Content.schema]
    cases c.fields <;> rfl
  have hdata : w.stream.length - w.start = c.dataEnd := by omega
  unfold ObjectWriter.postWrite
  dsimp only
  rw [hhas, hdata]
  cases hs : c.hasSchema with
  | true =>
    have hlen : ((w.stream ++ c.footer).length : Int) - w.start = c.len := by
      rw [List.length_append, hlength, Content.len]
      push_cast
      omega
    have hoff : c.schemaOrRawOff = c.dataEnd := by rw [Content.schemaOrRawOff, hs, if_pos rfl]
    rw [if_pos rfl, hoff]
    cases hr : c.raw.isSome with
    | true =>
      have hfooter : c.schema.write ++ leBytes 4 c.rawStart = c.footer := by
        rw [Content.footer, hs, hr]
        rfl
      have hflags : c.flags = match c.schema.getType with
          | .oneByte => binaryFlagUserType ||| binaryFlagHasRaw ||| binaryFlagHasSchema ||| binaryFlagOffsetOneByte
          | .twoBytes => binaryFlagUserType ||| binaryFlagHasRaw ||| binaryFlagHasSchema ||| binaryFlagOffsetTwoBytes
          | .fourBytes => binaryFlagUserType ||| binaryFlagHasRaw ||| binaryFlagHasSchema := by
        rw [Content.flags, hs, hr]
        rfl
      have hrawOff : w.rawPos - w.start = c.rawStart := by
        rw [hraw, hr, if_pos rfl]
        omega
      rw [if_pos (hpos.mpr hr), if_pos (hpos.mpr hr), hschema, hrawOff]
      simp only [ObjectWriter.put, ObjectWriter.patch, List.append_assoc, hfooter, hlen]
      exact hflags ▸ rfl
    | false =>
      have hfooter : c.schema.write = c.footer := by
        rw [Content.footer, hs, hr]
        exact (List.append_nil _).symm
      have hflags : c.flags = match c.schema.getType with
          | .oneByte => binaryFlagUserType ||| binaryFlagHasSchema ||| binaryFlagOffsetOneByte
          | .twoBytes => binaryFlagUserType ||| binaryFlagHasSchema ||| binaryFlagOffsetTwoBytes
          | .fourBytes => binaryFlagUserType ||| binaryFlagHasSchema := by
        rw [Content.flags, hs, hr]
        rfl
      have hnone : ¬w.rawPos > 0 := fun h => by
        rw [hr] at hpos
        cases hpos.mp h
      rw [if_neg hnone, if_neg hnone, hschema]
      simp only [ObjectWriter.put, ObjectWriter.patch, hfooter, hlen]
      exact hflags ▸ rfl
  | false =>
    have hfooter : c.footer = [] := by rw [Content.footer, hs, if_neg Bool.false_ne_true]
    have hlen : c.len = c.dataEnd := by rw [Content.len, hfooter, List.length_nil, Nat.add_zero]
    have hid : c.schema.id = 0 := by
      have hnil : c.fields = [] := by simpa [Content.hasSchema] using hs
      rw [Content.schema, hnil]
      rfl
    have hoff : w.getRawPosition - w.start = c.schemaOrRawOff := by
      rw [ObjectWriter.getRawPosition, Content.schemaOrRawOff, hs, if_neg Bool.false_ne_true, hraw]
      have hrawStart := c.rawStart_pos
      cases hr : c.raw.isSome with
      | true =>
        rw [if_pos rfl, if_neg (by omega), if_pos rfl]
        omega
      | false =>
        rw [if_neg Bool.false_ne_true, if_pos rfl, if_neg Bool.false_ne_true, hlength]
        push_cast
        omega
    have hflags : c.flags = if w.rawPos > 0 then binaryFlagUserType ||| binaryFlagHasRaw else binaryFlagUserType := by
      rw [Content.flags, hs, if_neg Bool.false_ne_true]
      exact if_congr hpos.symm rfl rfl
    rw [if_neg Bool.false_ne_true, hoff, hfooter, List.append_nil, hlen, hid, hflags]
    rfl

/-- What each flag says of the content. -/
theorem Content.hasFlag_flags (c : Content) : hasFlag c.flags binaryFlagUserType = true ∧
    hasFlag c.flags binaryFlagHasSchema = c.hasSchema ∧ hasFlag c.flags binaryFlagHasRaw = c.raw.isSome ∧
    hasFlag c.flags binaryFlagOffsetOneByte = (c.hasSchema && c.schema.getType == .oneByte) ∧
    hasFlag c.flags binaryFlagOffsetTwoBytes = (c.hasSchema && c.schema.getType == .twoBytes) ∧
    hasFlag c.flags binaryFlagCompactFooter = false := by
  unfold Content.flags
  cases c.raw.isSome <;> cases c.hasSchema <;> cases c.schema.getType <;> decide

theorem Content.footerOffset (c : Content) : (if c.hasSchema then c.schemaOrRawOff else c.len) = c.dataEnd := by
  unfold Content.schemaOrRawOff Content.len Content.footer
  cases c.hasSchema <;> rfl

theorem int16_leBytes (x : Int16) : Int16.ofNat (Bytes.value (leBytes 2 x.toInt)) = x := by
  have hvalue : (Bytes.value (leBytes 2 x.toInt) : Int) = x.toInt % 256 ^ 2 := Bytes.value_digits x.toInt 2
  have hlow := x.le_toInt
  have hhigh := x.toInt_lt
  rw [← Int16.toInt_inj, Int16.toInt_ofNat', hvalue, show ((256 : Int) ^ 2) = (Int16.size : Nat) from rfl, Int.emod_bmod]
  exact Int.bmod_eq_of_le hlow (by simp; omega)

theorem Content.size_le_dataEnd (c : Content) : 24 + (c.body ++ c.rawBytes).length = c.dataEnd := by
  rw [List.length_append, Content.dataEnd, Content.rawStart, BinaryObjectHeader.size]
  omega

theorem Content.dataEnd_le (c : Content) : c.dataEnd ≤ c.len := Nat.le_add_right _ _

/-- The header of a content, as it is read. -/
def Content.header (c : Content) (typeId : Int32) : BinaryObjectHeader where
  flags := c.flags
  typeId := typeId
  length := Int32.ofNat c.len
  schemaOffset := Int32.ofNat c.schemaOrRawOff

theorem Content.getFooterOffset_header (c : Content) (typeId : Int32) :
    (c.header typeId).getFooterOffset = Int32.ofNat c.dataEnd := by
  obtain ⟨-, hschema, -⟩ := c.hasFlag_flags
  rw [BinaryObjectHeader.getFooterOffset, BinaryObjectHeader.hasSchema, Content.header, hschema, ← c.footerOffset]
  split <;> rfl

theorem Content.getDataLength_header (c : Content) (typeId : Int32) (h : c.len < 2 ^ 31) :
    (c.header typeId).getDataLength.toInt.toNat = (c.body ++ c.rawBytes).length := by
  have hsize := c.size_le_dataEnd
  have hle := c.dataEnd_le
  have hend : (Int32.ofNat c.dataEnd).toInt = c.dataEnd := toInt32_ofNat (by omega)
  have hheader : (Int32.ofNat BinaryObjectHeader.size).toInt = 24 := rfl
  rw [BinaryObjectHeader.getDataLength, c.getFooterOffset_header, toInt32_sub (by omega) (by omega), hend, hheader]
  omega

/-! ## Reading the memory -/

section

variable {mem bytes : List UInt8} {p : Nat} {pos : Int32}

theorem unsafeRead_of_holds (h : Holds mem p bytes) (hle : p + bytes.length ≤ mem.length) (hpos : pos.toInt = p) :
    unsafeRead mem pos bytes.length = .ok bytes := by
  unfold unsafeRead
  rw [if_pos ⟨by omega, by omega⟩, hpos, Int.toNat_natCast, h.take_drop]

theorem unsafeReadInt32_of_holds {x : Int32} (h : Holds mem p (leBytes 4 x.toInt)) (hle : p + 4 ≤ mem.length)
    (hpos : pos.toInt = p) : unsafeReadInt32 mem pos = .ok x := by
  have hread : unsafeRead mem pos 4 = .ok (leBytes 4 x.toInt) := by
    have hread := unsafeRead_of_holds h (by rwa [length_leBytes]) hpos
    rwa [length_leBytes] at hread
  rw [unsafeReadInt32, hread, ok_bind, int32_leBytes]

theorem toInt32_offset {a b : Int32} {m n : Nat} (ha : a.toInt = m) (hb : b.toInt = n) (h : m + n < 2 ^ 31) :
    (a + b).toInt = (m + n : Nat) := by
  rw [toInt32_add (by omega) (by omega), ha, hb]
  push_cast
  rfl

/-- The parts of a header that lie in memory. -/
theorem ofMemory_of_holds {start : Nat} {typeId : Int32} {c : Content} (hle : start + c.len ≤ mem.length)
    (hsmall : mem.length < 2 ^ 31) (hpos : pos.toInt = start) (hflags : Holds mem (start + 2) (leBytes 2 c.flags.toInt))
    (htype : Holds mem (start + 4) (leBytes 4 typeId.toInt)) (hlen : Holds mem (start + 12) (leBytes 4 c.len))
    (hoff : Holds mem (start + 20) (leBytes 4 c.schemaOrRawOff)) :
    BinaryObjectHeader.ofMemory mem pos =
      .ok (c.header typeId) := by
  have hheader : 24 ≤ c.len := by
    have hsize : c.len = 24 + (c.body.length + c.rawBytes.length + c.footer.length) := by
      simp only [Content.len, Content.dataEnd, Content.rawStart, BinaryObjectHeader.size]
      omega
    omega
  have hoffLe : c.schemaOrRawOff ≤ c.len := by
    unfold Content.schemaOrRawOff Content.len Content.dataEnd
    split
    · omega
    · split <;> omega
  have hread₂ : unsafeRead mem (pos + 2) 2 = .ok (leBytes 2 c.flags.toInt) := by
    have htwo : (pos + 2).toInt = (start + 2 : Nat) := toInt32_offset hpos rfl (by omega)
    have hread := unsafeRead_of_holds hflags (by rw [length_leBytes]; omega) htwo
    rwa [length_leBytes] at hread
  have hnat : ∀ n, n ≤ c.len → leBytes 4 (n : Int) = leBytes 4 (Int32.ofNat n).toInt := fun n hn => by
    rw [toInt32_ofNat (by omega)]
  rw [hnat _ (Nat.le_refl _)] at hlen
  rw [hnat _ hoffLe] at hoff
  rw [BinaryObjectHeader.ofMemory, hread₂, ok_bind,
    unsafeReadInt32_of_holds htype (by omega) (toInt32_offset hpos rfl (by omega)), ok_bind,
    unsafeReadInt32_of_holds hlen (by omega) (toInt32_offset hpos rfl (by omega)), ok_bind,
    unsafeReadInt32_of_holds hoff (by omega) (toInt32_offset hpos rfl (by omega)), ok_bind, int16_leBytes]
  rfl

end

/-- The memory after `PostWrite`: footer and header, and what was there. -/
theorem holds_postWrite {w : ObjectWriter} {c : Content} (hlength : w.stream.length = w.start + c.dataEnd)
    (hschema : w.schema = c.schema) (hraw : w.rawPos = if c.raw.isSome then (w.start + c.rawStart : Int) else -1) :
    w.postWrite.stream.length = w.start + c.len ∧ Holds w.postWrite.stream (w.start + 2) (leBytes 2 c.flags.toInt) ∧
      Holds w.postWrite.stream (w.start + 12) (leBytes 4 c.len) ∧
      Holds w.postWrite.stream (w.start + 16) (leBytes 4 c.schema.id.toInt) ∧
      Holds w.postWrite.stream (w.start + 20) (leBytes 4 c.schemaOrRawOff) ∧
      Holds w.postWrite.stream (w.start + c.dataEnd) c.footer ∧
      ∀ pos l, Holds w.stream pos l → pos ≤ w.stream.length →
        (pos + l.length ≤ w.start + 2 ∨ w.start + 4 ≤ pos ∧ pos + l.length ≤ w.start + 12 ∨ w.start + 24 ≤ pos) →
        Holds w.postWrite.stream pos l := by
  have hsize := c.size_le_dataEnd
  have hfooted : (w.stream ++ c.footer).length = w.start + c.len := by
    rw [List.length_append, hlength, Content.len]
    omega
  have hle := c.dataEnd_le
  obtain ⟨m, hm, hmlength, h₂, h₁₂, h₁₆, h₂₀, hkeep⟩ := holds_fillHeader (s := w.start) (m := w.stream ++ c.footer)
    (by rw [hfooted]; omega) (length_leBytes 2 c.flags.toInt) (length_leBytes 4 c.len) (length_leBytes 4 c.schema.id.toInt)
    (length_leBytes 4 c.schemaOrRawOff)
  rw [stream_postWrite hlength hschema hraw, ← hm]
  refine ⟨hmlength.trans hfooted, h₂, h₁₂, h₁₆, h₂₀, ?_, fun pos l hl hpos hapart => ?_⟩
  · rw [← hlength]
    exact hkeep _ _ (holds_length_append _ _) (.inr (.inr (by omega)))
  · exact hkeep pos l (hl.append_right hpos _) hapart

/-- **The writer** leaves an object of the content that was written, with the
hash of its data, behind what was there before. -/
theorem stored_of_writeTopObject {stream mem : List UInt8} {typeId : Int32} {reserved : Fin 16 → UInt8} {writes : List Write}
    {c : Content} (hc : c = ⟨fieldWrites writes, rawWrites writes⟩)
    (h : writeTopObject stream typeId reserved writes = .ok mem) (hsmall : mem.length < 2 ^ 31) :
    Stored mem stream.length typeId (getDataHashCode (c.body ++ c.rawBytes)) c ∧ mem.length = stream.length + c.len ∧
      Holds mem 0 stream := by
  unfold writeTopObject at h
  dsimp only at h
  generalize hw₀ : ({
      stream := stream ++ [documentdbTypeObject] ++ [documentdbProtoVer] ++ leBytes 2 binaryFlagUserType.toInt ++
        leBytes 4 typeId.toInt ++ List.ofFn reserved
      start := stream.length } : ObjectWriter) = w₀ at h
  have hstart₀ : w₀.start = stream.length := by rw [← hw₀]
  have hschema₀ : w₀.schema.fieldsInfo = [] := by rw [← hw₀]
  have hraw₀ : w₀.rawPos = -1 := by rw [← hw₀]
  have hstream₀ : w₀.stream = stream ++ ([documentdbTypeObject, documentdbProtoVer] ++ (leBytes 2 binaryFlagUserType.toInt ++
      (leBytes 4 typeId.toInt ++ List.ofFn reserved))) := by
    rw [← hw₀]
    simp
  have hlength₀ : w₀.stream.length = stream.length + 24 := by
    rw [hstream₀]
    simp
  obtain ⟨w, hwrites, h⟩ := bind_eq_ok.mp h
  obtain ⟨header, hheader, h⟩ := bind_eq_ok.mp h
  obtain ⟨data, hdata, h⟩ := bind_eq_ok.mp h
  cases h
  obtain ⟨hstart, hstream, hinfo, hraw⟩ := ObjectWriter.performAll_named hraw₀ (by omega) hwrites
  -- the room of the header, then the data
  have hbody : w.stream = w₀.stream ++ (c.body ++ c.rawBytes) := by
    rw [hstream, hc, List.append_assoc]
    rfl
  have hsize := c.size_le_dataEnd
  have hlength : w.stream.length = w.start + c.dataEnd := by
    rw [hbody, List.length_append, hlength₀, hstart, hstart₀]
    omega
  have hschema : w.schema = c.schema := by
    have hoff : w₀.stream.length - w₀.start = BinaryObjectHeader.size := by rw [hlength₀, hstart₀]; exact Nat.add_sub_cancel_left _ _
    rw [hschema₀, hoff, List.nil_append] at hinfo
    rw [Content.schema, hc, ← hinfo]
  have hrawPos : w.rawPos = if c.raw.isSome then (w.start + c.rawStart : Int) else -1 := by
    rw [hraw, hc, hlength₀, hstart, hstart₀]
    refine if_congr Iff.rfl ?_ rfl
    rw [Content.rawStart, Content.body, BinaryObjectHeader.size]
    push_cast
    omega
  obtain ⟨hplength, h₂, h₁₂, h₁₆, h₂₀, hfooter, hkeep⟩ := holds_postWrite hlength hschema hrawPos
  rw [hstart, hstart₀] at hplength h₂ h₁₂ h₁₆ h₂₀ hfooter hkeep
  have hle := c.dataEnd_le
  -- what was put before the data
  have hparts : Holds w.stream 0 stream ∧ Holds w.stream stream.length [documentdbTypeObject, documentdbProtoVer] ∧
      Holds w.stream (stream.length + 4) (leBytes 4 typeId.toInt) ∧ Holds w.stream (stream.length + 24) (c.body ++ c.rawBytes) := by
    generalize c.body ++ c.rawBytes = data at hbody ⊢
    have hwhole := holds_length_append [] w.stream
    rw [List.nil_append, hbody, hstream₀, List.append_assoc, List.append_assoc, List.append_assoc, List.append_assoc] at hwhole
    simp only [holds_append, List.length_nil, Nat.zero_add, length_leBytes, List.length_cons, List.length_ofFn,
      Nat.add_assoc] at hwhole
    rw [hbody, hstream₀]
    simp only [List.append_assoc]
    exact ⟨hwhole.1, hwhole.2.1, hwhole.2.2.2.1, hwhole.2.2.2.2.2⟩
  have hmagic := hkeep _ _ hparts.2.1 (by omega) (.inl (by simp))
  have htype := hkeep _ _ hparts.2.2.1 (by omega) (.inr (.inl (by rw [length_leBytes]; omega)))
  have hheld := hkeep _ _ hparts.2.2.2 (by omega) (.inr (.inr (Nat.le_refl _)))
  have hbefore := hkeep _ _ hparts.1 (Nat.zero_le _) (.inl (by omega))
  -- the hash is computed from what was written by then, and put in its place
  have hhash : stream.length + 8 + (leBytes 4 (getDataHashCode data).toInt).length ≤ w.postWrite.stream.length := by
    rw [length_leBytes]
    omega
  have hfinal : (w.postWrite.patch (stream.length + 8) (leBytes 4 (getDataHashCode data).toInt)).stream.length =
      stream.length + c.len := (length_patch hhash).trans hplength
  rw [hfinal] at hsmall
  have hpos : (Int32.ofNat stream.length).toInt = stream.length := toInt32_ofNat (by omega)
  cases hheader.symm.trans (ofMemory_of_holds (by omega) (by omega) hpos h₂ htype h₁₂ h₂₀)
  have hpos' : (Int32.ofNat (stream.length + BinaryObjectHeader.size)).toInt = (stream.length + 24 : Nat) :=
    toInt32_ofNat (by rw [BinaryObjectHeader.size]; omega)
  rw [c.getDataLength_header typeId (by omega)] at hdata
  cases hdata.symm.trans (unsafeRead_of_holds hheld (by omega) hpos')
  have hpatch : ∀ {pos : Nat} {l : List UInt8}, Holds w.postWrite.stream pos l →
      (pos + l.length ≤ stream.length + 8 ∨ stream.length + 12 ≤ pos) →
      Holds (w.postWrite.patch (stream.length + 8) (leBytes 4 (getDataHashCode (c.body ++ c.rawBytes)).toInt)).stream pos l :=
    fun hl hapart => hl.patch hhash (by rw [length_leBytes]; omega)
  refine ⟨?_, hfinal, hpatch hbefore (.inl (by omega))⟩
  exact
    { le := hfinal.ge
      magic := hpatch hmagic (.inl (by simp))
      flags := hpatch h₂ (.inl (by rw [length_leBytes]; omega))
      typeId := hpatch htype (.inl (by rw [length_leBytes]))
      hashCode := holds_patch_self hhash
      len := hpatch h₁₂ (.inr (by omega))
      schemaId := hpatch h₁₆ (.inr (by omega))
      schemaOrRawOff := hpatch h₂₀ (.inr (by omega))
      data := hpatch hheld (.inr (by omega))
      footer := hpatch hfooter (.inr (by omega)) }

end Binary

end DocumentDbOdbc
