/-
Reading objects back: the reader's header, its search of the footer, the raw
data and the end, for whatever an object's writer wrote.

`readTopObject_written` is the round trip. `findFieldInMemory_written` says
where the search on the memory itself agrees with the reader's: it looks for the
object's end as if the object began twice as far from the start of the memory,
and takes the raw offset behind the footer for one more entry.
-/
import DocumentDbOdbc.ObjectFormatFacts
import DocumentDbOdbc.StreamColumnFacts

namespace DocumentDbOdbc

open Interop Outcome Slice

namespace Interop

namespace InteropInputStream

/-! ## Streams over a memory -/

/-- The stream is over this memory and stands there. -/
structure Stands (s : InteropInputStream) (mem : List UInt8) (p : Nat) : Prop where
  bounds : s.InBounds
  data : s.data = mem
  pos : s.pos.toInt = p

variable {s : InteropInputStream} {mem bytes : List UInt8} {p q : Nat} {pos : Int32}

theorem Stands.small (h : s.Stands mem p) : mem.length < 2 ^ 31 := by
  have hlen := h.bounds.len
  have hlt := s.len.toInt_lt
  rw [h.data] at hlen
  omega

theorem Stands.read (h : s.Stands mem p) (hheld : Holds mem p bytes) (hle : p + bytes.length ≤ mem.length) (cnt : Int32)
    (hcnt : cnt.toInt = bytes.length) : ∃ s', s.read cnt = .ok (bytes, s') ∧ s'.Stands mem (p + bytes.length) := by
  obtain ⟨rest, hrest⟩ := hheld
  have hat : s.At (bytes ++ rest) := by
    refine ⟨h.bounds.len, h.bounds.nonneg, h.bounds.le, ?_⟩
    rw [h.data, h.pos, Int.toNat_natCast, hrest]
  obtain ⟨hread, hafter⟩ := read_spec hat hcnt
  have hsmall := h.small
  have hpos : (s.pos + cnt).toInt = p + bytes.length := by
    have hspos := h.pos
    rw [toInt32_add (by omega) (by omega), hspos, hcnt]
  exact ⟨_, hread, ⟨hafter.len, hafter.nonneg, hafter.le⟩, h.data, by rw [shift, hpos]; push_cast; rfl⟩

theorem Stands.readScalar {α : Type} (h : s.Stands mem p) (hheld : Holds mem p bytes) (hle : p + bytes.length ≤ mem.length)
    (cnt : Int32) (hcnt : cnt.toInt = bytes.length) (value : Nat → α) :
    ∃ s', s.readScalar cnt value = .ok (value (Bytes.value bytes), s') ∧ s'.Stands mem (p + bytes.length) := by
  obtain ⟨s', hread, hstands⟩ := h.read hheld hle cnt hcnt
  exact ⟨s', by rw [InteropInputStream.readScalar, hread]; rfl, hstands⟩

theorem Stands.readInt8 {x : UInt8} (h : s.Stands mem p) (hheld : Holds mem p [x]) (hle : p + 1 ≤ mem.length) :
    ∃ s', s.readInt8 = .ok (x, s') ∧ s'.Stands mem (p + 1) := by
  obtain ⟨s', hread, hstands⟩ := h.readScalar hheld hle 1 rfl UInt8.ofNat
  refine ⟨s', ?_, hstands⟩
  rw [InteropInputStream.readInt8, hread]
  simp [Bytes.value]

theorem Stands.readInt16 {x : Int16} (h : s.Stands mem p) (hheld : Holds mem p (leBytes 2 x.toInt)) (hle : p + 2 ≤ mem.length) :
    ∃ s', s.readInt16 = .ok (x, s') ∧ s'.Stands mem (p + 2) := by
  obtain ⟨s', hread, hstands⟩ := h.readScalar hheld (by rwa [length_leBytes]) 2 (by rw [length_leBytes]; rfl) Int16.ofNat
  rw [length_leBytes] at hstands
  exact ⟨s', by rw [InteropInputStream.readInt16, hread, Binary.int16_leBytes], hstands⟩

theorem Stands.readInt32 {x : Int32} (h : s.Stands mem p) (hheld : Holds mem p (leBytes 4 x.toInt)) (hle : p + 4 ≤ mem.length) :
    ∃ s', s.readInt32 = .ok (x, s') ∧ s'.Stands mem (p + 4) := by
  obtain ⟨s', hread, hstands⟩ := h.read hheld (by rwa [length_leBytes]) 4 (by rw [length_leBytes]; rfl)
  rw [length_leBytes] at hstands
  refine ⟨s', ?_, hstands⟩
  rw [InteropInputStream.readInt32, hread, ok_bind]
  dsimp only
  rw [Binary.int32_leBytes]

/-- The same of a number of the memory's own size. -/
theorem Stands.readInt32_natCast {n : Nat} (h : s.Stands mem p) (hheld : Holds mem p (leBytes 4 n)) (hle : p + 4 ≤ mem.length)
    (hn : n < 2 ^ 31) : ∃ s', s.readInt32 = .ok (Int32.ofNat n, s') ∧ s'.Stands mem (p + 4) :=
  h.readInt32 (by rwa [toInt32_ofNat hn]) hle

theorem Stands.position (h : s.Stands mem p) (hpos : pos.toInt = q) (hq : q ≤ mem.length) :
    ∃ s', s.position pos = .ok s' ∧ s'.Stands mem q := by
  have hlen := h.bounds.len
  rw [h.data] at hlen
  have hle : pos ≤ s.len := by
    rw [Int32.le_iff_toInt_le, hpos, hlen]
    exact_mod_cast hq
  refine ⟨{ s with pos := pos }, by rw [InteropInputStream.position, if_pos hle], ⟨h.bounds.len, ?_, ?_⟩, h.data, hpos⟩
  · rw [hpos]
    exact Int.natCast_nonneg q
  · rw [hpos, h.data]
    exact_mod_cast hq

/-- A value at a position; the stream stays where it is. -/
theorem Stands.readAt (h : s.Stands mem p) (hheld : Holds mem q bytes) (hle : q + bytes.length ≤ mem.length)
    (hpos : pos.toInt = q) {size : Int32} (hsize : size.toInt = bytes.length) : s.readAt pos size = .ok bytes := by
  have hsmall := h.small
  have hspos := h.pos
  have hnonneg := h.bounds.nonneg
  have hend : (pos + size).toInt = q + bytes.length := by
    rw [toInt32_add (by omega) (by omega), hpos, hsize]
  have hdelta : (pos + size - s.pos).toInt = q + bytes.length - p := by
    have hin := h.bounds.le
    rw [h.data] at hin
    rw [toInt32_sub (by omega) (by omega), hend, hspos]
  have hload : InteropInputStream.load { s with pos := pos } size = .ok bytes := by
    unfold InteropInputStream.load
    dsimp only
    rw [if_pos ⟨by omega, by omega, by rw [h.data]; omega⟩, h.data, hpos, hsize, Int.toNat_natCast, Int.toNat_natCast,
      hheld.take_drop]
  unfold InteropInputStream.readAt
  dsimp only
  split
  · rw [h.bounds.ensureEnoughData_eq, if_neg (by rw [h.data]; omega), hload]
    rfl
  · exact hload

theorem Stands.readInt32At {x : Int32} (h : s.Stands mem p) (hheld : Holds mem q (leBytes 4 x.toInt)) (hle : q + 4 ≤ mem.length)
    (hpos : pos.toInt = q) : s.readInt32At pos = .ok x := by
  rw [InteropInputStream.readInt32At, h.readAt hheld (by rwa [length_leBytes]) hpos (by rw [length_leBytes]; rfl), ok_bind,
    Binary.int32_leBytes]

end InteropInputStream

end Interop

namespace Binary

open InteropInputStream

/-! ## The header -/

/-- The bytes of the entries. -/
def Content.entryBytes (c : Content) : List UInt8 := if c.hasSchema then c.schema.write else []

theorem Content.footer_eq (c : Content) :
    c.footer = c.entryBytes ++ if c.hasSchema && c.raw.isSome then leBytes 4 c.rawStart else [] := by
  unfold Content.footer Content.entryBytes
  cases c.hasSchema <;> rfl

/-- A reader that took the header of an object of this content apart. -/
structure ObjectReader.Describes (r : ObjectReader) (start : Nat) (typeId hashCode : Int32) (c : Content) : Prop where
  pos : r.pos.toInt = start
  usrType : r.usrType = true
  typeId : r.typeId = typeId
  hashCode : r.hashCode = hashCode
  len : r.len.toInt = c.len
  rawOff : r.rawOff.toInt = if c.raw.isSome then c.rawStart else c.dataEnd
  footerBegin : r.footerBegin.toInt = start + c.dataEnd
  footerEnd : r.footerEnd.toInt = start + c.dataEnd + c.entryBytes.length
  schemaType : c.hasSchema = true → r.schemaType = c.schema.getType

section

variable {s : InteropInputStream} {mem : List UInt8} {start p : Nat} {typeId hashCode pos : Int32} {c : Content}

theorem Stored.header_le (h : Stored mem start typeId hashCode c) : start + 24 + (c.body ++ c.rawBytes).length ≤ mem.length := by
  have hsize := c.size_le_dataEnd
  have hend := c.dataEnd_le
  have hle := h.le
  omega

/-- The raw offset behind the entries. -/
theorem Stored.rawOffset (h : Stored mem start typeId hashCode c) (hboth : (c.hasSchema && c.raw.isSome) = true) :
    Holds mem (start + c.len - 4) (leBytes 4 c.rawStart) ∧ start + c.len = start + c.dataEnd + c.entryBytes.length + 4 := by
  have hfooter := h.footer
  have hlength := congrArg List.length c.footer_eq
  rw [c.footer_eq, hboth, if_pos rfl, holds_append] at hfooter
  rw [hboth, if_pos rfl, List.length_append, length_leBytes] at hlength
  have hend : start + c.len - 4 = start + c.dataEnd + c.entryBytes.length := by
    rw [Content.len]
    omega
  refine ⟨hend ▸ hfooter.2, ?_⟩
  rw [Content.len]
  omega

theorem readFull_stored (hs : s.Stands mem (start + 1)) (h : Stored mem start typeId hashCode c) (hpos : pos.toInt = start) :
    ∃ r s', readFull pos s = .ok (r, s') ∧ s'.Stands mem (start + 24) ∧ r.Describes start typeId hashCode c := by
  have hle := h.header_le
  have hlen := h.le
  have hsmall := hs.small
  have hsize := c.size_le_dataEnd
  have hend := c.dataEnd_le
  have hmagic : Holds mem (start + 1) [documentdbProtoVer] := (holds_append (l := [documentdbTypeObject])).mp h.magic |>.2
  obtain ⟨s₁, hread₁, hs₁⟩ := hs.readInt8 hmagic (by omega)
  obtain ⟨s₂, hread₂, hs₂⟩ := hs₁.readInt16 h.flags (by omega)
  obtain ⟨s₃, hread₃, hs₃⟩ := hs₂.readInt32 h.typeId (by omega)
  obtain ⟨s₄, hread₄, hs₄⟩ := hs₃.readInt32 h.hashCode (by omega)
  obtain ⟨s₅, hread₅, hs₅⟩ := hs₄.readInt32_natCast h.len (by omega) (by omega)
  obtain ⟨s₆, hread₆, hs₆⟩ := hs₅.readInt32 h.schemaId (by omega)
  have hoffLe : c.schemaOrRawOff < 2 ^ 31 := by
    unfold Content.schemaOrRawOff Content.dataEnd at *
    split
    · omega
    · split <;> omega
  obtain ⟨s₇, hread₇, hs₇⟩ := hs₆.readInt32_natCast h.schemaOrRawOff (by omega) hoffLe
  obtain ⟨huser, hschema, hraw, hone, htwo, hcompact⟩ := c.hasFlag_flags
  have hlenInt : (Int32.ofNat c.len).toInt = c.len := toInt32_ofNat (by omega)
  have hposLen : (pos + Int32.ofNat c.len).toInt = (start + c.len : Nat) := toInt32_offset hpos hlenInt (by omega)
  have hbegin : (if c.hasSchema then pos + Int32.ofNat c.schemaOrRawOff else pos + Int32.ofNat c.len).toInt =
      (start + c.dataEnd : Nat) := by
    have heq := c.footerOffset
    split
    · next hs =>
      rw [hs, if_pos rfl] at heq
      rw [heq]
      exact toInt32_offset hpos (toInt32_ofNat (by omega)) (by omega)
    · next hs =>
      rw [if_neg hs] at heq
      rw [hposLen, heq]
  have htype : c.hasSchema = true → (if (c.hasSchema && c.schema.getType == .oneByte) = true then BinaryOffsetType.oneByte
      else if (c.hasSchema && c.schema.getType == .twoBytes) = true then .twoBytes else .fourBytes) = c.schema.getType := by
    intro hs
    rw [hs]
    cases c.schema.getType <;> rfl
  have hrun : readFull pos s =
      (if (c.raw.isSome && c.hasSchema) = true then onStream (s₇.readInt32At (pos + Int32.ofNat c.len - 4))
        else .ok (Int32.ofNat c.schemaOrRawOff)) >>= fun rawOff =>
      .ok ({ pos, usrType := true, typeId, hashCode, len := Int32.ofNat c.len, rawOff
             footerBegin := if c.hasSchema then pos + Int32.ofNat c.schemaOrRawOff else pos + Int32.ofNat c.len
             footerEnd := if (c.raw.isSome && c.hasSchema) = true then pos + Int32.ofNat c.len - 4 else pos + Int32.ofNat c.len
             schemaType :=
               if (c.hasSchema && c.schema.getType == .oneByte) = true then .oneByte
               else if (c.hasSchema && c.schema.getType == .twoBytes) = true then .twoBytes
               else .fourBytes }, s₇) := by
    have hver : ¬documentdbProtoVer ≠ documentdbProtoVer := fun h => h rfl
    simp only [readFull, hread₁, hread₂, hread₃, hread₄, hread₅, hread₆, hread₇, onStream_ok, ok_bind, if_neg hver,
      huser, hschema, hraw, hone, htwo, hcompact, Bool.false_eq_true, if_false]
    split <;> rfl
  cases hboth : c.raw.isSome && c.hasSchema with
  | true =>
    obtain ⟨hrawSome, hs⟩ := Bool.and_eq_true_iff.mp hboth
    obtain ⟨hheld, hsplit⟩ := h.rawOffset (by rw [hs, hrawSome]; rfl)
    have hfooterEnd : (pos + Int32.ofNat c.len - 4).toInt = (start + c.len - 4 : Nat) := by
      have hfour : (4 : Int32).toInt = 4 := rfl
      rw [toInt32_sub (by omega) (by omega), hposLen, hfour]
      omega
    have hrawStart : c.rawStart < 2 ^ 31 := by
      have hle : c.rawStart ≤ c.dataEnd := Nat.le_add_right _ _
      omega
    have hrawRead := hs₇.readInt32At (by rwa [toInt32_ofNat hrawStart]) (by omega) hfooterEnd
    rw [hboth, if_pos rfl, hrawRead] at hrun
    refine ⟨_, s₇, hrun, hs₇, ?_⟩
    exact
      { pos := hpos
        usrType := rfl
        typeId := rfl
        hashCode := rfl
        len := hlenInt
        rawOff := by rw [hrawSome, if_pos rfl]; exact toInt32_ofNat hrawStart
        footerBegin := by rw [hbegin]; push_cast; rfl
        footerEnd := by rw [if_pos rfl, hfooterEnd]; omega
        schemaType := htype }
  | false =>
    have hsplit : c.len = c.dataEnd + c.entryBytes.length := by
      rw [Content.len, c.footer_eq, Bool.and_comm, hboth, if_neg Bool.false_ne_true, List.append_nil]
    rw [hboth, if_neg Bool.false_ne_true] at hrun
    refine ⟨_, s₇, hrun, hs₇, ?_⟩
    exact
      { pos := hpos
        usrType := rfl
        typeId := rfl
        hashCode := rfl
        len := hlenInt
        rawOff := by
          have heq : c.schemaOrRawOff = if c.raw.isSome then c.rawStart else c.dataEnd := by
            unfold Content.schemaOrRawOff
            cases hrawSome : c.raw.isSome with
            | true =>
              rw [hrawSome, Bool.true_and] at hboth
              rw [hboth]
              rfl
            | false => cases c.hasSchema <;> rfl
          rw [← heq]
          exact toInt32_ofNat hoffLe
        footerBegin := by rw [hbegin]; push_cast; rfl
        footerEnd := by
          rw [if_neg Bool.false_ne_true, hposLen, hsplit]
          push_cast
          omega
        schemaType := htype }

end

/-! ## The footer -/

/-- A mask of the lowest bits. -/
theorem toInt32_and_mask (a : Int32) {m : Int32} {k : Nat} (hm : m.toBitVec.toNat = 2 ^ k - 1) (hk : k ≤ 31) :
    (a &&& m).toInt = a.toInt % 2 ^ k := by
  have hnat : (a &&& m).toBitVec.toNat = a.toBitVec.toNat % 2 ^ k := by
    rw [Int32.toBitVec_and, BitVec.toNat_and, hm]
    exact Nat.and_two_pow_sub_one_eq_mod _ k
  have hpow : (2 : Nat) ^ k ≤ 2 ^ 31 := Nat.pow_le_pow_right (by decide) hk
  have hlt : a.toBitVec.toNat % 2 ^ k < 2 ^ k := Nat.mod_lt _ (Nat.two_pow_pos k)
  have hdvd : (2 : Int) ^ k ∣ 2 ^ 32 := pow_dvd_pow 2 (by omega)
  have hcast : ((a.toBitVec.toNat % 2 ^ k : Nat) : Int) = (a.toBitVec.toNat : Int) % 2 ^ k := by push_cast; rfl
  rw [Int32.toInt, Int32.toInt, BitVec.toInt_eq_toNat_cond, BitVec.toInt_eq_toNat_cond, hnat, if_pos (by omega), hcast]
  split
  · rfl
  · rw [Int.sub_emod, show ((2 ^ 32 : Nat) : Int) % 2 ^ k = 0 from Int.emod_eq_zero_of_dvd (by exact_mod_cast hdvd), sub_zero,
      Int.emod_emod]

/-- A small number survives the detour through a signed one. -/
theorem emod_bmod_emod {x : Int} {n : Nat} (h : 0 ≤ x) (hlt : x < n) : (x % n).bmod n % n = x := by
  rw [Int.bmod_emod, Int.emod_emod]
  exact Int.emod_eq_of_lt h hlt

/-- An offset fits into the entries of its schema. -/
def BinaryOffsetType.Fits (t : BinaryOffsetType) (offset : Int32) : Prop :=
  0 ≤ offset.toInt ∧ (t ≠ .fourBytes → offset.toInt < 256 ^ t.width)

section

variable {s : InteropInputStream} {mem : List UInt8} {p q : Nat} {pos : Int32} {r : ObjectReader}

theorem readOffset_of_holds (hs : s.Stands mem p) {offset : Int32} (hfits : r.schemaType.Fits offset)
    (hheld : Holds mem q (leBytes r.schemaType.width offset.toInt)) (hle : q + r.schemaType.width ≤ mem.length)
    (hpos : pos.toInt = q) : r.readOffset s pos = .ok offset := by
  obtain ⟨hnonneg, hlt⟩ := hfits
  unfold ObjectReader.readOffset
  cases ht : r.schemaType with
  | oneByte =>
    rw [ht] at hheld hle hlt
    have hlt := hlt nofun
    have hvalue : (Bytes.value (leBytes 1 offset.toInt) : Int) = offset.toInt % 256 ^ 1 := Bytes.value_digits offset.toInt 1
    have hread : s.readInt8At pos = .ok (Int8.ofNat (Bytes.value (leBytes 1 offset.toInt))).toInt32 := by
      rw [InteropInputStream.readInt8At, hs.readAt hheld (by rwa [length_leBytes]) hpos (by rw [length_leBytes]; rfl)]
      rfl
    dsimp only
    rw [hread, ok_bind]
    refine congrArg _ (Int32.toInt_inj.mp ?_)
    rw [toInt32_and_mask _ (k := 8) rfl (by decide), Int8.toInt_toInt32, Int8.toInt_ofNat', hvalue, show Int8.size = 2 ^ 8 from rfl]
    exact emod_bmod_emod hnonneg hlt
  | twoBytes =>
    rw [ht] at hheld hle hlt
    have hlt := hlt nofun
    have hvalue : (Bytes.value (leBytes 2 offset.toInt) : Int) = offset.toInt % 256 ^ 2 := Bytes.value_digits offset.toInt 2
    have hread : s.readInt16At pos = .ok (Int16.ofNat (Bytes.value (leBytes 2 offset.toInt))).toInt32 := by
      rw [InteropInputStream.readInt16At, hs.readAt hheld (by rwa [length_leBytes]) hpos (by rw [length_leBytes]; rfl)]
      rfl
    dsimp only
    rw [hread, ok_bind]
    refine congrArg _ (Int32.toInt_inj.mp ?_)
    rw [toInt32_and_mask _ (k := 16) rfl (by decide), Int16.toInt_toInt32, Int16.toInt_ofNat', hvalue, show Int16.size = 2 ^ 16 from rfl]
    exact emod_bmod_emod hnonneg hlt
  | fourBytes =>
    rw [ht] at hheld hle
    exact hs.readInt32At hheld hle hpos

theorem ObjectReader.toInt_entrySize (r : ObjectReader) : r.entrySize.toInt = (4 + r.schemaType.width : Nat) := by
  unfold ObjectReader.entrySize
  cases r.schemaType <;> rfl

def entryOf (w : Nat) (i : BinarySchemaFieldInfo) : List UInt8 := leBytes 4 i.id.toInt ++ leBytes w i.offset.toInt

theorem length_flatMap_entryOf (w : Nat) (infos : List BinarySchemaFieldInfo) :
    (infos.flatMap (entryOf w)).length = infos.length * (4 + w) := by
  induction infos with
  | nil => exact (Nat.zero_mul _).symm
  | cons i rest ih =>
    rw [List.flatMap_cons, List.length_append, ih, entryOf, List.length_append, length_leBytes, length_leBytes, List.length_cons,
      Nat.succ_mul, Nat.add_comm]

/-- **The loop of `FindField`** over entries that lie in memory: the offset of
the first one with the id, after them whatever is left of the loop. -/
theorem findFieldFrom_entries (hs : s.Stands mem p) (fieldId : Int32) (n : Nat) : ∀ {infos : List BinarySchemaFieldInfo}
    {q : Nat} {pos : Int32}, Holds mem q (infos.flatMap (entryOf r.schemaType.width)) →
    q + infos.length * (4 + r.schemaType.width) ≤ mem.length → pos.toInt = q → (∀ i ∈ infos, r.schemaType.Fits i.offset) →
    r.findFieldFrom s fieldId (infos.length + n) pos =
      match infos.find? (·.id = fieldId) with
      | some i => .ok (i.offset + r.pos)
      | none => r.findFieldFrom s fieldId n (pos + Int32.ofNat (infos.length * (4 + r.schemaType.width)))
  | [], q, pos, _, _, _, _ => by
    rw [List.length_nil, Nat.zero_mul, Nat.zero_add, List.find?_nil]
    show r.findFieldFrom s fieldId n pos = r.findFieldFrom s fieldId n (pos + 0)
    rw [Int32.add_zero]
  | i :: rest, q, pos, hheld, hle, hpos, hfits => by
    have hsmall := hs.small
    rw [List.flatMap_cons, entryOf, List.append_assoc, holds_append, holds_append, length_leBytes, length_leBytes] at hheld
    obtain ⟨hid, hoffset, hrest⟩ := hheld
    rw [List.length_cons, Nat.succ_mul] at hle
    have hnext : (pos + r.entrySize).toInt = (q + (4 + r.schemaType.width) : Nat) :=
      toInt32_offset hpos r.toInt_entrySize (by omega)
    rw [List.length_cons, Nat.succ_add, ObjectReader.findFieldFrom, hs.readInt32At hid (by omega) hpos, ok_bind]
    by_cases hfound : fieldId = i.id
    · rw [if_pos hfound, List.find?_cons_of_pos (by simp [hfound])]
      have hpos' : (pos + 4).toInt = (q + 4 : Nat) := toInt32_offset hpos rfl (by omega)
      rw [readOffset_of_holds hs (hfits i List.mem_cons_self) hoffset (by omega) hpos']
      rfl
    · rw [if_neg hfound, List.find?_cons_of_neg (by simpa using Ne.symm hfound)]
      have hend : pos + r.entrySize + Int32.ofNat (rest.length * (4 + r.schemaType.width)) =
          pos + Int32.ofNat ((rest.length + 1) * (4 + r.schemaType.width)) := by
        rw [Int32.add_assoc, ObjectReader.entrySize, ← Int32.ofNat_add, Nat.succ_mul, Nat.add_comm]
      rw [findFieldFrom_entries hs fieldId n (by rwa [Nat.add_assoc] at hrest) (by omega) hnext
        fun i hi => hfits i (List.mem_cons_of_mem _ hi), hend]

end

/-! ## The offsets of a content -/

/-- Offsets only grow, up to the last one. -/
theorem offset_le_last : ∀ {off : Nat} {fields : List (Int32 × List UInt8)}, off + (fieldBytes fields).length < 2 ^ 31 →
    ∀ i ∈ fieldInfos off fields, (off : Int) ≤ i.offset.toInt ∧
      i.offset.toInt ≤ (BinarySchema.maxOffset ⟨fieldInfos off fields⟩).toInt
  | off, [], _, i, hi => absurd hi List.not_mem_nil
  | off, (fieldId, value) :: rest, hsmall, i, hi => by
    have hlength : (fieldBytes ((fieldId, value) :: rest)).length = value.length + (fieldBytes rest).length := List.length_append
    have hoff : (Int32.ofNat off).toInt = off := toInt32_ofNat (by omega)
    have hrest : ∀ i ∈ fieldInfos (off + value.length) rest, (↑(off + value.length) : Int) ≤ i.offset.toInt ∧
        i.offset.toInt ≤ (BinarySchema.maxOffset ⟨fieldInfos (off + value.length) rest⟩).toInt :=
      offset_le_last (by omega)
    rw [fieldInfos] at hi ⊢
    cases hinfos : fieldInfos (off + value.length) rest with
    | nil =>
      rw [hinfos] at hi
      cases List.mem_singleton.mp hi
      exact ⟨hoff.ge, Int.le_refl _⟩
    | cons j more =>
      rw [hinfos] at hi hrest
      have hmax : BinarySchema.maxOffset ⟨⟨fieldId, Int32.ofNat off⟩ :: j :: more⟩ = BinarySchema.maxOffset ⟨j :: more⟩ := by
        rw [BinarySchema.maxOffset, List.getLast?_cons_cons, BinarySchema.maxOffset]
      rw [hmax]
      obtain rfl | hi := List.mem_cons.mp hi
      · obtain ⟨hlow, hhigh⟩ := hrest j List.mem_cons_self
        exact ⟨hoff.ge, by rw [hoff]; omega⟩
      · obtain ⟨hlow, hhigh⟩ := hrest i hi
        exact ⟨by omega, hhigh⟩

theorem Content.fits (c : Content) (h : c.len < 2 ^ 31) : ∀ i ∈ c.schema.fieldsInfo, c.schema.getType.Fits i.offset := by
  intro i hi
  have hsize := c.size_le_dataEnd
  have hend := c.dataEnd_le
  rw [List.length_append] at hsize
  have hsmall : BinaryObjectHeader.size + (fieldBytes c.fields).length < 2 ^ 31 := by
    change 24 + c.body.length < 2 ^ 31
    omega
  obtain ⟨hlow, hhigh⟩ := offset_le_last hsmall i hi
  refine ⟨by omega, fun hwide => ?_⟩
  change i.offset.toInt ≤ c.schema.maxOffset.toInt at hhigh
  unfold BinarySchema.getType at hwide ⊢
  split
  · next hone =>
    have hlt : c.schema.maxOffset.toInt < 256 := Int32.lt_iff_toInt_lt.mp hone
    exact hhigh.trans_lt hlt
  · next hone =>
    rw [if_neg hone] at hwide
    split
    · next htwo =>
      have hlt : c.schema.maxOffset.toInt < 65536 := Int32.lt_iff_toInt_lt.mp htwo
      exact hhigh.trans_lt hlt
    · next htwo =>
      rw [if_neg htwo] at hwide
      exact absurd rfl hwide

/-- The entry of a field: where its value lies. -/
theorem find_fieldInfos (fieldId : Int32) : ∀ (off : Nat) (fields : List (Int32 × List UInt8)),
    match fields.find? (·.1 = fieldId) with
    | some f => ∃ o, (fieldInfos off fields).find? (·.id = fieldId) = some ⟨fieldId, Int32.ofNat (off + o)⟩ ∧
        o + f.2.length ≤ (fieldBytes fields).length ∧ Holds (fieldBytes fields) o f.2
    | none => (fieldInfos off fields).find? (·.id = fieldId) = none
  | off, [] => rfl
  | off, (id, value) :: rest => by
    by_cases hid : id = fieldId
    · subst hid
      rw [List.find?_cons_of_pos (by simp)]
      refine ⟨0, ?_, ?_, List.prefix_append _ _⟩
      · rw [fieldInfos, List.find?_cons_of_pos (by simp), Nat.add_zero]
      · rw [fieldBytes, List.flatMap_cons, List.length_append]
        omega
    · have ih := find_fieldInfos fieldId (off + value.length) rest
      rw [List.find?_cons_of_neg (by simpa using hid), fieldInfos, List.find?_cons_of_neg (by simpa using hid)]
      cases hfind : rest.find? (·.1 = fieldId) with
      | none =>
        rw [hfind] at ih
        exact ih
      | some f =>
        rw [hfind] at ih
        obtain ⟨o, hentry, hle, hheld⟩ := ih
        refine ⟨value.length + o, by rw [hentry, Nat.add_assoc], ?_, ?_⟩
        · rw [fieldBytes, List.flatMap_cons, List.length_append]
          change value.length + o + f.2.length ≤ value.length + (fieldBytes rest).length
          omega
        rw [Holds, fieldBytes, List.flatMap_cons, ← List.drop_drop, List.drop_left]
        exact hheld

theorem Content.schema_write (c : Content) : c.schema.write = c.schema.fieldsInfo.flatMap (entryOf c.schema.getType.width) := rfl

theorem length_fieldInfos : ∀ (off : Nat) (fields : List (Int32 × List UInt8)), (fieldInfos off fields).length = fields.length
  | _, [] => rfl
  | off, (_, value) :: rest => congrArg Nat.succ (length_fieldInfos (off + value.length) rest)

theorem Content.length_entryBytes (c : Content) : c.entryBytes.length = c.fields.length * (4 + c.schema.getType.width) := by
  unfold Content.entryBytes
  cases hs : c.hasSchema with
  | true => rw [if_pos rfl, c.schema_write, length_flatMap_entryOf, Content.schema, length_fieldInfos]
  | false =>
    have hnil : c.fields = [] := by simpa [Content.hasSchema] using hs
    rw [hnil, List.length_nil, Nat.zero_mul]
    rfl

/-- The bounds of the loop: it goes round once for each field. -/
theorem rounds_eq (n : Nat) (t : BinaryOffsetType) : (((n * (4 + t.width) : Nat) : Int) + (3 + t.width)) / (4 + t.width) = n := by
  cases t <;> simp only [BinaryOffsetType.width] <;> push_cast <;> omega

section

variable {s : InteropInputStream} {mem : List UInt8} {start p : Nat} {typeId hashCode : Int32} {c : Content} {r : ObjectReader}

/-- Where the value of an entry's field lies. -/
theorem Stored.value (h : Stored mem start typeId hashCode c) (hsmall : mem.length < 2 ^ 31) (fieldId : Int32) {pos : Int32}
    (hpos : pos.toInt = start) :
    match c.fields.find? (·.1 = fieldId) with
    | some f => ∃ i q, c.schema.fieldsInfo.find? (·.id = fieldId) = some i ∧ (i.offset + pos).toInt = (q : Nat) ∧ Holds mem q f.2
    | none => c.schema.fieldsInfo.find? (·.id = fieldId) = none := by
  have hfind := find_fieldInfos fieldId BinaryObjectHeader.size c.fields
  cases hfield : c.fields.find? (·.1 = fieldId) with
  | none =>
    rw [hfield] at hfind
    exact hfind
  | some f =>
    rw [hfield] at hfind
    obtain ⟨o, hentry, ho, hheld⟩ := hfind
    have hle := h.header_le
    rw [List.length_append] at hle
    change o + f.2.length ≤ c.body.length at ho
    refine ⟨_, start + (24 + o), hentry, ?_, ?_⟩
    · have hoff : (Int32.ofNat (BinaryObjectHeader.size + o)).toInt = (24 + o : Nat) :=
        toInt32_ofNat (by rw [BinaryObjectHeader.size]; omega)
      rw [Int32.add_comm]
      exact toInt32_offset hpos hoff (by omega)
    · rw [← Nat.add_assoc]
      exact (holds_append.mp h.data).1.sub hheld (by omega)

/-- The search goes through the footer entry by entry. -/
theorem findField_eq (hs : s.Stands mem p) (h : Stored mem start typeId hashCode c)
    (hr : r.Describes start typeId hashCode c) (fieldId : Int32) :
    r.findField s fieldId =
      match c.schema.fieldsInfo.find? (·.id = fieldId) with
      | some i => .ok (i.offset + r.pos)
      | none => .ok (-1) := by
  have hsmall := hs.small
  have hle := h.le
  have hend := c.dataEnd_le
  have hlength := c.length_entryBytes
  have hbegin : r.footerBegin.toInt = (start + c.dataEnd : Nat) := by rw [hr.footerBegin]; push_cast; rfl
  obtain ⟨s', hpos, hs'⟩ := hs.position hbegin (by omega)
  have hrun : r.findField s fieldId = onStream (r.findFieldFrom s' fieldId r.entries r.footerBegin) := by
    rw [ObjectReader.findField, hpos]
    rfl
  rw [hrun]
  cases hschema : c.hasSchema with
  | true =>
    have htype := hr.schemaType hschema
    have hbytes : c.entryBytes = c.schema.fieldsInfo.flatMap (entryOf r.schemaType.width) := by
      rw [Content.entryBytes, hschema, if_pos rfl, c.schema_write, htype]
    have hentries : r.entries = c.schema.fieldsInfo.length + 0 := by
      have hcount : r.footerEnd.toInt - r.footerBegin.toInt = (c.fields.length * (4 + r.schemaType.width) : Nat) := by
        rw [hr.footerEnd, hr.footerBegin, hlength, htype]
        omega
      rw [ObjectReader.entries, hcount, rounds_eq, Content.schema, length_fieldInfos]
      rfl
    have hfooter := h.footer
    rw [c.footer_eq, holds_append, hbytes] at hfooter
    have hroom : c.fields.length * (4 + c.schema.getType.width) ≤ c.footer.length := by
      rw [c.footer_eq, List.length_append, hlength]
      omega
    rw [hentries, findFieldFrom_entries hs' fieldId 0 hfooter.1 ?_ hbegin ?_]
    · cases c.schema.fieldsInfo.find? (·.id = fieldId) <;> rfl
    · rw [htype, Content.schema, length_fieldInfos]
      change start + c.dataEnd + c.fields.length * (4 + c.schema.getType.width) ≤ mem.length
      rw [Content.len] at hle
      omega
    · rw [htype]
      exact c.fits (by omega)
  | false =>
    have hnil : c.fields = [] := by simpa [Content.hasSchema] using hschema
    have hzero : r.entries = 0 := by
      have hcount : r.footerEnd.toInt - r.footerBegin.toInt = (0 * (4 + r.schemaType.width) : Nat) := by
        rw [hr.footerEnd, hr.footerBegin, hlength, hnil]
        simp
      rw [ObjectReader.entries, hcount, rounds_eq]
      rfl
    rw [hzero, Content.schema, hnil]
    rfl

/-- **The reader's search** gives the place of the first field with the id, and
`-1` where there is none. -/
theorem findField_stored (hs : s.Stands mem p) (h : Stored mem start typeId hashCode c)
    (hr : r.Describes start typeId hashCode c) (fieldId : Int32) :
    match c.fields.find? (·.1 = fieldId) with
    | some f => ∃ pos : Int32, ∃ q : Nat, r.findField s fieldId = .ok pos ∧ pos.toInt = q ∧ Holds mem q f.2
    | none => r.findField s fieldId = .ok (-1) := by
  have hvalue := h.value hs.small fieldId hr.pos
  rw [findField_eq hs h hr]
  cases hfield : c.fields.find? (·.1 = fieldId) with
  | none =>
    rw [hfield] at hvalue
    dsimp only at hvalue ⊢
    rw [hvalue]
  | some f =>
    rw [hfield] at hvalue
    obtain ⟨i, q, hentry, hq, hheld⟩ := hvalue
    dsimp only
    rw [hentry]
    exact ⟨_, q, rfl, hq, hheld⟩

/-- `SetRawMode` goes to the raw data, or to the end of the data. -/
theorem setRawMode_stored (hs : s.Stands mem p) (h : Stored mem start typeId hashCode c)
    (hr : r.Describes start typeId hashCode c) :
    ∃ s' q, r.setRawMode s = .ok s' ∧ s'.Stands mem q ∧ ∀ raw, c.raw = some raw → Holds mem q raw := by
  have hsmall := hs.small
  have hle := h.le
  have hend := c.dataEnd_le
  have hstart : c.rawStart ≤ c.dataEnd := Nat.le_add_right _ _
  have hoff : r.rawOff.toInt = (if c.raw.isSome then c.rawStart else c.dataEnd : Nat) := hr.rawOff
  have hoffLe : (if c.raw.isSome then c.rawStart else c.dataEnd) ≤ c.dataEnd := by
    split <;> omega
  obtain ⟨s', hpos, hs'⟩ := hs.position (toInt32_offset hr.pos hoff (by omega)) (by omega)
  refine ⟨s', _, hpos, hs', ?_⟩
  intro raw hraw
  have hheld := (holds_append.mp h.data).2
  have hbytes : c.rawBytes = raw := by rw [Content.rawBytes, hraw]; rfl
  rw [hbytes] at hheld
  rw [hraw, Option.isSome_some, if_pos rfl, Content.rawStart, BinaryObjectHeader.size, ← Nat.add_assoc]
  exact hheld

/-- More memory may follow. -/
theorem Stored.append_right (h : Stored mem start typeId hashCode c) (after : List UInt8) :
    Stored (mem ++ after) start typeId hashCode c := by
  have hle := h.header_le
  have hlen := h.le
  have hend := c.dataEnd_le
  exact
    { le := by rw [List.length_append]; omega
      magic := h.magic.append_right (by omega) after
      flags := h.flags.append_right (by omega) after
      typeId := h.typeId.append_right (by omega) after
      hashCode := h.hashCode.append_right (by omega) after
      len := h.len.append_right (by omega) after
      schemaId := h.schemaId.append_right (by omega) after
      schemaOrRawOff := h.schemaOrRawOff.append_right (by omega) after
      data := h.data.append_right (by omega) after
      footer := h.footer.append_right (by omega) after }

end

/-! ## What was written is read -/

/-- What a reader finds of an object: under each name the value that was
written first, and the raw data. -/
structure ObjectReader.Finds (r : ObjectReader) (mem : List UInt8) (fields : List (Int32 × List UInt8))
    (raw : Option (List UInt8)) : Prop where
  field : ∀ {s : InteropInputStream} {p : Nat}, s.Stands mem p → ∀ fieldId : Int32,
    match fields.find? (·.1 = fieldId) with
    | some f => ∃ pos : Int32, ∃ q : Nat, r.findField s fieldId = .ok pos ∧ pos.toInt = q ∧ Holds mem q f.2
    | none => r.findField s fieldId = .ok (-1)
  raw : ∀ {s : InteropInputStream} {p : Nat}, s.Stands mem p →
    ∃ s' q, r.setRawMode s = .ok s' ∧ s'.Stands mem q ∧ ∀ bytes, raw = some bytes → Holds mem q bytes

theorem documentdbTypeObject_ne : ¬documentdbTypeObject = documentdbHdrNull ∧ ¬documentdbTypeObject = documentdbHdrHnd ∧
    ¬documentdbTypeObject = documentdbTypeBinary := by decide

/-- **The round trip of an object**: whatever was written, under names and raw,
a reader of the memory finds, and it goes on behind the object. -/
theorem readTopObject_written {stream mem after : List UInt8} {typeId : Int32} {reserved : Fin 16 → UInt8}
    {writes : List Write} (h : writeTopObject stream typeId reserved writes = .ok mem) {s : InteropInputStream}
    (hs : s.Stands (mem ++ after) stream.length) :
    ∃ r s₁, s₁.Stands (mem ++ after) (stream.length + 24) ∧ r.typeId = typeId ∧
      r.Finds (mem ++ after) (fieldWrites writes) (rawWrites writes) ∧
      ∀ {α : Type} (read : ObjectReader → InteropInputStream → Except InputError (α × InteropInputStream)) (depth : Nat)
        {res : α} {s₂ : InteropInputStream} {q : Nat}, read r s₁ = .ok (res, s₂) → s₂.Stands (mem ++ after) q →
        ∃ s₃, readTopObject read (depth + 1) s = .ok (some res, s₃) ∧ s₃.Stands (mem ++ after) mem.length := by
  have hsmall := hs.small
  rw [List.length_append] at hsmall
  obtain ⟨hstored, hlength, -⟩ := stored_of_writeTopObject rfl h (by omega)
  have hstored := hstored.append_right after
  have hle := hstored.header_le
  obtain ⟨hnull, hhnd, hbinary⟩ := documentdbTypeObject_ne
  obtain ⟨s₀, hread₀, hs₀⟩ := hs.readInt8 ((holds_append (l := [documentdbTypeObject])).mp hstored.magic).1 (by omega)
  obtain ⟨r, s₁, hread₁, hs₁, hr⟩ := readFull_stored hs₀ hstored hs.pos
  refine ⟨r, s₁, hs₁, hr.typeId, ⟨fun hs₂ => findField_stored hs₂ hstored hr, fun hs₂ => setRawMode_stored hs₂ hstored hr⟩, ?_⟩
  intro α read depth res s₂ q hres hs₂
  have hend : (s.pos + r.len).toInt = (mem.length : Nat) := by
    have hlen := hr.len
    rw [hlength]
    exact toInt32_offset hs.pos hlen (by omega)
  obtain ⟨s₃, hpos, hs₃⟩ := hs₂.position hend (by rw [List.length_append]; omega)
  refine ⟨s₃, ?_, hs₃⟩
  simp only [readTopObject, hread₀, onStream_ok, ok_bind, if_neg hnull, if_neg hhnd, if_neg hbinary, if_true, hread₁, hres, hpos]

/-- One field, one byte of raw data. -/
theorem readTopObject_written_one :
    ∃ mem, writeTopObject [] 7 (fun _ => 0) [.field 5 [3, 1, 0, 0, 0], .setRawMode, .raw [9]] = .ok mem ∧
      ∃ r : ObjectReader, r.typeId = 7 ∧ r.Finds (mem ++ []) [(5, [3, 1, 0, 0, 0])] (some [9]) := by
  obtain ⟨mem, hmem, hsmall⟩ : ∃ mem,
      writeTopObject [] 7 (fun _ => 0) [.field 5 [3, 1, 0, 0, 0], .setRawMode, .raw [9]] = .ok mem ∧
        (mem ++ []).length < 2 ^ 31 := ⟨_, rfl, by decide⟩
  have hs : (InteropInputStream.ofMemory (mem ++ [])).Stands (mem ++ []) 0 := ⟨.ofMemory hsmall, rfl, rfl⟩
  obtain ⟨r, -, -, htype, hfinds, -⟩ := readTopObject_written hmem hs
  exact ⟨mem, hmem, r, htype, hfinds⟩

/-! ## The search in memory -/

section

variable {mem : List UInt8} {start q : Nat} {typeId hashCode pos fieldId : Int32} {c : Content}

/-- A narrow offset is read as it was written. -/
theorem ofNat_offset {t : BinaryOffsetType} {offset : Int32} (h : t.Fits offset) :
    Int32.ofNat (Bytes.value (leBytes t.width offset.toInt)) = offset := by
  obtain ⟨hnonneg, hlt⟩ := h
  by_cases ht : t = .fourBytes
  · subst ht
    exact int32_leBytes offset
  · have hvalue : (Bytes.value (leBytes t.width offset.toInt) : Int) = offset.toInt :=
      (Bytes.value_digits offset.toInt t.width).trans (Int.emod_eq_of_lt hnonneg (hlt ht))
    have hmax := offset.toInt_lt
    refine Int32.toInt_inj.mp ?_
    rw [toInt32_ofNat (by omega), hvalue]

/-- The loop over entries, as in `findFieldFrom_entries`. -/
theorem findInMemoryFrom_entries (hsmall : mem.length < 2 ^ 31) (t : BinaryOffsetType) (n : Nat) :
    ∀ {infos : List BinarySchemaFieldInfo} {q : Nat} {schemaPos : Int32}, Holds mem q (infos.flatMap (entryOf t.width)) →
    q + infos.length * (4 + t.width) ≤ mem.length → schemaPos.toInt = q → (∀ i ∈ infos, t.Fits i.offset) →
    findInMemoryFrom mem pos fieldId t (infos.length + n) schemaPos =
      match infos.find? (·.id = fieldId) with
      | some i => .ok (i.offset + pos)
      | none => findInMemoryFrom mem pos fieldId t n (schemaPos + Int32.ofNat (infos.length * (4 + t.width)))
  | [], q, schemaPos, _, _, _, _ => by
    rw [List.length_nil, Nat.zero_mul, Nat.zero_add, List.find?_nil]
    show findInMemoryFrom mem pos fieldId t n schemaPos = findInMemoryFrom mem pos fieldId t n (schemaPos + 0)
    rw [Int32.add_zero]
  | i :: rest, q, schemaPos, hheld, hle, hpos, hfits => by
    rw [List.flatMap_cons, entryOf, List.append_assoc, holds_append, holds_append, length_leBytes, length_leBytes] at hheld
    obtain ⟨hid, hoffset, hrest⟩ := hheld
    rw [List.length_cons, Nat.succ_mul] at hle
    have hwidth : (Int32.ofNat (4 + t.width)).toInt = (4 + t.width : Nat) := by cases t <;> rfl
    have hnext : (schemaPos + Int32.ofNat (4 + t.width)).toInt = (q + (4 + t.width) : Nat) :=
      toInt32_offset hpos hwidth (by omega)
    rw [List.length_cons, Nat.succ_add, findInMemoryFrom, unsafeReadInt32_of_holds hid (by omega) hpos, ok_bind]
    by_cases hfound : fieldId = i.id
    · have hpos' : (schemaPos + 4).toInt = (q + 4 : Nat) := toInt32_offset hpos rfl (by omega)
      have hread := unsafeRead_of_holds hoffset (by rw [length_leBytes]; omega) hpos'
      rw [length_leBytes] at hread
      rw [if_pos hfound, List.find?_cons_of_pos (by simp [hfound]), hread, ok_bind, ofNat_offset (hfits i List.mem_cons_self)]
    · rw [if_neg hfound, List.find?_cons_of_neg (by simpa using Ne.symm hfound)]
      have hend : schemaPos + Int32.ofNat (4 + t.width) + Int32.ofNat (rest.length * (4 + t.width)) =
          schemaPos + Int32.ofNat ((rest.length + 1) * (4 + t.width)) := by
        rw [Int32.add_assoc, ← Int32.ofNat_add, Nat.succ_mul, Nat.add_comm]
      rw [findInMemoryFrom_entries hsmall t n (by rwa [Nat.add_assoc] at hrest) (by omega) hnext
        fun i hi => hfits i (List.mem_cons_of_mem _ hi), hend]

/-- The raw offset behind the entries is too short for an entry, but it starts
one. -/
theorem rounds_add_one (n : Nat) (t : BinaryOffsetType) :
    (((n * (4 + t.width) + 4 : Nat) : Int) + (3 + t.width)) / (4 + t.width) = n + 1 := by
  cases t <;> simp only [BinaryOffsetType.width] <;> push_cast <;> omega

theorem findFieldInMemory_stored (h : Stored mem start typeId hashCode c) (hsmall : mem.length < 2 ^ 31)
    (hpos : pos.toInt = start) :
    findFieldInMemory mem pos fieldId =
      if mem.length < 2 * start + c.len then .error (.binary (ascii "Not enough data in the binary object"))
      else match c.schema.fieldsInfo.find? (·.id = fieldId) with
        | some i => .ok (i.offset + pos)
        | none =>
          if (c.hasSchema && c.raw.isSome) = true ∧ fieldId = Int32.ofNat c.rawStart then
            (unsafeRead mem (pos + Int32.ofNat c.len) c.schema.getType.width).map fun offset =>
              Int32.ofNat (Bytes.value offset) + pos
          else .ok (-1) := by
  have hle := h.le
  have hend := c.dataEnd_le
  have hheader := ofMemory_of_holds hle hsmall hpos h.flags h.typeId h.len h.schemaOrRawOff
  obtain ⟨-, hschema, -, hone, htwo, -⟩ := c.hasFlag_flags
  have hbegin : (Int32.ofNat c.dataEnd + pos).toInt = (start + c.dataEnd : Nat) := by
    rw [Int32.add_comm]
    exact toInt32_offset hpos (toInt32_ofNat (by omega)) (by omega)
  have hfooterLength : (c.header typeId).getFooterLength.toInt = c.footer.length := by
    have hlen : (Int32.ofNat c.len).toInt = c.len := toInt32_ofNat (by omega)
    have hoff : (Int32.ofNat c.dataEnd).toInt = c.dataEnd := toInt32_ofNat (by omega)
    rw [BinaryObjectHeader.getFooterLength, BinaryObjectHeader.hasSchema, Content.header, hschema]
    split
    · next hs =>
      have hdata : c.schemaOrRawOff = c.dataEnd := by rw [Content.schemaOrRawOff, if_pos hs]
      rw [hdata]
      dsimp only
      rw [toInt32_sub (by omega) (by omega), hlen, hoff, Content.len]
      push_cast
      omega
    · next hs =>
      rw [Content.footer, if_neg hs]
      rfl
  have hfooterEnd : (Int32.ofNat c.dataEnd + pos + (c.header typeId).getFooterLength).toInt = (start + c.len : Nat) := by
    have hsum := toInt32_offset hbegin hfooterLength (by rw [Content.len] at hle; omega)
    rw [hsum, Content.len, Nat.add_assoc]
  have hmem : (Int32.ofNat mem.length - pos).toInt = mem.length - start := by
    have hlength : (Int32.ofNat mem.length).toInt = mem.length := toInt32_ofNat hsmall
    rw [toInt32_sub (by omega) (by omega), hlength, hpos]
  have hcheck : Int32.ofNat mem.length - pos < Int32.ofNat c.dataEnd + pos + (c.header typeId).getFooterLength ↔
      mem.length < 2 * start + c.len := by
    rw [Int32.lt_iff_toInt_lt, hmem, hfooterEnd]
    omega
  have htype : (if hasFlag c.flags binaryFlagOffsetOneByte = true then BinaryOffsetType.oneByte
      else if hasFlag c.flags binaryFlagOffsetTwoBytes = true then .twoBytes else .fourBytes) =
      if c.hasSchema then c.schema.getType else .fourBytes := by
    rw [hone, htwo]
    cases c.hasSchema <;> cases c.schema.getType <;> rfl
  unfold findFieldInMemory
  rw [hheader, ok_bind]
  dsimp only
  rw [c.getFooterOffset_header, hbegin, hfooterEnd, show (c.header typeId).flags = c.flags from rfl, htype]
  refine if_congr hcheck rfl ?_
  have hlength := c.length_entryBytes
  have hfields : c.schema.fieldsInfo.length = c.fields.length := length_fieldInfos _ _
  have hfooterLen : ((start + c.len : Nat) : Int) - (start + c.dataEnd : Nat) = c.footer.length := by
    rw [Content.len]
    omega
  cases hs : c.hasSchema with
  | false =>
    have hnil : c.fields = [] := by simpa [Content.hasSchema] using hs
    have hfooter : c.footer.length = 0 := by rw [Content.footer, hs]; rfl
    have hrounds : (((start + c.len : Nat) : Int) - (start + c.dataEnd : Nat) + (3 + (4 : Nat))) / (4 + (4 : Nat)) = 0 := by
      rw [hfooterLen, hfooter]
      rfl
    rw [if_neg Bool.false_ne_true, show BinaryOffsetType.fourBytes.width = 4 from rfl, hrounds, Content.schema, hnil]
    rfl
  | true =>
    have hfooter := h.footer
    have hfit := c.fits (by omega)
    have hsize : c.footer.length = c.entryBytes.length + if c.raw.isSome then 4 else 0 := by
      rw [c.footer_eq, List.length_append, hs, Bool.true_and]
      cases c.raw.isSome <;> simp
    rw [c.footer_eq, holds_append, Content.entryBytes, hs, if_pos rfl, Bool.true_and, c.schema_write] at hfooter
    rw [if_pos rfl, Bool.true_and]
    cases hraw : c.raw.isSome with
    | false =>
      have hrounds : (((start + c.len : Nat) : Int) - (start + c.dataEnd : Nat) + (3 + c.schema.getType.width)) /
          (4 + c.schema.getType.width) = c.fields.length := by
        rw [hraw, if_neg Bool.false_ne_true, Nat.add_zero] at hsize
        have hround := rounds_eq c.fields.length c.schema.getType
        rwa [← hlength, ← hsize, ← hfooterLen] at hround
      rw [hrounds, Int.toNat_natCast, ← hfields, ← Nat.add_zero c.schema.fieldsInfo.length,
        findInMemoryFrom_entries hsmall _ 0 hfooter.1 ?_ hbegin hfit]
      · simp [findInMemoryFrom]
      · rw [hfields, ← hlength]
        rw [Content.len] at hle
        omega
    | true =>
      obtain ⟨hheld, hsplit⟩ := h.rawOffset (by rw [hs, hraw]; rfl)
      have hrounds : (((start + c.len : Nat) : Int) - (start + c.dataEnd : Nat) + (3 + c.schema.getType.width)) /
          (4 + c.schema.getType.width) = (c.fields.length + 1 : Nat) := by
        rw [hraw, if_pos rfl, hlength] at hsize
        have hround := rounds_add_one c.fields.length c.schema.getType
        rwa [← hsize, ← hfooterLen] at hround
      rw [hrounds, Int.toNat_natCast, ← hfields, findInMemoryFrom_entries hsmall _ 1 hfooter.1 ?_ hbegin hfit]
      · cases c.schema.fieldsInfo.find? (·.id = fieldId) with
        | some i => rfl
        | none =>
          dsimp only
          -- the round after the entries takes the raw offset for an id
          have hlast : (Int32.ofNat c.dataEnd + pos + Int32.ofNat (c.schema.fieldsInfo.length * (4 + c.schema.getType.width))).toInt =
              (start + c.len - 4 : Nat) := by
            rw [hfields, ← hlength, toInt32_offset hbegin (toInt32_ofNat (by omega)) (by omega), hsplit]
            rfl
          have hstart : c.rawStart < 2 ^ 31 := by
            have hle : c.rawStart ≤ c.dataEnd := Nat.le_add_right _ _
            omega
          have hnext : Int32.ofNat c.dataEnd + pos + Int32.ofNat (c.schema.fieldsInfo.length * (4 + c.schema.getType.width)) + 4 =
              pos + Int32.ofNat c.len := by
            have hfour : (4 : Int32).toInt = (4 : Nat) := rfl
            have hlen : (Int32.ofNat c.len).toInt = c.len := toInt32_ofNat (by omega)
            refine Int32.toInt_inj.mp ?_
            rw [toInt32_offset hlast hfour (by omega), toInt32_offset hpos hlen (by omega), hsplit]
            rfl
          rw [findInMemoryFrom, unsafeReadInt32_of_holds (by rwa [toInt32_ofNat hstart]) (by omega) hlast, ok_bind, hnext]
          by_cases hid : fieldId = Int32.ofNat c.rawStart
          · rw [if_pos hid, if_pos ⟨rfl, hid⟩]
            cases unsafeRead mem (pos + Int32.ofNat c.len) c.schema.getType.width <;> rfl
          · rw [if_neg hid, if_neg fun h => hid h.2]
            rfl
      · rw [hfields, ← hlength]
        omega

end

/-- An id that no field has, and that is the raw offset of an object with fields
and raw data. -/
def LooksLikeRawOffset (writes : List Write) (fieldId : Int32) : Prop :=
  (fieldWrites writes).find? (·.1 = fieldId) = none ∧ fieldWrites writes ≠ [] ∧ (rawWrites writes).isSome = true ∧
    fieldId = Int32.ofNat (24 + (fieldBytes (fieldWrites writes)).length)

/-- **The search on the memory** agrees with the reader's, except that it fails
where less memory follows the object than lies before it, and that it reads past
the object for an id that looks like the raw offset. -/
theorem findFieldInMemory_written {stream mem after : List UInt8} {typeId : Int32} {reserved : Fin 16 → UInt8}
    {writes : List Write} (h : writeTopObject stream typeId reserved writes = .ok mem) {s s₁ : InteropInputStream}
    {r : ObjectReader} (hs : s.Stands (mem ++ after) (stream.length + 1))
    (hread : readFull (Int32.ofNat stream.length) s = .ok (r, s₁)) (fieldId : Int32) :
    (after.length < stream.length → findFieldInMemory (mem ++ after) (Int32.ofNat stream.length) fieldId =
        .error (.binary (ascii "Not enough data in the binary object"))) ∧
      (stream.length ≤ after.length → LooksLikeRawOffset writes fieldId →
        findFieldInMemory (mem ++ after) (Int32.ofNat stream.length) fieldId =
          (unsafeRead (mem ++ after) (Int32.ofNat mem.length) r.schemaType.width).map fun offset =>
            Int32.ofNat (Bytes.value offset) + Int32.ofNat stream.length) ∧
      (stream.length ≤ after.length → ¬LooksLikeRawOffset writes fieldId →
        onStream (findFieldInMemory (mem ++ after) (Int32.ofNat stream.length) fieldId) = r.findField s fieldId) := by
  have hsmall := hs.small
  have hsplit : (mem ++ after).length = mem.length + after.length := List.length_append
  obtain ⟨hstored, hlength, -⟩ := stored_of_writeTopObject rfl h (by omega)
  have hstored := hstored.append_right after
  have hpos : (Int32.ofNat stream.length).toInt = stream.length := toInt32_ofNat (by omega)
  obtain ⟨r', s₁', hread', -, hr⟩ := readFull_stored hs hstored hpos
  cases hread.symm.trans hread'
  generalize hc : Content.mk (fieldWrites writes) (rawWrites writes) = c at *
  have hfields : c.fields = fieldWrites writes := by rw [← hc]
  have hraw : c.raw = rawWrites writes := by rw [← hc]
  have hbytes : Int32.ofNat stream.length + Int32.ofNat c.len = Int32.ofNat mem.length := by
    rw [hlength, Int32.ofNat_add]
  have hnone : c.schema.fieldsInfo.find? (·.id = fieldId) = none ↔ (fieldWrites writes).find? (·.1 = fieldId) = none := by
    have hvalue := hstored.value hsmall fieldId hpos
    rw [hfields] at hvalue
    cases hfind : (fieldWrites writes).find? (·.1 = fieldId) with
    | none =>
      rw [hfind] at hvalue
      exact iff_of_true hvalue rfl
    | some f =>
      rw [hfind] at hvalue
      obtain ⟨i, q, hentry, -⟩ := hvalue
      rw [hentry]
      exact iff_of_false nofun nofun
  have hlooks : LooksLikeRawOffset writes fieldId ↔ c.schema.fieldsInfo.find? (·.id = fieldId) = none ∧
      (c.hasSchema && c.raw.isSome) = true ∧ fieldId = Int32.ofNat c.rawStart := by
    have hschema : c.hasSchema = true ↔ fieldWrites writes ≠ [] := by
      rw [Content.hasSchema, hfields]
      cases fieldWrites writes <;> simp
    rw [LooksLikeRawOffset, hnone, Bool.and_eq_true, hschema, hraw, and_assoc, Content.rawStart, Content.body, hfields]
    rfl
  rw [findFieldInMemory_stored hstored hsmall hpos, findField_eq hs hstored hr]
  refine ⟨fun hfew => if_pos (by omega), fun hmany hlike => ?_, fun hmany hnot => ?_⟩
  · obtain ⟨hentry, hboth, hid⟩ := hlooks.mp hlike
    rw [if_neg (by omega), hentry]
    dsimp only
    rw [if_pos ⟨hboth, hid⟩, hbytes, hr.schemaType (Bool.and_eq_true_iff.mp hboth).1]
  · rw [if_neg (by omega)]
    have hposEq : Int32.ofNat stream.length = r.pos := Int32.toInt_inj.mp (hpos.trans hr.pos.symm)
    cases hentry : c.schema.fieldsInfo.find? (·.id = fieldId) with
    | some i =>
      rw [← hposEq]
      rfl
    | none =>
      dsimp only
      rw [if_neg fun h => hnot (hlooks.mpr ⟨hentry, h⟩)]
      rfl

theorem findFieldInMemory_written_one :
    ∃ mem, writeTopObject [] 7 (fun _ => 0) [.field 5 [3, 1, 0, 0, 0], .setRawMode, .raw [9]] = .ok mem ∧
      ∃ (r : ObjectReader) (s : InteropInputStream), onStream (findFieldInMemory (mem ++ []) 0 5) = r.findField s 5 ∧
        findFieldInMemory (mem ++ []) 0 29 = .error .outOfBounds := by
  obtain ⟨mem, hmem, hsmall, hlen, r, s₁, hread⟩ : ∃ mem,
      writeTopObject [] 7 (fun _ => 0) [.field 5 [3, 1, 0, 0, 0], .setRawMode, .raw [9]] = .ok mem ∧
        (mem ++ []).length = 39 ∧ (InteropInputStream.ofMemory (mem ++ [])).len.toInt = (mem ++ []).length ∧
          ∃ r s₁, readFull 0 { InteropInputStream.ofMemory (mem ++ []) with pos := 1 } = .ok (r, s₁) :=
    ⟨_, rfl, rfl, rfl, _, _, rfl⟩
  have hs : InteropInputStream.Stands { InteropInputStream.ofMemory (mem ++ []) with pos := 1 } (mem ++ []) 1 :=
    ⟨⟨hlen, by change (0 : Int) ≤ 1; omega, by change (1 : Int) ≤ (mem ++ []).length; omega⟩, rfl, rfl⟩
  have hagree := (findFieldInMemory_written hmem hs hread 5).2.2 (Nat.zero_le _) (fun hlike => absurd hlike.1 (by decide))
  obtain ⟨mem', hmem', hlast⟩ : ∃ mem',
      writeTopObject [] 7 (fun _ => 0) [.field 5 [3, 1, 0, 0, 0], .setRawMode, .raw [9]] = .ok mem' ∧
        findFieldInMemory (mem' ++ []) 0 29 = .error .outOfBounds := ⟨_, rfl, rfl⟩
  cases hmem.symm.trans hmem'
  exact ⟨mem, hmem, r, _, hagree, hlast⟩

end Binary

end DocumentDbOdbc
