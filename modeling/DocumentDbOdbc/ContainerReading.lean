/-
Reading containers: a collection gives its elements in order and ends the
session, and the attributes of a cluster node are found where their values lie.
-/
import DocumentDbOdbc.ContainerFacts

namespace DocumentDbOdbc

open Interop Outcome Slice

namespace Binary

open InteropInputStream

variable {α : Type}

/-- The read takes these bytes and gives this value. -/
def Yields (read : InteropInputStream → Except InputError (α × InteropInputStream)) (bytes : List UInt8) (x : α) : Prop :=
  ∀ ⦃s : InteropInputStream⦄ ⦃mem : List UInt8⦄ ⦃p : Nat⦄, s.Stands mem p → Holds mem p bytes → p + bytes.length ≤ mem.length →
    ∃ s', read s = .ok (x, s') ∧ s'.Stands mem (p + bytes.length)

/-- What `WriteString` writes, with the header before it. -/
def stringBytes (text : Str) : List UInt8 := documentdbTypeString :: (leBytes 4 text.length ++ text)

theorem yields_readTopString (text : Str) : Yields readTopString (stringBytes text) text := by
  intro s mem p hs hheld hle
  have hsmall := hs.small
  obtain ⟨s₁, hread₁, hs₁, hheld⟩ := hs.header hheld hle
  rw [stringBytes, List.length_cons, List.length_append, length_leBytes] at hle ⊢
  obtain ⟨s₂, hread₂, hs₂, hheld⟩ := hs₁.count hheld (by rw [List.length_append, length_leBytes]; omega) (by omega)
  have hlen : (Int32.ofNat text.length).toInt = text.length := toInt32_ofNat (by omega)
  have hread : readTopString s =
      if 0 < Int32.ofNat text.length then onStream (s₂.readInt8Array (Int32.ofNat text.length)) else .ok ([], s₂) := by
    rw [readTopString, hread₁, onStream_ok, ok_bind]
    dsimp only
    rw [if_pos rfl, hread₂]
    rfl
  rw [hread]
  rw [show p + (4 + text.length + 1) = p + 1 + 4 + text.length by omega]
  split
  · obtain ⟨s₃, hread₃, hs₃⟩ := hs₂.read hheld (by omega) (Int32.ofNat text.length) hlen
    refine ⟨s₃, ?_, hs₃⟩
    rw [readInt8Array, InteropInputStream.readArray, Int32.shiftLeft_zero, hread₃]
    rfl
  · next hzero =>
    rw [Int32.lt_iff_toInt_lt, hlen] at hzero
    have hnil : text = [] := by
      change ¬(0 : Int) < text.length at hzero
      exact List.eq_nil_of_length_eq_zero (by omega)
    subst hnil
    exact ⟨s₂, rfl, hs₂⟩

/-! ## Collections -/

namespace ContainerReader

/-- In raw mode and in no session. -/
structure Ready (r : ContainerReader) : Prop where
  raw : r.rawMode = true
  single : r.elemId = 0

section

variable {read : InteropInputStream → Except InputError (α × InteropInputStream)} {id : Int32}

/-- The rest of a session: the elements that are left, and no session after
them. -/
theorem readElements_yields (hid : id ≠ 0) : ∀ {xs : List (List UInt8 × α)} {r : ContainerReader} {s : InteropInputStream}
    {mem : List UInt8} {p : Nat}, xs ≠ [] → (∀ x ∈ xs, Yields read x.1 x.2) → r.elemId = id →
      0 ≤ r.elemRead.toInt → r.elemRead.toInt + xs.length = r.elemCnt.toInt → s.Stands mem p →
      Holds mem p (xs.flatMap (·.1)) → p + (xs.flatMap (·.1)).length ≤ mem.length →
      ∃ r' s', readElements read id xs.length r s = .ok (xs.map (·.2), r', s') ∧ r'.elemId = 0 ∧ r'.rawMode = r.rawMode ∧
        r'.elemIdGen = r.elemIdGen ∧ s'.Stands mem (p + (xs.flatMap (·.1)).length)
  | [], _, _, _, _, hne, _, _, _, _, _, _, _ => absurd rfl hne
  | x :: xs, r, s, mem, p, _, hyields, hr, hnonneg, hcnt, hs, hheld, hle => by
    rw [List.flatMap_cons] at hheld hle ⊢
    rw [List.length_append] at hle ⊢
    rw [List.length_cons] at hcnt
    obtain ⟨hfirst, hrest⟩ := holds_append.mp hheld
    have hmax := r.elemCnt.toInt_lt
    have hone : (r.elemRead + 1).toInt = r.elemRead.toInt + 1 :=
      toInt32_add (by change -2147483648 ≤ r.elemRead.toInt + 1; omega) (by change r.elemRead.toInt + 1 < 2147483648; omega)
    have hnext : r.hasNextElement id = true := decide_eq_true ⟨hr, Int32.lt_iff_toInt_lt.mpr (by omega)⟩
    obtain ⟨s₁, hread, hs₁⟩ := hyields x List.mem_cons_self hs hfirst (by omega)
    have helement : r.readElement read id s = .ok (x.2, r.advance, s₁) := by
      rw [readElement, checkSession, if_neg (fun h => h hr), ok_bind, hread]
      rfl
    have hstep : readElements read id (xs.length + 1) r s =
        (readElements read id xs.length r.advance s₁ >>= fun y => .ok (x.2 :: y.1, y.2.1, y.2.2)) := by
      rw [readElements, if_pos hnext, helement]
      rfl
    rw [List.length_cons, List.map_cons, hstep]
    have hlast : r.elemRead + 1 = r.elemCnt ↔ xs = [] := by
      rw [← Int32.toInt_inj, hone, ← List.length_eq_zero_iff]
      omega
    rw [← Nat.add_assoc]
    by_cases hnil : xs = []
    · -- the last element ends the session
      have hadvance : r.advance = { r with elemId := 0, elemCnt := -1, elemRead := 0 } := if_pos (hlast.mpr hnil)
      subst hnil
      exact ⟨r.advance, s₁, rfl, by rw [hadvance], by rw [hadvance], by rw [hadvance], hs₁⟩
    · have hadvance : r.advance = { r with elemRead := r.elemRead + 1 } := if_neg fun h => hnil (hlast.mp h)
      obtain ⟨r', s', hread', hid', hraw', hgen', hs'⟩ := readElements_yields hid (r := r.advance) hnil
        (fun y hy => hyields y (List.mem_cons_of_mem x hy)) (by rw [hadvance]; exact hr)
        (by rw [hadvance]; change 0 ≤ (r.elemRead + 1).toInt; omega)
        (by rw [hadvance]; change (r.elemRead + 1).toInt + _ = r.elemCnt.toInt; omega) hs₁ hrest (by omega)
      refine ⟨r', s', by rw [hread']; rfl, hid', ?_, ?_, hs'⟩
      · rw [hraw', hadvance]
      · rw [hgen', hadvance]

end

/-- What `WriteCollection` writes of elements with these bytes. -/
def collectionBytes (typ : UInt8) (elements : List (List UInt8)) : List UInt8 :=
  24 :: (leBytes 4 elements.length ++ typ :: elements.flatten)

theorem length_le_collectionBytes (typ : UInt8) (elements : List (List UInt8)) (h : ∀ b ∈ elements, b ≠ []) :
    elements.length ≤ (collectionBytes typ elements).length := by
  have hsum : elements.length ≤ elements.flatten.length := by
    rw [List.length_flatten, ← List.length_map List.length]
    refine List.length_le_sum_of_one_le _ fun n hn => ?_
    obtain ⟨b, hb, rfl⟩ := List.mem_map.mp hn
    exact List.length_pos_iff.mpr (h b hb)
  rw [collectionBytes, List.length_cons, List.length_append, List.length_cons]
  omega

/-- **Reading a collection** gives its elements in order and ends in no
session. -/
theorem readCollection_yields {read : InteropInputStream → Except InputError (α × InteropInputStream)} {typ : UInt8}
    {xs : List (List UInt8 × α)} (hyields : ∀ x ∈ xs, Yields read x.1 x.2) (hfew : xs.length < 2 ^ 31) {r : ContainerReader}
    (hr : r.Ready) (hgen : r.elemIdGen + 1 ≠ 0) {s : InteropInputStream} {mem : List UInt8} {p : Nat} (hs : s.Stands mem p)
    (hheld : Holds mem p (collectionBytes typ (xs.map (·.1))))
    (hle : p + (collectionBytes typ (xs.map (·.1))).length ≤ mem.length) :
    ∃ r' s', r.readCollection read s = .ok (xs.map (·.2), Int32.ofNat xs.length, r', s') ∧ r'.Ready ∧
      r'.elemIdGen = r.elemIdGen + 1 ∧ s'.Stands mem (p + (collectionBytes typ (xs.map (·.1))).length) := by
  have hsmall := hs.small
  obtain ⟨s₁, hread₁, hs₁, hheld⟩ := hs.header hheld hle
  have hbytes : (xs.map (·.1)).flatten = xs.flatMap (·.1) := List.flatMap_def.symm
  rw [collectionBytes, List.length_cons, List.length_append, length_leBytes, List.length_cons, hbytes] at hle
  rw [List.length_map, hbytes] at hheld
  obtain ⟨s₂, hread₂, hs₂, hheld⟩ :=
    hs₁.count hheld (by rw [List.length_append, length_leBytes, List.length_cons]; omega) hfew
  obtain ⟨s₃, hread₃, hs₃, hheld⟩ := hs₂.header hheld (by rw [List.length_cons]; omega)
  have hcnt : (Int32.ofNat xs.length).toInt = xs.length := toInt32_ofNat hfew
  have hraw : r.checkRawMode true = .ok () := by rw [checkRawMode, hr.raw]; rfl
  have hsingle : r.checkSingleMode true = .ok () := by rw [checkSingleMode, hr.single]; rfl
  have hend : p + (collectionBytes typ (xs.map (·.1))).length = p + 1 + 4 + 1 + (xs.flatMap (·.1)).length := by
    rw [collectionBytes, List.length_cons, List.length_append, length_leBytes, List.length_cons, hbytes]
    omega
  rw [hend]
  have hhdr : (24 : UInt8) = (ContainerType.collection 0).hdr := rfl
  have hsize : Int32.ofNat xs.length ≠ -1 := fun h => by
    have hneg := congrArg Int32.toInt h
    rw [hcnt] at hneg
    change (xs.length : Int) = -1 at hneg
    omega
  cases xs with
  | nil =>
    have hstart : r.startContainerSession true (ContainerType.collection 0).hdr s =
        .ok ⟨r.elemIdGen + 1, 0, { r with elemIdGen := r.elemIdGen + 1 }, s₂⟩ := by
      rw [startContainerSession, hraw, ok_bind, hsingle, ok_bind, hread₁, onStream_ok, ok_bind]
      dsimp only
      rw [if_pos hhdr, hread₂]
      rfl
    refine ⟨{ r with elemIdGen := r.elemIdGen + 1 }, s₃, ?_, ⟨hr.raw, hr.single⟩, rfl, hs₃⟩
    rw [readCollection, hstart, ok_bind]
    dsimp only
    rw [if_pos (show (0 : Int32) ≠ -1 by decide), hread₃]
    rfl
  | cons x xs =>
    have hne : Int32.ofNat (x :: xs).length ≠ 0 := fun h => by
      have hzero := congrArg Int32.toInt h
      rw [hcnt, List.length_cons] at hzero
      change ((xs.length + 1 : Nat) : Int) = 0 at hzero
      omega
    have hstart : r.startContainerSession true (ContainerType.collection 0).hdr s =
        .ok ⟨r.elemIdGen + 1, Int32.ofNat (x :: xs).length,
          { r with elemIdGen := r.elemIdGen + 1, elemId := r.elemIdGen + 1, elemCnt := Int32.ofNat (x :: xs).length,
                   elemRead := 0 }, s₂⟩ := by
      rw [startContainerSession, hraw, ok_bind, hsingle, ok_bind, hread₁, onStream_ok, ok_bind]
      dsimp only
      rw [if_pos hhdr, hread₂, onStream_ok, ok_bind]
      dsimp only
      rw [if_pos hne]
    obtain ⟨r', s', hread, hid, hraw', hgen', hs'⟩ := readElements_yields hgen
      (r := { r with elemIdGen := r.elemIdGen + 1, elemId := r.elemIdGen + 1, elemCnt := Int32.ofNat (x :: xs).length,
                     elemRead := 0 })
      (List.cons_ne_nil x xs) hyields rfl (Int.le_refl 0) (by rw [hcnt]; exact Int.zero_add _) hs₃ hheld (by omega)
    refine ⟨r', s', ?_, ⟨hraw'.trans hr.raw, hid⟩, hgen', hs'⟩
    rw [readCollection, hstart, ok_bind]
    dsimp only
    rw [if_pos hsize, hread₃, hcnt, Int.toNat_natCast]
    change (readElements read _ _ _ _ >>= _) = _
    rw [hread]
    rfl

/-- The same of strings. -/
theorem readCollection_strings {typ : UInt8} {texts : List Str} {r : ContainerReader} (hr : r.Ready) (hgen : r.elemIdGen + 1 ≠ 0)
    {s : InteropInputStream} {mem : List UInt8} {p : Nat} (hs : s.Stands mem p)
    (hheld : Holds mem p (collectionBytes typ (texts.map stringBytes)))
    (hle : p + (collectionBytes typ (texts.map stringBytes)).length ≤ mem.length) :
    ∃ r' s', r.readCollection readTopString s = .ok (texts, Int32.ofNat texts.length, r', s') ∧ r'.Ready ∧
      r'.elemIdGen = r.elemIdGen + 1 ∧ s'.Stands mem (p + (collectionBytes typ (texts.map stringBytes)).length) := by
  have hsmall := hs.small
  have hfst : (texts.map fun text => (stringBytes text, text)).map (·.1) = texts.map stringBytes := by
    rw [List.map_map]
    rfl
  have hsnd : (texts.map fun text => (stringBytes text, text)).map (·.2) = texts := by
    rw [List.map_map]
    exact List.map_id texts
  have hyields : ∀ x ∈ texts.map fun text => (stringBytes text, text), Yields readTopString x.1 x.2 := fun x hx => by
    obtain ⟨text, -, rfl⟩ := List.mem_map.mp hx
    exact yields_readTopString text
  have hlength := length_le_collectionBytes typ (texts.map stringBytes) fun b hb => by
    obtain ⟨text, -, rfl⟩ := List.mem_map.mp hb
    exact List.cons_ne_nil _ _
  rw [List.length_map] at hlength
  have hread := readCollection_yields hyields (by rw [List.length_map]; omega) hr hgen hs (by rw [hfst]; exact hheld)
    (by rw [hfst]; exact hle)
  rwa [hfst, hsnd, List.length_map] at hread

end ContainerReader

/-! ## The nodes of a cluster -/

namespace ClusterNode

/-- The names and values of the attributes. -/
def attributesBytes (attrs : List (Str × Value)) : List UInt8 := attrs.flatMap fun a => stringBytes a.1 ++ a.2.bytes

/-- The index has every name, at the first value of that name, and no others. -/
def Indexed (mem : List UInt8) (index : List (Str × Int32)) (attrs : List (Str × Value)) : Prop :=
  ∀ name, match attrs.find? (·.1 = name) with
    | none => findAttribute index name = none
    | some a => ∃ q, findAttribute index name = some (Int32.ofNat q) ∧ Holds mem q a.2.bytes ∧ q + a.2.bytes.length ≤ mem.length

theorem findAttribute_insertAttribute (index : List (Str × Int32)) (name : Str) (pos : Int32) (name' : Str) :
    findAttribute (insertAttribute index name pos) name' =
      (findAttribute index name').or (if name = name' then some pos else none) := by
  unfold insertAttribute
  cases hfind : findAttribute index name with
  | some q =>
    rw [Option.isSome_some, if_pos rfl]
    by_cases hname : name = name'
    · rw [← hname, hfind]
      rfl
    · rw [if_neg hname, Option.or_none]
  | none =>
    rw [Option.isSome_none, if_neg Bool.false_ne_true, findAttribute, findAttribute, List.find?_append]
    cases index.find? (·.1 = name') with
    | some e => rfl
    | none =>
      by_cases hname : name = name'
      · rw [List.find?_cons_of_pos (by simpa using hname), if_pos hname]
        rfl
      · rw [List.find?_cons_of_neg (by simpa using hname), if_neg hname]
        rfl

theorem Indexed.insert {mem : List UInt8} {index : List (Str × Int32)} {attrs : List (Str × Value)}
    (h : Indexed mem index attrs) (name : Str) {value : Value} {q : Nat} (hheld : Holds mem q value.bytes)
    (hle : q + value.bytes.length ≤ mem.length) :
    Indexed mem (insertAttribute index name (Int32.ofNat q)) (attrs ++ [(name, value)]) := by
  intro name'
  have hold := h name'
  rw [List.find?_append, findAttribute_insertAttribute]
  cases hfind : attrs.find? (·.1 = name') with
  | some a =>
    rw [hfind] at hold
    obtain ⟨q', hindex, hrest⟩ := hold
    exact ⟨q', by rw [hindex]; rfl, hrest⟩
  | none =>
    rw [hfind] at hold
    dsimp only at hold
    rw [hold, Option.none_or, Option.none_or]
    by_cases hname : name = name'
    · rw [if_pos hname, List.find?_cons_of_pos (by simpa using hname)]
      exact ⟨q, rfl, hheld, hle⟩
    · rw [if_neg hname, List.find?_cons_of_neg (by simpa using hname)]
      rfl

theorem readAttributes_yields {depth : Nat} {mem : List UInt8} : ∀ {attrs done : List (Str × Value)} {index : List (Str × Int32)}
    {s : InteropInputStream} {p : Nat}, (∀ a ∈ attrs, a.2.depth ≤ depth) → Indexed mem index done → s.Stands mem p →
      Holds mem p (attributesBytes attrs) → p + (attributesBytes attrs).length ≤ mem.length →
      ∃ index' s', readAttributes (depth + 1) attrs.length index s = .ok (index', s') ∧ Indexed mem index' (done ++ attrs) ∧
        s'.Stands mem (p + (attributesBytes attrs).length)
  | [], done, index, s, p, _, hindex, hs, _, _ => ⟨index, s, rfl, by rwa [List.append_nil], hs⟩
  | a :: attrs, done, index, s, p, hdepth, hindex, hs, hheld, hle => by
    rw [attributesBytes, List.flatMap_cons] at hheld hle ⊢
    rw [List.append_assoc, List.length_append, List.length_append] at hle ⊢
    rw [List.append_assoc] at hheld
    obtain ⟨hname, hheld⟩ := holds_append.mp hheld
    obtain ⟨hvalue, hrest⟩ := holds_append.mp hheld
    have hsmall := hs.small
    obtain ⟨s₁, hread₁, hs₁⟩ := yields_readTopString a.1 hs hname (by omega)
    obtain ⟨s₂, hskip, hs₂⟩ := skips_value a.2 (hdepth a List.mem_cons_self) hs₁ hvalue (by omega)
    have hpos : s₁.pos = Int32.ofNat (p + (stringBytes a.1).length) :=
      Int32.toInt_inj.mp (hs₁.pos.trans (toInt32_ofNat (by omega)).symm)
    have hinserted := hindex.insert a.1 hvalue (by omega)
    obtain ⟨index', s', hread', hindex', hs'⟩ := readAttributes_yields (fun b hb => hdepth b (List.mem_cons_of_mem a hb))
      hinserted hs₂ hrest (by rw [attributesBytes]; omega)
    refine ⟨index', s', ?_, by rwa [List.append_assoc] at hindex', ?_⟩
    · rw [List.length_cons, readAttributes, hread₁, ok_bind]
      dsimp only
      rw [hskip, ok_bind, hpos, hread']
    · rwa [attributesBytes, Nat.add_assoc, Nat.add_assoc] at hs'

/-- The bytes of the attributes, addresses and hosts of a node. -/
def nodeBytes (attrs : List (Str × Value)) (addrs hosts : List Str) (typ typ' : UInt8) : List UInt8 :=
  leBytes 4 attrs.length ++ (attributesBytes attrs ++
    (ContainerReader.collectionBytes typ (addrs.map stringBytes) ++ ContainerReader.collectionBytes typ' (hosts.map stringBytes)))

theorem length_le_attributesBytes (attrs : List (Str × Value)) : attrs.length ≤ (attributesBytes attrs).length := by
  induction attrs with
  | nil => exact Nat.le_refl 0
  | cons a attrs ih =>
    have hpos := a.2.bytes_pos
    rw [attributesBytes, List.flatMap_cons, List.length_append, List.length_append, List.length_cons]
    rw [attributesBytes] at ih
    omega

end ClusterNode

end Binary

end DocumentDbOdbc
