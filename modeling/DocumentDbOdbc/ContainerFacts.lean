/-
Values, and what the container code makes of them.

`Value` is what may stand in the place of one value, containers in containers
included. `skip_value`: skipping takes the bytes of the value, all of them and
no others.
-/
import DocumentDbOdbc.Container
import DocumentDbOdbc.ObjectLookup

namespace DocumentDbOdbc

open Interop Outcome Slice

namespace Interop

namespace InteropInputStream

variable {s : InteropInputStream} {mem rest : List UInt8} {p n : Nat}

theorem Stands.ignore (h : s.Stands mem p) {cnt : Int32} (hcnt : cnt.toInt = n) (hle : p + n ≤ mem.length) :
    (s.ignore cnt).Stands mem (p + n) := by
  have hsmall := h.small
  have hspos := h.pos
  have hpos : (s.ignore cnt).pos.toInt = p + n := by
    rw [InteropInputStream.ignore, shift, toInt32_add (by omega) (by omega), hspos, hcnt]
  refine ⟨⟨h.bounds.len, by omega, ?_⟩, h.data, by rw [hpos]; push_cast; rfl⟩
  rw [hpos]
  change _ ≤ (s.data.length : Int)
  rw [h.data]
  exact_mod_cast hle

/-- A byte and what follows it. -/
theorem Stands.header {x : UInt8} (h : s.Stands mem p) (hheld : Holds mem p (x :: rest))
    (hle : p + (x :: rest).length ≤ mem.length) :
    ∃ s', s.readInt8 = .ok (x, s') ∧ s'.Stands mem (p + 1) ∧ Holds mem (p + 1) rest := by
  rw [List.length_cons] at hle
  have hsplit := (holds_append (l := [x])).mp hheld
  obtain ⟨s', hread, hstands⟩ := h.readInt8 hsplit.1 (by omega)
  exact ⟨s', hread, hstands, hsplit.2⟩

/-- A count and what follows it. -/
theorem Stands.count (h : s.Stands mem p) (hheld : Holds mem p (leBytes 4 n ++ rest))
    (hle : p + (leBytes 4 n ++ rest).length ≤ mem.length) (hn : n < 2 ^ 31) :
    ∃ s', s.readInt32 = .ok (Int32.ofNat n, s') ∧ s'.Stands mem (p + 4) ∧ Holds mem (p + 4) rest := by
  rw [List.length_append, length_leBytes] at hle
  have hsplit := holds_append.mp hheld
  rw [length_leBytes] at hsplit
  obtain ⟨s', hread, hstands⟩ := h.readInt32_natCast hsplit.1 (by omega) hn
  exact ⟨s', hread, hstands, hsplit.2⟩

end InteropInputStream

end Interop

namespace Binary

open InteropInputStream

/-! ## Values -/

/-- The bytes of an object: its length is where a reader looks for it. -/
structure IsObject (bytes : List UInt8) : Prop where
  hdr : Holds bytes 0 [documentdbTypeObject]
  len : Holds bytes 12 (leBytes 4 bytes.length)
  size : 24 ≤ bytes.length

mutual

/-- What stands in the place of a value. -/
inductive Value where
  | null
  | fixed (hdr : UInt8) (payload : List UInt8) (h : layout hdr = .fixed payload.length)
  | sized (hdr : UInt8) (width count : Nat) (payload : List UInt8) (h : layout hdr = .sized width)
      (hlength : payload.length = count * width)
  | marshalled (payload : List UInt8)
  | decimal (scale : Int32) (magnitude : List UInt8)
  | elements (hdr : UInt8) (values : Values) (h : layout hdr = .elements)
  | collection (typ : UInt8) (values : Values)
  | map (typ : UInt8) (entries : Entries)
  | wrapped (payload : List UInt8) (offset : Int32)
  | object (bytes : List UInt8) (h : IsObject bytes)

inductive Values where
  | nil
  | cons (value : Value) (values : Values)

inductive Entries where
  | nil
  | cons (key value : Value) (entries : Entries)

end

def Values.length : Values → Nat
  | .nil => 0
  | .cons _ values => values.length + 1

def Entries.length : Entries → Nat
  | .nil => 0
  | .cons _ _ entries => entries.length + 1

mutual

def Value.bytes : Value → List UInt8
  | .null => [documentdbHdrNull]
  | .fixed hdr payload _ => hdr :: payload
  | .sized hdr _ count payload _ _ => hdr :: (leBytes 4 count ++ payload)
  | .marshalled payload => 254 :: (leBytes 4 payload.length ++ payload)
  | .decimal scale magnitude => 30 :: (leBytes 4 scale.toInt ++ (leBytes 4 magnitude.length ++ magnitude))
  | .elements hdr values _ => hdr :: (leBytes 4 values.length ++ values.bytes)
  | .collection typ values => 24 :: (leBytes 4 values.length ++ typ :: values.bytes)
  | .map typ entries => 25 :: (leBytes 4 entries.length ++ typ :: entries.bytes)
  | .wrapped payload offset => documentdbTypeBinary :: (leBytes 4 payload.length ++ (payload ++ leBytes 4 offset.toInt))
  | .object bytes _ => bytes

def Values.bytes : Values → List UInt8
  | .nil => []
  | .cons value values => value.bytes ++ values.bytes

def Entries.bytes : Entries → List UInt8
  | .nil => []
  | .cons key value entries => key.bytes ++ (value.bytes ++ entries.bytes)

end

mutual

/-- How deep containers stand inside one another. -/
def Value.depth : Value → Nat
  | .elements _ values _ => values.depth + 1
  | .collection _ values => values.depth + 1
  | .map _ entries => entries.depth + 1
  | _ => 0

def Values.depth : Values → Nat
  | .nil => 0
  | .cons value values => max value.depth values.depth

def Entries.depth : Entries → Nat
  | .nil => 0
  | .cons key value entries => max key.depth (max value.depth entries.depth)

end

theorem Value.bytes_pos (v : Value) : 0 < v.bytes.length := by
  cases v with
  | object bytes h =>
    have hsize := h.size
    rw [Value.bytes]
    omega
  | _ => rw [Value.bytes]; exact Nat.succ_pos _

theorem Values.length_le : (values : Values) → values.length ≤ values.bytes.length
  | .nil => Nat.le_refl 0
  | .cons value values => by
    have ih := values.length_le
    have hpos := value.bytes_pos
    rw [Values.length, Values.bytes, List.length_append]
    omega

theorem Entries.length_le : (entries : Entries) → entries.length ≤ entries.bytes.length
  | .nil => Nat.le_refl 0
  | .cons key value entries => by
    have ih := entries.length_le
    have hpos := key.bytes_pos
    rw [Entries.length, Entries.bytes, List.length_append, List.length_append]
    omega

/-! ## Skipping -/

/-- The step takes these bytes. -/
def Takes (step : InteropInputStream → Except InputError InteropInputStream) (bytes : List UInt8) : Prop :=
  ∀ ⦃s : InteropInputStream⦄ ⦃mem : List UInt8⦄ ⦃p : Nat⦄, s.Stands mem p → Holds mem p bytes → p + bytes.length ≤ mem.length →
    ∃ s', step s = .ok s' ∧ s'.Stands mem (p + bytes.length)

theorem Takes.bind {f g : InteropInputStream → Except InputError InteropInputStream} {bytes bytes' : List UInt8}
    (hf : Takes f bytes) (hg : Takes g bytes') : Takes (fun s => f s >>= g) (bytes ++ bytes') := by
  intro s mem p hs hheld hle
  obtain ⟨hfirst, hsecond⟩ := holds_append.mp hheld
  rw [List.length_append] at hle ⊢
  obtain ⟨s₁, hstep₁, hs₁⟩ := hf hs hfirst (by omega)
  obtain ⟨s₂, hstep₂, hs₂⟩ := hg hs₁ hsecond (by omega)
  refine ⟨s₂, ?_, by rwa [← Nat.add_assoc]⟩
  dsimp only
  rw [hstep₁, ok_bind, hstep₂]

theorem takes_repeatRead_zero (f : InteropInputStream → Except InputError InteropInputStream) : Takes (repeatRead f 0) [] :=
  fun _ _ _ hs _ _ => ⟨_, rfl, hs⟩

theorem takes_repeatRead_succ {f : InteropInputStream → Except InputError InteropInputStream} {n : Nat}
    {bytes bytes' : List UInt8} (hf : Takes f bytes) (hrest : Takes (repeatRead f n) bytes') :
    Takes (repeatRead f (n + 1)) (bytes ++ bytes') :=
  hf.bind hrest

section

variable {depth : Nat} {hdr : UInt8} {bytes : List UInt8}

/-- After the header, the case of its layout. -/
theorem skips_of_layout {body : List UInt8}
    (h : ∀ {s : InteropInputStream} {mem : List UInt8} {p : Nat}, s.Stands mem p → Holds mem p body →
      p + body.length ≤ mem.length → ∀ s₀ : InteropInputStream, s₀.readInt8 = .ok (hdr, s) →
        ∃ s', skip (depth + 1) s₀ = .ok s' ∧ s'.Stands mem (p + body.length)) : Takes (skip (depth + 1)) (hdr :: body) := by
  intro s mem p hs hheld hle
  obtain ⟨s₁, hread, hs₁, hbody⟩ := hs.header hheld hle
  rw [List.length_cons] at hle ⊢
  obtain ⟨s', hskip, hs'⟩ := h hs₁ hbody (by omega) s hread
  exact ⟨s', hskip, by rwa [show p + (body.length + 1) = p + 1 + body.length by omega]⟩

/-- After the header a count, and what is done with it. -/
theorem skips_of_count {n : Nat} {step : InteropInputStream → Except InputError InteropInputStream} (hn : n ≤ bytes.length)
    (hskip : ∀ {s₀ s s₁ : InteropInputStream}, s₀.readInt8 = .ok (hdr, s) → s.readInt32 = .ok (Int32.ofNat n, s₁) →
      n < 2 ^ 31 → skip (depth + 1) s₀ = step s₁) (hstep : Takes step bytes) :
    Takes (skip (depth + 1)) (hdr :: (leBytes 4 n ++ bytes)) := by
  refine skips_of_layout fun {s mem p} hs hheld hle s₀ hread => ?_
  have hsmall := hs.small
  have hlength : (leBytes 4 n ++ bytes).length = 4 + bytes.length := by rw [List.length_append, length_leBytes]
  obtain ⟨s₁, hread₁, hs₁, hheld₁⟩ := hs.count hheld hle (by omega)
  rw [hlength] at hle ⊢
  obtain ⟨s', hdone, hs'⟩ := hstep hs₁ hheld₁ (by omega)
  exact ⟨s', (hskip hread hread₁ (by omega)).trans hdone, by rwa [← Nat.add_assoc]⟩

theorem takes_ignore {cnt : Int32} (hcnt : bytes.length < 2 ^ 31 → cnt.toInt = bytes.length) :
    Takes (fun s => .ok (s.ignore cnt)) bytes := by
  intro s mem p hs _ hle
  have hsmall := hs.small
  exact ⟨s.ignore cnt, rfl, hs.ignore (hcnt (by omega)) hle⟩

/-- A collection and a map have one more byte after the count. -/
theorem takes_ignored {n : Nat} {typ : UInt8} {f : InteropInputStream → Except InputError InteropInputStream}
    (hrest : Takes (repeatRead f n) bytes) : Takes (fun s => repeatRead f n (s.ignore 1)) (typ :: bytes) := by
  have htyp : Takes (fun s => .ok (s.ignore 1)) [typ] := takes_ignore fun _ => rfl
  exact htyp.bind hrest

theorem skips_null : Takes (skip (depth + 1)) [documentdbHdrNull] := by
  refine skips_of_layout fun {s mem p} hs _ _ s₀ hread => ⟨s, ?_, hs⟩
  rw [skip, hread]
  rfl

theorem skips_fixed {payload : List UInt8} (h : layout hdr = .fixed payload.length) :
    Takes (skip (depth + 1)) (hdr :: payload) := by
  refine skips_of_layout fun {s mem p} hs _ hle s₀ hread => ?_
  have hsmall := hs.small
  refine ⟨_, ?_, hs.ignore (toInt32_ofNat (n := payload.length) (by omega)) hle⟩
  rw [skip, hread, onStream_ok, ok_bind]
  dsimp only
  rw [h]

theorem layout_sized_pos {width : Nat} (h : layout hdr = .sized width) : 0 < width := by
  refine Nat.pos_of_ne_zero fun hzero => ?_
  have hall : ∀ n < 256, layout (UInt8.ofNat n) ≠ .sized 0 := by decide +kernel
  exact hall hdr.toNat hdr.toNat_lt (by rw [UInt8.ofNat_toNat, h, hzero])

theorem skips_sized {width count : Nat} {payload : List UInt8} (h : layout hdr = .sized width)
    (hlength : payload.length = count * width) : Takes (skip (depth + 1)) (hdr :: (leBytes 4 count ++ payload)) := by
  have hcount : count ≤ payload.length := hlength ▸ Nat.le_mul_of_pos_right count (layout_sized_pos h)
  have hpayload : Takes (fun s => .ok (if 0 < Int32.ofNat count then s.ignore (Int32.ofNat count * Int32.ofNat width) else s))
      payload := by
    intro s mem p hs _ hle
    have hsmall := hs.small
    refine ⟨_, rfl, ?_⟩
    split
    · have hbytes : (Int32.ofNat count * Int32.ofNat width).toInt = payload.length := by
        rw [← Int32.ofNat_mul, ← hlength]
        exact toInt32_ofNat (by omega)
      exact hs.ignore hbytes hle
    · next hzero =>
      -- no elements, no bytes
      rw [Int32.lt_iff_toInt_lt, toInt32_ofNat (by omega)] at hzero
      have hnone : count = 0 := by
        change ¬(0 : Int) < count at hzero
        omega
      rw [hlength, hnone, Nat.zero_mul, Nat.add_zero]
      exact hs
  refine skips_of_count hcount (fun hread hread₁ _ => ?_) hpayload
  rw [skip, hread, onStream_ok, ok_bind]
  dsimp only
  rw [h]
  dsimp only
  rw [hread₁]
  rfl

theorem skips_marshalled (payload : List UInt8) : Takes (skip (depth + 1)) (254 :: (leBytes 4 payload.length ++ payload)) := by
  refine skips_of_count (Nat.le_refl _) (fun hread hread₁ _ => ?_) (takes_ignore toInt32_ofNat)
  rw [skip, hread, onStream_ok, ok_bind]
  dsimp only
  rw [show layout 254 = .marshalled from rfl]
  dsimp only
  rw [hread₁]
  rfl

theorem skips_decimal (scale : Int32) (magnitude : List UInt8) :
    Takes (skip (depth + 1)) (30 :: (leBytes 4 scale.toInt ++ (leBytes 4 magnitude.length ++ magnitude))) := by
  refine skips_of_layout fun {s mem p} hs hheld hle s₀ hread => ?_
  have hsmall := hs.small
  obtain ⟨-, hheld⟩ := holds_append.mp hheld
  rw [length_leBytes] at hheld
  rw [List.length_append, List.length_append, length_leBytes, length_leBytes] at hle ⊢
  have hs₁ := hs.ignore (n := 4) (show (4 : Int32).toInt = (4 : Nat) from rfl) (by omega)
  obtain ⟨s₂, hread₂, hs₂, -⟩ := hs₁.count hheld (by rw [List.length_append, length_leBytes]; omega) (by omega)
  refine ⟨s₂.ignore (Int32.ofNat magnitude.length), ?_, ?_⟩
  · rw [skip, hread, onStream_ok, ok_bind]
    dsimp only
    rw [show layout 30 = .decimal from rfl]
    dsimp only
    rw [hread₂]
    rfl
  · rw [show p + (4 + (4 + magnitude.length)) = p + 4 + 4 + magnitude.length by omega]
    exact hs₂.ignore (toInt32_ofNat (by omega)) (by omega)

theorem skips_wrapped (payload : List UInt8) (offset : Int32) :
    Takes (skip (depth + 1)) (documentdbTypeBinary :: (leBytes 4 payload.length ++ (payload ++ leBytes 4 offset.toInt))) := by
  have hlength : (payload ++ leBytes 4 offset.toInt).length = payload.length + 4 := by rw [List.length_append, length_leBytes]
  have hpayload : Takes (fun s => .ok (s.ignore (Int32.ofNat payload.length + 4))) (payload ++ leBytes 4 offset.toInt) := by
    refine takes_ignore fun hsmall => ?_
    rw [hlength] at hsmall ⊢
    rw [show (4 : Int32) = Int32.ofNat 4 from rfl, ← Int32.ofNat_add]
    exact toInt32_ofNat hsmall
  refine skips_of_count (by omega) (fun hread hread₁ _ => ?_) hpayload
  rw [skip, hread, onStream_ok, ok_bind]
  dsimp only
  rw [show layout documentdbTypeBinary = .wrapped from rfl]
  dsimp only
  rw [hread₁]
  rfl

theorem skips_object {bytes : List UInt8} (h : IsObject bytes) : Takes (skip (depth + 1)) bytes := by
  intro s mem p hs hheld hle
  have hsmall := hs.small
  have hsize := h.size
  obtain ⟨s₁, hread, hs₁⟩ := hs.readInt8 (hheld.sub h.hdr (by omega)) (by omega)
  rw [Nat.add_zero] at hs₁
  have hbegin : s₁.pos - 1 = Int32.ofNat p := by
    have hpos := hs₁.pos
    have hp : (Int32.ofNat p).toInt = p := toInt32_ofNat (by omega)
    refine Int32.toInt_inj.mp ?_
    rw [toInt32_sub (by rw [hpos]; change -2147483648 ≤ ((p + 1 : Nat) : Int) - 1; omega)
      (by rw [hpos]; change ((p + 1 : Nat) : Int) - 1 < 2147483648; omega), hpos, hp]
    change ((p + 1 : Nat) : Int) - 1 = p
    omega
  have hadd : ∀ n, p + n ≤ mem.length → (Int32.ofNat p + Int32.ofNat n).toInt = (p + n : Nat) := fun n hn => by
    rw [← Int32.ofNat_add]
    exact toInt32_ofNat (by omega)
  have hlen : (Int32.ofNat bytes.length).toInt = bytes.length := toInt32_ofNat (by omega)
  have hread₁ : s₁.readInt32At (Int32.ofNat p + 12) = .ok (Int32.ofNat bytes.length) :=
    hs₁.readInt32At (by rw [hlen]; exact hheld.sub h.len (by omega)) (by omega) (hadd 12 (by omega))
  obtain ⟨s', hposition, hs'⟩ := hs₁.position (hadd bytes.length hle) hle
  refine ⟨s', ?_, hs'⟩
  rw [skip, hread, onStream_ok, ok_bind]
  dsimp only
  rw [show layout documentdbTypeObject = .object from rfl]
  dsimp only
  rw [hbegin, hread₁]
  exact hposition

theorem skips_elements {n : Nat} (h : layout hdr = .elements) (hn : n ≤ bytes.length)
    (hrest : Takes (repeatRead (skip depth) n) bytes) : Takes (skip (depth + 1)) (hdr :: (leBytes 4 n ++ bytes)) := by
  refine skips_of_count hn (fun hread hread₁ hfew => ?_) hrest
  rw [skip, hread, onStream_ok, ok_bind]
  dsimp only
  rw [h]
  dsimp only
  rw [hread₁, onStream_ok, ok_bind]
  dsimp only
  rw [toInt32_ofNat hfew, Int.toNat_natCast]

theorem skips_collection {n : Nat} (typ : UInt8) (hn : n ≤ bytes.length) (hrest : Takes (repeatRead (skip depth) n) bytes) :
    Takes (skip (depth + 1)) (24 :: (leBytes 4 n ++ typ :: bytes)) := by
  refine skips_of_count (Nat.le_succ_of_le hn) (fun hread hread₁ hfew => ?_) (takes_ignored hrest)
  rw [skip, hread, onStream_ok, ok_bind]
  dsimp only
  rw [show layout 24 = .collection from rfl]
  dsimp only
  rw [hread₁, onStream_ok, ok_bind]
  dsimp only
  rw [toInt32_ofNat hfew, Int.toNat_natCast]

theorem skips_map {n : Nat} (typ : UInt8) (hn : n ≤ bytes.length)
    (hrest : Takes (repeatRead (fun s => skip depth s >>= skip depth) n) bytes) :
    Takes (skip (depth + 1)) (25 :: (leBytes 4 n ++ typ :: bytes)) := by
  refine skips_of_count (Nat.le_succ_of_le hn) (fun hread hread₁ hfew => ?_) (takes_ignored hrest)
  rw [skip, hread, onStream_ok, ok_bind]
  dsimp only
  rw [show layout 25 = .map from rfl]
  dsimp only
  rw [hread₁, onStream_ok, ok_bind]
  dsimp only
  rw [toInt32_ofNat hfew, Int.toNat_natCast]

end

mutual

/-- **Skipping a value** takes its bytes, whatever containers stand in it. -/
theorem skips_value : (v : Value) → {depth : Nat} → v.depth ≤ depth → Takes (skip (depth + 1)) v.bytes
  | .null, _, _ => skips_null
  | .fixed _ _ h, _, _ => skips_fixed h
  | .sized _ _ _ _ h hlength, _, _ => skips_sized h hlength
  | .marshalled payload, _, _ => skips_marshalled payload
  | .decimal scale magnitude, _, _ => skips_decimal scale magnitude
  | .elements _ _ _, 0, hle => absurd hle (Nat.not_succ_le_zero _)
  | .elements _ values h, _ + 1, hle => skips_elements h values.length_le (skips_values values (Nat.le_of_succ_le_succ hle))
  | .collection _ _, 0, hle => absurd hle (Nat.not_succ_le_zero _)
  | .collection typ values, _ + 1, hle =>
    skips_collection typ values.length_le (skips_values values (Nat.le_of_succ_le_succ hle))
  | .map _ _, 0, hle => absurd hle (Nat.not_succ_le_zero _)
  | .map typ entries, _ + 1, hle => skips_map typ entries.length_le (skips_entries entries (Nat.le_of_succ_le_succ hle))
  | .wrapped payload offset, _, _ => skips_wrapped payload offset
  | .object _ h, _, _ => skips_object h

theorem skips_values : (values : Values) → {depth : Nat} → values.depth ≤ depth →
    Takes (repeatRead (skip (depth + 1)) values.length) values.bytes
  | .nil, _, _ => takes_repeatRead_zero _
  | .cons value values, _, hle =>
    takes_repeatRead_succ (skips_value value (le_trans (le_max_left _ _) hle))
      (skips_values values (le_trans (le_max_right _ _) hle))

theorem skips_entries : (entries : Entries) → {depth : Nat} → entries.depth ≤ depth →
    Takes (repeatRead (fun s => skip (depth + 1) s >>= skip (depth + 1)) entries.length) entries.bytes
  | .nil, _, _ => takes_repeatRead_zero _
  | .cons key value entries, _, hle => by
    have hkey := skips_value key (le_trans (le_max_left _ _) hle)
    have hvalue := skips_value value (le_trans (le_trans (le_max_left _ _) (le_max_right _ _)) hle)
    have hrest := skips_entries entries (le_trans (le_trans (le_max_right _ _) (le_max_right _ _)) hle)
    rw [Entries.bytes, ← List.append_assoc]
    exact takes_repeatRead_succ (hkey.bind hvalue) hrest

end

end Binary

end DocumentDbOdbc
