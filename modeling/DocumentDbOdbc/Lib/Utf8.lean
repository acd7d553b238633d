/-
UTF-8 read one character at a time into a bounded number of characters, as a
C++ conversion facet does.

`next` reads one character; `decode f n` reads with `f` until the input ends,
a character cannot be read, or `n` characters have been produced, and says
whether it reached the end of the input.
-/
import Mathlib.Init

namespace Utf8

/-- `10xxxxxx`. -/
def isContinuation (c : UInt8) : Bool := 0x80 ≤ c && c < 0xC0

/-- The first character and the bytes behind it. `none`: a sequence that is
cut short, is no UTF-8, or denotes a character above `maxCode`. -/
def next (maxCode : Nat) (surrogates : Bool) : List UInt8 → Option (Nat × List UInt8)
  | [] => none
  | c₁ :: s =>
    if c₁ < 0x80 then some (c₁.toNat, s)
    else if c₁ < 0xC2 then none
    else if c₁ < 0xE0 then
      match s with
      | c₂ :: s =>
        if isContinuation c₂ then some ((c₁.toNat - 0xC0) * 64 + (c₂.toNat - 0x80), s) else none
      | [] => none
    else if c₁ < 0xF0 then
      match s with
      | c₂ :: c₃ :: s =>
        if isContinuation c₂ && isContinuation c₃ && !(c₁ == 0xE0 && c₂ < 0xA0) &&
            (surrogates || !(c₁ == 0xED && 0xA0 ≤ c₂)) then
          some ((c₁.toNat - 0xE0) * 4096 + (c₂.toNat - 0x80) * 64 + (c₃.toNat - 0x80), s)
        else none
      | _ => none
    else if c₁ < 0xF5 && 0xFFFF < maxCode then
      match s with
      | c₂ :: c₃ :: c₄ :: s =>
        if isContinuation c₂ && isContinuation c₃ && isContinuation c₄ && !(c₁ == 0xF0 && c₂ < 0x90) &&
            !(c₁ == 0xF4 && 0x90 ≤ c₂) then
          some ((c₁.toNat - 0xF0) * 262144 + (c₂.toNat - 0x80) * 4096 + (c₃.toNat - 0x80) * 64 +
            (c₄.toNat - 0x80), s)
        else none
      | _ => none
    else none

/-- The bytes of a character. -/
def encode (x : Nat) : List UInt8 :=
  if x < 0x80 then [.ofNat x]
  else if x < 0x800 then [.ofNat (0xC0 + x / 64), .ofNat (0x80 + x % 64)]
  else if x < 0x10000 then [.ofNat (0xE0 + x / 4096), .ofNat (0x80 + x / 64 % 64), .ofNat (0x80 + x % 64)]
  else [.ofNat (0xF0 + x / 262144), .ofNat (0x80 + x / 4096 % 64), .ofNat (0x80 + x / 64 % 64),
    .ofNat (0x80 + x % 64)]

/-- At most `n` characters, and whether the input was used up. -/
def decode (f : List UInt8 → Option (Nat × List UInt8)) : Nat → List UInt8 → List Nat × Bool
  | _, [] => ([], true)
  | 0, _ :: _ => ([], false)
  | n + 1, c :: s =>
    match f (c :: s) with
    | none => ([], false)
    | some (x, rest) => (x :: (decode f n rest).1, (decode f n rest).2)

theorem length_decode_le (f : List UInt8 → Option (Nat × List UInt8)) (n : Nat) (s : List UInt8) :
    (decode f n s).1.length ≤ n := by
  induction n generalizing s with
  | zero => cases s <;> simp [decode]
  | succ n ih =>
    cases s with
    | nil => simp [decode]
    | cons c s =>
      simp only [decode]
      cases f (c :: s) with
      | none => simp
      | some p => simpa using ih p.2

theorem next_ascii (maxCode : Nat) (surrogates : Bool) {c : UInt8} (h : c < 0x80) (s : List UInt8) :
    next maxCode surrogates (c :: s) = some (c.toNat, s) := by
  simp [next, h]

/-- ASCII is one character a byte. -/
theorem decode_ascii (maxCode : Nat) (surrogates : Bool) (n : Nat) {s : List UInt8}
    (h : ∀ c ∈ s, c < 0x80) :
    decode (next maxCode surrogates) n s = ((s.take n).map UInt8.toNat, decide (s.length ≤ n)) := by
  induction n generalizing s with
  | zero => cases s <;> simp [decode]
  | succ n ih =>
    cases s with
    | nil => simp [decode]
    | cons c s =>
      have ih := ih fun d hd => h d (List.mem_cons_of_mem c hd)
      rw [decode, next_ascii _ _ (h c (List.mem_cons_self ..))]
      simp [ih]

theorem encode_ne_nil (x : Nat) : encode x ≠ [] := by
  unfold encode
  repeat' split
  all_goals simp

theorem ofNat_eq {c : UInt8} {n : Nat} (h : n = c.toNat) : UInt8.ofNat n = c := by
  rw [h, UInt8.ofNat_toNat]

theorem isContinuation_iff {c : UInt8} : isContinuation c = true ↔ 0x80 ≤ c.toNat ∧ c.toNat < 0xC0 := by
  simp [isContinuation, UInt8.le_iff_toNat_le, UInt8.lt_iff_toNat_lt]

/-- The character that was read is the bytes it was read from. -/
theorem next_eq_some {maxCode : Nat} {surrogates : Bool} {s rest : List UInt8} {x : Nat}
    (h : next maxCode surrogates s = some (x, rest)) : s = encode x ++ rest := by
  cases s with
  | nil => cases h
  | cons c₁ s =>
    simp only [next, UInt8.lt_iff_toNat_lt, UInt8.reduceToNat] at h
    split at h
    · next h1 =>
      obtain ⟨rfl, rfl⟩ := Prod.mk.inj (Option.some.inj h)
      rw [encode, if_pos h1, ofNat_eq rfl]
      rfl
    next h1 =>
    split at h
    · cases h
    next h2 =>
    split at h
    · next h3 =>
      cases s with
      | nil => cases h
      | cons c₂ s =>
        dsimp only at h
        split at h
        · next hc =>
          obtain ⟨rfl, rfl⟩ := Prod.mk.inj (Option.some.inj h)
          obtain ⟨hlo, hhi⟩ := isContinuation_iff.mp hc
          rw [encode, if_neg (by omega), if_pos (by omega), ofNat_eq (c := c₁) (by omega),
            ofNat_eq (c := c₂) (by omega)]
          rfl
        · cases h
    next h3 =>
    split at h
    · next h4 =>
      rcases s with _ | ⟨c₂, _ | ⟨c₃, s⟩⟩
      · cases h
      · cases h
      dsimp only at h
      split at h
      · next hc =>
        obtain ⟨rfl, rfl⟩ := Prod.mk.inj (Option.some.inj h)
        simp only [Bool.and_eq_true, isContinuation_iff, Bool.not_eq_true', Bool.and_eq_false_iff,
          beq_eq_false_iff_ne, decide_eq_false_iff_not, UInt8.reduceToNat, ne_eq, ← UInt8.toNat_inj] at hc
        obtain ⟨⟨⟨⟨h2lo, h2hi⟩, h3lo, h3hi⟩, hover⟩, -⟩ := hc
        rw [encode, if_neg (by omega), if_neg (by omega), if_pos (by omega), ofNat_eq (c := c₁) (by omega),
          ofNat_eq (c := c₂) (by omega), ofNat_eq (c := c₃) (by omega)]
        rfl
      · cases h
    next h4 =>
    split at h
    · next h5 =>
      rcases s with _ | ⟨c₂, _ | ⟨c₃, _ | ⟨c₄, s⟩⟩⟩
      · cases h
      · cases h
      · cases h
      dsimp only at h
      split at h
      · next hc =>
        obtain ⟨rfl, rfl⟩ := Prod.mk.inj (Option.some.inj h)
        simp only [Bool.and_eq_true, isContinuation_iff, Bool.not_eq_true', Bool.and_eq_false_iff,
          beq_eq_false_iff_ne, decide_eq_false_iff_not, decide_eq_true_eq, UInt8.reduceToNat, ne_eq,
          ← UInt8.toNat_inj] at hc h5
        obtain ⟨⟨⟨⟨⟨h2lo, h2hi⟩, h3lo, h3hi⟩, h4lo, h4hi⟩, hover⟩, -⟩ := hc
        rw [encode, if_neg (by omega), if_neg (by omega), if_neg (by omega), ofNat_eq (c := c₁) (by omega),
          ofNat_eq (c := c₂) (by omega), ofNat_eq (c := c₃) (by omega), ofNat_eq (c := c₄) (by omega)]
        rfl
      · cases h
    · cases h

/-- What was read is the input up to what was left. -/
theorem decode_spec (maxCode : Nat) (surrogates : Bool) (n : Nat) (s : List UInt8) :
    ∃ rest, s = (decode (next maxCode surrogates) n s).1.flatMap encode ++ rest ∧
      ((decode (next maxCode surrogates) n s).2 = true ↔ rest = []) := by
  induction n generalizing s with
  | zero => cases s <;> simp [decode]
  | succ n ih =>
    cases s with
    | nil => simp [decode]
    | cons c s =>
      rw [decode]
      cases hnext : next maxCode surrogates (c :: s) with
      | none => simp
      | some p =>
        obtain ⟨x, s'⟩ := p
        obtain ⟨rest, hs, hrest⟩ := ih s'
        refine ⟨rest, ?_, hrest⟩
        rw [next_eq_some hnext, List.flatMap_cons, List.append_assoc, ← hs]

/-! ## Round trip -/

/-- A character that has an encoding, not above `maxCode`. -/
def Scalar (maxCode x : Nat) : Prop := x ≤ maxCode ∧ x ≤ 0x10FFFF ∧ ¬ (0xD800 ≤ x ∧ x ≤ 0xDFFF)

theorem toNat_ofNat {n : Nat} (h : n < 256) : (UInt8.ofNat n).toNat = n := by
  rw [UInt8.toNat_ofNat']
  exact Nat.mod_eq_of_lt h

theorem isContinuation_ofNat {n : Nat} (h : n < 64) : isContinuation (.ofNat (0x80 + n)) = true := by
  rw [isContinuation_iff, toNat_ofNat (by omega)]
  omega

/-- The character that was encoded is read. -/
theorem next_encode {maxCode x : Nat} (h : Scalar maxCode x) (surrogates : Bool) (rest : List UInt8) :
    next maxCode surrogates (encode x ++ rest) = some (x, rest) := by
  obtain ⟨hmax, hcode, hsurrogate⟩ := h
  unfold encode
  split
  · next h1 =>
    have hbyte : UInt8.ofNat x < 0x80 := by rw [UInt8.lt_iff_toNat_lt, toNat_ofNat (by omega)]; exact h1
    rw [List.singleton_append, next_ascii _ _ hbyte, toNat_ofNat (by omega)]
  next h1 =>
  split
  · next h2 =>
    have hlead := toNat_ofNat (n := 0xC0 + x / 64) (by omega)
    have htail := toNat_ofNat (n := 0x80 + x % 64) (by omega)
    have hcont := isContinuation_ofNat (n := x % 64) (by omega)
    simp only [next, List.cons_append, List.nil_append, UInt8.lt_iff_toNat_lt, hlead, htail, hcont, UInt8.reduceToNat]
    rw [if_neg (by omega), if_neg (by omega), if_pos (by omega), if_pos trivial]
    refine congrArg (fun y => some (y, rest)) ?_
    omega
  next h2 =>
  split
  · next h3 =>
    have hlead := toNat_ofNat (n := 0xE0 + x / 4096) (by omega)
    have hmid := toNat_ofNat (n := 0x80 + x / 64 % 64) (by omega)
    have htail := toNat_ofNat (n := 0x80 + x % 64) (by omega)
    have hcont := isContinuation_ofNat (n := x / 64 % 64) (by omega)
    have hcont' := isContinuation_ofNat (n := x % 64) (by omega)
    simp only [next, List.cons_append, List.nil_append, UInt8.lt_iff_toNat_lt, UInt8.le_iff_toNat_le, hlead, hmid, htail, hcont,
      hcont', UInt8.reduceToNat]
    rw [if_neg (by omega), if_neg (by omega), if_neg (by omega), if_pos (by omega), if_pos]
    · refine congrArg (fun y => some (y, rest)) ?_
      omega
    · simp only [Bool.true_and, Bool.and_eq_true, Bool.not_eq_true', Bool.or_eq_true, Bool.and_eq_false_iff, beq_eq_false_iff_ne, ne_eq,
        ← UInt8.toNat_inj, hlead, decide_eq_false_iff_not, UInt8.reduceToNat]
      omega
  · next h3 =>
    have hlead := toNat_ofNat (n := 0xF0 + x / 262144) (by omega)
    have hsecond := toNat_ofNat (n := 0x80 + x / 4096 % 64) (by omega)
    have hthird := toNat_ofNat (n := 0x80 + x / 64 % 64) (by omega)
    have htail := toNat_ofNat (n := 0x80 + x % 64) (by omega)
    have hcont := isContinuation_ofNat (n := x / 4096 % 64) (by omega)
    have hcont' := isContinuation_ofNat (n := x / 64 % 64) (by omega)
    have hcont'' := isContinuation_ofNat (n := x % 64) (by omega)
    simp only [next, List.cons_append, List.nil_append, UInt8.lt_iff_toNat_lt, UInt8.le_iff_toNat_le, hlead, hsecond, hthird,
      htail, hcont, hcont', hcont'', UInt8.reduceToNat]
    rw [if_neg (by omega), if_neg (by omega), if_neg (by omega), if_neg (by omega), if_pos (by simp; omega), if_pos]
    · refine congrArg (fun y => some (y, rest)) ?_
      omega
    · simp only [Bool.true_and, Bool.and_eq_true, Bool.not_eq_true', Bool.and_eq_false_iff, beq_eq_false_iff_ne, ne_eq,
        ← UInt8.toNat_inj, hlead, decide_eq_false_iff_not, UInt8.reduceToNat]
      omega

/-- No byte of a character is zero but that of NUL. -/
theorem zero_notMem_encode {x : Nat} (hpos : x ≠ 0) (hcode : x ≤ 0x10FFFF) : 0 ∉ encode x := by
  have hne {n : Nat} (h : n < 256) (hn : n ≠ 0) : (0 : UInt8) ≠ .ofNat n := by
    intro h0
    have := congrArg UInt8.toNat h0
    rw [toNat_ofNat h] at this
    exact hn this.symm
  unfold encode
  split
  · simp only [List.mem_singleton]
    exact hne (by omega) hpos
  split
  · simp only [List.mem_cons, List.not_mem_nil, or_false, not_or]
    exact ⟨hne (by omega) (by omega), hne (by omega) (by omega)⟩
  split
  · simp only [List.mem_cons, List.not_mem_nil, or_false, not_or]
    exact ⟨hne (by omega) (by omega), hne (by omega) (by omega), hne (by omega) (by omega)⟩
  · simp only [List.mem_cons, List.not_mem_nil, or_false, not_or]
    exact ⟨hne (by omega) (by omega), hne (by omega) (by omega), hne (by omega) (by omega), hne (by omega) (by omega)⟩

/-- Encoded characters are read one by one. -/
theorem decode_encode {maxCode : Nat} {chars : List Nat} (h : ∀ x ∈ chars, Scalar maxCode x) (surrogates : Bool) (n : Nat) :
    decode (next maxCode surrogates) n (chars.flatMap encode) = (chars.take n, decide (chars.length ≤ n)) := by
  induction chars generalizing n with
  | nil => cases n <;> rfl
  | cons x chars ih =>
    obtain ⟨c, t, hct⟩ := List.exists_cons_of_ne_nil (encode_ne_nil x)
    have hnext := next_encode (h x (List.mem_cons_self ..)) surrogates (chars.flatMap encode)
    rw [List.flatMap_cons]
    rw [hct] at hnext ⊢
    cases n with
    | zero => rfl
    | succ n =>
      rw [List.cons_append] at hnext ⊢
      rw [decode, hnext]
      simp [ih (fun y hy => h y (List.mem_cons_of_mem x hy)) n]

end Utf8
