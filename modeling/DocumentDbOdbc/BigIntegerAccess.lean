/-
The array accesses of `BigInteger::Divide`.

`divideAccesses` lists what a call reads and writes, element by element, with
the size each array has then; the values that decide which accesses are made
are those of `divide`. All of them are inside the arrays unless the main loop is
reached with a divisor of one limb (`divide_inBounds_iff`), for which
`nv[vlen - 2]` is `nv[-1]`.
-/
import DocumentDbOdbc.BigIntegerQuotient

namespace DocumentDbOdbc

open Limbs

namespace BigInteger

/-- The arrays of `Divide`; `u` and `v` are the two operands. -/
inductive DivideArray where
  | u | v | nu | nv | q | rem
  deriving DecidableEq, Repr

/-- An access to an element. -/
structure Access where
  array : DivideArray
  index : Int
  size : Nat
  deriving DecidableEq, Repr

def Access.InBounds (a : Access) : Prop := 0 ≤ a.index ∧ a.index < a.size

instance (a : Access) : Decidable a.InBounds := inferInstanceAs (Decidable (_ ∧ _))

/-! ## The accesses -/

/-- The elements `start`, …, `start + len - 1`. -/
def accessRange (array : DivideArray) (size start len : Nat) : List Access :=
  (List.range len).map fun k => ⟨array, (start + k : Nat), size⟩

/-- `ShiftLeft(in, len, out, n)`. -/
def shiftLeftAccesses (input output : DivideArray) (inputSize outputSize len : Nat) (n : UInt32) : List Access :=
  if n = 0 then accessRange input inputSize 0 len ++ accessRange output outputSize 0 len
  else
    accessRange output outputSize 1 (len - 1) ++ accessRange input inputSize 1 (len - 1) ++
      accessRange input inputSize 0 (len - 1) ++ [⟨output, 0, outputSize⟩, ⟨input, 0, inputSize⟩]

/-- `ShiftRight(in, len, out, n)`. -/
def shiftRightAccesses (input output : DivideArray) (inputSize outputSize len : Nat) (n : UInt32) : List Access :=
  if n = 0 then accessRange input inputSize 0 len ++ accessRange output outputSize 0 len
  else
    accessRange output outputSize 0 (len - 1) ++ accessRange input inputSize 0 (len - 1) ++
      accessRange input inputSize 1 (len - 1) ++
      [⟨output, (len : Int) - 1, outputSize⟩, ⟨input, (len : Int) - 1, inputSize⟩]

/-- The loop that adjusts the estimated quotient: `nv[vlen - 2]` and
`nu[i + vlen - 2]` are read unless `qhat` is past one limb. -/
def adjustAccesses (outside : Outside) (nv nu : MagArray) (i : Nat) : Nat → Nat → Nat → List Access
  | 0, _, _ => []
  | fuel + 1, qhat, rhat =>
    let vlen := nv.length
    let v₁ := nv.getD (vlen - 1) 0
    let v₀ := wordBelow outside.nv nv (vlen - 1)
    let w₀ := wordBelow outside.nu nu (i + vlen - 1)
    let test : List Access :=
      if qhat > 2 ^ 32 - 1 then [] else [⟨.nv, (vlen : Int) - 2, vlen⟩, ⟨.nu, (i + vlen : Int) - 2, nu.length⟩]
    if qhat > 2 ^ 32 - 1 ∨ qhat * v₀.toNat > 2 ^ 32 * rhat + w₀.toNat then
      let rhat := rhat + v₁.toNat
      test ++ [⟨.nv, (vlen : Int) - 1, vlen⟩] ++
        if rhat > 2 ^ 32 - 1 then [] else adjustAccesses outside nv nu i fuel (qhat - 1) rhat
    else test

/-- One round of the main loop. -/
def roundAccesses (outside : Outside) (nv nu : MagArray) (qsize i : Nat) : List Access :=
  let vlen := nv.length
  let v₁ := nv.getD (vlen - 1) 0
  let base := (nu.getD (i + vlen) 0).toNat * 2 ^ 32 + (nu.getD (i + vlen - 1) 0).toNat
  let qhat32 := UInt32.ofNat (estimate outside nv nu i)
  let (_, carry) := multiplyAndSubstruct qhat32 0 ((nu.drop i).take vlen) nv
  let difference : Int := (nu.getD (i + vlen) 0 - UInt32.ofInt carry).toNat
  [⟨.nu, i + vlen, nu.length⟩, ⟨.nu, (i + vlen : Int) - 1, nu.length⟩, ⟨.nv, (vlen : Int) - 1, vlen⟩] ++
    adjustAccesses outside nv nu i 2 (base / v₁.toNat) (base % v₁.toNat) ++
    (accessRange .nv vlen 0 vlen ++ accessRange .nu nu.length i vlen) ++ [⟨.nu, i + vlen, nu.length⟩] ++
    (if difference < 0 then accessRange .nu nu.length i vlen ++ accessRange .nv vlen 0 vlen else []) ++
    [⟨.q, i, qsize⟩]

/-- The main loop, for the rounds below `i`. -/
def loopAccesses (outside : Outside) (nv : MagArray) (qsize : Nat) : Nat → MagArray → List Access
  | 0, _ => []
  | i + 1, nu => roundAccesses outside nv nu qsize i ++ loopAccesses outside nv qsize i (divideRound outside nv nu i).1

/-- Algorithm D. -/
def divideMagnitudeAccesses (outside : Outside) (u v : MagArray) (wantsRem : Bool) : List Access :=
  let ulen := u.length
  let vlen := v.length
  let shift := UInt32.ofNat (numberOfLeadingZerosU32 (v.getLastD 0))
  let nv := shiftLeft v shift
  let narrow := decide (UInt32.ofNat (numberOfLeadingZerosU32 (u.getLastD 0)) ≥ shift)
  let nu :=
    if narrow then shiftLeft u shift ++ [0] else shiftLeft u shift ++ [u.getLastD 0 >>> (32 - shift), 0]
  let rounds := ulen - vlen + 1
  [⟨.v, (vlen : Int) - 1, vlen⟩] ++ shiftLeftAccesses .v .nv vlen nv.length vlen shift ++
    [⟨.u, (ulen : Int) - 1, ulen⟩] ++ shiftLeftAccesses .u .nu ulen nu.length ulen shift ++
    (if narrow then [] else [⟨.nu, ulen, nu.length⟩, ⟨.u, (ulen : Int) - 1, ulen⟩]) ++
    loopAccesses outside nv rounds rounds nu ++
    if wantsRem then shiftRightAccesses .nu .rem nu.length vlen vlen shift else []

/-- `Divide`. -/
def divideAccesses (outside : Outside) (b divisor : BigInteger) (wantsRem : Bool) : List Access :=
  let ulen := b.mag.length
  let vlen := divisor.mag.length
  if divisor.mag = [] then []
  else if b.compare divisor true ≠ 1 then []
  else if divisor.getBitLength = 1 then []
  else if ulen ≤ 2 then
    [⟨.u, 0, ulen⟩, ⟨.v, 0, vlen⟩] ++ (if ulen = 2 then [⟨.u, 1, ulen⟩] else []) ++
      if vlen = 2 then [⟨.v, 1, vlen⟩] else []
  else divideMagnitudeAccesses outside b.mag divisor.mag wantsRem

/-! ## Inside the arrays -/

def AllInBounds (l : List Access) : Prop := ∀ a ∈ l, a.InBounds

instance (l : List Access) : Decidable (AllInBounds l) := inferInstanceAs (Decidable (∀ a ∈ l, a.InBounds))

@[simp] theorem allInBounds_nil : AllInBounds [] := fun _ h => nomatch h

@[simp] theorem allInBounds_append {l l' : List Access} :
    AllInBounds (l ++ l') ↔ AllInBounds l ∧ AllInBounds l' := List.forall_mem_append

@[simp] theorem allInBounds_cons {a : Access} {l : List Access} :
    AllInBounds (a :: l) ↔ a.InBounds ∧ AllInBounds l := List.forall_mem_cons

theorem accessRange_inBounds (array : DivideArray) {size start len : Nat} (h : start + len ≤ size) :
    AllInBounds (accessRange array size start len) := by
  intro a ha
  obtain ⟨k, hk, rfl⟩ := List.mem_map.mp ha
  rw [List.mem_range] at hk
  exact ⟨Int.natCast_nonneg _, by dsimp only; omega⟩

theorem shiftLeftAccesses_inBounds (input output : DivideArray) {inputSize outputSize len : Nat} (n : UInt32)
    (hlen : 0 < len) (hin : len ≤ inputSize) (hout : len ≤ outputSize) :
    AllInBounds (shiftLeftAccesses input output inputSize outputSize len n) := by
  unfold shiftLeftAccesses
  split
  · exact allInBounds_append.mpr ⟨accessRange_inBounds _ (by omega), accessRange_inBounds _ (by omega)⟩
  · have hends : AllInBounds [⟨output, 0, outputSize⟩, ⟨input, 0, inputSize⟩] := by
      simp [Access.InBounds]
      omega
    simp only [allInBounds_append]
    exact ⟨⟨⟨accessRange_inBounds _ (by omega), accessRange_inBounds _ (by omega)⟩, accessRange_inBounds _ (by omega)⟩,
      hends⟩

theorem shiftRightAccesses_inBounds (input output : DivideArray) {inputSize outputSize len : Nat} (n : UInt32)
    (hlen : 0 < len) (hin : len ≤ inputSize) (hout : len ≤ outputSize) :
    AllInBounds (shiftRightAccesses input output inputSize outputSize len n) := by
  unfold shiftRightAccesses
  split
  · exact allInBounds_append.mpr ⟨accessRange_inBounds _ (by omega), accessRange_inBounds _ (by omega)⟩
  · have hends : AllInBounds [⟨output, (len : Int) - 1, outputSize⟩, ⟨input, (len : Int) - 1, inputSize⟩] := by
      simp [Access.InBounds]
      omega
    simp only [allInBounds_append]
    exact ⟨⟨⟨accessRange_inBounds _ (by omega), accessRange_inBounds _ (by omega)⟩, accessRange_inBounds _ (by omega)⟩,
      hends⟩

section MainLoop

variable {outside : Outside} {nv nu : MagArray} {i : Nat}

/-- With two limbs in the divisor the adjusting loop stays inside. -/
theorem adjustAccesses_inBounds (hnv : 2 ≤ nv.length) (hi : i + nv.length < nu.length) : ∀ fuel qhat rhat,
    AllInBounds (adjustAccesses outside nv nu i fuel qhat rhat) := by
  intro fuel
  induction fuel with
  | zero => exact fun _ _ => allInBounds_nil
  | succ fuel ih =>
    intro qhat rhat
    have htest : AllInBounds (if qhat > 2 ^ 32 - 1 then [] else
        [⟨.nv, (nv.length : Int) - 2, nv.length⟩, ⟨.nu, (i + nv.length : Int) - 2, nu.length⟩]) := by
      split
      · exact allInBounds_nil
      · simp [Access.InBounds]
        omega
    unfold adjustAccesses
    dsimp only
    split
    · have hstep : AllInBounds [⟨.nv, (nv.length : Int) - 1, nv.length⟩] := by
        simp [Access.InBounds]
        omega
      simp only [allInBounds_append]
      refine ⟨⟨htest, hstep⟩, ?_⟩
      split
      · exact allInBounds_nil
      · exact ih _ _
    · exact htest

theorem roundAccesses_inBounds {qsize : Nat} (hnv : 2 ≤ nv.length) (hi : i + nv.length < nu.length) (hq : i < qsize) :
    AllInBounds (roundAccesses outside nv nu qsize i) := by
  have hread : AllInBounds [⟨.nu, i + nv.length, nu.length⟩, ⟨.nu, (i + nv.length : Int) - 1, nu.length⟩,
      ⟨.nv, (nv.length : Int) - 1, nv.length⟩] := by
    simp [Access.InBounds]
    omega
  have hwrite : AllInBounds [⟨.nu, i + nv.length, nu.length⟩] := by
    simp [Access.InBounds]
    omega
  have hdigit : AllInBounds [⟨.q, i, qsize⟩] := by
    simp [Access.InBounds]
    omega
  have hwindow : AllInBounds (accessRange .nu nu.length i nv.length) := accessRange_inBounds _ (by omega)
  have hdivisor : AllInBounds (accessRange .nv nv.length 0 nv.length) := accessRange_inBounds _ (by omega)
  unfold roundAccesses
  dsimp only
  simp only [allInBounds_append]
  refine ⟨⟨⟨⟨⟨hread, adjustAccesses_inBounds hnv hi _ _ _⟩, hdivisor, hwindow⟩, hwrite⟩, ?_⟩, hdigit⟩
  split
  · exact allInBounds_append.mpr ⟨hwindow, hdivisor⟩
  · exact allInBounds_nil

/-- A round does not change the size of `nu`. -/
theorem length_divideRound (hi : i + nv.length < nu.length) : (divideRound outside nv nu i).1.length = nu.length := by
  have hwindow : ((nu.drop i).take nv.length).length = nv.length := by
    rw [List.length_take, List.length_drop]
    omega
  have hlen := (@multiplyAndSubstruct_spec (UInt32.ofNat (estimate outside nv nu i)) _ _ 0 hwindow).1
  unfold divideRound
  dsimp only
  rw [if_neg (Int.not_lt.mpr (Int.natCast_nonneg _))]
  simp only [List.length_append, List.length_cons, List.length_take, List.length_drop, hlen]
  omega

theorem loopAccesses_inBounds {qsize : Nat} (hnv : 2 ≤ nv.length) : ∀ {k : Nat} {nu : MagArray},
    k + nv.length ≤ nu.length → k ≤ qsize → AllInBounds (loopAccesses outside nv qsize k nu) := by
  intro k
  induction k with
  | zero => exact fun _ _ => allInBounds_nil
  | succ k ih =>
    intro nu hk hq
    rw [loopAccesses, allInBounds_append]
    have hround : k + nv.length < nu.length := by omega
    exact ⟨roundAccesses_inBounds hnv hround (by omega), ih (by rw [length_divideRound hround]; omega) (by omega)⟩

/-- With one limb, a round whose window starts with a limb below it reads in
front of `nv`. -/
theorem roundAccesses_not_inBounds {qsize : Nat} {y : UInt32} (h : (nu.getD (i + 1) 0).toNat < y.toNat) :
    ¬ AllInBounds (roundAccesses outside [y] nu qsize i) := by
  intro hall
  have hquotient : ((nu.getD (i + 1) 0).toNat * 2 ^ 32 + (nu.getD i 0).toNat) / y.toNat ≤ 2 ^ 32 - 1 := by
    have := (nu.getD i 0).toNat_lt
    rw [← Nat.lt_succ_iff, Nat.div_lt_iff_lt_mul (by omega)]
    omega
  unfold roundAccesses at hall
  simp only [allInBounds_append] at hall
  have hadjust := hall.1.1.1.1.2
  unfold adjustAccesses at hadjust
  have hmem : (⟨.nv, -1, 1⟩ : Access) ∈ ([⟨.nv, -1, 1⟩, ⟨.nu, (i + 1 : Int) - 2, nu.length⟩] : List Access) := by simp
  have hout : ¬ (⟨.nv, -1, 1⟩ : Access).InBounds := by decide
  simp only [List.length_singleton, Nat.sub_self, List.getD_cons_zero, Nat.add_sub_cancel,
    if_neg (Nat.not_lt.mpr hquotient)] at hadjust
  split at hadjust
  · exact hout (hadjust _ (List.mem_append_left _ (List.mem_append_left _ hmem)))
  · exact hout (hadjust _ hmem)

end MainLoop

/-- By two limbs and more Algorithm D stays inside. -/
theorem divideMagnitudeAccesses_inBounds (outside : Outside) {u v : MagArray} (hv : Normalized v) (hlen : 2 ≤ v.length)
    (hle : v.length ≤ u.length) (wantsRem : Bool) : AllInBounds (divideMagnitudeAccesses outside u v wantsRem) := by
  obtain rfl | ⟨v, x, rfl⟩ := eq_nil_or_concat v
  · simp at hlen
  have hx := normalized_concat.mp hv
  have hlast : (v ++ [x]).getLastD 0 = x := by simp
  obtain ⟨hs, -, -⟩ := numberOfLeadingZerosU32_spec hx
  obtain ⟨nv, y, hnv, hnvlen, -, -⟩ := shifted_divisor (v := v) hx
  obtain ⟨c, high, hnu, -, hulen, -⟩ := shifted_dividend hs u
  have hlength : (nv ++ [y]).length = (v ++ [x]).length := by simp [hnvlen]
  have hnulen : (shiftLeft u (UInt32.ofNat (numberOfLeadingZerosU32 x)) ++ c :: high).length = u.length + 1 + high.length := by
    rw [List.length_append, hulen, List.length_cons]
    omega
  unfold divideMagnitudeAccesses
  simp only [hlast, decide_eq_true_eq, hnu, hnv, hlength, hnulen, allInBounds_append]
  have hback : AllInBounds [⟨.v, ((v ++ [x]).length : Int) - 1, (v ++ [x]).length⟩] := by
    simp [Access.InBounds]
  have hback' : AllInBounds [⟨.u, (u.length : Int) - 1, u.length⟩] := by
    simp [Access.InBounds]
    omega
  have htop : AllInBounds [⟨.nu, (u.length : Int), u.length + 1 + high.length⟩, ⟨.u, (u.length : Int) - 1, u.length⟩] := by
    simp [Access.InBounds]
    omega
  refine ⟨⟨⟨⟨⟨⟨hback, ?_⟩, hback'⟩, ?_⟩, ?_⟩, ?_⟩, ?_⟩
  · exact shiftLeftAccesses_inBounds _ _ _ (by omega) (Nat.le_refl _) (Nat.le_refl _)
  · exact shiftLeftAccesses_inBounds _ _ _ (by omega) (Nat.le_refl _) (by omega)
  · split
    · exact allInBounds_nil
    · exact htop
  · exact loopAccesses_inBounds (by omega) (by rw [hlength, hnulen]; omega) (Nat.le_refl _)
  · split
    · exact shiftRightAccesses_inBounds _ _ _ (by omega) (by omega) (Nat.le_refl _)
    · exact allInBounds_nil

/-- By one limb its first round does not. -/
theorem divideMagnitudeAccesses_not_inBounds (outside : Outside) {u : MagArray} {x : UInt32} (hx : x ≠ 0)
    (hne : u ≠ []) (wantsRem : Bool) : ¬ AllInBounds (divideMagnitudeAccesses outside u [x] wantsRem) := by
  obtain ⟨hs, -, -⟩ := numberOfLeadingZerosU32_spec hx
  obtain ⟨nv, y, hnv, hnvlen, hy, -⟩ := shifted_divisor (v := []) hx
  obtain rfl := List.length_eq_zero_iff.mp hnvlen
  obtain ⟨c, high, hnu, hc, hulen, -⟩ := shifted_dividend hs u
  have hpos : 0 < u.length := List.length_pos_iff.mpr hne
  have hlast : [x].getLastD 0 = x := rfl
  have hrounds : u.length - [x].length + 1 = u.length - 1 + 1 := rfl
  intro hall
  unfold divideMagnitudeAccesses at hall
  rw [List.nil_append, List.nil_append] at hnv
  simp only [hlast, decide_eq_true_eq, hnu, hnv, hrounds, allInBounds_append, loopAccesses] at hall
  refine roundAccesses_not_inBounds ?_ hall.1.2.1
  have htop : (shiftLeft u (UInt32.ofNat (numberOfLeadingZerosU32 x)) ++ c :: high).getD (u.length - [x].length + 1) 0 =
      c := by
    rw [List.length_singleton, Nat.sub_add_cancel hpos, ← hulen, List.getD_eq_getElem?_getD, List.getElem?_append_right (Nat.le_refl _),
      Nat.sub_self]
    rfl
  rw [htop]
  omega

section Divide

variable {outside : Outside} {b divisor : BigInteger}

/-- A division that comes to Algorithm D with one limb is not. -/
theorem divideAccesses_not_inBounds (h : Normalized b.mag) (h' : Normalized divisor.mag) (hshort : divisor.mag.length = 1)
    (hone : value divisor.mag ≠ 1) (hlong : 2 < b.mag.length) (wantsRem : Bool) :
    ¬ AllInBounds (divideAccesses outside b divisor wantsRem) := by
  obtain ⟨x, hx⟩ := List.length_eq_one_iff.mp hshort
  have hgreater : b.compare divisor true = 1 := by
    have hlt : value divisor.mag < value b.mag := by
      by_contra hle
      have := length_le_of_value_le h (Nat.le_of_not_lt hle)
      omega
    rw [compare_ignoreSign h h', ordering, if_neg (by omega), if_pos hlt]
  have hbit : divisor.getBitLength ≠ 1 := mt (value_eq_one_iff h' (by omega)).mp hone
  have hne : divisor.mag ≠ [] := fun hnil => by simp [hnil] at hshort
  unfold divideAccesses
  dsimp only
  rw [if_neg hne, if_neg (not_not_intro hgreater), if_neg hbit, if_neg (by omega), hx]
  refine divideMagnitudeAccesses_not_inBounds outside ?_ (fun hnil => by simp [hnil] at hlong) wantsRem
  rw [hx, normalized_singleton] at h'
  exact fun h0 => h' (by rw [h0]; rfl)

/-- Every other division is. -/
theorem divideAccesses_inBounds (h : Normalized b.mag) (h' : Normalized divisor.mag) (hne : divisor.mag ≠ [])
    (hcond : 2 ≤ divisor.mag.length ∨ value divisor.mag = 1 ∨ b.mag.length ≤ 2) (wantsRem : Bool) :
    AllInBounds (divideAccesses outside b divisor wantsRem) := by
  have hdivisor : 0 < divisor.mag.length := List.length_pos_iff.mpr hne
  have hcompare := compare_ignoreSign h h'
  unfold divideAccesses
  dsimp only
  rw [if_neg hne]
  by_cases hgreater : b.compare divisor true = 1
  · rw [if_neg (not_not_intro hgreater)]
    have hlt : value divisor.mag < value b.mag := by
      rw [hcompare, ordering] at hgreater
      by_contra hle
      rcases Nat.lt_or_eq_of_le (Nat.le_of_not_lt hle) with hlt | heq
      · rw [if_neg (by omega), if_neg hle] at hgreater
        cases hgreater
      · rw [if_pos heq] at hgreater
        cases hgreater
    have hle := length_le_of_value_le h' hlt.le
    split
    · exact allInBounds_nil
    · next hbit =>
      split
      · simp only [allInBounds_append]
        refine ⟨⟨?_, ?_⟩, ?_⟩
        · simp [Access.InBounds]
          omega
        · split
          · simp [Access.InBounds]
            omega
          · exact allInBounds_nil
        · split
          · simp [Access.InBounds]
            omega
          · exact allInBounds_nil
      · next hlong =>
        have htwo : 2 ≤ divisor.mag.length := by
          rcases hcond with hcond | hone | hshort
          · exact hcond
          · by_contra hshort
            exact hbit ((value_eq_one_iff h' (by omega)).mpr hone)
          · exact absurd hshort hlong
        exact divideMagnitudeAccesses_inBounds outside h' htwo hle wantsRem
  · rw [if_pos hgreater]
    exact allInBounds_nil

/-- A division by another number than `±1` stays inside its arrays and gives
the quotient. -/
theorem divide_quotient_iff {d : Division} (h : b.Normal) (h' : divisor.Normal) (hne : divisor.mag ≠ [])
    (hone : value divisor.mag ≠ 1) (hd : DividePath outside b divisor false d) :
    AllInBounds (divideAccesses outside b divisor false) ∧ value d.res.mag = value b.mag / value divisor.mag ↔
      b.mag.length ≤ 2 ∨ 2 ≤ divisor.mag.length ∧ DivideExact b divisor := by
  have hdivisor : 0 < divisor.mag.length := List.length_pos_iff.mpr hne
  constructor
  · rintro ⟨hall, hq⟩
    by_cases hshort : b.mag.length ≤ 2
    · exact .inl hshort
    · have hlen : 2 ≤ divisor.mag.length := by
        by_contra hlen
        exact divideAccesses_not_inBounds h.normalized h'.normalized (by omega) hone (by omega) false hall
      exact .inr ⟨hlen, (hd.quotient_iff h h' hlen).mp hq⟩
  · rintro (hshort | ⟨hlen, hexact⟩)
    · exact ⟨divideAccesses_inBounds h.normalized h'.normalized hne (.inr (.inr hshort)) false,
        hd.quotient_short h h' hshort hne⟩
    · exact ⟨divideAccesses_inBounds h.normalized h'.normalized hne (.inl hlen) false,
        (hd.quotient_iff h h' hlen).mpr hexact⟩

end Divide

/-- **The accesses of `Divide`** are inside its arrays exactly when the divisor
has two limbs or more, or is `±1`, or the dividend has at most two limbs. -/
theorem divide_inBounds_iff (outside : Outside) {b divisor : BigInteger} (h : Normalized b.mag)
    (h' : Normalized divisor.mag) (hne : divisor.mag ≠ []) (wantsRem : Bool) :
    AllInBounds (divideAccesses outside b divisor wantsRem) ↔
      2 ≤ divisor.mag.length ∨ value divisor.mag = 1 ∨ b.mag.length ≤ 2 := by
  have hdivisor : 0 < divisor.mag.length := List.length_pos_iff.mpr hne
  refine ⟨fun hall => ?_, fun hcond => divideAccesses_inBounds h h' hne hcond wantsRem⟩
  by_contra hnot
  rw [not_or, not_or] at hnot
  obtain ⟨hshort, hone, hlong⟩ := hnot
  exact divideAccesses_not_inBounds h h' (by omega) hone (by omega) wantsRem hall

/-- Three limbs divided by two. -/
theorem divide_inBounds_iff_two_limbs :
    AllInBounds (divideAccesses .zeros ⟨1, [1, 2, 3]⟩ ⟨1, [4, 5]⟩ true) :=
  (divide_inBounds_iff .zeros (by decide) (by decide) (by decide) true).mpr (.inl (by decide))

/-- **A divisor of one limb**: `10 ^ 20` divided by `10 ^ 9`, as `SetScale` does
for the scale 9, reads `nv[-1]`. -/
theorem divide_not_inBounds :
    (⟨1, [1661992960, 1808227885, 5]⟩ : BigInteger).toInt = 10 ^ 20 ∧ (getPowerOfTen .zeros 9).toInt = 10 ^ 9 ∧
      ⟨.nv, -1, 1⟩ ∈ divideAccesses .zeros ⟨1, [1661992960, 1808227885, 5]⟩ (getPowerOfTen .zeros 9) false ∧
      ¬ AllInBounds (divideAccesses .zeros ⟨1, [1661992960, 1808227885, 5]⟩ (getPowerOfTen .zeros 9) false) := by
  decide

end BigInteger

end DocumentDbOdbc
