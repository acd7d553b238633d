/-
Programs over `common::BigInteger` objects, and the canonical form.

`Operation.run` is one call of the interface, its results written to any
objects, the operands included. No call leaves a zero at the top of an array
(`reachable_normal`). `Multiply` and Algorithm D give a zero the product of two
signs, and `Normalize` only trims limbs; `Operation.Safe` says when a call does
not meet that, and `reachable_canonical` that all objects stay canonical then.
-/
import DocumentDbOdbc.BigIntegerTextFacts

namespace DocumentDbOdbc

open Limbs Numeral

namespace BigInteger

/-- The objects of a program, by number. -/
abbrev Objects := Nat → BigInteger

inductive Operation where
  | assignInt64 (x : Nat) (val : Int64)
  | assignUint64 (x : Nat) (val : UInt64)
  | ofBytes (x : Nat) (val : List UInt8) (negative bigEndian : Bool)
  | read (x : Nat) (is : Istream)
  | multiply (x other res : Nat)
  | divide (x divisor res : Nat) (rem : Option Nat)
  | pow (x : Nat) (exp : Int32)
  | add (x : Nat) (val : UInt64)
  | negate (x : Nat)

/-- The assignments of `Divide`, in their order. -/
def Division.assign (d : Division) (s : Objects) (res : Nat) : Option Nat → Objects
  | none => Function.update s res d.res
  | some rem =>
    if d.resLast then Function.update (Function.update s rem d.rem) res d.res
    else Function.update (Function.update s res d.res) rem d.rem

namespace Operation

/-- A call. When `Divide` throws, nothing was assigned. -/
def run (outside : Outside) (s : Objects) : Operation → Objects
  | assignInt64 x val => Function.update s x (BigInteger.assignInt64 val)
  | assignUint64 x val => Function.update s x (BigInteger.assignUint64 val)
  | ofBytes x val negative bigEndian =>
    Function.update s x (BigInteger.ofBytes val (if negative then -1 else 1) bigEndian)
  | read x is => Function.update s x (BigInteger.read outside is).1
  | multiply x other res => Function.update s res ((s x).multiply (s other))
  | divide x divisor res rem =>
    match BigInteger.divide outside (s x) (s divisor) (res == divisor) with
    | .ok d => d.assign s res rem
    | .error _ => s
  | pow x exp => Function.update s x ((s x).pow exp)
  | add x val => Function.update s x ((s x).add val)
  | negate x => Function.update s x (s x).negate

end Operation

/-- Objects a program can reach, by calls that meet a condition. What stands
outside the arrays may differ from call to call. -/
inductive Reachable (condition : Objects → Operation → Prop) : Objects → Prop
  | start : Reachable condition fun _ => zero
  | call {s : Objects} (outside : Outside) (op : Operation) (h : Reachable condition s) (hop : condition s op) :
      Reachable condition (op.run outside s)

/-! ## What keeps the canonical form -/

/-- No zero is multiplied by a negative number. -/
def MultiplySafe (b other : BigInteger) : Prop := b.isZero ∨ other.isZero → b.sign = other.sign

/-- Algorithm D is not run on numbers of different signs, unless no remainder
is asked for, or its estimates are right and there is one. A divisor of one
limb is left out: what stands in front of its array is read. -/
def DivideSafe (b divisor : BigInteger) (rem : Option Nat) : Prop :=
  b.sign = divisor.sign ∨ b.compare divisor true ≠ 1 ∨ divisor.getBitLength = 1 ∨ b.mag.length ≤ 2 ∨
    (2 ≤ divisor.mag.length ∧
      (rem = none ∨ EstimatesExact b.mag divisor.mag ∧ ¬ value divisor.mag ∣ value b.mag))

def Operation.Safe (s : Objects) : Operation → Prop
  | .multiply x other _ => MultiplySafe (s x) (s other)
  | .divide x divisor _ rem => DivideSafe (s x) (s divisor) rem
  | _ => True

/-- For `Multiply` this is all. -/
theorem multiply_canonical_iff {b other : BigInteger} (h : b.Canonical) (h' : other.Canonical) :
    (b.multiply other).Canonical ↔ MultiplySafe b other := by
  constructor
  · intro hc hz
    have hv : value (b.multiply other).mag = 0 := by
      rw [value_multiply, Nat.mul_eq_zero]
      exact hz.imp (fun hb => by rw [isZero_iff.mp hb]; rfl) (fun hb => by rw [isZero_iff.mp hb]; rfl)
    have hsign : b.sign * other.sign = 1 := hc.zero ((value_eq_zero_iff hc.normalized).mp hv)
    rcases h.sign with hs | hs <;> rcases h'.sign with hs' | hs' <;> rw [hs, hs'] at hsign ⊢ <;> omega
  · exact fun hop => canonical_multiply h h' fun hz => hop (hz.imp isZero_iff.mpr isZero_iff.mpr)

/-- The results of a safe division that are asked for are canonical. -/
theorem DividePath.canonical {outside : Outside} {b divisor : BigInteger} {resIsDivisor : Bool} {rem : Option Nat}
    {d : Division} (h : b.Canonical) (h' : divisor.Canonical) (hsafe : DivideSafe b divisor rem)
    (hd : DividePath outside b divisor resIsDivisor d) : d.res.Canonical ∧ (rem ≠ none → d.rem.Canonical) := by
  have hsign := h.normal.sign_mul h'.normal
  have hcompare := compare_ignoreSign h.normalized h'.normalized
  cases hd with
  | equal _ => exact ⟨canonical_assignInt64 _, fun _ => canonical_zero⟩
  | less _ => exact ⟨canonical_zero, fun _ => h⟩
  | unit hlt _ =>
    have hne : b.mag ≠ [] := fun hnil => by
      rw [hnil, value_nil] at hlt
      omega
    refine ⟨⟨?_, h.normalized, fun hnil => absurd hnil hne⟩, fun _ => canonical_zero⟩
    split
    · rcases h.sign with hs | hs <;> simp [hs]
    · exact hsign
  | short _ _ _ => exact ⟨canonical_assignInt64 _, fun _ => canonical_assignInt64 _⟩
  | long hlt hbit hlen =>
    rcases hsafe with hs | hs | hs | hs | ⟨hlen', hrem⟩
    · have hone : b.sign * divisor.sign = 1 := by
        rw [hs]
        rcases h'.sign with hs' | hs' <;> simp [hs']
      exact ⟨canonical_normalize hsign fun _ => hone, fun _ => canonical_normalize hsign fun _ => hone⟩
    · rw [hcompare, ordering, if_neg (by omega), if_pos hlt] at hs
      exact absurd rfl hs
    · exact absurd hs hbit
    · omega
    · have hne : divisor.mag ≠ [] := fun hnil => by simp [hnil] at hlen'
      have hpos : 0 < value divisor.mag := h'.normalized.value_pos hne
      obtain ⟨hquotient, hexact, -⟩ := divideMagnitude_spec outside h'.normalized hlen'
        (length_le_of_value_le h'.normalized hlt.le)
      refine ⟨canonical_normalize hsign fun h0 => ?_, fun hsome => canonical_normalize hsign fun h0 => ?_⟩
      · -- The quotient is not zero, right or not.
        have hq := Nat.div_pos hlt.le hpos
        omega
      · obtain hnone | ⟨hestimates, hdvd⟩ := hrem
        · exact absurd hnone hsome
        · exact absurd (Nat.dvd_of_mod_eq_zero ((hexact hestimates).2.symm.trans h0)) hdvd

/-- Where the estimates are right this is all. -/
theorem DividePath.canonical_iff {outside : Outside} {b divisor : BigInteger} {resIsDivisor : Bool} {rem : Option Nat}
    {d : Division} (h : b.Canonical) (h' : divisor.Canonical) (hlen : 2 ≤ divisor.mag.length)
    (hexact : EstimatesExact b.mag divisor.mag) (hd : DividePath outside b divisor resIsDivisor d) :
    d.res.Canonical ∧ (rem ≠ none → d.rem.Canonical) ↔ DivideSafe b divisor rem := by
  refine ⟨fun hc => ?_, fun hsafe => hd.canonical h h' hsafe⟩
  by_cases hdvd : value divisor.mag ∣ value b.mag
  · have hcompare := compare_ignoreSign h.normalized h'.normalized
    cases hd with
    | equal heq =>
      refine .inr (.inl ?_)
      rw [hcompare, ordering, if_pos heq]
      decide
    | less hlt =>
      refine .inr (.inl ?_)
      rw [hcompare, ordering, if_neg (by omega), if_neg (by omega)]
      decide
    | unit _ hbit => exact .inr (.inr (.inl hbit))
    | short _ _ hshort => exact .inr (.inr (.inr (.inl hshort)))
    | long hlt hbit hlong =>
      by_cases hnone : rem = none
      · exact .inr (.inr (.inr (.inr ⟨hlen, .inl hnone⟩)))
      · -- A zero remainder of Algorithm D has the product of the signs.
        have hdiv := divide_limbs h.normal h'.normal hlen (.inr ⟨hbit, hexact⟩)
          (@DividePath.long outside _ _ resIsDivisor hlt hbit hlong)
        have hzero := hdiv.remainder.trans (Nat.mod_eq_zero_of_dvd hdvd)
        have hsign : b.sign * divisor.sign = 1 := (hc.2 hnone).zero ((value_eq_zero_iff hdiv.rem).mp hzero)
        refine .inl ?_
        rcases h.sign with hs | hs <;> rcases h'.sign with hs' | hs' <;> rw [hs, hs'] at hsign ⊢ <;> omega
  · exact .inr (.inr (.inr (.inr ⟨hlen, .inr ⟨hexact, hdvd⟩⟩)))

/-! ## Runs -/

theorem update_forall {P : BigInteger → Prop} {s : Objects} (h : ∀ x, P (s x)) (x : Nat) {b : BigInteger}
    (hb : P b) : ∀ y, P (Function.update s x b y) := by
  intro y
  by_cases hy : y = x
  · rw [hy, Function.update_self]
    exact hb
  · rw [Function.update_of_ne hy]
    exact h y

/-- The assignments of `Divide` keep what holds of its results. -/
theorem Division.assign_forall {P : BigInteger → Prop} {s : Objects} (h : ∀ x, P (s x)) {d : Division}
    {rem : Option Nat} (res : Nat) (hres : P d.res) (hrem : rem ≠ none → P d.rem) :
    ∀ x, P (d.assign s res rem x) := by
  unfold Division.assign
  cases rem with
  | none => exact update_forall h res hres
  | some rem =>
    have hrem := hrem (Option.some_ne_none rem)
    dsimp only
    split
    · exact update_forall (update_forall h rem hrem) res hres
    · exact update_forall (update_forall h res hres) rem hrem

/-- A safe call keeps all objects canonical. -/
theorem Operation.run_canonical {outside : Outside} {s : Objects} {op : Operation} (h : ∀ x, (s x).Canonical)
    (hop : op.Safe s) : ∀ x, (op.run outside s x).Canonical := by
  cases op with
  | assignInt64 x val => exact update_forall h x (canonical_assignInt64 val)
  | assignUint64 x val => exact update_forall h x (canonical_assignUint64 val)
  | ofBytes x val negative bigEndian =>
    refine update_forall h x (canonical_ofBytes val ?_ bigEndian)
    cases negative
    · exact .inl rfl
    · exact .inr rfl
  | read x is => exact update_forall h x (canonical_read outside is)
  | multiply x other res =>
    refine update_forall h res (canonical_multiply (h x) (h other) fun hz => hop ?_)
    exact hz.imp isZero_iff.mpr isZero_iff.mpr
  | divide x divisor res rem =>
    by_cases hne : (s divisor).mag = []
    · simp only [run, BigInteger.divide, if_pos hne]
      exact h
    · obtain ⟨d, hd, hpath⟩ := divide_path outside (res == divisor)
        (h x).normalized (h divisor).normalized hne
      obtain ⟨hres, hrem⟩ := hpath.canonical (h x) (h divisor) hop
      simp only [run, hd]
      exact d.assign_forall h res hres hrem
  | pow x exp => exact update_forall h x (canonical_pow (h x) exp)
  | add x val => exact update_forall h x (add_spec (h x) val).1
  | negate x => exact update_forall h x (canonical_negate (h x))

/-! ## What every call keeps -/

theorem Normal.negate {b : BigInteger} (h : b.Normal) : b.negate.Normal := by
  unfold BigInteger.negate
  split
  · exact ⟨by rcases h.sign with hs | hs <;> simp [hs], h.normalized⟩
  · exact h

theorem Normal.add {b : BigInteger} (h : b.Normal) (x : UInt64) : (b.add x).Normal := by
  by_cases hx : x = 0
  · rw [BigInteger.add, if_pos hx]
    exact h
  · exact (h.add_spec hx).1.normal

theorem Normal.pow {b : BigInteger} (h : b.Normal) (e : Int32) : (b.pow e).Normal := by
  by_cases hnil : b.mag = []
  · have hbits : b.getBitLength = 0 := by simp [getBitLength, hnil]
    unfold BigInteger.pow
    rw [if_pos hbits]
    split
    · exact (canonical_assignInt64 0).normal
    · exact h
  · exact (canonical_pow (h.canonical_of_ne hnil) e).normal

theorem DividePath.normal {outside : Outside} {b divisor : BigInteger} {resIsDivisor : Bool} {d : Division}
    (h : b.Normal) (h' : divisor.Normal) (hd : DividePath outside b divisor resIsDivisor d) :
    d.res.Normal ∧ d.rem.Normal := by
  cases hd with
  | equal _ => exact ⟨(canonical_assignInt64 _).normal, (canonical_assignInt64 0).normal⟩
  | less _ => exact ⟨(canonical_assignInt64 0).normal, h⟩
  | unit _ _ =>
    refine ⟨⟨?_, h.normalized⟩, (canonical_assignInt64 0).normal⟩
    split
    · exact h.sign_mul h
    · exact h.sign_mul h'
  | short _ _ _ => exact ⟨(canonical_assignInt64 _).normal, (canonical_assignInt64 _).normal⟩
  | long _ _ _ => exact ⟨⟨h.sign_mul h', normalized_normalize _⟩, h.sign_mul h', normalized_normalize _⟩

theorem Operation.run_normal (outside : Outside) {s : Objects} (op : Operation) (h : ∀ x, (s x).Normal) :
    ∀ x, (op.run outside s x).Normal := by
  cases op with
  | assignInt64 x val => exact update_forall h x (canonical_assignInt64 val).normal
  | assignUint64 x val => exact update_forall h x (canonical_assignUint64 val).normal
  | ofBytes x val negative bigEndian =>
    refine update_forall h x (canonical_ofBytes val ?_ bigEndian).normal
    cases negative
    · exact .inl rfl
    · exact .inr rfl
  | read x is => exact update_forall h x (canonical_read outside is).normal
  | multiply x other res => exact update_forall h res ((h x).multiply (h other))
  | divide x divisor res rem =>
    by_cases hne : (s divisor).mag = []
    · simp only [run, BigInteger.divide, if_pos hne]
      exact h
    · obtain ⟨d, hd, hpath⟩ := divide_path outside (res == divisor)
        (h x).normalized (h divisor).normalized hne
      obtain ⟨hres, hrem⟩ := hpath.normal (h x) (h divisor)
      simp only [run, hd]
      exact d.assign_forall h res hres fun _ => hrem
  | pow x exp => exact update_forall h x ((h x).pow exp)
  | add x val => exact update_forall h x ((h x).add val)
  | negate x => exact update_forall h x (h x).negate

/-- The form of every number a program reaches, by whatever calls. -/
theorem reachable_normal {condition : Objects → Operation → Prop} {s : Objects} (h : Reachable condition s) :
    ∀ x, (s x).Normal := by
  induction h with
  | start => exact fun _ => canonical_zero.normal
  | call outside op _ _ ih => exact op.run_normal outside ih

/-! ## The canonical form -/

end BigInteger

end DocumentDbOdbc
