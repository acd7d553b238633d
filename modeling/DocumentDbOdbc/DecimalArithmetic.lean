/-
`common::Decimal`: `SetScale`, `ToInt64` and `Compare`.

`SetScale` writes the object it is given, and leaves it as it is when the scale
is already the one asked for. Scales and their difference are `int32_t`s, which
wrap.
-/
import DocumentDbOdbc.BigIntegerAccess
import DocumentDbOdbc.DecimalText

namespace DocumentDbOdbc

namespace Common.Decimal

open BigInteger

/-- `Decimal()`. -/
def zero : Decimal := ⟨0, assignInt64 0⟩

def isZero (d : Decimal) : Bool := d.magnitude.isZero

/-! ## Scales -/

/-- `SetScale`, where `res` holds the given decimal before. A power of ten is
not zero, so `Divide` does not throw. -/
def setScale (outside : Outside) (d res : Decimal) (newScale : Int32) : Decimal :=
  if d.scale = newScale then res
  else
    let diff := d.scale - newScale
    if diff > 0 then
      match divide outside d.magnitude (getPowerOfTen outside diff) false with
      | .ok q => ⟨newScale, q.res⟩
      | .error _ => res
    else ⟨newScale, d.magnitude.multiply (getPowerOfTen outside (-diff))⟩

/-- The decimals of a program, by number. -/
abbrev Objects := Nat → Decimal

/-- `s x`.SetScale(newScale, `s res`); `res` may be `x`. -/
def runSetScale (outside : Outside) (s : Objects) (x : Nat) (newScale : Int32) (res : Nat) : Objects :=
  Function.update s res (setScale outside (s x) (s res) newScale)

/-- `SetScale` stays inside its arrays: `TenPowerU64` is not asked for a
negative power, and `Divide` stays inside. -/
def SetScaleInBounds (outside : Outside) (d : Decimal) (newScale : Int32) : Prop :=
  if d.scale = newScale then True
  else
    let diff := d.scale - newScale
    if diff > 0 then AllInBounds (divideAccesses outside d.magnitude (getPowerOfTen outside diff) false)
    else 0 ≤ -diff

instance (outside : Outside) (d : Decimal) (newScale : Int32) : Decidable (SetScaleInBounds outside d newScale) := by
  unfold SetScaleInBounds
  infer_instance

/-! ## Integers -/

/-- `ToInt64`. -/
def toInt64 (outside : Outside) (d : Decimal) : Int64 :=
  if d.scale = 0 then d.magnitude.toInt64 else (setScale outside d zero 0).magnitude.toInt64

/-! ## Comparison -/

/-- `Compare`. -/
def compare (outside : Outside) (d other : Decimal) : Int :=
  if d.isZero && other.isZero then 0
  else if d.scale = other.scale then d.magnitude.compare other.magnitude false
  else if d.scale > other.scale then
    d.magnitude.compare (setScale outside other zero d.scale).magnitude false
  else (setScale outside d zero other.scale).magnitude.compare other.magnitude false

/-- `Compare` stays inside its arrays. -/
def CompareInBounds (outside : Outside) (d other : Decimal) : Prop :=
  if d.isZero && other.isZero then True
  else if d.scale > other.scale then SetScaleInBounds outside other d.scale
  else SetScaleInBounds outside d other.scale

end Common.Decimal

end DocumentDbOdbc
