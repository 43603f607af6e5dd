/-
# Floating-point arithmetic

What the analysis computes with an `f64`: sums, products and quotients, each the nearest number to
the exact result; comparisons, which no NaN satisfies; and conversions to integers, which
saturate.  A result that is not a number is one fixed NaN, since nothing reads its payload.

A finite number is a rational here (`toRat`), an operation is the exact one on rationals, and
rounding comes last and once.  That is the definition of the standard and it leaves nothing to the
hardware; the operations evaluate, so that a witness can run the analysis.  Zeros and infinities
have signs, and each operation says which sign its own has.
-/
import Musubi.Floats

namespace Musubi

open Lib

namespace F64

/-! ## 1. Numbers -/

def nan : F64 := ⟨0x7FF8000000000000⟩

def isNegative (v : F64) : Bool := binary64.signBit ≤ v.bits.toNat

def isZero (v : F64) : Bool := v.magnitude = 0

/-- The value of a finite number. -/
def toRat (v : F64) : ℚ := (if v.isNegative then -1 else 1) * binary64.value v.magnitude

/-- A zero or an infinity. -/
def signed (negative : Bool) (magnitude : ℕ) : F64 :=
  ⟨UInt64.ofNat ((if negative then binary64.signBit else 0) + magnitude)⟩

def infinity (negative : Bool) : F64 := signed negative binary64.infinity

/-- The number nearest to `q`; a zero that is exact has the sign that is given. -/
def nearest (negativeZero : Bool) (q : ℚ) : F64 := if q = 0 then signed negativeZero 0 else ofRat q

/-- `v as f64` of an integer. -/
def ofInt (v : ℤ) : F64 := ofRat v

/-! ## 2. Comparisons -/

/-- `<`. -/
def lt (a b : F64) : Bool :=
  !a.isNan && !b.isNan && decide (binary64.key a.bits.toNat < binary64.key b.bits.toNat)

/-- `==`, which takes the two zeros for one. -/
def eq (a b : F64) : Bool := a.le b && b.le a

/-- `f64::min`, which prefers a number to a NaN. -/
def min (a b : F64) : F64 :=
  if a.isNan then b else if b.isNan then a else if a.le b then a else b

/-- `f64::max`. -/
def max (a b : F64) : F64 :=
  if a.isNan then b else if b.isNan then a else if a.le b then b else a

/-! ## 3. Arithmetic -/

/-- `abs`. -/
def abs (v : F64) : F64 := signed false v.magnitude

/-- `-v`. -/
def neg (v : F64) : F64 := signed (!v.isNegative) v.magnitude

def add (a b : F64) : F64 :=
  if a.isNan || b.isNan then nan
  else if !a.isFinite then
    if !b.isFinite && a.isNegative != b.isNegative then nan else a
  else if !b.isFinite then b
  else nearest (a.isNegative && b.isNegative) (a.toRat + b.toRat)

def sub (a b : F64) : F64 := a.add b.neg

def mul (a b : F64) : F64 :=
  let negative := a.isNegative != b.isNegative
  if a.isNan || b.isNan then nan
  else if !a.isFinite || !b.isFinite then
    if a.isZero || b.isZero then nan else infinity negative
  else nearest negative (a.toRat * b.toRat)

def div (a b : F64) : F64 :=
  let negative := a.isNegative != b.isNegative
  if a.isNan || b.isNan then nan
  else if !a.isFinite then if b.isFinite then infinity negative else nan
  else if !b.isFinite then signed negative 0
  else if b.isZero then if a.isZero then nan else infinity negative
  else nearest negative (a.toRat / b.toRat)

/-! ## 4. Integers -/

/-- `v.ceil() as i128`. -/
def ceilAsI128 (v : F64) : ℤ :=
  if v.isNan then 0
  else if !v.isFinite then if v.isNegative then -2 ^ 127 else 2 ^ 127 - 1
  else Max.max (-2 ^ 127) (Min.min ⌈v.toRat⌉ (2 ^ 127 - 1))

/-- `v as i64`. -/
def asI64 (v : F64) : Int64 :=
  if v.isNan then 0
  else if !v.isFinite then if v.isNegative then .minValue else .maxValue
  else .ofInt (Max.max (-2 ^ 63) (Min.min (v.toRat.num.tdiv v.toRat.den) (2 ^ 63 - 1)))

/-- `v as u32`. -/
def asU32 (v : F64) : UInt32 :=
  if v.isNan || v.isNegative then 0
  else if !v.isFinite then 0xFFFFFFFF
  else UInt32.ofNat (Min.min ⌊v.toRat⌋₊ 0xFFFFFFFF)

end F64

/-! ## 5. Single precision -/

/-- `<` on `f32`. -/
def F32.lt (a b : F32) : Bool :=
  !a.isNan && !b.isNan && decide (binary32.key a.bits.toNat < binary32.key b.bits.toNat)

/-- `f64::from` an `f32`: the same number; a NaN keeps its sign and its payload, and is quiet. -/
def F64.ofF32 (v : F32) : F64 :=
  let negative : Bool := binary32.signBit ≤ v.bits.toNat
  if v.isNan then
    F64.signed negative (binary64.infinity + (v.magnitude - binary32.infinity) % 2 ^ 22 * 2 ^ 29
      + 2 ^ 51)
  else if !v.isFinite then F64.infinity negative
  else F64.nearest negative ((if negative then -1 else 1) * binary32.value v.magnitude)

/-- A third and a third, a quotient by zero, and a carry into the next integer. -/
example : F64.add (.ofRat (1 / 3)) (.ofRat (1 / 3)) = .ofRat (2 / 3) ∧
    F64.div (.ofInt (-1)) (.ofInt 0) = F64.infinity true ∧
    F64.ceilAsI128 (.mul (.ofInt 7) (.ofRat (1 / 2))) = 4 ∧
    F64.asI64 (.ofRat (-7 / 2)) = -3 := by decide +kernel

/-- A negative number and a signalling NaN. -/
example : F64.ofF32 ⟨0xBF000000⟩ = .ofRat (-1 / 2) ∧
    F64.ofF32 ⟨0x7F800001⟩ = ⟨0x7FF8000020000000⟩ := by decide +kernel

end Musubi
