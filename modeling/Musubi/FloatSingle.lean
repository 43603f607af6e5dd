/-
# Arithmetic in single precision

What the writers compute with an `f32`: the same operations as on an `f64`, each with the nearest
number to the exact result.  Only those that the writers use are here; a result that is not a
number is one fixed NaN.
-/
import Musubi.FloatDisplay

namespace Musubi

open Lib

namespace F32

def nan : F32 := ⟨0x7FC00000⟩

def isZero (v : F32) : Bool := v.magnitude = 0

/-- The value of a finite number. -/
def toRat (v : F32) : ℚ := (if v.isNegative then -1 else 1) * binary32.value v.magnitude

/-- A zero or an infinity. -/
def signed (negative : Bool) (magnitude : ℕ) : F32 :=
  ⟨UInt32.ofNat ((if negative then binary32.signBit else 0) + magnitude)⟩

def infinity (negative : Bool) : F32 := signed negative binary32.infinity

/-- The number nearest to `q`; a zero that is exact has the sign that is given. -/
def nearest (negativeZero : Bool) (q : ℚ) : F32 := if q = 0 then signed negativeZero 0 else ofRat q

/-- `f32::from` an integer, and `v as f32`. -/
def ofInt (v : ℤ) : F32 := ofRat v

/-- `f32::max`, which prefers a number to a NaN. -/
def max (a b : F32) : F32 :=
  if a.isNan then b else if b.isNan then a else if a.le b then b else a

/-- `-v`. -/
def neg (v : F32) : F32 := signed (!v.isNegative) v.magnitude

def add (a b : F32) : F32 :=
  if a.isNan || b.isNan then nan
  else if !a.isFinite then
    if !b.isFinite && a.isNegative != b.isNegative then nan else a
  else if !b.isFinite then b
  else nearest (a.isNegative && b.isNegative) (a.toRat + b.toRat)

def sub (a b : F32) : F32 := a.add b.neg

def mul (a b : F32) : F32 :=
  let negative := a.isNegative != b.isNegative
  if a.isNan || b.isNan then nan
  else if !a.isFinite || !b.isFinite then
    if a.isZero || b.isZero then nan else infinity negative
  else nearest negative (a.toRat * b.toRat)

def div (a b : F32) : F32 :=
  let negative := a.isNegative != b.isNegative
  if a.isNan || b.isNan then nan
  else if !a.isFinite then if b.isFinite then infinity negative else nan
  else if !b.isFinite then signed negative 0
  else if b.isZero then if a.isZero then nan else infinity negative
  else nearest negative (a.toRat / b.toRat)

end F32

/-- A quotient, and a sum that is rounded. -/
example : F32.div (.ofInt 12400) (.ofInt 1000) = .ofRat (124 / 10) ∧
    F32.add (.ofRat (124 / 10)) (.ofRat (2 / 10)) = ⟨0x41499999⟩ ∧
    F32.mul (.ofRat (3 / 2)) (.ofInt 2) = .ofInt 3 := by decide +kernel

end Musubi
