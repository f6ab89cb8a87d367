import Kaskade.PythonValues
import Mathlib.Data.Rat.Init
import Mathlib.Algebra.Order.Ring.Unbundled.Rat

/-!
# Floats as exact decimals

Floating-point numbers given by their decimal text. Every binary number has one, so this
is a model of the interpreter's floats, with longer texts than the interpreter prints.
-/

namespace Kaskade.Python

namespace FloatLiteral

def value (l : FloatLiteral) : ℚ :=
  let digits : ℕ := l.fraction.foldl (fun acc d => 10 * acc + d.val) l.whole
  let magnitude : ℚ := digits * (10 : ℚ) ^ (l.exponent.getD 0 - l.fraction.length)
  if l.negative then -magnitude else magnitude

/-- `mantissa * 2 ^ power` as an exact decimal. -/
def ofBinary (negative : Bool) (mantissa : ℕ) (power : ℤ) : FloatLiteral where
  negative := negative
  whole := if 0 ≤ power then mantissa * 2 ^ power.toNat else mantissa * 5 ^ (-power).toNat
  fraction := []
  exponent := some (min power 0)
  proper := Or.inr rfl

end FloatLiteral

/-- The IEEE 754 number whose fraction has `fractionBits` bits and whose exponent has
`exponentBits`. -/
def unpackBinary (fractionBits exponentBits : ℕ) (data : Bytes) : FloatRepr :=
  let bits : ℕ := data.foldl (fun acc b => acc * 256 + b.toNat) 0
  let fraction : ℕ := bits % 2 ^ fractionBits
  let exponent : ℕ := bits / 2 ^ fractionBits % 2 ^ exponentBits
  let negative := bits / 2 ^ (fractionBits + exponentBits) % 2 == 1
  let lowest : ℤ := 2 - 2 ^ (exponentBits - 1) - fractionBits
  if exponent = 2 ^ exponentBits - 1 then
    if fraction = 0 then .infinity negative else .nan
  else if exponent = 0 then .literal (.ofBinary negative fraction lowest)
  else .literal (.ofBinary negative (2 ^ fractionBits + fraction) (lowest + exponent - 1))

instance : PyFloat FloatRepr where
  repr := id
  ofRepr := id
  unpack data := if data.length = 4 then unpackBinary 23 8 data else unpackBinary 52 11 data
  isInteger
    | .literal l => l.value.den == 1
    | _ => false
  compareInt
    | .nan, _ => none
    | .infinity negative, _ => some (if negative then .lt else .gt)
    | .literal l, i => some (compare l.value i)
  ofRepr_repr _ := rfl

end Kaskade.Python
