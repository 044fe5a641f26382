/-!
# Floating-point numbers as exact dyadic fractions

A finite number is `mantissa · 2 ^ exponent` with an integer mantissa below `2 ^ 53`; everything
that has to be exact about numbers (their shortest text, the remainder of a division) works on
this form, in integer arithmetic.
-/

namespace TagFlow.Decimal

/-- What the bits of a number stand for. -/
inductive Binary where
  | nan
  | infinite (negative : Bool)
  /-- The number `± mantissa · 2 ^ exponent`. -/
  | finite (negative : Bool) (mantissa : Nat) (exponent : Int)
deriving DecidableEq

namespace Binary

/-- The number of bits of the fraction field. -/
def fractionBits : Nat := 52

/-- The exponent of the smallest positive number, shared by all subnormal numbers. -/
def minExponent : Int := -1074

/-- Read sign, exponent field and fraction field. A zero exponent field marks a subnormal number,
which has no hidden bit; an exponent field of ones marks the infinities and NaN. -/
def ofBits (bits : Nat) : Binary :=
  let negative := bits / Nat.pow 2 63 == 1
  let field := bits / Nat.pow 2 fractionBits % Nat.pow 2 11
  let fraction := bits % Nat.pow 2 fractionBits
  if field == 2047 then
    if fraction == 0 then infinite negative else nan
  else if field == 0 then
    finite negative fraction minExponent
  else
    finite negative (fraction + Nat.pow 2 fractionBits) (minExponent + (field - 1 : Nat))

def ofFloat (x : Float) : Binary := ofBits x.toBits.toNat

/-- The floating-point number with this sign, mantissa and exponent; exact whenever that number is
representable. -/
def toFloat (negative : Bool) (mantissa : Nat) (exponent : Int) : Float :=
  let magnitude := (Float.ofNat mantissa).scaleB exponent
  if negative then -magnitude else magnitude

end Binary

end TagFlow.Decimal
