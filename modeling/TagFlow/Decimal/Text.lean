import TagFlow.Decimal.Shortest

/-!
# The text of a number

A number is written with the fewest digits that read back, always in positional notation: an
integer has no fractional part, both zeros are `0`, and the three special values are spelled out.
-/

namespace TagFlow.Decimal

/-- Drop the zeros at the end of a list of digits. -/
def dropTrailingZeros (digits : List Char) : List Char :=
  (digits.reverse.dropWhile (· == '0')).reverse

/-- Digits before and after the decimal point, the point left out where nothing follows it. -/
def joinParts (whole fraction : List Char) : List Char :=
  match dropTrailingZeros fraction with
  | [] => whole
  | digits => whole ++ '.' :: digits

/-- The positional text of a decimal number: zeros fill the places between the digits and the
decimal point. -/
def Scaled.positional (d : Scaled) : List Char :=
  let digits := Nat.toDigits 10 d.coefficient
  if 0 ≤ d.exponent then
    digits ++ List.replicate d.exponent.toNat '0'
  else
    let places := (-d.exponent).toNat
    let padded := List.replicate (places + 1 - digits.length) '0' ++ digits
    joinParts (padded.take (padded.length - places)) (padded.drop (padded.length - places))

/-- The text of the number with these bits. -/
def Binary.text : Binary → String
  | .nan => "NaN"
  | .infinite negative => if negative then "-Infinity" else "Infinity"
  | .finite negative mantissa exponent =>
    if mantissa == 0 then "0"
    else
      let digits := (shortest mantissa exponent).positional
      String.ofList (if negative then '-' :: digits else digits)

/-- The text of a number. -/
def numberText (n : Float) : String := (Binary.ofFloat n).text

end TagFlow.Decimal
