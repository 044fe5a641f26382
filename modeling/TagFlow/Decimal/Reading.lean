/-!
# Reading a decimal number

`readNumber?` reads a numeral: an optional sign, digits with at most one decimal point and at least
one digit on either side of it, and an optional exponent; or, in any mixture of upper and lower
case, `inf`, `infinity` or `nan` after an optional sign. Nothing may surround the numeral. The
result is the floating-point number nearest to it.
-/

namespace TagFlow.Decimal

/-- The number that a digit denotes. -/
def digitValue (c : Char) : Nat := c.toNat - '0'.toNat

/-- The number that a list of digits denotes. -/
def digitsValue (digits : List Char) : Nat :=
  digits.foldl (fun n c => 10 * n + digitValue c) 0

/-- Take an optional sign off the front; the first component says whether it is a minus sign. -/
def takeSign : List Char → Bool × List Char
  | '-' :: rest => (true, rest)
  | '+' :: rest => (false, rest)
  | cs => (false, cs)

/-- The value from which on an exponent takes no more digits. -/
def exponentLimit : Nat := 65536

/-- The value of the digits of an exponent. Digits count as long as the value is below the limit;
those that come after that are passed over. -/
def exponentValue (digits : List Char) : Nat :=
  digits.foldl (fun e c => if e < exponentLimit then 10 * e + digitValue c else e) 0

/-- What may follow the digits: nothing, or an exponent. -/
def readExponent? : List Char → Option Int
  | [] => some 0
  | c :: rest =>
    if c == 'e' || c == 'E' then
      let (negative, digits) := takeSign rest
      if digits.isEmpty || !digits.all Char.isDigit then none
      else
        let value : Int := exponentValue digits
        some (if negative then -value else value)
    else none

/-- Take the digits after a decimal point off the front, if there is a point. -/
def takeFraction : List Char → List Char × List Char
  | '.' :: rest => rest.span Char.isDigit
  | cs => ([], cs)

/-- How many digits of a numeral are kept, from the first one that is not zero. Halfway between two
neighbouring floating-point numbers lies a number of at most 767 such digits, so all that matters
about the digits beyond these is whether one of them is not zero. -/
def keptDigits : Nat := 800

/-- A coefficient and an exponent of ten for a list of digits: the number that they denote or, if
it has too many digits, one that lies between the same two floating-point numbers and on the same
side of the halfway point. -/
def significand (digits : List Char) : Nat × Nat :=
  let (kept, beyond) := (digits.dropWhile (· == '0')).splitAt keptDigits
  if beyond.any (· != '0') then (10 * digitsValue kept + 1, beyond.length - 1)
  else (digitsValue kept, beyond.length)

/-- An unsigned numeral as `coefficient · 10 ^ exponent`, up to digits that do not matter. -/
def readMagnitude? (cs : List Char) : Option (Nat × Int) :=
  let (whole, rest) := cs.span Char.isDigit
  let (fraction, rest) := takeFraction rest
  if whole.isEmpty && fraction.isEmpty then none
  else
    let (coefficient, shift) := significand (whole ++ fraction)
    (readExponent? rest).map fun exponent => (coefficient, exponent + shift - fraction.length)

/-- An upper bound for the number of decimal digits of a positive number. -/
def digitsBound (n : Nat) : Nat := n.log2 / 3 + 1

/-- The nearest floating-point number to `coefficient · 10 ^ exponent`. Beyond the two bounds the
result is infinite or zero whatever the digits are, so that huge exponents cost nothing. -/
def nearest (coefficient : Nat) (exponent : Int) : Float :=
  if coefficient = 0 then 0
  else if 400 < exponent then 1.0 / 0.0
  else if exponent + digitsBound coefficient < -400 then 0
  else Float.ofScientific coefficient (exponent < 0) exponent.natAbs

/-- The special values, by their names in lower case. -/
def readSpecial? (cs : List Char) : Option Float :=
  match String.ofList (cs.map Char.toLower) with
  | "inf" | "infinity" => some (1.0 / 0.0)
  | "nan" => some (0.0 / 0.0)
  | _ => none

/-- Read a number; `none` when the text is no numeral. -/
def readNumber? (text : String) : Option Float :=
  let (negative, rest) := takeSign text.toList
  let magnitude :=
    match readMagnitude? rest with
    | some (coefficient, exponent) => some (nearest coefficient exponent)
    | none => readSpecial? rest
  magnitude.map fun x => if negative then -x else x

end TagFlow.Decimal
