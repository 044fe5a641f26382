import TagFlow.Decimal.Binary

/-!
# The remainder of a division

The remainder `x - n · y`, where `n` is the quotient cut off toward zero, is exact: it is computed
on the integers that the two numbers become over their smaller exponent. It has the sign of the
dividend, also when it is zero.
-/

namespace TagFlow.Decimal

/-- Remainder of `m₁ · 2 ^ e₁` by `m₂ · 2 ^ e₂`, as a multiple of two to the smaller exponent. -/
def dyadicRemainder (m₁ : Nat) (e₁ : Int) (m₂ : Nat) (e₂ : Int) : Nat × Int :=
  let e := min e₁ e₂
  ((m₁ * Nat.pow 2 (e₁ - e).toNat) % (m₂ * Nat.pow 2 (e₂ - e).toNat), e)

/-- The remainder of `x` by `y`. There is none for an infinite dividend or a zero divisor; an
infinite divisor leaves the dividend as it is. -/
def remainder (x y : Float) : Float :=
  match Binary.ofFloat x, Binary.ofFloat y with
  | .finite negative m₁ e₁, .finite _ m₂ e₂ =>
    if m₂ = 0 then 0.0 / 0.0
    else
      let (m, e) := dyadicRemainder m₁ e₁ m₂ e₂
      Binary.toFloat negative m e
  | .finite _ _ _, .infinite _ => x
  | _, _ => 0.0 / 0.0

end TagFlow.Decimal
