import ItemExpr.Number.Decimal

set_option autoImplicit false

namespace ItemExpr

structure Binary64 where
  bits : UInt64
  deriving DecidableEq, Repr

-- What the bits stand for: in the finite case `mantissa` times two to the power `exponent`.
inductive Binary64.Magnitude
  | nan
  | infinite
  | finite (mantissa : Nat) (exponent : Int)
  deriving DecidableEq, Repr

namespace Binary64

open Number (roundQuotient tenTo twoTo)

def infinityBits : Nat := 2047 * twoTo 52

def isNegative (x : Binary64) : Bool := twoTo 63 ≤ x.bits.toNat

def magnitude (x : Binary64) : Magnitude :=
  let field : Nat := x.bits.toNat / twoTo 52 % 2048
  let fraction : Nat := x.bits.toNat % twoTo 52
  if field = 2047 then if fraction = 0 then .infinite else .nan
  else if field = 0 then .finite fraction (-1074)
  else .finite (twoTo 52 + fraction) (field - 1075)

def ofBits (negative : Bool) (bits : Nat) : Binary64 :=
  ⟨UInt64.ofNat ((if negative then twoTo 63 else 0) + bits)⟩

def notANumber : Binary64 := ofBits false (infinityBits + twoTo 51)

def shiftQuotient (numerator denominator : Nat) (e : Int) : Nat × Nat :=
  (numerator * twoTo (-e).toNat, denominator * twoTo e.toNat)

def nearestBits (numerator denominator : Nat) : Nat :=
  let guess : Int := (Nat.log2 numerator : Int) - Nat.log2 denominator - 53
  let (a, b) := shiftQuotient numerator denominator guess
  let e := max (if twoTo 53 ≤ a / b then guess + 1 else guess) (-1074)
  let (a, b) := shiftQuotient numerator denominator e
  min ((e + 1074).toNat * twoTo 52 + roundQuotient a b) infinityBits

def ofDecimal : Decimal → Binary64
  | .nan _ _ _ => notANumber
  | .infinite negative => ofBits negative infinityBits
  | .finite negative coefficient exponent =>
      if coefficient = 0 ∨ Decimal.adjusted coefficient exponent < -400 then ofBits negative 0
      else if Decimal.adjusted coefficient exponent > 400 then ofBits negative infinityBits
      else ofBits negative
        (nearestBits (coefficient * tenTo exponent.toNat) (tenTo (-exponent).toNat))

def ofString? (s : String) : Option Binary64 := (Decimal.ofString? s).map ofDecimal

def exactDecimal (x : Binary64) : Decimal :=
  match x.magnitude with
  | .nan => .nan false false 0
  | .infinite => .infinite x.isNegative
  | .finite m e => .finite x.isNegative (m * twoTo e.toNat * Nat.pow 5 (-e).toNat) (min e 0)

end Binary64
end ItemExpr
