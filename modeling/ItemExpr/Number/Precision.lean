import ItemExpr.Number.Decimal

set_option autoImplicit false

namespace ItemExpr

inductive Signal
  | overflow
  | underflow
  | inexact
  | rounded
  | clamped
  deriving DecidableEq, Repr

def Signal.name : Signal → String
  | .overflow => "Overflow"
  | .underflow => "Underflow"
  | .inexact => "Inexact"
  | .rounded => "Rounded"
  | .clamped => "Clamped"

structure Precision where
  digits : Nat
  least : Int
  greatest : Int

namespace Precision

open Number (tenTo)

def tiny (p : Precision) : Int := p.least - p.digits + 1

def roundOff (coefficient places : Nat) : Nat := Number.roundQuotient coefficient (tenTo places)

def lossless (coefficient places : Nat) : Bool := coefficient % tenTo places = 0

-- The signals that a finite number raises when it is made to fit, in order of severity.
def signals (p : Precision) (coefficient : Nat) (exponent : Int) : List Signal :=
  let count := Number.digitCount coefficient
  let first := Decimal.adjusted coefficient exponent
  if coefficient = 0 then
    if first > p.greatest ∨ exponent < p.tiny then [.clamped] else []
  else if first > p.greatest then [.overflow, .inexact, .rounded]
  else if first < p.least then
    if exponent < p.tiny then
      let places := (p.tiny - exponent).toNat
      if count + 1 < places then [.underflow, .inexact, .rounded, .clamped]
      else if lossless coefficient places then [.rounded]
      else [.underflow, .inexact, .rounded]
        ++ (if roundOff coefficient places = 0 then [.clamped] else [])
    else []
  else if count > p.digits then
    let places := count - p.digits
    if Decimal.adjusted (roundOff coefficient places) (exponent + places) > p.greatest then
      [.overflow, .inexact, .rounded]
    else if lossless coefficient places then [.rounded]
    else [.inexact, .rounded]
  else []

def fit (p : Precision) : Decimal → Except (List Signal) Decimal
  | .finite negative coefficient exponent =>
      match p.signals coefficient exponent with
      | [] => .ok (.finite negative coefficient exponent)
      | raised => .error raised
  | .infinite negative => .ok (.infinite negative)
  | .nan negative signaling payload =>
      if payload ≠ 0 ∧ Number.digitCount payload > p.digits then .ok (.nan false false 0)
      else .ok (.nan negative signaling payload)

end Precision
end ItemExpr
