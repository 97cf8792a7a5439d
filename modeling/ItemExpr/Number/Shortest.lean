import ItemExpr.Number.Binary64

set_option autoImplicit false

namespace ItemExpr.Binary64

open Number (tenTo twoTo)

-- The real numbers that round to `m` times two to the power `e`, in quarters of its last bit.
structure Interval where
  low : Nat
  middle : Nat
  high : Nat
  closed : Bool

def Interval.of (m : Nat) (e : Int) : Interval :=
  { low := if m = twoTo 52 ∧ e ≠ -1074 then 4 * m - 1 else 4 * m - 2
    middle := 4 * m
    high := 4 * m + 2
    closed := m % 2 = 0 }

def Interval.holds (i : Interval) (a b d : Nat) : Bool :=
  if i.closed then i.low * b ≤ d * a && d * a ≤ i.high * b
  else i.low * b < d * a && d * a < i.high * b

def Interval.nearest? (i : Interval) (a b : Nat) : Option Nat :=
  let below := i.middle * b / a
  let above := below + 1
  match i.holds a b below, i.holds a b above with
  | true, true =>
      let down := i.middle * b - below * a
      let up := above * a - i.middle * b
      if down < up ∨ (down = up ∧ below % 2 = 0) then some below else some above
  | true, false => some below
  | false, true => some above
  | false, false => none

def firstExponent (m : Nat) (e : Int) : Int :=
  let reaches (k : Int) : Bool :=
    tenTo k.toNat * twoTo (-e).toNat ≤ m * twoTo e.toNat * tenTo (-k).toNat
  let guess := Int.fdiv (((Nat.log2 m : Int) + e) * 30103) 100000
  if reaches (guess + 1) then guess + 1 else if reaches guess then guess else guess - 1

-- Tries grids of `tried + 1`, `tried + 2`, … digits, seventeen of which always suffice.
def shortestFrom (m : Nat) (e first : Int) : Nat → Nat → Nat × Int
  | 0, tried =>
      let grid := first - tried
      (m * twoTo e.toNat * tenTo (-grid).toNat / (twoTo (-e).toNat * tenTo grid.toNat), grid)
  | left + 1, tried =>
      let grid := first - tried
      let a := tenTo grid.toNat * twoTo (2 - e).toNat
      let b := tenTo (-grid).toNat * twoTo (e - 2).toNat
      match (Interval.of m e).nearest? a b with
      | some d => (d, grid)
      | none => shortestFrom m e first left (tried + 1)

def shortest (m : Nat) (e : Int) : Nat × Int :=
  if m = 0 then (0, 0)
  else
    let (d, grid) := shortestFrom m e (firstExponent m e) 17 0
    if d % 10 = 0 then (d / 10, grid + 1) else (d, grid)

def isPositional (ds : List Char) (e : Int) : Bool :=
  -4 ≤ Number.adjusted ds e && Number.adjusted ds e < 16

def written (x : Binary64) : Decimal :=
  match x.magnitude with
  | .nan => .nan false false 0
  | .infinite => .infinite x.isNegative
  | .finite m e =>
      let (d, k) := shortest m e
      if isPositional (Nat.toDigits 10 d) k ∧ 0 ≤ k then
        .finite x.isNegative (d * tenTo (k.toNat + 1)) (-1)
      else .finite x.isNegative d k

def text (x : Binary64) : String :=
  match x.written with
  | .nan _ _ _ => "nan"
  | .infinite negative => if negative then "-inf" else "inf"
  | .finite negative c e =>
      let ds := Nat.toDigits 10 c
      let body := if isPositional ds e then Number.positional ds e else Number.scientific 'e' 2 ds e
      String.ofList (Number.signText negative ++ body)

end ItemExpr.Binary64
