import ItemExpr.Number.Integer

set_option autoImplicit false

namespace ItemExpr

-- A decimal number, in which `1.0` and `1.00` differ.
inductive Decimal
  | finite (negative : Bool) (coefficient : Nat) (exponent : Int)
  | infinite (negative : Bool)
  | nan (negative signaling : Bool) (payload : Nat)
  deriving DecidableEq, Repr

namespace Decimal

open Number (tenTo)

def ofInt (n : Int) : Decimal := .finite (n < 0) n.natAbs 0

def text : Decimal → String
  | .finite negative coefficient exponent =>
      let ds := Nat.toDigits 10 coefficient
      let body :=
        if exponent ≤ 0 ∧ -6 ≤ Number.adjusted ds exponent then Number.positional ds exponent
        else Number.scientific 'E' 1 ds exponent
      String.ofList (Number.signText negative ++ body)
  | .infinite negative => String.ofList (Number.signText negative ++ "Infinity".toList)
  | .nan negative signaling payload =>
      String.ofList (Number.signText negative ++ (if signaling then "sNaN" else "NaN").toList
        ++ (if payload = 0 then [] else Nat.toDigits 10 payload))

def adjusted (coefficient : Nat) (exponent : Int) : Int :=
  exponent + Number.digitCount coefficient - 1

def sameFinite (n : Bool) (c : Nat) (e : Int) (n' : Bool) (c' : Nat) (e' : Int) : Bool :=
  if c = 0 || c' = 0 then c = c'
  else n = n' && adjusted c e = adjusted c' e' &&
    c * tenTo (e - e').toNat = c' * tenTo (e' - e).toNat

def sameValue : Decimal → Decimal → Bool
  | .finite n c e, .finite n' c' e' => sameFinite n c e n' c' e'
  | .infinite n, .infinite n' => n = n'
  | _, _ => false

def truncate (negative : Bool) (coefficient : Nat) (exponent : Int) : Int :=
  let magnitude : Nat :=
    if 0 ≤ exponent then coefficient * tenTo exponent.toNat
    else if (Number.digitCount coefficient : Int) + exponent ≤ 0 then 0
    else coefficient / tenTo (-exponent).toNat
  if negative then -magnitude else magnitude

def readExponent? : List Char → Option Int
  | [] => some 0
  | 'e' :: rest =>
      let (negative, ds) := Number.takeSign rest
      if ds.isEmpty || !ds.all Char.isDigit then none
      else if negative then some (-(Number.ofDigits ds : Int)) else some (Number.ofDigits ds)
  | _ => none

def readFinite? (negative : Bool) (s : List Char) : Option Decimal := do
  let whole := s.takeWhile Char.isDigit
  let rest := s.dropWhile Char.isDigit
  let (fraction, rest) := match rest with
    | '.' :: rest => (rest.takeWhile Char.isDigit, rest.dropWhile Char.isDigit)
    | rest => ([], rest)
  if (whole ++ fraction).isEmpty then none
  else
    let exponent ← readExponent? rest
    return .finite negative (Number.ofDigits (whole ++ fraction)) (exponent - fraction.length)

def readPayload? (negative signaling : Bool) (ds : List Char) : Option Decimal :=
  if ds.all Char.isDigit then some (.nan negative signaling (Number.ofDigits ds)) else none

def plainSpelling (s : List Char) : List Char :=
  let inner := ((s.dropWhile Unicode.isSpace).reverse.dropWhile Unicode.isSpace).reverse
  ((inner.filter (· ≠ '_')).map Number.plainChar).map Char.toLower

def ofString? (s : String) : Option Decimal :=
  let (negative, body) := Number.takeSign (plainSpelling s.toList)
  match body with
  | 'i' :: 'n' :: 'f' :: rest =>
      if rest = [] || rest = "inity".toList then some (.infinite negative) else none
  | 'n' :: 'a' :: 'n' :: rest => readPayload? negative false rest
  | 's' :: 'n' :: 'a' :: 'n' :: rest => readPayload? negative true rest
  | _ => readFinite? negative body

end Decimal
end ItemExpr
