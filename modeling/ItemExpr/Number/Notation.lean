set_option autoImplicit false

namespace ItemExpr.Number

def digitCount (n : Nat) : Nat := (Nat.toDigits 10 n).length

def digitValue (c : Char) : Nat := c.toNat - 48

def ofDigits (ds : List Char) : Nat := ds.foldl (fun n c => 10 * n + digitValue c) 0

def signText (negative : Bool) : List Char := if negative then ['-'] else []

def takeSign : List Char → Bool × List Char
  | '-' :: rest => (true, rest)
  | '+' :: rest => (false, rest)
  | rest => (false, rest)

def positional (ds : List Char) (e : Int) : List Char :=
  if 0 ≤ e then ds ++ List.replicate e.toNat '0'
  else
    let places := (-e).toNat
    let padded := List.replicate (places + 1 - ds.length) '0' ++ ds
    padded.take (padded.length - places) ++ '.' :: padded.drop (padded.length - places)

def adjusted (ds : List Char) (e : Int) : Int := e + ds.length - 1

def scientific (mark : Char) (exponentDigits : Nat) (ds : List Char) (e : Int) : List Char :=
  let significand := match ds with
    | d :: next :: rest => d :: '.' :: next :: rest
    | few => few
  let exponent := Nat.toDigits 10 (adjusted ds e).natAbs
  significand ++ mark :: (if adjusted ds e < 0 then '-' else '+')
    :: List.replicate (exponentDigits - exponent.length) '0' ++ exponent

end ItemExpr.Number
