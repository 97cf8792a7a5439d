set_option autoImplicit false

namespace ItemExpr.Text

def hexDigit (n : Nat) : Char :=
  if n < 10 then Char.ofNat (48 + n) else Char.ofNat (87 + n)

def hexDigits : Nat → Nat → List Char
  | 0, _ => []
  | width + 1, n => hexDigits width (n / 16) ++ [hexDigit (n % 16)]

theorem hex_digits_length (width n : Nat) : (hexDigits width n).length = width := by
  induction width generalizing n with
  | zero => rfl
  | succ width ih => rw [hexDigits, List.length_append, ih, List.length_singleton]

def hexOfBytes (bs : List UInt8) : String :=
  String.ofList (bs.flatMap fun b => hexDigits 2 b.toNat)

theorem hex_take (bs : List UInt8) (n : Nat) :
    (hexOfBytes (bs.take n)).toList = (hexOfBytes bs).toList.take (2 * n) := by
  rw [hexOfBytes, hexOfBytes, String.toList_ofList, String.toList_ofList]
  induction bs generalizing n with
  | nil => simp
  | cons b rest ih =>
      cases n with
      | zero => rfl
      | succ n =>
          have doubled : 2 * (n + 1) = (hexDigits 2 b.toNat).length + 2 * n := by
            rw [hex_digits_length]
            omega
          rw [List.take_succ_cons, List.flatMap_cons, List.flatMap_cons, doubled,
            List.take_length_add_append, ih]

def hexValue? (c : Char) : Option Nat :=
  if c.isDigit then some (c.toNat - 48)
  else if 'a' ≤ c ∧ c ≤ 'f' then some (c.toNat - 87)
  else if 'A' ≤ c ∧ c ≤ 'F' then some (c.toNat - 55)
  else none

def bytesOfHex? : List Char → Option (List UInt8)
  | [] => some []
  | [c] => if c.isWhitespace then some [] else none
  | high :: low :: rest =>
      if high.isWhitespace then bytesOfHex? (low :: rest)
      else do
        let high ← hexValue? high
        let low ← hexValue? low
        return UInt8.ofNat (16 * high + low) :: (← bytesOfHex? rest)

end ItemExpr.Text
