import ItemExpr.Number.Notation
import ItemExpr.Number.Rounding
import ItemExpr.Unicode.Digit

set_option autoImplicit false

namespace ItemExpr.Number

def maxDigits : Nat := 4300

def isWritable (n : Int) : Bool := n.natAbs < tenTo maxDigits

def limitMessage (count : Option Nat) : String :=
  let counted := match count with
    | some n => s!": value has {n} digits"
    | none => ""
  s!"Exceeds the limit ({maxDigits} digits) for integer string conversion" ++ counted
    ++ "; use sys.set_int_max_str_digits() to increase the limit"

def isBlank (c : Char) : Bool := c = ' ' || (0x9 ≤ c.toNat && c.toNat ≤ 0xd)

def plainChar (c : Char) : Char :=
  if c.toNat < 0x7f then c
  else if Unicode.isSpace c then ' '
  else match Unicode.digitValue? c with
    | some n => Char.ofNat (48 + n)
    | none => '?'

def readDigits? : List Char → Option (List Char)
  | [] => none
  | [c] => if c.isDigit then some [c] else none
  | c :: '_' :: rest => if c.isDigit then (readDigits? rest).map (c :: ·) else none
  | c :: rest => if c.isDigit then (readDigits? rest).map (c :: ·) else none

structure Numeral where
  negative : Bool
  digits : List Char
  rest : List Char

namespace Numeral

def ofChars? (s : List Char) : Option Numeral :=
  let (negative, body) := takeSign ((s.map plainChar).dropWhile isBlank)
  let inDigits (c : Char) : Bool := c.isDigit || c = '_'
  (readDigits? (body.takeWhile inDigits)).map fun digits =>
    { negative, digits, rest := body.dropWhile inDigits }

def isWhole (n : Numeral) : Bool := n.rest.all isBlank

def value (n : Numeral) : Int :=
  if n.negative then -(ofDigits n.digits : Int) else ofDigits n.digits

end Numeral
end ItemExpr.Number
