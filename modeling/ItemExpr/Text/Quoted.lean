import ItemExpr.Text.Hex
import ItemExpr.Unicode.Visible

set_option autoImplicit false

namespace ItemExpr.Text

def quoteFor (s : List Char) : Char :=
  if s.contains '\'' && !s.contains '"' then '"' else '\''

def hexEscape (n : Nat) : List Char :=
  if n < 0x100 then '\\' :: 'x' :: hexDigits 2 n
  else if n < 0x10000 then '\\' :: 'u' :: hexDigits 4 n
  else '\\' :: 'U' :: hexDigits 8 n

def escaped (shown marked : Char → Bool) (c : Char) : List Char :=
  if marked c then ['\\', c]
  else if c = '\t' then ['\\', 't']
  else if c = '\n' then ['\\', 'n']
  else if c = '\r' then ['\\', 'r']
  else if shown c then [c]
  else hexEscape c.toNat

def quotedWith (shown : Char → Bool) (marked : Char → Char → Bool) (s : List Char) : List Char :=
  let quote := quoteFor s
  quote :: s.flatMap (escaped shown (marked quote)) ++ [quote]

def isMarked (quote c : Char) : Bool := c = quote || c = '\\'

def quoted (s : String) : String :=
  String.ofList (quotedWith Unicode.isVisible isMarked s.toList)

def isPrintableAscii (c : Char) : Bool := 0x20 ≤ c.toNat && c.toNat < 0x7f

def latinChars (bs : List UInt8) : List Char := bs.map fun b => Char.ofNat b.toNat

def quotedBytes (bs : List UInt8) : String :=
  String.ofList ('b' :: quotedWith isPrintableAscii isMarked (latinChars bs))

def quotedByteArray (bs : List UInt8) : String :=
  String.ofList ('b' :: quotedWith isPrintableAscii (fun _ c => isMarked '\'' c) (latinChars bs))

end ItemExpr.Text
