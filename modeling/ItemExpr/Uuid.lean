import ItemExpr.Text.Hex
import ItemExpr.Text.Split

set_option autoImplicit false

namespace ItemExpr

structure Uuid where
  number : Nat
  deriving DecidableEq, Repr

namespace Uuid

def text (u : Uuid) : String :=
  let ds := Text.hexDigits 32 u.number
  String.ofList (ds.take 8 ++ '-' :: (ds.drop 8).take 4 ++ '-' :: (ds.drop 12).take 4
    ++ '-' :: (ds.drop 16).take 4 ++ '-' :: ds.drop 20)

def without (piece s : String) : String := String.join (Text.split piece s)

-- Reads 32 digits, wherever hyphens and braces stand and whatever namespace is named.
def ofString? (s : String) : Option Uuid := do
  let named := without "uuid:" (without "urn:" s)
  let ds := named.toList.filter fun c => c ≠ '-' && c ≠ '\x7b' && c ≠ '\x7d'
  if ds.length = 32 then
    let values ← ds.mapM Text.hexValue?
    return ⟨values.foldl (fun n d => 16 * n + d) 0⟩
  else none

end Uuid
end ItemExpr
