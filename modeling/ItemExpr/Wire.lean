import ItemExpr.Number.Precision
import ItemExpr.Value.Hash
import ItemExpr.Value.Text

set_option autoImplicit false

namespace ItemExpr

inductive Wire
  | null
  | bool (b : Bool)
  | number (spelling : String)
  | string (s : String)
  | binary (bs : List UInt8)
  | list (ws : List Wire)
  | map (entries : List (Value × Wire))
  | numberSet (spellings : List String)
  | stringSet (ss : List String)
  | binarySet (bss : List (List UInt8))

inductive WireError
  | unsupported (type shown : String)
  | binaryFloat
  | notFinite
  deriving DecidableEq, Repr

def WireError.message : WireError → String
  | .unsupported type shown => s!"Unsupported type \"{type}\" for value \"{shown}\""
  | .binaryFloat => "Float types are not supported. Use Decimal types instead."
  | .notFinite => "Infinity and NaN not supported"

inductive SerializationError
  | refused (shown : String) (cause : WireError)
  | refusedAt (label form shown : String) (cause : WireError)
  | unshown
  | signals (raised : List Signal)
  | unhashable (e : Unhashable)
  deriving DecidableEq, Repr

def refusalMessage (shown : String) (cause : WireError) : String :=
  s!"Failed to serialize value '{shown}'. error={cause.message}"

def SerializationError.message : SerializationError → String
  | .refused shown cause => refusalMessage shown cause
  | .refusedAt label form shown cause =>
      s!"Failed to serialize value for '{label}'. value={form} error={refusalMessage shown cause}"
  | .unshown => "no text form"
  | .signals raised => bracketed "[" "]" (raised.map fun s => s!"<class 'decimal.{s.name}'>")
  | .unhashable e => e.message

def wirePrecision : Precision := ⟨38, -128, 126⟩

end ItemExpr
