import ItemExpr.Number.Integer
import ItemExpr.Text.Quoted
import ItemExpr.Value

set_option autoImplicit false

namespace ItemExpr

inductive IndexError
  | spelling (shown : String)
  | tooManyDigits (count : Nat)
  | floatNaN
  | floatInfinity
  | decimalNaN
  | decimalInfinity
  | type (name : String)
  deriving DecidableEq, Repr

def IndexError.message : IndexError → String
  | .spelling shown => s!"invalid literal for int() with base 10: {shown}"
  | .tooManyDigits count => Number.limitMessage (some count)
  | .floatNaN => "cannot convert float NaN to integer"
  | .floatInfinity => "cannot convert float infinity to integer"
  | .decimalNaN => "cannot convert NaN to integer"
  | .decimalInfinity => "cannot convert Infinity to integer"
  | .type name =>
      "int() argument must be a string, a bytes-like object or a real number, not " ++ s!"'{name}'"

-- Reads a spelled integer, or shows at most two hundred characters of what it is not. The digits
-- are counted before anything that stands after them is looked at.
def spelledIndex (s : List Char) (shown : String) : Except IndexError Int :=
  match Number.Numeral.ofChars? s with
  | none => .error (.spelling (shown.take 200).toString)
  | some n =>
      if n.digits.length > Number.maxDigits then .error (.tooManyDigits n.digits.length)
      else if n.isWhole then .ok n.value
      else .error (.spelling (shown.take 200).toString)

def charsOfBytes (bs : List UInt8) : List Char :=
  bs.map fun b => if b.toNat < 0x7f then Char.ofNat b.toNat else '?'

namespace Value

def index : Value → Except IndexError Int
  | .bool b => .ok (if b then 1 else 0)
  | .int n => .ok n
  | .float x =>
      match x.exactDecimal with
      | .nan _ _ _ => .error .floatNaN
      | .infinite _ => .error .floatInfinity
      | .finite negative c e => .ok (Decimal.truncate negative c e)
  | .decimal (.nan _ _ _) => .error .decimalNaN
  | .decimal (.infinite _) => .error .decimalInfinity
  | .decimal (.finite negative c e) => .ok (Decimal.truncate negative c e)
  | .str s => spelledIndex s.toList (Text.quoted s)
  | .bytes bs => spelledIndex (charsOfBytes bs) (Text.quotedBytes (bs.take 200))
  | .byteArray bs => spelledIndex (charsOfBytes bs) (Text.quotedBytes (bs.take 200))
  | .uuid u => .ok u.number
  | v => .error (.type v.typeName)

def indexes : List Value → Except IndexError (List Int)
  | [] => .ok []
  | v :: rest =>
      match v.index with
      | .error e => .error e
      | .ok i =>
          match indexes rest with
          | .error e => .error e
          | .ok others => .ok (i :: others)

end Value

def putIndex {α : Type} (i : Int) (entry : α) : List (Int × α) → List (Int × α)
  | [] => [(i, entry)]
  | (other, old) :: rest =>
      if other = i then (i, entry) :: rest else (other, old) :: putIndex i entry rest

def addIndexed {α : Type} (known : List (Int × α)) :
    List (Value × α) → Except IndexError (List (Int × α))
  | [] => .ok known
  | (k, entry) :: rest =>
      match k.index with
      | .error e => .error e
      | .ok i => addIndexed (putIndex i entry known) rest

def indexed {α : Type} (pairs : List (Value × α)) : Except IndexError (List (Int × α)) :=
  addIndexed [] pairs

end ItemExpr
