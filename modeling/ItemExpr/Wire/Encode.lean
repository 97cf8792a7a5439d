import ItemExpr.Wire
import ItemExpr.Wire.Prepare

set_option autoImplicit false

namespace ItemExpr

inductive EncodeError
  | wire (e : WireError)
  | unshown
  | signals (raised : List Signal)
  deriving DecidableEq, Repr

-- The text of a number that fits. Only the plain positive specials are refused.
def encodeNumber (d : Decimal) : Except EncodeError String :=
  match wirePrecision.fit d with
  | .error raised => .error (.signals raised)
  | .ok fitted =>
      if fitted.text = "Infinity" ∨ fitted.text = "NaN" then .error (.wire .notFinite)
      else .ok fitted.text

def allNumbers : List Value → Except EncodeError Bool
  | [] => .ok true
  | .float _ :: _ => .error (.wire .binaryFloat)
  | v :: rest => if v.number?.isSome then allNumbers rest else .ok false

def encodeNumbers : List Value → Except EncodeError (List String)
  | [] => .ok []
  | v :: rest =>
      match encodeNumber (v.number?.getD (.ofInt 0)) with
      | .error e => .error e
      | .ok s => (encodeNumbers rest).map (s :: ·)

def stringOf? : Value → Option String
  | .str s => some s
  | _ => none

def binaryOf? : Value → Option (List UInt8)
  | .bytes bs => some bs
  | .byteArray bs => some bs
  | _ => none

def unsupported (v : Value) : EncodeError :=
  match v.display with
  | some shown => .wire (.unsupported v.typeText shown)
  | none => .unshown

def encodeSet (whole : Value) (vs : List Value) : Except EncodeError Wire :=
  match allNumbers vs with
  | .error e => .error e
  | .ok true => (encodeNumbers vs).map .numberSet
  | .ok false =>
      match vs.mapM stringOf?, vs.mapM binaryOf? with
      | some ss, _ => .ok (.stringSet ss)
      | none, some bss => .ok (.binarySet bss)
      | none, none => .error (unsupported whole)

mutual

def encode : Value → Except EncodeError Wire
  | .null => .ok .null
  | .bool b => .ok (.bool b)
  | .int n => (encodeNumber (.ofInt n)).map .number
  | .decimal d => (encodeNumber d).map .number
  | .float _ => .error (.wire .binaryFloat)
  | .str s => .ok (.string s)
  | .bytes bs => .ok (.binary bs)
  | .byteArray bs => .ok (.binary bs)
  | .set vs => encodeSet (.set vs) vs
  | .frozenSet vs => encodeSet (.frozenSet vs) vs
  | .map entries => (encodeEntries entries).map .map
  | .list vs => (encodeEach vs).map .list
  | .tuple vs => (encodeEach vs).map .list
  | .member type name v =>
      if type.mixes v then encode v else .error (unsupported (.member type name v))
  | v => .error (unsupported v)

def encodeEach : List Value → Except EncodeError (List Wire)
  | [] => .ok []
  | v :: rest =>
      match encode v with
      | .error e => .error e
      | .ok w => (encodeEach rest).map (w :: ·)

def encodeEntries : List (Value × Value) → Except EncodeError (List (Value × Wire))
  | [] => .ok []
  | (k, v) :: rest =>
      match encode v with
      | .error e => .error e
      | .ok w => (encodeEntries rest).map ((k, w) :: ·)

end

def serialize (v : Value) : Except SerializationError Wire :=
  match v.prepare with
  | .error e => .error (.unhashable e)
  | .ok prepared =>
      match encode prepared with
      | .ok w => .ok w
      | .error (.signals raised) => .error (.signals raised)
      | .error .unshown => .error .unshown
      | .error (.wire e) =>
          match v.display with
          | some shown => .error (.refused shown e)
          | none => .error .unshown

def serializeAll {K : Type} (name : K → String) :
    List (K × Value) → Except SerializationError (List (K × Wire))
  | [] => .ok []
  | (key, v) :: rest =>
      match serialize v with
      | .error (.refused shown cause) =>
          match v.text with
          | some form => .error (.refusedAt (name key) form shown cause)
          | none => .error .unshown
      | .error e => .error e
      | .ok w => (serializeAll name rest).map ((key, w) :: ·)

end ItemExpr
