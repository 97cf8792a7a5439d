import ItemExpr.Value

set_option autoImplicit false

namespace ItemExpr

inductive Unhashable
  | type (name : String)
  | signalingNaN
  deriving DecidableEq, Repr

def Unhashable.message : Unhashable → String
  | .type name => s!"unhashable type: '{name}'"
  | .signalingNaN => "Cannot hash a signaling NaN value"

namespace Value

def number? : Value → Option Decimal
  | .bool b => some (.finite false (if b then 1 else 0) 0)
  | .int n => some (.ofInt n)
  | .float x => some x.exactDecimal
  | .decimal d => some d
  | _ => none

def tuple? : Value → Option (List Value)
  | .tuple vs => some vs
  | .member type _ (.tuple vs) => if type.mixed then some vs else none
  | _ => none

mutual

-- Whether two values are one key. Of objects only a shared connective is found again.
def same : Value → Value → Bool
  | .null, .null => true
  | .undefined, .undefined => true
  | .str s, .str s' => s = s'
  | .bytes bs, .bytes bs' => bs = bs'
  | .dateTime t, .dateTime t' => t.sameInstant t'
  | .date d, .date d' => d = d'
  | .uuid u, .uuid u' => u = u'
  | .tuple vs, v' => v'.tuple?.any (sameEach vs)
  | .member type _ (.tuple vs), v' => type.mixed && v'.tuple?.any (sameEach vs)
  | .model type fields, .model type' fields' => type = type' && sameFields fields fields'
  | .frozenSet vs, .frozenSet vs' => vs.length = vs'.length && subset vs vs'
  | .object _ (.shared number :: _), .object _ (.shared number' :: _) => number = number'
  | v, v' =>
      match v.number?, v'.number? with
      | some d, some d' => d.sameValue d'
      | _, _ => false
termination_by structural v => v

def sameEach : List Value → List Value → Bool
  | [], [] => true
  | v :: rest, v' :: rest' => same v v' && sameEach rest rest'
  | _, _ => false

def sameFields : List (Field Value) → List (Field Value) → Bool
  | [], [] => true
  | ⟨name, _, v, _⟩ :: rest, ⟨name', _, v', _⟩ :: rest' =>
      name = name' && same v v' && sameFields rest rest'
  | _, _ => false

def subset : List Value → List Value → Bool
  | [], _ => true
  | v :: rest, vs => vs.any (same v) && subset rest vs

end

mutual

-- What keeps a value from being a key. Attributes and sizes make conditions where others are
-- compared.
def unhashable? : Value → Option Unhashable
  | .byteArray _ => some (.type "bytearray")
  | .list _ => some (.type "list")
  | .map _ => some (.type "dict")
  | .set _ => some (.type "set")
  | .member type _ (.tuple vs) => if type.mixed then firstUnhashable? vs else none
  | .member type _ v => if type.mixes v then some (.type type.name) else none
  | .model type fields =>
      if type.frozen then firstUnhashableField? fields else some (.type type.name)
  | .decimal (.nan _ true _) => some .signalingNaN
  | .object type _ => if type.isOperand then some (.type type.name) else none
  | .tuple vs => firstUnhashable? vs
  | _ => none

def firstUnhashable? : List Value → Option Unhashable
  | [] => none
  | v :: rest => v.unhashable?.or (firstUnhashable? rest)

def firstUnhashableField? : List (Field Value) → Option Unhashable
  | [] => none
  | ⟨_, _, v, _⟩ :: rest => v.unhashable?.or (firstUnhashableField? rest)

end

def insertEntry {α : Type} (k : Value) (entry : α) : List (Value × α) → List (Value × α)
  | [] => [(k, entry)]
  | (other, old) :: rest =>
      if other.same k then (other, entry) :: rest else (other, old) :: insertEntry k entry rest

def addEntries {α : Type} (known : List (Value × α)) :
    List (Value × α) → Except Unhashable (List (Value × α))
  | [] => .ok known
  | (k, entry) :: rest =>
      match k.unhashable? with
      | some e => .error e
      | none => addEntries (insertEntry k entry known) rest

def entries {α : Type} (pairs : List (Value × α)) : Except Unhashable (List (Value × α)) :=
  addEntries [] pairs

def addElements (known : List Value) : List Value → Except Unhashable (List Value)
  | [] => .ok known
  | v :: rest =>
      match v.unhashable? with
      | some e => .error e
      | none => addElements (if known.any (·.same v) then known else known ++ [v]) rest

def elements (vs : List Value) : Except Unhashable (List Value) := addElements [] vs

end Value
end ItemExpr
