import ItemExpr.Calendar
import ItemExpr.Number.Shortest
import ItemExpr.Uuid

/-! Values that expressions store. Left out are members that are also texts, bytes, numbers, times
or sets, and further subclasses of the types below; two pure members are never one key. The fields
of a model have no declared types, so an instance of a subclass is dumped with all of its own
fields. Models in the keys and sets of a model that is dumped are handed on as they are. -/

set_option autoImplicit false

namespace ItemExpr

structure TypeName where
  home : String
  name : String
  deriving DecidableEq, Repr

structure EnumType where
  name : String
  -- Whether members are themselves the lists, tuples or dictionaries that are their values.
  mixed : Bool
  deriving DecidableEq, Repr

structure ModelType extends TypeName where
  frozen : Bool
  deriving DecidableEq, Repr

def TypeName.text (t : TypeName) : String := s!"<class '{t.home}.{t.name}'>"

def conditionType (name : String) : TypeName := ⟨"dynexpr.conditions", name⟩

def TypeName.isOperand (t : TypeName) : Bool :=
  t = conditionType "Attr" || t = conditionType "Size"

inductive Part (V : Type)
  | text (s : String)
  | value (v : V)
  -- A shared condition, which has no text of its own: its text form at the time of printing is
  -- put behind it.
  | shared (number : Nat)

structure Field (V : Type) where
  name : String
  label : Option String
  value : V
  isSet : Bool

inductive Value
  | null
  | bool (b : Bool)
  | int (n : Int)
  | float (x : Binary64)
  | decimal (d : Decimal)
  | str (s : String)
  | bytes (bs : List UInt8)
  | byteArray (bs : List UInt8)
  | list (vs : List Value)
  | tuple (vs : List Value)
  | map (entries : List (Value × Value))
  | set (vs : List Value)
  | frozenSet (vs : List Value)
  | dateTime (t : DateTime)
  | date (d : Date)
  | uuid (u : Uuid)
  | member (type : EnumType) (name : String) (v : Value)
  | undefined
  | model (type : ModelType) (fields : List (Field Value))
  -- An object that is no data, such as an expression: its type and its text form.
  | object (type : TypeName) (form : List (Part Value))
  | unprintable (type : TypeName)

def Value.isContainer : Value → Bool
  | .list _ => true
  | .tuple _ => true
  | .map _ => true
  | _ => false

def EnumType.mixes (type : EnumType) (v : Value) : Bool := type.mixed && v.isContainer

namespace Value

def typeName : Value → String
  | .null => "NoneType"
  | .bool _ => "bool"
  | .int _ => "int"
  | .float _ => "float"
  | .decimal _ => "decimal.Decimal"
  | .str _ => "str"
  | .bytes _ => "bytes"
  | .byteArray _ => "bytearray"
  | .list _ => "list"
  | .tuple _ => "tuple"
  | .map _ => "dict"
  | .set _ => "set"
  | .frozenSet _ => "frozenset"
  | .dateTime _ => "datetime.datetime"
  | .date _ => "datetime.date"
  | .uuid _ => "UUID"
  | .member type _ _ => type.name
  | .undefined => "pydantic_core._pydantic_core.PydanticUndefinedType"
  | .model type _ => type.name
  | .object type _ => type.name
  | .unprintable type => type.name

def typeText : Value → String
  | .uuid _ => "<class 'uuid.UUID'>"
  | .member type _ _ => s!"<enum '{type.name}'>"
  | .model type _ => type.text
  | .object type _ => type.text
  | .unprintable type => type.text
  | v => s!"<class '{v.typeName}'>"

def members? : Value → Option (List Value)
  | .list vs => some vs
  | .tuple vs => some vs
  | .set vs => some vs
  | .frozenSet vs => some vs
  | .map entries => some (entries.map (·.1))
  | .str s => some (s.toList.map fun c => .str c.toString)
  | .bytes bs => some (bs.map fun b => .int b.toNat)
  | .byteArray bs => some (bs.map fun b => .int b.toNat)
  | .member type _ v => if type.mixes v then v.members? else none
  | .model _ fields => some (fields.map fun f => .tuple [.str f.name, f.value])
  | _ => none

end Value
end ItemExpr
