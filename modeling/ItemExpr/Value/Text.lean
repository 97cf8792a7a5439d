import ItemExpr.Text.Quoted
import ItemExpr.Value

set_option autoImplicit false

namespace ItemExpr

def offsetForm (offset : Int) : String :=
  if offset = 0 then "datetime.timezone.utc"
  else
    let days := Int.fdiv offset 86400000000
    let rest := Int.fmod offset 86400000000
    let seconds := rest / 1000000
    let fields := [("days", days), ("seconds", seconds), ("microseconds", rest % 1000000)]
    let shown := (fields.filter fun (_, n) => n ≠ 0).map fun (name, n) => s!"{name}={n}"
    "datetime.timezone(datetime.timedelta(" ++ ", ".intercalate shown ++ "))"

def Date.form (d : Date) : String := s!"datetime.date({d.year}, {d.month}, {d.day})"

def DateTime.form (t : DateTime) : String :=
  let clock :=
    if t.second = 0 ∧ t.microsecond = 0 then [t.hour, t.minute]
    else if t.microsecond = 0 then [t.hour, t.minute, t.second]
    else [t.hour, t.minute, t.second, t.microsecond]
  let numbers := [t.date.year, t.date.month, t.date.day] ++ clock
  let zone := match t.offset with
    | some offset => ", tzinfo=" ++ offsetForm offset
    | none => ""
  "datetime.datetime(" ++ ", ".intercalate (numbers.map toString) ++ zone ++ ")"

def bracketed (first last : String) (inner : List String) : String :=
  first ++ ", ".intercalate inner ++ last

namespace Value

mutual

def text : Value → Option String
  | .null => some "None"
  | .bool b => some (if b then "True" else "False")
  | .int n => if Number.isWritable n then some (toString n) else none
  | .float x => some x.text
  | .decimal d => some s!"Decimal('{d.text}')"
  | .str s => some (Text.quoted s)
  | .bytes bs => some (Text.quotedBytes bs)
  | .byteArray bs => some s!"bytearray({Text.quotedByteArray bs})"
  | .list vs => (texts vs).map (bracketed "[" "]")
  | .tuple vs => (texts vs).map (bracketed "(" (if vs.length = 1 then ",)" else ")"))
  | .map entries => (entryTexts entries).map (bracketed "\x7b" "\x7d")
  | .set vs =>
      if vs.isEmpty then some "set()" else (texts vs).map (bracketed "\x7b" "\x7d")
  | .frozenSet vs =>
      if vs.isEmpty then some "frozenset()"
      else (texts vs).map (bracketed "frozenset(\x7b" "\x7d)")
  | .dateTime t => some t.form
  | .date d => some d.form
  | .uuid u => some s!"UUID('{u.text}')"
  | .member type name v => v.text.map fun s => s!"<{type.name}.{name}: {s}>"
  | .undefined => some "PydanticUndefined"
  | .model type fields => (fieldTexts fields).map (bracketed (type.name ++ "(") ")")
  | .object _ form => partsText form
  | .unprintable _ => none

def texts : List Value → Option (List String)
  | [] => some []
  | v :: rest =>
      match v.text, texts rest with
      | some s, some others => some (s :: others)
      | _, _ => none

def entryTexts : List (Value × Value) → Option (List String)
  | [] => some []
  | (k, v) :: rest =>
      match k.text, v.text, entryTexts rest with
      | some k, some v, some others => some (s!"{k}: {v}" :: others)
      | _, _, _ => none

def fieldTexts : List (Field Value) → Option (List String)
  | [] => some []
  | ⟨name, _, v, _⟩ :: rest =>
      match v.text, fieldTexts rest with
      | some s, some others => some (s!"{name}={s}" :: others)
      | _, _ => none

def partsText : List (Part Value) → Option String
  | [] => some ""
  | .text s :: rest => (partsText rest).map (s ++ ·)
  | .shared _ :: rest => partsText rest
  | .value v :: rest =>
      match v.text, partsText rest with
      | some s, some others => some (s ++ others)
      | _, _ => none

end

def display : Value → Option String
  | .str s => some s
  | .decimal d => some d.text
  | .dateTime t => some (t.isoWith " ")
  | .date d => some d.iso
  | .uuid u => some u.text
  | .member type name _ => some s!"{type.name}.{name}"
  | .model _ fields => (fieldTexts fields).map (" ".intercalate ·)
  | v => v.text

mutual

def settle (look : Nat → List (Part Value)) : Value → Value
  | .list vs => .list (settleEach look vs)
  | .tuple vs => .tuple (settleEach look vs)
  | .map entries => .map (settleEntries look entries)
  | .set vs => .set (settleEach look vs)
  | .frozenSet vs => .frozenSet (settleEach look vs)
  | .member type name v => .member type name (v.settle look)
  | .model type fields => .model type (settleFields look fields)
  | .object type form => .object type (settleParts look form)
  | v => v

def settleEach (look : Nat → List (Part Value)) : List Value → List Value
  | [] => []
  | v :: rest => v.settle look :: settleEach look rest

def settleEntries (look : Nat → List (Part Value)) :
    List (Value × Value) → List (Value × Value)
  | [] => []
  | (k, v) :: rest => (k.settle look, v.settle look) :: settleEntries look rest

def settleFields (look : Nat → List (Part Value)) : List (Field Value) → List (Field Value)
  | [] => []
  | ⟨name, label, v, isSet⟩ :: rest =>
      ⟨name, label, v.settle look, isSet⟩ :: settleFields look rest

def settleParts (look : Nat → List (Part Value)) : List (Part Value) → List (Part Value)
  | [] => []
  | .text s :: rest => .text s :: settleParts look rest
  | .shared number :: rest => .shared number :: look number ++ settleParts look rest
  | .value v :: rest => .value (v.settle look) :: settleParts look rest

end

end Value
end ItemExpr
