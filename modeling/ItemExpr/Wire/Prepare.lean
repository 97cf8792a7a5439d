import ItemExpr.Value.Hash

set_option autoImplicit false

namespace ItemExpr

namespace Value

mutual

def prepare : Value → Except Unhashable Value
  | .float x => .ok (.decimal x.written)
  | .dateTime t =>
      .ok (.str (if t.offset = some 0 then { t with offset := none }.iso ++ "Z" else t.iso))
  | .date d => .ok (.str d.iso)
  | .uuid u => .ok (.str u.text)
  | .member _ _ v => .ok v
  | .set vs =>
      match prepareEach vs with
      | .error e => .error e
      | .ok vs => (elements vs).map .set
  | .frozenSet vs =>
      match prepareEach vs with
      | .error e => .error e
      | .ok vs => (elements vs).map .set
  | .list vs => (prepareEach vs).map .list
  | .tuple vs => (prepareEach vs).map .list
  | .map entries => (prepareEntries entries).map .map
  | v => .ok v

def prepareEach : List Value → Except Unhashable (List Value)
  | [] => .ok []
  | v :: rest =>
      match v.prepare with
      | .error e => .error e
      | .ok v => (prepareEach rest).map (v :: ·)

def prepareEntries : List (Value × Value) → Except Unhashable (List (Value × Value))
  | [] => .ok []
  | (k, v) :: rest =>
      match v.prepare with
      | .error e => .error e
      | .ok v => (prepareEntries rest).map ((k, v) :: ·)

end

end Value

end ItemExpr
