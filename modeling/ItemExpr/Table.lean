import ItemExpr.Fragment
import ItemExpr.Options
import ItemExpr.Text.Split

set_option autoImplicit false

namespace ItemExpr

def put {α : Type} (key : String) (entry : α) : List (String × α) → List (String × α)
  | [] => [(key, entry)]
  | (other, old) :: rest =>
      if other = key then (key, entry) :: rest else (other, old) :: put key entry rest

def find? {α : Type} (key : String) : List (String × α) → Option α
  | [] => none
  | (other, entry) :: rest => if other = key then some entry else find? key rest

theorem find_put_self {α : Type} (key : String) (entry : α) (entries : List (String × α)) :
    find? key (put key entry entries) = some entry := by
  induction entries with
  | nil => simp [put, find?]
  | cons head rest ih =>
      obtain ⟨other, old⟩ := head
      by_cases same : other = key
      · simp [put, find?, same]
      · simp [put, find?, same, ih]

theorem find_put_other {α : Type} (key query : String) (entry : α) (entries : List (String × α))
    (different : key ≠ query) : find? query (put key entry entries) = find? query entries := by
  induction entries with
  | nil => simp [put, find?, different]
  | cons head rest ih =>
      obtain ⟨other, old⟩ := head
      by_cases same : other = key
      · subst same
        simp [put, find?, different]
      · simp [put, find?, same, ih]

theorem put_absent {α : Type} (key : String) (entry : α) (entries : List (String × α))
    (absent : find? key entries = none) : put key entry entries = entries ++ [(key, entry)] := by
  induction entries with
  | nil => rfl
  | cons head rest ih =>
      obtain ⟨other, old⟩ := head
      by_cases same : other = key
      · simp [find?, same] at absent
      · rw [find?, if_neg same] at absent
        simp [put, same, ih absent]

structure Table (V : Type) where
  options : Options
  names : List (String × String) := []
  nextName : Nat := 0
  values : List (String × V) := []
  nextValue : Nat := 0

structure Segment where
  name : String
  indexes : String
  deriving DecidableEq, Repr

-- Indexes begin at the first opening bracket of a text that ends in a closing one.
def Segment.ofString (s : String) : Segment :=
  if s.toList.getLast? = some ']' then
    { name := String.ofList (s.toList.takeWhile (· ≠ '['))
      indexes := String.ofList (s.toList.dropWhile (· ≠ '[')) }
  else ⟨s, ""⟩

def Options.segments (o : Options) (path : String) : List Segment :=
  if o.splitPaths then (Text.split o.delimiter path).map Segment.ofString else [⟨path, ""⟩]

namespace Table

variable {V : Type}

def addName (t : Table V) (name : String) : Token × Table V :=
  if t.options.reserved name then
    (.name s!"#{name}", { t with names := put s!"#{name}" name t.names })
  else if t.options.bare name then (.text name, t)
  else match t.names.find? (·.2 = name) with
    | some (label, _) => (.name label, t)
    | none =>
        let label := s!"{t.options.namePrefix}{t.nextName}"
        (.name label, { t with names := put label name t.names, nextName := t.nextName + 1 })

def addSegment (t : Table V) (s : Segment) : Fragment × Table V :=
  let (token, t) := t.addName s.name
  ([token, .text s.indexes], t)

def addSegments (t : Table V) : List Segment → Fragment × Table V
  | [] => ([], t)
  | [s] => t.addSegment s
  | s :: rest =>
      let (first, t) := t.addSegment s
      let (others, t) := t.addSegments rest
      (first ++ .text "." :: others, t)

def addPath (t : Table V) (path : String) : Fragment × Table V :=
  t.addSegments (t.options.segments path)

def addPaths (t : Table V) : List String → List Fragment × Table V
  | [] => ([], t)
  | path :: rest =>
      let (first, t) := t.addPath path
      let (others, t) := t.addPaths rest
      (first :: others, t)

def addValue (t : Table V) (v : V) : Token × Table V :=
  let label := s!"{t.options.valuePrefix}{t.nextValue}"
  (.value label, { t with values := put label v t.values, nextValue := t.nextValue + 1 })

def sentNames (t : Table V) : Option (List (String × String)) :=
  if t.names.isEmpty then none else some t.names

def sentValues (t : Table V) : Option (List (String × V)) :=
  if t.values.isEmpty then none else some t.values

def reset (t : Table V) : Table V := { options := t.options }

end Table
end ItemExpr
