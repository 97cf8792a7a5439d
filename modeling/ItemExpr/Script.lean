import ItemExpr.Fault
import ItemExpr.Item

set_option autoImplicit false

namespace ItemExpr

structure Script (V : Type) where
  items : List (Item V)
  fault : Option Fault := none

namespace Script

variable {V : Type}

def empty : Script V := ⟨[], none⟩

def text (s : String) : Script V := ⟨[.text s], none⟩

def path (p : String) : Script V := ⟨[.path p], none⟩

def value (v : V) : Script V := ⟨[.value v], none⟩

def self : Script V := ⟨[.self], none⟩

def fail (e : Fault) : Script V := ⟨[], some e⟩

def index (i : Int) : Script V :=
  if Number.isWritable i then text s!"[{i}]" else fail .longIndex

def append (a b : Script V) : Script V :=
  match a.fault with
  | some _ => a
  | none => ⟨a.items ++ b.items, b.fault⟩

instance : Append (Script V) := ⟨append⟩

def join (separator : String) : List (Script V) → Script V
  | [] => empty
  | [s] => s
  | s :: rest => s ++ text separator ++ join separator rest

theorem append_of_fault (a b : Script V) (e : Fault) (fault : a.fault = some e) :
    a ++ b = a := by
  show a.append b = a
  simp [append, fault]

theorem append_of_sound (a b : Script V) (sound : a.fault = none) :
    a ++ b = ⟨a.items ++ b.items, b.fault⟩ := by
  show a.append b = _
  simp [append, sound]

theorem append_assoc (a b c : Script V) : a ++ b ++ c = a ++ (b ++ c) := by
  cases first : a.fault with
  | some e =>
      rw [append_of_fault a b e first, append_of_fault a c e first,
        append_of_fault a (b ++ c) e first]
  | none =>
      rw [append_of_sound a b first, append_of_sound a _ first]
      cases second : b.fault with
      | some e =>
          rw [append_of_fault _ c e rfl, append_of_fault b c e second, second]
      | none =>
          rw [append_of_sound _ c rfl, append_of_sound b c second]
          simp [List.append_assoc]

def run (s : Script V) (self : Fragment) (t : Table V) : Except Fault Fragment × Table V :=
  let (written, t) := t.write self s.items
  match s.fault with
  | some e => (.error e, t)
  | none => (.ok written, t)

end Script
end ItemExpr
