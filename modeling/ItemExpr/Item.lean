import ItemExpr.Table

set_option autoImplicit false

namespace ItemExpr

inductive Item (V : Type)
  | text (s : String)
  | path (p : String)
  | value (v : V)
  | self

namespace Table

variable {V : Type}

def writeItem (t : Table V) (self : Fragment) : Item V → Fragment × Table V
  | .text s => ([.text s], t)
  | .path p => t.addPath p
  | .value v =>
      let (token, t) := t.addValue v
      ([token], t)
  | .self => (self, t)

def write (t : Table V) (self : Fragment) : List (Item V) → Fragment × Table V
  | [] => ([], t)
  | item :: rest =>
      let (first, t) := t.writeItem self item
      let (others, t) := t.write self rest
      (first ++ others, t)

theorem write_nil (t : Table V) (self : Fragment) : t.write self [] = ([], t) := rfl

theorem write_append (t : Table V) (self : Fragment) (first others : List (Item V)) :
    t.write self (first ++ others) =
      ((t.write self first).1 ++ ((t.write self first).2.write self others).1,
        ((t.write self first).2.write self others).2) := by
  induction first generalizing t with
  | nil => simp [write]
  | cons item rest ih => simp [write, ih, List.append_assoc]

end Table
end ItemExpr
