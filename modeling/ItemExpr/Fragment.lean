set_option autoImplicit false

namespace ItemExpr

inductive Token
  | text (s : String)
  | name (label : String)
  | value (label : String)
  deriving DecidableEq, Repr

def Token.spelling : Token → String
  | .text s => s
  | .name label => label
  | .value label => label

abbrev Fragment := List Token

namespace Fragment

def text (f : Fragment) : String := String.join (f.map Token.spelling)

def join (separator : String) (fs : List Fragment) : Fragment := [.text separator].intercalate fs

def raw (s : String) : Fragment := [.text s]

theorem text_nil : text [] = "" := rfl

theorem text_cons (t : Token) (f : Fragment) : text (t :: f) = t.spelling ++ text f := by
  simp [text]

theorem text_append (f g : Fragment) : text (f ++ g) = text f ++ text g := by
  simp [text]

end Fragment
end ItemExpr
