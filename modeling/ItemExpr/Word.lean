import ItemExpr.Text.Quoted

set_option autoImplicit false

namespace ItemExpr

def attributeForm (p : String) : String := s!"Attr({Text.quoted p})"

def sizeForm (p : String) : String := s!"Size({Text.quoted p})"

inductive Word
  | text (s : String)
  | attribute (p : String)
  | size (p : String)
  | other (written shown : String)
  deriving DecidableEq, Repr

instance : Coe String Word := ⟨.text⟩

namespace Word

def spelling : Word → String
  | .text s => s
  | .attribute p => attributeForm p
  | .size p => sizeForm p
  | .other written _ => written

def form : Word → String
  | .text s => Text.quoted s
  | .attribute p => attributeForm p
  | .size p => sizeForm p
  | .other _ shown => shown

-- Whether the word passes for the text `s`. To ask that of an attribute or a size makes a
-- condition, which counts as an agreement; so these pass for every text.
def passesFor (w : Word) (s : String) : Bool :=
  match w with
  | .text s' => s' = s
  | .attribute _ => true
  | .size _ => true
  | .other _ _ => false

theorem passesFor_text (s s' : String) : passesFor s s' = true ↔ s = s' := by
  simp [passesFor]

end Word
end ItemExpr
