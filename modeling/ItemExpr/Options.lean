import ItemExpr.Text.Quoted

set_option autoImplicit false

namespace ItemExpr

structure Settings where
  -- Names of which this holds are written as `#` and the name, others of which `bare` holds as they
  -- are.
  reserved : String → Bool := fun _ => false
  bare : String → Bool := fun _ => false
  splitPaths : Bool := true
  delimiter : String := "."
  namePrefix : String := "#n"
  valuePrefix : String := ":v"

structure Options extends Settings where
  delimiter_ne : delimiter ≠ "" := by decide
  name_marked : namePrefix.toList.head? = some '#' := by decide
  value_marked : valuePrefix.toList.head? = some ':' := by decide

inductive OptionsError
  | emptyDelimiter
  | unmarkedName (namePrefix : String)
  | unmarkedValue (valuePrefix : String)

def OptionsError.message : OptionsError → String
  | .emptyDelimiter => "delimiter must be a non-empty string"
  | .unmarkedName given => s!"name_prefix must start with '#', got {Text.quoted given}"
  | .unmarkedValue given => s!"value_prefix must start with ':', got {Text.quoted given}"

def Settings.check (s : Settings) : Except OptionsError Options :=
  if delimiter_ne : s.delimiter = "" then .error .emptyDelimiter
  else if name_marked : s.namePrefix.toList.head? = some '#' then
    if value_marked : s.valuePrefix.toList.head? = some ':' then
      .ok { s with delimiter_ne, name_marked, value_marked }
    else .error (.unmarkedValue s.valuePrefix)
  else .error (.unmarkedName s.namePrefix)

def Options.revise (o : Options) (change : Settings → Settings) : Except OptionsError Options :=
  (change o.toSettings).check

-- Letters and digits of ASCII, a letter first; one newline may stand at the end.
def isIdentifier (name : String) : Bool :=
  match name.toList with
  | [] => false
  | c :: rest =>
      c.isAlpha &&
        (let body := if rest.getLast? = some '\n' then rest.dropLast else rest
         body.all Char.isAlphanum)

end ItemExpr
