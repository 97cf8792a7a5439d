import ItemExpr.Sha256
import ItemExpr.Text.Quoted

set_option autoImplicit false

namespace ItemExpr

inductive Record
  | condition (expression : String) (names : Option (List (String × String))) (values : String)
  | key (expression : String) (names : Option (List (String × String))) (values : String)
  | update (expression : Option String) (set remove add delete : Nat) (values : String)
  | request (fields : List String) (names : Option (List (String × String))) (values : String)
      (lowLevel : Bool)
  | clauseIgnored (clause : String)
  deriving DecidableEq, Repr

inductive Level
  | debug
  | warning
  deriving DecidableEq, Repr

def Record.level : Record → Level
  | .clauseIgnored _ => .warning
  | _ => .debug

def Record.message : Record → String
  | .condition _ _ _ => "Compiled condition expression"
  | .key _ _ _ => "Compiled key condition expression"
  | .update _ _ _ _ _ _ => "Compiled update expression"
  | .request _ _ _ _ => "Compiled request expressions"
  | .clauseIgnored _ =>
      "Key condition already has the maximum number of clauses, ignoring extra clause; "
        ++ "its name and value aliases stay in the table"

def fingerprint (text : String) : String :=
  Text.hexOfBytes ((Sha256.digest text.toUTF8.toList).take 4)

theorem fingerprint_digits (text : String) :
    (fingerprint text).toList =
      (Text.hexOfBytes (Sha256.digest text.toUTF8.toList)).toList.take 8 := Text.hex_take _ 4

example : fingerprint "'Rome'" = "18b93055" := by decide +kernel

def redact {K V : Type} (name : K → Option String) (text : V → Option String)
    (values : List (K × V)) : String :=
  let entry (label : K) (v : V) : Option String :=
    match name label, text v with
    | some shown, some s => some s!"{shown}: '{fingerprint s}'"
    | _, _ => none
  match values.mapM fun (label, v) => entry label v with
  | some entries => "\x7b" ++ ", ".intercalate entries ++ "\x7d"
  | none => "<redaction_failed>"

end ItemExpr
