import ItemExpr.Word
import ItemExpr.Workspace

set_option autoImplicit false

namespace ItemExpr

inductive KeyClause (V : Type)
  | compare (operator : Word) (v : V)
  -- The operator is any word that passes for `BETWEEN`.
  | between (operator : Word) (low high : V)
  | beginsWith (v : V)

namespace KeyClause

variable {V : Type}

def ofOperator (operator : Word) (v high : V) : KeyClause V :=
  if operator.passesFor "BETWEEN" then .between operator v high
  else if operator.passesFor "begins_with" then .beginsWith v
  else .compare operator v

def equals (v : V) : KeyClause V := .compare "=" v

def operator : KeyClause V → Word
  | .compare operator _ => operator
  | .between operator _ _ => operator
  | .beginsWith _ => "begins_with"

def operand : KeyClause V → V
  | .compare _ v => v
  | .between _ low _ => low
  | .beginsWith v => v

def items (name : String) : KeyClause V → List (Item V)
  | .compare operator v => [.path name, .text s!" {operator.spelling} ", .value v]
  | .between _ low high => [.path name, .text " BETWEEN ", .value low, .text " AND ", .value high]
  | .beginsWith v => [.text "begins_with(", .path name, .text ", ", .value v, .text ")"]

end KeyClause

def maxKeyClauses : Nat := 2

namespace Workspace

variable {V : Type}

def keepClause (w : Workspace V) (clause : Fragment) : Workspace V :=
  if w.key.length < maxKeyClauses then { w with key := w.key ++ [clause] }
  else w.record (.clauseIgnored (Fragment.text clause))

def writeClause (w : Workspace V) (name : String) (c : KeyClause V) : Fragment × Workspace V :=
  w.write [] (c.items name)

def addClause (w : Workspace V) (name : String) (c : KeyClause V) : Workspace V :=
  let (clause, w) := w.writeClause name c
  w.keepClause clause

def keyExpression (w : Workspace V) : Fragment := Fragment.join " AND " w.key

def buildKey (w : Workspace V) (entries : List (String × KeyClause V)) : Fragment × Workspace V :=
  let w := entries.foldl (fun w (name, c) => w.addClause name c) w
  (w.keyExpression, w)

end Workspace
end ItemExpr
