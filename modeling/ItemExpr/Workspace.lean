import ItemExpr.Record
import ItemExpr.Script
import ItemExpr.Update.Clauses

set_option autoImplicit false

namespace ItemExpr

structure Workspace (V : Type) where
  table : Table V
  key : List Fragment := []
  update : Clauses := {}
  log : List Record := []

namespace Workspace

variable {V : Type}

def record (w : Workspace V) (r : Record) : Workspace V := { w with log := w.log ++ [r] }

def addPath (w : Workspace V) (path : String) : Fragment × Workspace V :=
  let (written, table) := w.table.addPath path
  (written, { w with table })

def addValue (w : Workspace V) (v : V) : Token × Workspace V :=
  let (token, table) := w.table.addValue v
  (token, { w with table })

def write (w : Workspace V) (self : Fragment) (items : List (Item V)) : Fragment × Workspace V :=
  let (written, table) := w.table.write self items
  (written, { w with table })

def runScript (w : Workspace V) (self : Fragment) (s : Script V) :
    Except Fault Fragment × Workspace V :=
  let (written, table) := s.run self w.table
  (written, { w with table })

-- Drops the key clauses and every alias, also those of the update.
def resetKey (w : Workspace V) : Workspace V := { w with key := [], table := w.table.reset }

def resetUpdate (w : Workspace V) : Workspace V := { w with update := {}, table := w.table.reset }

end Workspace
end ItemExpr
