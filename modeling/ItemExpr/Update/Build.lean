import ItemExpr.Update.Action
import ItemExpr.Workspace

set_option autoImplicit false

namespace ItemExpr.Workspace

variable {V : Type}

def addClauses (target : Fragment) :
    List (Group × Script V) → Workspace V → Option Fault × Workspace V
  | [], w => (none, w)
  | (group, script) :: rest, w =>
      match w.runScript target script with
      | (.error e, w) => (some e, w)
      | (.ok clause, w) => addClauses target rest { w with update := w.update.push group clause }

def within (under path : Fragment) : Fragment := under ++ .text "." :: path

mutual

def apply (target : Fragment) : Action V → Workspace V → Option Fault × Workspace V
  | .nested entries, w => applyEntries target entries w
  | .keyed groups, w => applyGroups target groups w
  | action, w => addClauses target action.clauses w

-- Applies every entry, up to the first fault. The path of a skipped one is not entered; a map
-- without a written path is the item itself.
def applyEntries (under : Fragment) :
    List (String × Action V) → Workspace V → Option Fault × Workspace V
  | [], w => (none, w)
  | (_, .skip) :: rest, w => applyEntries under rest w
  | (path, action) :: rest, w =>
      let (written, w) := w.addPath path
      let target := if under.text = "" then written else within under written
      match apply target action w with
      | (some e, w) => (some e, w)
      | (none, w) => applyEntries under rest w

def applyGroups (under : Fragment) :
    List (String × List (String × Action V)) → Workspace V → Option Fault × Workspace V
  | [], w => (none, w)
  | (path, entries) :: rest, w =>
      let (written, w) := w.addPath path
      match applyEntries (within under written) entries w with
      | (some e, w) => (some e, w)
      | (none, w) => applyGroups under rest w

end

def updateExpression? (w : Workspace V) : Option Fragment := w.update.expression?

def buildUpdate (w : Workspace V) (entries : List (String × Action V)) :
    Except Fault (Option Fragment) × Workspace V :=
  match applyEntries [] entries w with
  | (some e, w) => (.error e, w)
  | (none, w) => (.ok w.updateExpression?, w)

end ItemExpr.Workspace
