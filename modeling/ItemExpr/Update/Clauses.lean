import ItemExpr.Fragment

set_option autoImplicit false

namespace ItemExpr

inductive Group
  | set
  | remove
  | add
  | delete
  deriving DecidableEq, Repr

def Group.keyword : Group → String
  | .set => "SET"
  | .remove => "REMOVE"
  | .add => "ADD"
  | .delete => "DELETE"

def Group.inOrder : List Group := [.set, .remove, .add, .delete]

structure Clauses where
  set : List Fragment := []
  remove : List Fragment := []
  add : List Fragment := []
  delete : List Fragment := []
  deriving DecidableEq, Repr

namespace Clauses

def get (cs : Clauses) : Group → List Fragment
  | .set => cs.set
  | .remove => cs.remove
  | .add => cs.add
  | .delete => cs.delete

def push (cs : Clauses) (group : Group) (clause : Fragment) : Clauses :=
  match group with
  | .set => { cs with set := cs.set ++ [clause] }
  | .remove => { cs with remove := cs.remove ++ [clause] }
  | .add => { cs with add := cs.add ++ [clause] }
  | .delete => { cs with delete := cs.delete ++ [clause] }

def groupFragment? (cs : Clauses) (group : Group) : Option Fragment :=
  if (cs.get group).isEmpty then none
  else some (.text s!"{group.keyword} " :: Fragment.join ", " (cs.get group))

def expression? (cs : Clauses) : Option Fragment :=
  match Group.inOrder.filterMap cs.groupFragment? with
  | [] => none
  | written => some (Fragment.join " " written)

theorem get_push_self (cs : Clauses) (group : Group) (clause : Fragment) :
    (cs.push group clause).get group = cs.get group ++ [clause] := by
  cases group <;> rfl

theorem get_push_other (cs : Clauses) (group other : Group) (clause : Fragment)
    (different : other ≠ group) : (cs.push group clause).get other = cs.get other := by
  cases group <;> cases other <;> first | rfl | exact absurd rfl different

end Clauses
end ItemExpr
