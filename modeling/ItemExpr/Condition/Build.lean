import ItemExpr.Argument

set_option autoImplicit false

namespace ItemExpr.Condition

abbrev Draft := Condition (Leaf Value)

def comparison (left : Argument) (operator : Word) (right : Argument) : Draft :=
  .compare left.subject operator right.comparand

def betweenOf (subject low high : Argument) : Draft :=
  .between subject.subject low.comparand high.comparand

def isInOf (subject : Argument) (choices : List Argument) : Draft :=
  .isIn subject.subject (choices.map Argument.comparand)

def callOf (function : Word) (subject : Argument) (arguments : List Argument) : Draft :=
  .call function subject.subject (arguments.map Argument.comparand)

def contains (subject v : Argument) : Draft := callOf "contains" subject [v]

def beginsWith (subject start : Argument) : Draft := callOf "begins_with" subject [start]

def attributeType (subject tag : Argument) : Draft := callOf "attribute_type" subject [tag]

def attributeExists (subject : Argument) : Draft := callOf "attribute_exists" subject []

def attributeNotExists (subject : Argument) : Draft := callOf "attribute_not_exists" subject []

def allOf (conditions : List Argument) : Draft := .all (conditions.map Argument.comparand)

def anyOf (conditions : List Argument) : Draft := .any (conditions.map Argument.comparand)

inductive Relation
  | equal
  | notEqual
  | less
  | lessOrEqual
  | greater
  | greaterOrEqual
  deriving DecidableEq, Repr

def Relation.spelling : Relation → String
  | .equal => "="
  | .notEqual => "<>"
  | .less => "<"
  | .lessOrEqual => "<="
  | .greater => ">"
  | .greaterOrEqual => ">="

def Relation.swap : Relation → Relation
  | .equal => .equal
  | .notEqual => .notEqual
  | .less => .greater
  | .lessOrEqual => .greaterOrEqual
  | .greater => .less
  | .greaterOrEqual => .lessOrEqual

theorem swap_swap (r : Relation) : r.swap.swap = r := by
  cases r <;> rfl

def compareBy (r : Relation) (left right : Argument) : Draft := comparison left r.spelling right

def related (r : Relation) (left right : Argument) : Draft :=
  if left.isComparable then compareBy r left right else compareBy r.swap right left

def negationOf : List Argument → Except UsageError Draft
  | [c] => .ok (.negation c.comparand)
  | cs => .error { operator := "NOT", count := cs.length }

def strictOf (operator : Word) (conditions : List Argument) : Except UsageError Draft :=
  (Strict.make operator (conditions.map Argument.comparand)).map Strict.condition

def attributePath : Argument → Argument
  | .condition (.attribute p) => .value (.str p)
  | a => a

end ItemExpr.Condition
