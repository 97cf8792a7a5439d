import ItemExpr.Condition

set_option autoImplicit false

namespace ItemExpr

structure Strict (V : Type) where
  operator : Word
  conditions : List (Condition V)

namespace Strict

variable {V : Type}

def condition (s : Strict V) : Condition V := .strict s.operator s.conditions

def isAnd (s : Strict V) : Bool := s.operator.passesFor "AND"

def isOr (s : Strict V) : Bool := s.operator.passesFor "OR"

def isNot (s : Strict V) : Bool := s.operator.passesFor "NOT"

def make (operator : Word) (conditions : List (Condition V)) : Except UsageError (Strict V) :=
  match usageError? operator conditions.length with
  | some e => .error e
  | none => .ok ⟨operator, conditions⟩

def add (s : Strict V) (c : Condition V) : Except UsageError (Strict V) :=
  if s.isNot then .error { operator := "NOT", count := s.conditions.length + 1 }
  else .ok { s with conditions := s.conditions ++ [c] }

def push (s : Strict V) (c : Condition V) : Strict V := { s with conditions := s.conditions ++ [c] }

def pop? (s : Strict V) : Option (Strict V) :=
  if s.conditions.isEmpty then none else some { s with conditions := s.conditions.dropLast }

end Strict

inductive Leaf (V : Type)
  | plain (v : V)
  | shared (number : Nat)

abbrev Shared (V : Type) := List (Strict (Leaf V))

namespace Shared

variable {V : Type}

-- Puts the current state of every shared connective in its place, through at most `depth` of them
-- on the way to a leaf. One that is not there has no conditions.
def settle (shared : Shared V) : Nat → Condition (Leaf V) → Condition V
  | 0 => Condition.substitute fun
      | .plain v => .value v
      | .shared _ => .any []
  | depth + 1 => Condition.substitute fun
      | .plain v => .value v
      | .shared number =>
          match shared[number]? with
          | some s => settle shared depth s.condition
          | none => .any []

-- No chain of distinct connectives is longer than their number.
def resolve (shared : Shared V) (c : Condition (Leaf V)) : Condition V :=
  shared.settle shared.length c

end Shared
end ItemExpr
