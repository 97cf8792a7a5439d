import ItemExpr.Script

set_option autoImplicit false

namespace ItemExpr

inductive Condition (V : Type)
  | path (p : String)
  | attribute (p : String)
  | size (p : String)
  | value (v : V)
  | compare (left : Condition V) (operator : Word) (right : Condition V)
  | between (subject low high : Condition V)
  | isIn (subject : Condition V) (choices : List (Condition V))
  | call (function : Word) (subject : Condition V) (arguments : List (Condition V))
  | all (conditions : List (Condition V))
  | any (conditions : List (Condition V))
  | negation (condition : Condition V)
  -- A connective whose conditions are counted. Any but `NOT` and `AND` reads as `OR`.
  | strict (operator : Word) (conditions : List (Condition V))

namespace Condition

variable {V : Type}

mutual

def script : Condition V → Script V
  | .path p => .path p
  | .attribute p => .path p
  | .size p => .text "size(" ++ .path p ++ .text ")"
  | .value v => .value v
  | .compare left operator right => left.script ++ .text s!" {operator.spelling} " ++ right.script
  | .between subject low high =>
      subject.script ++ .text " BETWEEN " ++ low.script ++ .text " AND " ++ high.script
  | .isIn subject choices =>
      subject.script ++ .text " IN (" ++ .join ", " (scripts choices) ++ .text ")"
  | .call function subject arguments =>
      .text s!"{function.spelling}(" ++ .join ", " (subject.script :: scripts arguments)
        ++ .text ")"
  | .all conditions => .text "(" ++ .join " AND " (scripts conditions) ++ .text ")"
  | .any conditions => .text "(" ++ .join " OR " (scripts conditions) ++ .text ")"
  | .negation condition => .text "(NOT " ++ condition.script ++ .text ")"
  | .strict operator conditions =>
      match usageError? operator conditions.length with
      | some e => .fail (.usage e)
      | none =>
          if operator.passesFor "NOT" then
            .text "(NOT " ++ .join " AND " (scripts conditions) ++ .text ")"
          else
            .text "("
              ++ .join (if operator.passesFor "AND" then " AND " else " OR ") (scripts conditions)
              ++ .text ")"

def scripts : List (Condition V) → List (Script V)
  | [] => []
  | c :: rest => c.script :: scripts rest

end

def render (c : Condition V) (t : Table V) : Except Fault Fragment × Table V :=
  c.script.run [] t

def renderEach : List (Condition V) → Table V → Except Fault (List Fragment) × Table V
  | [], t => (.ok [], t)
  | c :: rest, t =>
      match c.render t with
      | (.error e, t) => (.error e, t)
      | (.ok written, t) =>
          match renderEach rest t with
          | (.error e, t) => (.error e, t)
          | (.ok others, t) => (.ok (written :: others), t)

mutual

def substitute {A B : Type} (f : A → Condition B) : Condition A → Condition B
  | .path p => .path p
  | .attribute p => .attribute p
  | .size p => .size p
  | .value v => f v
  | .compare left operator right => .compare (left.substitute f) operator (right.substitute f)
  | .between subject low high =>
      .between (subject.substitute f) (low.substitute f) (high.substitute f)
  | .isIn subject choices => .isIn (subject.substitute f) (substituteEach f choices)
  | .call function subject arguments =>
      .call function (subject.substitute f) (substituteEach f arguments)
  | .all conditions => .all (substituteEach f conditions)
  | .any conditions => .any (substituteEach f conditions)
  | .negation condition => .negation (condition.substitute f)
  | .strict operator conditions => .strict operator (substituteEach f conditions)

def substituteEach {A B : Type} (f : A → Condition B) : List (Condition A) → List (Condition B)
  | [] => []
  | c :: rest => c.substitute f :: substituteEach f rest

end

end Condition
end ItemExpr
