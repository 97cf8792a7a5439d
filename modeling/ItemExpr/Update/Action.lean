import ItemExpr.Script
import ItemExpr.Update.Clauses
import ItemExpr.Word

set_option autoImplicit false

namespace ItemExpr

inductive Operand (V : Type)
  | literal (v : V)
  | path (p : String)
  | pathOr (p : String) (v : V)

-- What stands between the sides of arithmetic. An attribute or a size passes for a sign.
inductive Sign
  | plus
  | minus
  | attribute (p : String)
  | size (p : String)
  deriving DecidableEq, Repr

inductive Action (V : Type)
  | skip
  | remove
  | assign (o : Operand V)
  | assignDefault (o : Operand V)
  | arithmetic (left : Option (Operand V)) (sign : Sign) (right : Operand V)
  | listAppend (left right : Option (Operand V))
  | removeIndexes (indexes : List Int)
  | assignIndexes (entries : List (Int × Operand V))
  | addElements (o : Operand V)
  | deleteElements (o : Operand V)
  | nested (entries : List (String × Action V))
  | keyed (groups : List (String × List (String × Action V)))

def Sign.word : Sign → Word
  | .plus => "+"
  | .minus => "-"
  | .attribute p => .attribute p
  | .size p => .size p

def Sign.ofWord? : Word → Option Sign
  | .text "+" => some .plus
  | .text "-" => some .minus
  | .attribute p => some (.attribute p)
  | .size p => some (.size p)
  | _ => none

theorem Sign.ofWord_word (sign : Sign) : ofWord? sign.word = some sign := by
  cases sign <;> rfl

namespace Operand

variable {V : Type}

def script : Operand V → Script V
  | .literal v => .value v
  | .path p => .path p
  | .pathOr p v => .text "if_not_exists(" ++ .path p ++ .text ", " ++ .value v ++ .text ")"

def scriptOrSelf : Option (Operand V) → Script V
  | some o => o.script
  | none => .self

end Operand

namespace Action

variable {V : Type}

def clauses : Action V → List (Group × Script V)
  | .skip => []
  | .remove => [(.remove, .self)]
  | .assign o => [(.set, .self ++ .text " = " ++ o.script)]
  | .assignDefault o =>
      [(.set, .self ++ .text " = if_not_exists(" ++ .self ++ .text ", " ++ o.script ++ .text ")")]
  | .arithmetic left sign right =>
      [(.set, .self ++ .text " = " ++ Operand.scriptOrSelf left
        ++ .text s!" {sign.word.spelling} " ++ right.script)]
  | .listAppend left right =>
      [(.set, .self ++ .text " = list_append(" ++ Operand.scriptOrSelf left ++ .text ", "
        ++ Operand.scriptOrSelf right ++ .text ")")]
  | .removeIndexes indexes => indexes.map fun i => (.remove, .self ++ .index i)
  | .assignIndexes entries =>
      entries.map fun (i, o) => (.set, .self ++ .index i ++ .text " = " ++ o.script)
  | .addElements o => [(.add, .self ++ .text " " ++ o.script)]
  | .deleteElements o => [(.delete, .self ++ .text " " ++ o.script)]
  | .nested _ => []
  | .keyed _ => []

end Action
end ItemExpr
