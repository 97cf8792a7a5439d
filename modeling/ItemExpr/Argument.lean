import ItemExpr.Condition.Shared
import ItemExpr.Key
import ItemExpr.Update.Action
import ItemExpr.Value.Plain
import ItemExpr.Value.Text

set_option autoImplicit false

namespace ItemExpr

inductive Argument
  | value (v : Value)
  | condition (c : Condition (Leaf Value))
  | keyClause (c : KeyClause Value)
  | operand (o : Operand Value)
  | action (kind : String) (a : Action Value)

def joinParts (separator : String) : List (List (Part Value)) → List (Part Value)
  | [] => []
  | [ps] => ps
  | ps :: rest => ps ++ .text separator :: joinParts separator rest

def keyType : TypeName := ⟨"dynexpr.key_conditions", "KeyConditionResolver"⟩

def actionType (name : String) : TypeName := ⟨"dynexpr.updates", name⟩

def anonymousForm (t : TypeName) : List (Part Value) := [.text s!"<{t.home}.{t.name} object>"]

def connectiveForm (operator : Word) (inner : List (Part Value)) : List (Part Value) :=
  .text s!"LogicalCondition({operator.form}, [" :: inner ++ [.text "])"]

namespace Condition

def kind : Condition (Leaf Value) → String
  | .path _ => "Attr"
  | .attribute _ => "Attr"
  | .size _ => "Size"
  | .value _ => "LogicalCondition"
  | .compare _ _ _ => "Compare"
  | .between _ _ _ => "Between"
  | .isIn _ _ => "In"
  | .call _ _ _ => "Function"
  | .all _ => "And"
  | .any _ => "Or"
  | .negation _ => "Not"
  | .strict _ _ => "LogicalCondition"

mutual

def form : Condition (Leaf Value) → List (Part Value)
  | .path p => [.text (Text.quoted p)]
  | .attribute p => [.text (attributeForm p)]
  | .size p => [.text (sizeForm p)]
  | .value (.plain v) => [.value v]
  | .value (.shared number) => [.shared number]
  | .compare left operator right =>
      .text "Compare(" :: left.form ++ .text s!", {operator.form}, " :: right.form
        ++ [.text ")"]
  | .call function subject _ =>
      .text s!"Function({function.form}, " :: subject.form ++ [.text ")"]
  | .strict operator conditions => connectiveForm operator (joinParts ", " (forms conditions))
  | .between _ _ _ => anonymousForm (conditionType "Between")
  | .isIn _ _ => anonymousForm (conditionType "In")
  | .all _ => anonymousForm (conditionType "And")
  | .any _ => anonymousForm (conditionType "Or")
  | .negation _ => anonymousForm (conditionType "Not")

def forms : List (Condition (Leaf Value)) → List (List (Part Value))
  | [] => []
  | c :: rest => c.form :: forms rest

end

end Condition

def KeyClause.form (c : KeyClause Value) : List (Part Value) :=
  [.text s!"KeyConditionResolver({c.operator.form}, ", .value c.operand, .text ")"]

def Operand.toValue : Operand Value → Value
  | .literal v => .object (actionType "Literal") [.text "Literal(", .value v, .text ")"]
  | .path p => .object (actionType "Path") [.text s!"Path({Text.quoted p})"]
  | .pathOr _ _ =>
      .object (actionType "PathWithDefault") (anonymousForm (actionType "PathWithDefault"))

namespace Argument

def toValue : Argument → Value
  | .value v => v
  | .condition c => .object (conditionType c.kind) c.form
  | .keyClause c => .object keyType c.form
  | .operand o => o.toValue
  | .action _ .remove => .object (actionType "Remove") [.text "Remove()"]
  | .action kind _ => .object (actionType kind) (anonymousForm (actionType kind))

def word : Argument → Word
  | .value (.str s) => .text s
  | .condition (.attribute p) => .attribute p
  | .condition (.size p) => .size p
  | a => .other (a.toValue.display.getD "") (a.toValue.text.getD "")

def subject : Argument → Condition (Leaf Value)
  | .condition c => c
  | .value (.str p) => .path p
  | a => .value (.plain a.toValue)

def comparand : Argument → Condition (Leaf Value)
  | .condition c => c
  | a => .value (.plain a.toValue)

def keyEntry : Argument → KeyClause Value
  | .keyClause c => c
  | a => .equals a.toValue

def valueOperand : Argument → Operand Value
  | .operand o => o
  | a => .literal a.toValue.plain

-- In the place of an operand of arithmetic, lists or sets a text is a path.
def pathOperand : Argument → Operand Value
  | .operand o => o
  | .value (.str p) => .path p
  | a => .literal a.toValue.plain

-- The null value stands for the attribute itself.
def pathOperand? : Argument → Option (Operand Value)
  | .value .null => none
  | a => some a.pathOperand

def toAction : Argument → Action Value
  | .value .undefined => .skip
  | .value .null => .remove
  | .operand o => .assign o
  | .action _ a => a
  | a => .assign (.literal a.toValue.plain)

def plain : Argument → Argument
  | .value v => .value v.plain
  | a => a

def isComparable : Argument → Bool
  | .condition (.attribute _) => true
  | .condition (.size _) => true
  | _ => false

end Argument
end ItemExpr
