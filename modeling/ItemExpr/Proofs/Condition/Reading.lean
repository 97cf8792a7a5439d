import ItemExpr.Condition.Build
import ItemExpr.Proofs.Script

set_option autoImplicit false

namespace ItemExpr

def IsOperator (w : Word) : Prop := ∃ r : Condition.Relation, w = .text r.spelling

def IsFunction (w : Word) : Prop :=
  w ∈ ([.text "contains", .text "begins_with", .text "attribute_type", .text "attribute_exists",
    .text "attribute_not_exists"] : List Word)

theorem operator_clear (w : Word) (offered : IsOperator w) :
    Quiet s!" {w.spelling} " ∧ Separate s!" {w.spelling} " := by
  obtain ⟨r, rfl⟩ := offered
  cases r <;> simp [toString, Word.spelling, Condition.Relation.spelling, Quiet, Separate]

theorem function_cases (w : Word) (offered : IsFunction w) :
    w = .text "contains" ∨ w = .text "begins_with" ∨ w = .text "attribute_type" ∨
      w = .text "attribute_exists" ∨ w = .text "attribute_not_exists" := by
  simpa only [IsFunction, List.mem_cons, List.not_mem_nil, or_false] using offered

theorem function_clear (w : Word) (offered : IsFunction w) :
    Quiet s!"{w.spelling}(" ∧ Separate s!"{w.spelling}(" := by
  rcases function_cases w offered with rfl | rfl | rfl | rfl | rfl <;>
    simp [toString, Word.spelling, Quiet, Separate]

namespace Condition

variable {V : Type}

mutual

def IsOffered : Condition V → Prop
  | .path p => IsIndexed p
  | .attribute p => IsIndexed p
  | .size p => IsIndexed p
  | .value _ => True
  | .compare left operator right => left.IsOffered ∧ IsOperator operator ∧ right.IsOffered
  | .between subject low high => subject.IsOffered ∧ low.IsOffered ∧ high.IsOffered
  | .isIn subject choices => subject.IsOffered ∧ AreOffered choices
  | .call function subject arguments =>
      IsFunction function ∧ subject.IsOffered ∧ AreOffered arguments
  | .all conditions => AreOffered conditions
  | .any conditions => AreOffered conditions
  | .negation condition => condition.IsOffered
  | .strict _ conditions => AreOffered conditions

def AreOffered : List (Condition V) → Prop
  | [] => True
  | c :: rest => c.IsOffered ∧ AreOffered rest

end

mutual

def IsCounted : Condition V → Prop
  | .path _ => True
  | .attribute _ => True
  | .size _ => True
  | .value _ => True
  | .compare left _ right => left.IsCounted ∧ right.IsCounted
  | .between subject low high => subject.IsCounted ∧ low.IsCounted ∧ high.IsCounted
  | .isIn subject choices => subject.IsCounted ∧ AreCounted choices
  | .call _ subject arguments => subject.IsCounted ∧ AreCounted arguments
  | .all conditions => AreCounted conditions
  | .any conditions => AreCounted conditions
  | .negation condition => condition.IsCounted
  | .strict operator conditions =>
      usageError? operator conditions.length = none ∧ AreCounted conditions

def AreCounted : List (Condition V) → Prop
  | [] => True
  | c :: rest => c.IsCounted ∧ AreCounted rest

end

mutual

def symbols : Condition V → List (Symbol V)
  | .path p => pathSymbols p
  | .attribute p => pathSymbols p
  | .size p => chars "size(" ++ pathSymbols p ++ chars ")"
  | .value v => [.value v]
  | .compare left operator right =>
      left.symbols ++ chars s!" {operator.spelling} " ++ right.symbols
  | .between subject low high =>
      subject.symbols ++ chars " BETWEEN " ++ low.symbols ++ chars " AND " ++ high.symbols
  | .isIn subject choices =>
      subject.symbols ++ chars " IN (" ++ joinSymbols ", " (symbolsEach choices) ++ chars ")"
  | .call function subject arguments =>
      chars s!"{function.spelling}(" ++ joinSymbols ", " (subject.symbols :: symbolsEach arguments)
        ++ chars ")"
  | .all conditions => chars "(" ++ joinSymbols " AND " (symbolsEach conditions) ++ chars ")"
  | .any conditions => chars "(" ++ joinSymbols " OR " (symbolsEach conditions) ++ chars ")"
  | .negation condition => chars "(NOT " ++ condition.symbols ++ chars ")"
  | .strict operator conditions =>
      if operator.passesFor "NOT" then
        chars "(NOT " ++ joinSymbols " AND " (symbolsEach conditions) ++ chars ")"
      else
        chars "("
          ++ joinSymbols (if operator.passesFor "AND" then " AND " else " OR ")
            (symbolsEach conditions)
          ++ chars ")"

def symbolsEach : List (Condition V) → List (List (Symbol V))
  | [] => []
  | c :: rest => c.symbols :: symbolsEach rest

end

theorem and_clear : Quiet " AND " ∧ Separate " AND " := by simp [Quiet, Separate]

theorem or_clear : Quiet " OR " ∧ Separate " OR " := by simp [Quiet, Separate]

theorem open_clear : Quiet "(" ∧ Separate "(" := by simp [Quiet, Separate]

theorem not_clear : Quiet "(NOT " ∧ Separate "(NOT " := by simp [Quiet, Separate]

theorem size_clear : Quiet "size(" ∧ Separate "size(" := by simp [Quiet, Separate]

theorem between_clear : Quiet " BETWEEN " ∧ Separate " BETWEEN " := by simp [Quiet, Separate]

theorem in_clear : Quiet " IN (" ∧ Separate " IN (" := by simp [Quiet, Separate]

theorem junction_clear (operator : Word) :
    Quiet (if operator.passesFor "AND" then " AND " else " OR ") ∧
      Separate (if operator.passesFor "AND" then " AND " else " OR ") := by
  split
  · exact and_clear
  · exact or_clear

theorem enclosed_clear (front : String) (s : Script V) (clear : Quiet front ∧ Separate front)
    (inner : s.Clear) : (Script.text front ++ s ++ Script.text ")").Clear :=
  append_clear _ _ (append_clear _ _ (text_clear front clear) inner) (text_clear ")" close_clear)

mutual

theorem condition_clear (c : Condition V) (offered : c.IsOffered) : c.script.Clear := by
  match c with
  | .path p => exact path_clear p offered
  | .attribute p => exact path_clear p offered
  | .size p => exact enclosed_clear "size(" _ size_clear (path_clear p offered)
  | .value v => exact value_clear v
  | .compare left operator right =>
      have word := text_clear (V := V) _ (operator_clear operator offered.2.1)
      exact append_clear _ _ (append_clear _ _ (condition_clear left offered.1) word)
        (condition_clear right offered.2.2)
  | .between subject low high =>
      have start := append_clear _ _ (condition_clear subject offered.1)
        (text_clear " BETWEEN " between_clear)
      have middle := append_clear _ _ (append_clear _ _ start (condition_clear low offered.2.1))
        (text_clear " AND " and_clear)
      exact append_clear _ _ middle (condition_clear high offered.2.2)
  | .isIn subject choices =>
      have inner := join_clear ", " comma_clear _ (conditions_clear choices offered.2)
      have start := append_clear _ _ (condition_clear subject offered.1)
        (text_clear " IN (" in_clear)
      exact append_clear _ _ (append_clear _ _ start inner) (text_clear ")" close_clear)
  | .call function subject arguments =>
      have each : ∀ s ∈ subject.script :: scripts arguments, s.Clear :=
        List.forall_mem_cons.mpr
          ⟨condition_clear subject offered.2.1, conditions_clear arguments offered.2.2⟩
      exact enclosed_clear _ _ (function_clear function offered.1)
        (join_clear ", " comma_clear _ each)
  | .all conditions =>
      exact enclosed_clear "(" _ open_clear
        (join_clear " AND " and_clear _ (conditions_clear conditions offered))
  | .any conditions =>
      exact enclosed_clear "(" _ open_clear
        (join_clear " OR " or_clear _ (conditions_clear conditions offered))
  | .negation condition =>
      exact enclosed_clear "(NOT " _ not_clear (condition_clear condition offered)
  | .strict operator conditions =>
      have each := conditions_clear conditions offered
      rw [script]
      cases usageError? operator conditions.length with
      | some e => simp [Script.Clear, Script.fail]
      | none =>
          by_cases negated : operator.passesFor "NOT" = true
          · simp only [negated, if_true]
            exact enclosed_clear "(NOT " _ not_clear (join_clear " AND " and_clear _ each)
          · simp only [negated]
            exact enclosed_clear "(" _ open_clear (join_clear _ (junction_clear operator) _ each)

theorem conditions_clear (cs : List (Condition V)) (offered : AreOffered cs) :
    ∀ s ∈ scripts cs, s.Clear := by
  match cs with
  | [] => simp [scripts]
  | c :: rest =>
      rw [scripts, List.forall_mem_cons]
      exact ⟨condition_clear c offered.1, conditions_clear rest offered.2⟩

end

section Saying

variable (about : List (Symbol V))

theorem says_enclosed (front : String) (s : Script V) (inner : List (Symbol V))
    (said : Says about s inner) :
    Says about (Script.text front ++ s ++ Script.text ")") (chars front ++ inner ++ chars ")") :=
  says_append about _ _ _ _ (says_append about _ _ _ _ (says_text about front) said)
    (says_text about ")")

mutual

theorem says_condition (c : Condition V) (counted : c.IsCounted) :
    Says about c.script c.symbols := by
  match c with
  | .path p => exact says_path about p
  | .attribute p => exact says_path about p
  | .size p => exact says_enclosed about "size(" _ _ (says_path about p)
  | .value v => exact says_value about v
  | .compare left operator right =>
      have word := says_text about s!" {operator.spelling} "
      exact says_append about _ _ _ _
        (says_append about _ _ _ _ (says_condition left counted.1) word)
        (says_condition right counted.2)
  | .between subject low high =>
      have start := says_append about _ _ _ _ (says_condition subject counted.1)
        (says_text about " BETWEEN ")
      have middle := says_append about _ _ _ _
        (says_append about _ _ _ _ start (says_condition low counted.2.1)) (says_text about " AND ")
      exact says_append about _ _ _ _ middle (says_condition high counted.2.2)
  | .isIn subject choices =>
      have inner := says_join about ", " _ _ (says_conditions choices counted.2)
      have start := says_append about _ _ _ _ (says_condition subject counted.1)
        (says_text about " IN (")
      exact says_append about _ _ _ _ (says_append about _ _ _ _ start inner) (says_text about ")")
  | .call function subject arguments =>
      have each := List.Forall₂.cons (says_condition subject counted.1)
        (says_conditions arguments counted.2)
      exact says_enclosed about _ _ _ (says_join about ", " _ _ each)
  | .all conditions =>
      exact says_enclosed about "(" _ _
        (says_join about " AND " _ _ (says_conditions conditions counted))
  | .any conditions =>
      exact says_enclosed about "(" _ _
        (says_join about " OR " _ _ (says_conditions conditions counted))
  | .negation condition =>
      exact says_enclosed about "(NOT " _ _ (says_condition condition counted)
  | .strict operator conditions =>
      have each := says_conditions conditions counted.2
      rw [script, counted.1, symbols]
      by_cases negated : operator.passesFor "NOT" = true
      · simp only [negated, if_true]
        exact says_enclosed about "(NOT " _ _ (says_join about " AND " _ _ each)
      · simp only [negated]
        exact says_enclosed about "(" _ _ (says_join about _ _ _ each)

theorem says_conditions (cs : List (Condition V)) (counted : AreCounted cs) :
    List.Forall₂ (Says about) (scripts cs) (symbolsEach cs) := by
  match cs with
  | [] => exact .nil
  | c :: rest => exact .cons (says_condition c counted.1) (says_conditions rest counted.2)

end

end Saying

end Condition
end ItemExpr
