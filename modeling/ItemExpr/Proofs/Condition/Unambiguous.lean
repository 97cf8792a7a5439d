import ItemExpr.Params
import ItemExpr.Proofs.Condition.Formula

set_option autoImplicit false

namespace ItemExpr

variable {V : Type}

namespace Condition

def Parses (c : Condition V) : Prop :=
  ∀ (fuel : Nat) (rest : List (Symbol V)), c.symbols.length ≤ fuel → Ended rest →
    parse fuel (c.symbols ++ rest) = some (c.loose, rest)

theorem parse_rest (separator : String) (present : 0 < separator.toList.length)
    (apart : ∀ s : List (Symbol V), Ended (chars separator ++ s)) (cs : List (Condition V))
    (each : ∀ c ∈ cs, c.Parses) (fuel : Nat)
    (enough : (followSymbols separator (symbolsEach cs)).length < fuel) (rest : List (Symbol V))
    (ended : Ended rest) (stop : expect separator rest = none) :
    parseRest fuel separator (followSymbols separator (symbolsEach cs) ++ rest) =
      some (looseEach cs, rest) := by
  induction cs generalizing fuel with
  | nil =>
      obtain ⟨fuel, rfl⟩ := Nat.exists_eq_succ_of_ne_zero (Nat.ne_of_gt enough)
      simp [symbolsEach, followSymbols, looseEach, parseRest, stop]
  | cons c cs ih =>
      obtain ⟨fuel, rfl⟩ := Nat.exists_eq_succ_of_ne_zero (Nat.ne_of_gt (Nat.zero_lt_of_lt enough))
      rw [List.forall_mem_cons] at each
      have size : (chars separator : List (Symbol V)).length = separator.toList.length := by
        simp [chars]
      simp only [symbolsEach, followSymbols, List.length_append] at enough
      have others := ih each.2 fuel (by omega)
      have first := each.1 fuel _ (by omega) (ended_follow separator apart (symbolsEach cs) rest ended)
      simp [symbolsEach, followSymbols, parseRest, expect_chars, first, others, looseEach]

theorem parse_joined (separator : String) (letters : List Char)
    (shape : separator.toList = ' ' :: letters)
    (apart : ∀ s : List (Symbol V), Ended (chars separator ++ s)) (c : Condition V)
    (cs : List (Condition V)) (formula : c.IsFormula) (offered : c.IsOffered)
    (each : ∀ d ∈ c :: cs, d.Parses) (fuel : Nat)
    (enough : (chars "(" ++ joinSymbols separator (symbolsEach (c :: cs)) ++ chars ")").length ≤ fuel)
    (rest : List (Symbol V)) :
    ∃ inner, fuel = inner + 1 ∧ (followSymbols separator (symbolsEach cs)).length < inner ∧
      expect "NOT " (c.symbols ++ (followSymbols separator (symbolsEach cs) ++
        (chars ")" ++ rest))) = none ∧
      parse inner (c.symbols ++ (followSymbols separator (symbolsEach cs) ++ (chars ")" ++ rest))) =
        some (c.loose, followSymbols separator (symbolsEach cs) ++ (chars ")" ++ rest)) ∧
      parseRest inner separator (followSymbols separator (symbolsEach cs) ++ (chars ")" ++ rest)) =
        some (looseEach cs, chars ")" ++ rest) := by
  have opened : (chars "(" : List (Symbol V)).length = 1 := rfl
  have closed : (chars ")" : List (Symbol V)).length = 1 := rfl
  simp only [symbolsEach, joinSymbols, List.length_append] at enough
  obtain ⟨inner, rfl⟩ := Nat.exists_eq_succ_of_ne_zero (show fuel ≠ 0 by omega)
  rw [List.forall_mem_cons] at each
  have ended := ended_follow separator apart (symbolsEach cs) _ (ended_close rest)
  have stop : expect separator (chars ")" ++ rest) = none := by
    simp [expect, shape, chars, expectChars]
  refine ⟨inner, rfl, by omega, formula_other c formula offered _, ?_, ?_⟩
  · exact each.1 inner _ (by omega) ended
  · exact parse_rest separator (by simp [shape]) apart cs each.2 inner (by omega) _
      (ended_close rest) stop

theorem all_parses (cs : List (Condition V)) (enough : 2 ≤ cs.length) (formulas : AreFormulas cs)
    (offered : AreOffered cs) (each : ∀ c ∈ cs, c.Parses) : (Condition.all cs).Parses := by
  intro fuel rest long _
  match cs with
  | [] => simp at enough
  | [_] => simp at enough
  | c :: next :: more =>
      obtain ⟨fuel, rfl, _, plain, first, others⟩ := parse_joined " AND " _ (by rfl) ended_and c
        (next :: more) formulas.1 offered.1 each fuel long rest
      have all := parse_all fuel _ _ rest _ _ plain first (by simp [looseEach]) others
      simpa only [symbols, symbolsEach, joinSymbols, loose, looseEach, List.append_assoc] using all

theorem any_parses (cs : List (Condition V)) (enough : 2 ≤ cs.length) (formulas : AreFormulas cs)
    (offered : AreOffered cs) (each : ∀ c ∈ cs, c.Parses) : (Condition.any cs).Parses := by
  intro fuel rest long _
  match cs with
  | [] => simp at enough
  | [_] => simp at enough
  | c :: next :: more =>
      obtain ⟨fuel, rfl, longer, plain, first, others⟩ := parse_joined " OR " _ (by rfl) ended_or c
        (next :: more) formulas.1 offered.1 each fuel long rest
      -- The reader asks for a conjunction first and finds none.
      have apart : parseRest fuel " AND " (followSymbols " OR " (symbolsEach (next :: more)) ++
          (chars ")" ++ rest)) =
          some ([], followSymbols " OR " (symbolsEach (next :: more)) ++ (chars ")" ++ rest)) := by
        obtain ⟨fuel, rfl⟩ := Nat.exists_eq_succ_of_ne_zero (Nat.ne_of_gt (Nat.zero_lt_of_lt longer))
        simp [parseRest, symbolsEach, followSymbols, expect, chars, expectChars]
      have any := parse_any fuel _ _ rest _ _ plain first apart others
      simpa only [symbols, symbolsEach, joinSymbols, loose, looseEach, List.append_assoc] using any

theorem negation_parses (c : Condition V) (inner : c.Parses) : (Condition.negation c).Parses := by
  intro fuel rest long _
  have bracket : (chars ")" : List (Symbol V)).length = 1 := rfl
  simp only [symbols, List.length_append] at long
  obtain ⟨fuel, rfl⟩ := Nat.exists_eq_succ_of_ne_zero (show fuel ≠ 0 by omega)
  have body := parse_negation fuel _ rest _ (inner fuel _ (by omega) (ended_close rest))
  simpa only [symbols, loose, List.append_assoc] using body

theorem same_parses (c d : Condition V) (written : c.symbols = d.symbols) (read : c.loose = d.loose)
    (parses : d.Parses) : c.Parses := by
  unfold Parses
  rw [written, read]
  exact parses

theorem strict_parses (operator : Word) (cs : List (Condition V))
    (counted : usageError? operator cs.length = none) (formulas : AreFormulas cs)
    (offered : AreOffered cs) (each : ∀ c ∈ cs, c.Parses) :
    (Condition.strict operator cs).Parses := by
  by_cases negated : operator.passesFor "NOT" = true
  · match cs with
    | [] => simp [usageError?, negated] at counted
    | [c] =>
        apply same_parses _ (.negation c) _ _ (negation_parses c (each c (by simp)))
        · simp [symbols, negated, symbolsEach, joinSymbols, followSymbols]
        · simp [loose, connective, negated, looseEach]
    | _ :: _ :: _ => simp [usageError?, negated] at counted
  · have enough : 2 ≤ cs.length := by
      by_cases two : 2 ≤ cs.length
      · exact two
      · simp [usageError?, negated, two] at counted
    by_cases joined : operator.passesFor "AND" = true
    · apply same_parses _ (.all cs) _ _ (all_parses cs enough formulas offered each)
      · simp [symbols, negated, joined]
      · simp [loose, connective, negated, joined]
    · apply same_parses _ (.any cs) _ _ (any_parses cs enough formulas offered each)
      · simp [symbols, negated, joined]
      · simp [loose, connective, negated, joined]

theorem compare_parses (left right : Condition V) (operator : Word)
    (formula : (Condition.compare left operator right).IsFormula)
    (offered : (Condition.compare left operator right).IsOffered) :
    (Condition.compare left operator right).Parses := by
  intro fuel rest long ended
  obtain ⟨leftOffered, known, rightOffered⟩ := offered
  have blank : (chars s!" {operator.spelling} " : List (Symbol V)) =
      chars " " ++ (chars operator.spelling ++ chars " ") := by
    simp [chars_append, toString]
  have one : (chars " " : List (Symbol V)).length = 1 := rfl
  simp only [symbols, blank, List.length_append] at long ⊢
  obtain ⟨fuel, rfl⟩ := Nat.exists_eq_succ_of_ne_zero (show fuel ≠ 0 by omega)
  have front := parse_subject fuel left (.inl formula.1) leftOffered
    (chars operator.spelling ++ (chars " " ++ (right.symbols ++ rest)))
  have back := parse_compare left.loose right operator known (.inr formula.2) rightOffered rest ended
  simpa only [loose, List.append_assoc] using front.trans back

theorem between_parses (subject low high : Condition V)
    (formula : (Condition.between subject low high).IsFormula)
    (offered : (Condition.between subject low high).IsOffered) :
    (Condition.between subject low high).Parses := by
  intro fuel rest long ended
  obtain ⟨subjectSide, lowSide, highSide⟩ := formula
  obtain ⟨subjectOffered, lowOffered, highOffered⟩ := offered
  have blank : (chars " BETWEEN " : List (Symbol V)) =
      chars " " ++ (chars "BETWEEN" ++ chars " ") := by
    simp [chars]
  have one : (chars " " : List (Symbol V)).length = 1 := rfl
  simp only [symbols, blank, List.length_append] at long ⊢
  obtain ⟨fuel, rfl⟩ := Nat.exists_eq_succ_of_ne_zero (show fuel ≠ 0 by omega)
  have front := parse_subject fuel subject (.inl subjectSide) subjectOffered
    (chars "BETWEEN" ++ (chars " " ++ (low.symbols ++ (chars " AND " ++ (high.symbols ++ rest)))))
  have back := parse_between subject.loose low high (.inr lowSide) (.inr highSide) lowOffered
    highOffered rest ended
  simpa only [loose, List.append_assoc] using front.trans back

theorem in_parses (subject : Condition V) (choices : List (Condition V))
    (formula : (Condition.isIn subject choices).IsFormula)
    (offered : (Condition.isIn subject choices).IsOffered) :
    (Condition.isIn subject choices).Parses := by
  intro fuel rest long _
  have blank : (chars " IN (" : List (Symbol V)) =
      chars " " ++ (chars "IN" ++ (chars " " ++ chars "(")) := by
    simp [chars]
  have one : (chars " " : List (Symbol V)).length = 1 := rfl
  simp only [symbols, blank, List.length_append] at long ⊢
  obtain ⟨fuel, rfl⟩ := Nat.exists_eq_succ_of_ne_zero (show fuel ≠ 0 by omega)
  have front := parse_subject fuel subject (.inl formula.1) offered.1
    (chars "IN" ++ (chars " " ++ (chars "(" ++
      (joinSymbols ", " (symbolsEach choices) ++ (chars ")" ++ rest)))))
  have back := parse_in subject.loose choices formula.2 offered.2 rest
  simpa only [loose, List.append_assoc] using front.trans back

theorem call_parses (function : Word) (subject : Condition V) (arguments : List (Condition V))
    (formula : (Condition.call function subject arguments).IsFormula)
    (offered : (Condition.call function subject arguments).IsOffered) :
    (Condition.call function subject arguments).Parses := by
  intro fuel rest long _
  obtain ⟨known, subjectOffered, argumentsOffered⟩ := offered
  have opened : (chars s!"{function.spelling}(" : List (Symbol V)) =
      chars function.spelling ++ chars "(" := by
    simp [chars_append, toString]
  have one : (chars "(" : List (Symbol V)).length = 1 := rfl
  simp only [symbols, opened, joinSymbols, List.length_append] at long ⊢
  obtain ⟨fuel, rfl⟩ := Nat.exists_eq_succ_of_ne_zero (show fuel ≠ 0 by omega)
  have front := parse_function fuel function known (chars "(" ++ (subject.symbols ++
    (followSymbols ", " (symbolsEach arguments) ++ (chars ")" ++ rest))))
  have back := parse_call function known subject arguments (.inl formula.1) formula.2
    subjectOffered argumentsOffered rest
  simpa only [loose, List.append_assoc] using front.trans back

-- A side holds no condition, so only connectives and negations go deeper.
mutual

theorem formula_parses (c : Condition V) (formula : c.IsFormula) (offered : c.IsOffered) :
    c.Parses := by
  match c with
  | .path _ => exact formula.elim
  | .attribute _ => exact formula.elim
  | .size _ => exact formula.elim
  | .value _ => exact formula.elim
  | .compare left operator right => exact compare_parses left right operator formula offered
  | .between subject low high => exact between_parses subject low high formula offered
  | .isIn subject choices => exact in_parses subject choices formula offered
  | .call function subject arguments => exact call_parses function subject arguments formula offered
  | .all conditions =>
      exact all_parses conditions formula.1 formula.2 offered
        (formulas_parse conditions formula.2 offered)
  | .any conditions =>
      exact any_parses conditions formula.1 formula.2 offered
        (formulas_parse conditions formula.2 offered)
  | .negation condition => exact negation_parses condition (formula_parses condition formula offered)
  | .strict operator conditions =>
      exact strict_parses operator conditions formula.1 formula.2 offered
        (formulas_parse conditions formula.2 offered)

theorem formulas_parse (cs : List (Condition V)) (formulas : AreFormulas cs)
    (offered : AreOffered cs) : ∀ c ∈ cs, c.Parses := by
  match cs with
  | [] => simp
  | c :: rest =>
      rw [List.forall_mem_cons]
      exact ⟨formula_parses c formulas.1 offered.1, formulas_parse rest formulas.2 offered.2⟩

end

theorem side_counted (c : Condition V) (side : c.IsSide) : c.IsCounted := by
  rcases side_cases c side with ⟨p, rfl⟩ | ⟨p, rfl⟩ | ⟨p, rfl⟩ | ⟨v, rfl⟩ <;> trivial

theorem comparands_counted (cs : List (Condition V)) (comparands : ∀ c ∈ cs, c.IsComparand) :
    AreCounted cs := by
  induction cs with
  | nil => trivial
  | cons c cs ih =>
      rw [List.forall_mem_cons] at comparands
      exact ⟨side_counted c (.inr comparands.1), ih comparands.2⟩

mutual

theorem formula_counted (c : Condition V) (formula : c.IsFormula) : c.IsCounted := by
  match c with
  | .compare left _ right =>
      exact ⟨side_counted left (.inl formula.1), side_counted right (.inr formula.2)⟩
  | .between subject low high =>
      exact ⟨side_counted subject (.inl formula.1), side_counted low (.inr formula.2.1),
        side_counted high (.inr formula.2.2)⟩
  | .isIn subject choices =>
      exact ⟨side_counted subject (.inl formula.1), comparands_counted choices formula.2⟩
  | .call _ subject arguments =>
      exact ⟨side_counted subject (.inl formula.1), comparands_counted arguments formula.2⟩
  | .all conditions => exact formulas_counted conditions formula.2
  | .any conditions => exact formulas_counted conditions formula.2
  | .negation condition => exact formula_counted condition formula
  | .strict _ conditions => exact ⟨formula.1, formulas_counted conditions formula.2⟩

theorem formulas_counted (cs : List (Condition V)) (formulas : AreFormulas cs) :
    AreCounted cs := by
  match cs with
  | [] => trivial
  | c :: rest => exact ⟨formula_counted c formulas.1, formulas_counted rest formulas.2⟩

end

def parseEach (s : List (Symbol V)) : Option (List (Condition V)) := do
  let (c, s) ← parse s.length s
  let (cs, _) ← parseRest (s.length + 1) " AND " s
  return c :: cs

theorem parse_each (cs : List (Condition V)) (present : cs ≠ []) (formulas : AreFormulas cs)
    (offered : AreOffered cs) :
    parseEach (joinSymbols " AND " (symbolsEach cs)) = some (looseEach cs) := by
  match cs with
  | [] => exact absurd rfl present
  | c :: rest =>
      have ended : Ended ([] : List (Symbol V)) := by simp [Ended]
      have parses := formulas_parse (c :: rest) formulas offered
      rw [List.forall_mem_cons] at parses
      have behind := ended_follow " AND " ended_and (symbolsEach rest) [] ended
      have others := parse_rest " AND " (by simp) ended_and rest parses.2 _
        (Nat.lt_succ_self _) [] ended rfl
      rw [List.append_nil] at behind others
      have first := parses.1 (c.symbols ++ followSymbols " AND " (symbolsEach rest)).length _
        (by simp) behind
      simp only [parseEach, symbolsEach, joinSymbols, first, others, Option.bind_eq_bind,
        Option.bind_some, Option.pure_def, looseEach]

theorem add_conditions_read {X : Type} (field : String) (params : Params V X)
    (cs : List (Condition V)) (present : cs ≠ []) (offered : AreOffered cs)
    (counted : AreCounted cs) :
    ∃ text w, ({ table := { options := {} } } : Workspace V).addConditions field cs params =
        (.ok (put field (.expression text) params), w) ∧
      readText w.table.names w.table.values text = joinSymbols " AND " (symbolsEach cs) := by
  have coherent := coherent_default (V := V)
  have clear := join_clear " AND " and_clear _ (conditions_clear cs offered)
  have said := says_join [] " AND " _ _ (says_conditions [] cs counted)
  obtain ⟨f, t, ran, written⟩ := run_said _ coherent rfl [] [] (known_nil _) _ clear _ said
  refine ⟨f.text, { table := t }, ?_, read_eq t written.grown.coherent f _ written.reads⟩
  simp [Workspace.addConditions, Workspace.runScript, present, ran, Except.map]

theorem conditions_unambiguous {X : Type} (field : String) (params : Params V X)
    (cs ds : List (Condition V)) (csPresent : cs ≠ []) (dsPresent : ds ≠ [])
    (csFormulas : AreFormulas cs) (dsFormulas : AreFormulas ds) (csOffered : AreOffered cs)
    (dsOffered : AreOffered ds) :
    ∃ text text' w w',
      ({ table := { options := {} } } : Workspace V).addConditions field cs params =
          (.ok (put field (.expression text) params), w) ∧
        ({ table := { options := {} } } : Workspace V).addConditions field ds params =
          (.ok (put field (.expression text') params), w') ∧
        (text = text' → w.table.names = w'.table.names → w.table.values = w'.table.values →
          looseEach cs = looseEach ds) := by
  obtain ⟨text, w, wrote, reads⟩ :=
    add_conditions_read field params cs csPresent csOffered (formulas_counted cs csFormulas)
  obtain ⟨text', w', wrote', reads'⟩ :=
    add_conditions_read field params ds dsPresent dsOffered (formulas_counted ds dsFormulas)
  refine ⟨text, text', w, w', wrote, wrote', ?_⟩
  intro texts names values
  have symbols : joinSymbols " AND " (symbolsEach cs) = joinSymbols " AND " (symbolsEach ds) := by
    rw [← reads, ← reads', texts, names, values]
  have parsed := parse_each cs csPresent csFormulas csOffered
  rw [symbols, parse_each ds dsPresent dsFormulas dsOffered] at parsed
  exact (Option.some.inj parsed).symm

def countedChoice : Condition Nat :=
  .negation (.strict "OR"
    [.compare (.path "a.b[0]") "=" (.value 1), .call "attribute_exists" (.attribute "c") []])

def plainChoice : Condition Nat :=
  .negation (.any
    [.compare (.attribute "a.b[0]") "=" (.value 1), .call "attribute_exists" (.path "c") []])

theorem choice_unambiguous :
    (AreFormulas [countedChoice] ∧ AreFormulas [plainChoice]) ∧
      (AreOffered [countedChoice] ∧ AreOffered [plainChoice]) ∧
      ∃ text text' w w',
        ({ table := { options := {} } } : Workspace Nat).addConditions "FilterExpression"
            [countedChoice] ([] : Params Nat Unit) =
          (.ok (put "FilterExpression" (.expression text) []), w) ∧
        ({ table := { options := {} } } : Workspace Nat).addConditions "FilterExpression"
            [plainChoice] ([] : Params Nat Unit) =
          (.ok (put "FilterExpression" (.expression text') []), w') ∧
        (text = text' → w.table.names = w'.table.names → w.table.values = w'.table.values →
          looseEach [countedChoice] = looseEach [plainChoice]) := by
  have indexed : IsIndexed "a.b[0]" ∧ IsIndexed "c" := by decide +kernel
  have formulas : AreFormulas [countedChoice] ∧ AreFormulas [plainChoice] := by
    simp [AreFormulas, IsFormula, countedChoice, plainChoice, IsSubject, IsComparand, usageError?,
      Word.passesFor]
  have offered : AreOffered [countedChoice] ∧ AreOffered [plainChoice] := by
    simp [AreOffered, IsOffered, countedChoice, plainChoice, IsFunction, indexed,
      show IsOperator "=" from ⟨.equal, rfl⟩]
  exact ⟨formulas, offered, conditions_unambiguous "FilterExpression" [] [countedChoice]
    [plainChoice] (by simp) (by simp) formulas.1 formulas.2 offered.1 offered.2⟩

end Condition
end ItemExpr
