import ItemExpr.Proofs.Condition.Parse

set_option autoImplicit false

namespace ItemExpr

variable {V : Type}

namespace Condition

def IsSubject : Condition V → Prop
  | .path _ => True
  | .attribute _ => True
  | .size _ => True
  | _ => False

def IsComparand : Condition V → Prop
  | .value _ => True
  | .attribute _ => True
  | .size _ => True
  | _ => False

mutual

-- A condition of the usual form: comparisons and function calls with paths on the left and paths
-- or values on the right, under connectives that have as many conditions as they need.
def IsFormula : Condition V → Prop
  | .compare left _ right => left.IsSubject ∧ right.IsComparand
  | .between subject low high => subject.IsSubject ∧ low.IsComparand ∧ high.IsComparand
  | .isIn subject choices => subject.IsSubject ∧ ∀ c ∈ choices, c.IsComparand
  | .call _ subject arguments => subject.IsSubject ∧ ∀ c ∈ arguments, c.IsComparand
  | .all conditions => 2 ≤ conditions.length ∧ AreFormulas conditions
  | .any conditions => 2 ≤ conditions.length ∧ AreFormulas conditions
  | .negation condition => condition.IsFormula
  | .strict operator conditions =>
      usageError? operator conditions.length = none ∧ AreFormulas conditions
  | _ => False

def AreFormulas : List (Condition V) → Prop
  | [] => True
  | c :: rest => c.IsFormula ∧ AreFormulas rest

end

def connective (operator : Word) (conditions : List (Condition V)) : Condition V :=
  if operator.passesFor "NOT" then
    match conditions with
    | [c] => .negation c
    | cs => .strict operator cs
  else if operator.passesFor "AND" then .all conditions
  else .any conditions

mutual

def loose : Condition V → Condition V
  | .path p => .attribute p
  | .attribute p => .attribute p
  | .size p => .size p
  | .value v => .value v
  | .compare left operator right => .compare left.loose operator right.loose
  | .between subject low high => .between subject.loose low.loose high.loose
  | .isIn subject choices => .isIn subject.loose (looseEach choices)
  | .call function subject arguments => .call function subject.loose (looseEach arguments)
  | .all conditions => .all (looseEach conditions)
  | .any conditions => .any (looseEach conditions)
  | .negation condition => .negation condition.loose
  | .strict operator conditions => connective operator (looseEach conditions)

def looseEach : List (Condition V) → List (Condition V)
  | [] => []
  | c :: rest => c.loose :: looseEach rest

end

def IsSide (c : Condition V) : Prop := c.IsSubject ∨ c.IsComparand

theorem side_cases (c : Condition V) (side : c.IsSide) :
    (∃ p, c = .path p) ∨ (∃ p, c = .attribute p) ∨ (∃ p, c = .size p) ∨ ∃ v, c = .value v := by
  cases c <;> simp [IsSide, IsSubject, IsComparand] at side ⊢

theorem parse_attribute (p : String) (indexed : IsIndexed p) (rest : List (Symbol V))
    (ended : Ended rest) : parseSide (pathSymbols p ++ rest) = some (.attribute p, rest) := by
  have taken := take_path p indexed rest ended
  obtain ⟨n, more, shape⟩ := path_symbols_cons (V := V) p
  rw [shape, List.cons_append] at taken ⊢
  simp [parseSide, taken]

theorem ended_close (rest : List (Symbol V)) : Ended (chars ")" ++ rest) := by
  simp [Ended, chars, isPathSymbol, isIndexChar]

theorem parse_size (p : String) (indexed : IsIndexed p) (rest : List (Symbol V)) :
    parseSide (chars "size(" ++ pathSymbols p ++ chars ")" ++ rest) = some (.size p, rest) := by
  have taken := take_path p indexed (chars ")" ++ rest) (ended_close rest)
  have opened := expect_chars "size(" (pathSymbols p ++ (chars ")" ++ rest))
  have closed := expect_chars ")" rest
  have shape : chars "size(" ++ pathSymbols p ++ chars ")" ++ rest =
      .char 's' :: (chars "ize(" ++ (pathSymbols p ++ (chars ")" ++ rest))) := by
    simp [chars]
  have front : (chars "size(" : List (Symbol V)) = .char 's' :: chars "ize(" := by simp [chars]
  rw [front, List.cons_append] at opened
  rw [shape, parseSide, opened]
  · simp [taken, closed]
  · simp
  · simp

theorem parse_side (c : Condition V) (side : c.IsSide) (offered : c.IsOffered)
    (rest : List (Symbol V)) (ended : Ended rest) :
    parseSide (c.symbols ++ rest) = some (c.loose, rest) := by
  rcases side_cases c side with ⟨p, rfl⟩ | ⟨p, rfl⟩ | ⟨p, rfl⟩ | ⟨v, rfl⟩
  · exact parse_attribute p offered rest ended
  · exact parse_attribute p offered rest ended
  · exact parse_size p offered rest
  · rfl

theorem ended_follow (separator : String) (apart : ∀ s : List (Symbol V), Ended (chars separator ++ s))
    (parts : List (List (Symbol V))) (rest : List (Symbol V)) (ended : Ended rest) :
    Ended (followSymbols separator parts ++ rest) := by
  cases parts with
  | nil => exact ended
  | cons part parts =>
      simp only [followSymbols, List.append_assoc]
      exact apart _

theorem ended_comma (s : List (Symbol V)) : Ended (chars ", " ++ s) := by
  simp [Ended, chars, isPathSymbol, isIndexChar]

theorem parse_sides (cs : List (Condition V)) (sides : ∀ c ∈ cs, c.IsSide)
    (offered : AreOffered cs) (fuel : Nat) (enough : cs.length < fuel) (rest : List (Symbol V)) :
    parseSides fuel (followSymbols ", " (symbolsEach cs) ++ (chars ")" ++ rest)) =
      some (looseEach cs, chars ")" ++ rest) := by
  induction cs generalizing fuel with
  | nil =>
      obtain ⟨fuel, rfl⟩ := Nat.exists_eq_succ_of_ne_zero (Nat.ne_of_gt enough)
      simp [symbolsEach, followSymbols, looseEach, parseSides, chars, expect, expectChars]
  | cons c cs ih =>
      obtain ⟨fuel, rfl⟩ := Nat.exists_eq_succ_of_ne_zero (Nat.ne_of_gt (Nat.zero_lt_of_lt enough))
      rw [List.forall_mem_cons] at sides
      have others := ih sides.2 offered.2 fuel (by simpa using enough)
      have ended := ended_follow ", " ended_comma (symbolsEach cs) _ (ended_close rest)
      have first := parse_side c sides.1 offered.1 _ ended
      simp only [symbolsEach, followSymbols, List.append_assoc, parseSides, expect_chars]
      simp [first, others, looseEach]

theorem follow_length (separator : String) (parts : List (List (Symbol V)))
    (present : 0 < separator.toList.length) :
    parts.length ≤ (followSymbols separator parts).length := by
  induction parts with
  | nil => simp
  | cons part parts ih =>
      simp only [followSymbols, chars, List.length_append, List.length_map, List.length_cons]
      omega

theorem each_length (cs : List (Condition V)) : (symbolsEach cs).length = cs.length := by
  induction cs with
  | nil => rfl
  | cons c cs ih => simp [symbolsEach, ih]

theorem side_front (c : Condition V) (side : c.IsSide) :
    ∃ x more, c.symbols = x :: more ∧ ∀ d, x = .char d → d = 's' := by
  rcases side_cases c side with ⟨p, rfl⟩ | ⟨p, rfl⟩ | ⟨p, rfl⟩ | ⟨v, rfl⟩
  · obtain ⟨n, more, shape⟩ := path_symbols_cons (V := V) p
    exact ⟨.name n, more, shape, by simp⟩
  · obtain ⟨n, more, shape⟩ := path_symbols_cons (V := V) p
    exact ⟨.name n, more, shape, by simp⟩
  · refine ⟨.char 's', chars "ize(" ++ pathSymbols p ++ chars ")", ?_, by simp⟩
    simp [symbols, chars]
  · exact ⟨.value v, [], rfl, by simp⟩

theorem side_other (c : Condition V) (side : c.IsSide) (word : String) (front : Char)
    (letters : List Char) (shape : word.toList = front :: letters) (different : front ≠ 's')
    (rest : List (Symbol V)) : expect word (c.symbols ++ rest) = none := by
  obtain ⟨x, more, begins, only⟩ := side_front c side
  rw [expect, shape, begins, List.cons_append]
  cases x with
  | char d =>
      have other : front ≠ d := fun same => different (same.trans (only d rfl))
      rw [expectChars, if_neg other]
  | name n => rfl
  | value v => rfl
  | unbound label => rfl

theorem parse_arguments (cs : List (Condition V)) (comparands : ∀ c ∈ cs, c.IsComparand)
    (offered : AreOffered cs) (rest : List (Symbol V)) :
    parseSides (followSymbols ", " (symbolsEach cs) ++ (chars ")" ++ rest)).length
        (followSymbols ", " (symbolsEach cs) ++ (chars ")" ++ rest)) =
      some (looseEach cs, chars ")" ++ rest) := by
  apply parse_sides cs (fun c present => .inr (comparands c present)) offered
  have bound := follow_length ", " (symbolsEach cs) (by simp)
  have close : (chars ")" : List (Symbol V)).length = 1 := by simp [chars]
  rw [each_length] at bound
  rw [List.length_append, List.length_append]
  omega

theorem parse_choices (cs : List (Condition V)) (comparands : ∀ c ∈ cs, c.IsComparand)
    (offered : AreOffered cs) (rest : List (Symbol V)) :
    parseChoices (joinSymbols ", " (symbolsEach cs) ++ (chars ")" ++ rest)) =
      some (looseEach cs, rest) := by
  cases cs with
  | nil => simp [symbolsEach, joinSymbols, parseChoices, expect_chars, looseEach]
  | cons c cs =>
      rw [List.forall_mem_cons] at comparands
      have side : c.IsSide := .inr comparands.1
      have ended := ended_follow ", " ended_comma (symbolsEach cs) _ (ended_close rest)
      have first := parse_side c side offered.1 _ ended
      have closed := side_other c side ")" ')' [] (by simp) (by decide)
        (followSymbols ", " (symbolsEach cs) ++ (chars ")" ++ rest))
      have others := parse_arguments cs comparands.2 offered.2 rest
      simp only [symbolsEach, joinSymbols, List.append_assoc, parseChoices, closed, first, others,
        expect_chars, Option.bind_eq_bind, Option.bind_some, Option.pure_def, looseEach]

theorem word_ended_blank (rest : List (Symbol V)) :
    ∀ x ∈ (chars " " ++ rest).head?, isWordSymbol x = false := by
  simp [chars, isWordSymbol]

theorem word_ended_open (rest : List (Symbol V)) :
    ∀ x ∈ (chars "(" ++ rest).head?, isWordSymbol x = false := by
  simp [chars, isWordSymbol]

theorem parse_compare (subject right : Condition V) (operator : Word) (known : IsOperator operator)
    (side : right.IsSide) (offered : right.IsOffered) (rest : List (Symbol V)) (ended : Ended rest) :
    parseRelation subject (chars operator.spelling ++ (chars " " ++ (right.symbols ++ rest))) =
      some (.compare subject operator right.loose, rest) := by
  have last := parse_side right side offered rest ended
  obtain ⟨r, rfl⟩ := known
  have word := take_word (V := V) r.spelling
    (by cases r <;> simp [Condition.Relation.spelling]) _
    (word_ended_blank (right.symbols ++ rest))
  have other : r.spelling ≠ "BETWEEN" ∧ r.spelling ≠ "IN" := by
    cases r <;> simp [Condition.Relation.spelling]
  simp only [parseRelation, Word.spelling, word, if_neg other.1, if_neg other.2]
  simp [expect_chars, last]

theorem ended_and (s : List (Symbol V)) : Ended (chars " AND " ++ s) := by
  simp [Ended, chars, isPathSymbol, isIndexChar]

theorem parse_between (subject low high : Condition V) (lowSide : low.IsSide)
    (highSide : high.IsSide) (lowOffered : low.IsOffered) (highOffered : high.IsOffered)
    (rest : List (Symbol V)) (ended : Ended rest) :
    parseRelation subject (chars "BETWEEN" ++ (chars " " ++ (low.symbols ++
        (chars " AND " ++ (high.symbols ++ rest))))) =
      some (.between subject low.loose high.loose, rest) := by
  have lower := parse_side low lowSide lowOffered _ (ended_and (high.symbols ++ rest))
  have upper := parse_side high highSide highOffered rest ended
  have word := take_word (V := V) "BETWEEN" (by simp) _
    (word_ended_blank (low.symbols ++ (chars " AND " ++ (high.symbols ++ rest))))
  simp [parseRelation, word, expect_chars, lower, upper]

theorem parse_in (subject : Condition V) (choices : List (Condition V))
    (comparands : ∀ c ∈ choices, c.IsComparand) (offered : AreOffered choices)
    (rest : List (Symbol V)) :
    parseRelation subject (chars "IN" ++ (chars " " ++ (chars "(" ++
        (joinSymbols ", " (symbolsEach choices) ++ (chars ")" ++ rest))))) =
      some (.isIn subject (looseEach choices), rest) := by
  have word := take_word (V := V) "IN" (by simp) _ (word_ended_blank (chars "(" ++
    (joinSymbols ", " (symbolsEach choices) ++ (chars ")" ++ rest))))
  have opened := expect_chars " (" (joinSymbols ", " (symbolsEach choices) ++ (chars ")" ++ rest))
  have shape : (chars " (" : List (Symbol V)) = chars " " ++ chars "(" := by simp [chars]
  rw [shape, List.append_assoc] at opened
  simp [parseRelation, word, opened, parse_choices choices comparands offered rest]

theorem parse_call (function : Word) (known : IsFunction function) (subject : Condition V)
    (arguments : List (Condition V)) (subjectSide : subject.IsSide)
    (comparands : ∀ c ∈ arguments, c.IsComparand) (subjectOffered : subject.IsOffered)
    (offered : AreOffered arguments) (rest : List (Symbol V)) :
    parseCall (chars function.spelling ++ (chars "(" ++ (subject.symbols ++
        (followSymbols ", " (symbolsEach arguments) ++ (chars ")" ++ rest))))) =
      some (.call function subject.loose (looseEach arguments), rest) := by
  have ended := ended_follow ", " ended_comma (symbolsEach arguments) _ (ended_close rest)
  have first := parse_side subject subjectSide subjectOffered _ ended
  have others := parse_arguments arguments comparands offered rest
  have word : takeWord (chars function.spelling ++ (chars "(" ++ (subject.symbols ++
        (followSymbols ", " (symbolsEach arguments) ++ (chars ")" ++ rest))))) =
      (function.spelling, chars "(" ++ (subject.symbols ++
        (followSymbols ", " (symbolsEach arguments) ++ (chars ")" ++ rest)))) := by
    apply take_word _ _ _ (word_ended_open _)
    rcases function_cases function known with rfl | rfl | rfl | rfl | rfl <;> simp [Word.spelling]
  have text : Word.text function.spelling = function := by
    rcases function_cases function known with rfl | rfl | rfl | rfl | rfl <;> rfl
  simp only [parseCall, word, expect_chars, first, others, text, Option.bind_eq_bind,
    Option.bind_some, Option.pure_def]

theorem ended_blank (s : List (Symbol V)) : Ended (chars " " ++ s) := by
  simp [Ended, chars, isPathSymbol, isIndexChar]

theorem ended_or (s : List (Symbol V)) : Ended (chars " OR " ++ s) := by
  simp [Ended, chars, isPathSymbol, isIndexChar]

theorem parse_subject (fuel : Nat) (subject : Condition V) (side : subject.IsSide)
    (offered : subject.IsOffered) (s : List (Symbol V)) :
    parse (fuel + 1) (subject.symbols ++ (chars " " ++ s)) = parseRelation subject.loose s := by
  have plain := side_other subject side "(" '(' [] (by simp) (by decide) (chars " " ++ s)
  have first := parse_side subject side offered _ (ended_blank s)
  simp [parse, plain, first, expect_chars]

theorem parse_function (fuel : Nat) (function : Word) (known : IsFunction function)
    (s : List (Symbol V)) :
    parse (fuel + 1) (chars function.spelling ++ s) = parseCall (chars function.spelling ++ s) := by
  rcases function_cases function known with rfl | rfl | rfl | rfl | rfl <;>
    simp [parse, Word.spelling, chars, expect, expectChars, parseSide]

theorem parse_negation (fuel : Nat) (inner rest : List (Symbol V)) (c : Condition V)
    (body : parse fuel (inner ++ (chars ")" ++ rest)) = some (c, chars ")" ++ rest)) :
    parse (fuel + 1) (chars "(NOT " ++ (inner ++ (chars ")" ++ rest))) =
      some (.negation c, rest) := by
  have shape : (chars "(NOT " : List (Symbol V)) = chars "(" ++ chars "NOT " := by simp [chars]
  simp [parse, shape, expect_chars, body]

section Connected

variable (fuel : Nat) (front back rest : List (Symbol V)) (c : Condition V)
  (cs : List (Condition V))
  (plain : expect "NOT " (front ++ (back ++ (chars ")" ++ rest))) = none)
  (first : parse fuel (front ++ (back ++ (chars ")" ++ rest))) =
    some (c, back ++ (chars ")" ++ rest)))

include plain first

theorem parse_all (more : cs ≠ [])
    (others : parseRest fuel " AND " (back ++ (chars ")" ++ rest)) = some (cs, chars ")" ++ rest)) :
    parse (fuel + 1) (chars "(" ++ (front ++ (back ++ (chars ")" ++ rest)))) =
      some (.all (c :: cs), rest) := by
  simp [parse, expect_chars, plain, first, others, more]

theorem parse_any
    (apart : parseRest fuel " AND " (back ++ (chars ")" ++ rest)) =
      some ([], back ++ (chars ")" ++ rest)))
    (others : parseRest fuel " OR " (back ++ (chars ")" ++ rest)) = some (cs, chars ")" ++ rest)) :
    parse (fuel + 1) (chars "(" ++ (front ++ (back ++ (chars ")" ++ rest)))) =
      some (.any (c :: cs), rest) := by
  simp [parse, expect_chars, plain, first, apart, others]

end Connected

theorem formula_other (c : Condition V) (formula : c.IsFormula) (offered : c.IsOffered)
    (rest : List (Symbol V)) : expect "NOT " (c.symbols ++ rest) = none := by
  have side (s : Condition V) (subject : s.IsSubject) (more : List (Symbol V)) :
      expect "NOT " (s.symbols ++ more) = none :=
    side_other s (.inl subject) "NOT " 'N' ['O', 'T', ' '] (by simp) (by decide) more
  match c with
  | .path _ => exact formula.elim
  | .attribute _ => exact formula.elim
  | .size _ => exact formula.elim
  | .value _ => exact formula.elim
  | .compare left operator right =>
      simp only [symbols, List.append_assoc]
      exact side left formula.1 _
  | .between subject low high =>
      simp only [symbols, List.append_assoc]
      exact side subject formula.1 _
  | .isIn subject choices =>
      simp only [symbols, List.append_assoc]
      exact side subject formula.1 _
  | .call function subject arguments =>
      obtain ⟨known, _⟩ := offered
      rcases function_cases function known with rfl | rfl | rfl | rfl | rfl <;>
        simp [symbols, toString, Word.spelling, chars, expect, expectChars]
  | .all conditions => simp [symbols, chars, expect, expectChars]
  | .any conditions => simp [symbols, chars, expect, expectChars]
  | .negation condition => simp [symbols, chars, expect, expectChars]
  | .strict operator conditions =>
      by_cases negated : operator.passesFor "NOT" = true
      · simp [symbols, negated, chars, expect, expectChars]
      · simp [symbols, negated, chars, expect, expectChars]

end Condition
end ItemExpr
