import ItemExpr.Proofs.Condition.Formula

set_option autoImplicit false

namespace ItemExpr

variable {V : Type}

theorem counted_iff_length (operator : Word) (count : Nat) :
    usageError? operator count = none ↔
      if operator.passesFor "NOT" = true then count = 1 else 2 ≤ count := by
  rw [usageError?]
  by_cases negated : operator.passesFor "NOT" = true
  · by_cases single : count = 1 <;> simp [negated, single]
  · by_cases enough : 2 ≤ count <;> simp [negated, enough]

namespace Strict

def IsFull (s : Strict V) : Prop := usageError? s.operator s.conditions.length = none

theorem make_eq (operator : Word) (conditions : List (Condition V)) (made : Strict V)
    (built : make operator conditions = .ok made) :
    made = ⟨operator, conditions⟩ ∧ made.IsFull := by
  cases count : usageError? operator conditions.length with
  | some e => simp [make, count] at built
  | none =>
      have same : made = ⟨operator, conditions⟩ := by simpa [make, count, eq_comm] using built
      subst same
      exact ⟨rfl, count⟩

theorem add_cases (s : Strict V) (full : s.IsFull) (c : Condition V) :
    (s.operator.passesFor "NOT" = true ∧ s.conditions.length = 1 ∧
        s.add c = .error { operator := "NOT", count := 2 }) ∨
      (s.operator.passesFor "NOT" = false ∧ 2 ≤ s.conditions.length ∧
        s.add c = .ok ⟨s.operator, s.conditions ++ [c]⟩) := by
  have length := (counted_iff_length s.operator s.conditions.length).mp full
  by_cases negated : s.operator.passesFor "NOT" = true
  · rw [if_pos negated] at length
    exact .inl ⟨negated, length, by simp [add, isNot, negated, length]⟩
  · rw [if_neg negated] at length
    exact .inr ⟨by simpa using negated, length, by simp [add, isNot, negated]⟩

theorem add_full (s s' : Strict V) (full : s.IsFull) (c : Condition V) (added : s.add c = .ok s') :
    s'.IsFull := by
  rcases add_cases s full c with ⟨_, _, failed⟩ | ⟨plain, enough, taken⟩
  · simp [failed] at added
  · rw [taken, Except.ok.injEq] at added
    subst added
    refine (counted_iff_length _ _).mpr ?_
    rw [if_neg (by simp [plain]), List.length_append]
    omega

def attempt (s : Strict V) (c : Condition V) : Strict V :=
  match s.add c with
  | .ok s' => s'
  | .error _ => s

theorem attempts_eq (s : Strict V) (full : s.IsFull) (cs : List (Condition V)) :
    (cs.foldl attempt s).IsFull ∧
      cs.foldl attempt s =
        if s.operator.passesFor "NOT" = true then s else ⟨s.operator, s.conditions ++ cs⟩ := by
  induction cs generalizing s with
  | nil => simp [full]
  | cons c rest ih =>
      rcases add_cases s full c with ⟨negated, _, failed⟩ | ⟨plain, _, taken⟩
      · have same : s.attempt c = s := by simp [attempt, failed]
        rw [List.foldl_cons, same, if_pos negated]
        simpa [negated] using ih s full
      · have more : s.attempt c = ⟨s.operator, s.conditions ++ [c]⟩ := by simp [attempt, taken]
        have later := ih _ (add_full s _ full c taken)
        rw [List.foldl_cons, more]
        simpa [plain] using later

end Strict

namespace Condition

mutual

def unchecked : Condition V → Condition V
  | .path p => .path p
  | .attribute p => .attribute p
  | .size p => .size p
  | .value v => .value v
  | .compare left operator right => .compare left.unchecked operator right.unchecked
  | .between subject low high => .between subject.unchecked low.unchecked high.unchecked
  | .isIn subject choices => .isIn subject.unchecked (uncheckedEach choices)
  | .call function subject arguments => .call function subject.unchecked (uncheckedEach arguments)
  | .all conditions => .all (uncheckedEach conditions)
  | .any conditions => .any (uncheckedEach conditions)
  | .negation condition => .negation condition.unchecked
  | .strict operator conditions => connective operator (uncheckedEach conditions)

def uncheckedEach : List (Condition V) → List (Condition V)
  | [] => []
  | c :: rest => c.unchecked :: uncheckedEach rest

end

theorem unchecked_length (cs : List (Condition V)) : (uncheckedEach cs).length = cs.length := by
  induction cs with
  | nil => rfl
  | cons c rest ih => simp [uncheckedEach, ih]

theorem connective_script (operator : Word) (cs : List (Condition V))
    (full : usageError? operator cs.length = none) :
    (connective operator cs).script = (strict operator cs).script := by
  have length := (counted_iff_length operator cs.length).mp full
  rw [script, full]
  by_cases negated : operator.passesFor "NOT" = true
  · rw [if_pos negated] at length
    obtain ⟨c, rfl⟩ := List.length_eq_one_iff.mp length
    simp [connective, negated, script, scripts, Script.join]
  · by_cases both : operator.passesFor "AND" = true
    · simp [connective, negated, both, script]
    · simp [connective, negated, both, script]

mutual

theorem unchecked_script (c : Condition V) (counted : c.IsCounted) :
    c.unchecked.script = c.script := by
  match c with
  | .path _ => rfl
  | .attribute _ => rfl
  | .size _ => rfl
  | .value _ => rfl
  | .compare left operator right =>
      rw [unchecked, script, script, unchecked_script left counted.1,
        unchecked_script right counted.2]
  | .between subject low high =>
      rw [unchecked, script, script, unchecked_script subject counted.1,
        unchecked_script low counted.2.1, unchecked_script high counted.2.2]
  | .isIn subject choices =>
      rw [unchecked, script, script, unchecked_script subject counted.1,
        unchecked_scripts choices counted.2]
  | .call function subject arguments =>
      rw [unchecked, script, script, unchecked_script subject counted.1,
        unchecked_scripts arguments counted.2]
  | .all conditions => rw [unchecked, script, script, unchecked_scripts conditions counted]
  | .any conditions => rw [unchecked, script, script, unchecked_scripts conditions counted]
  | .negation condition => rw [unchecked, script, script, unchecked_script condition counted]
  | .strict operator conditions =>
      have full : usageError? operator (uncheckedEach conditions).length = none := by
        rw [unchecked_length]
        exact counted.1
      rw [unchecked, connective_script operator _ full, script, script, unchecked_length,
        unchecked_scripts conditions counted.2]

theorem unchecked_scripts (cs : List (Condition V)) (counted : AreCounted cs) :
    scripts (uncheckedEach cs) = scripts cs := by
  match cs with
  | [] => rfl
  | c :: rest =>
      rw [uncheckedEach, scripts, scripts, unchecked_script c counted.1,
        unchecked_scripts rest counted.2]

end

theorem counted_renders (c : Condition V) (counted : c.IsCounted) (t : Table V) :
    ∃ f t', c.render t = (.ok f, t') ∧ c.unchecked.render t = (.ok f, t') := by
  have sound := (says_condition [] c counted).sound
  refine ⟨(t.write [] c.script.items).1, (t.write [] c.script.items).2, ?_, ?_⟩
  · simp [render, Script.run, sound]
  · simp [render, unchecked_script c counted, Script.run, sound]

end Condition
end ItemExpr
