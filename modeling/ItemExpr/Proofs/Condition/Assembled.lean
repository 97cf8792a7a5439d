import ItemExpr.Proofs.Condition.Sharing

set_option autoImplicit false

namespace ItemExpr

namespace Condition

inductive Assembled : Draft → Prop
  | path (p : String) : Assembled (.attribute p)
  | size (p : String) : Assembled (.size p)
  | shared (number : Nat) : Assembled (.value (.shared number))
  | comparison (left : Argument) (operator : Word) (right : Argument) :
      (∀ c, .condition c ∈ [left, right] → Assembled c) → Assembled (comparison left operator right)
  | between (subject low high : Argument) :
      (∀ c, .condition c ∈ [subject, low, high] → Assembled c) →
        Assembled (betweenOf subject low high)
  | isIn (subject : Argument) (choices : List Argument) :
      (∀ c, .condition c ∈ subject :: choices → Assembled c) → Assembled (isInOf subject choices)
  | call (function : Word) (subject : Argument) (arguments : List Argument) :
      (∀ c, .condition c ∈ subject :: arguments → Assembled c) →
        Assembled (callOf function subject arguments)
  | all (conditions : List Argument) :
      (∀ c, .condition c ∈ conditions → Assembled c) → Assembled (allOf conditions)
  | any (conditions : List Argument) :
      (∀ c, .condition c ∈ conditions → Assembled c) → Assembled (anyOf conditions)
  | negation (conditions : List Argument) (made : Draft) :
      (∀ c, .condition c ∈ conditions → Assembled c) → negationOf conditions = .ok made →
        Assembled made
  | strict (operator : Word) (conditions : List Argument) (made : Draft) :
      (∀ c, .condition c ∈ conditions → Assembled c) → strictOf operator conditions = .ok made →
        Assembled made

theorem subject_counted (a : Argument) (each : ∀ c, a = .condition c → c.IsCounted) :
    a.subject.IsCounted := by
  match a with
  | .condition c => exact each c rfl
  | .value v => cases v <;> trivial
  | .keyClause _ => trivial
  | .operand _ => trivial
  | .action _ _ => trivial

theorem comparand_counted (a : Argument) (each : ∀ c, a = .condition c → c.IsCounted) :
    a.comparand.IsCounted := by
  match a with
  | .condition c => exact each c rfl
  | .value _ => trivial
  | .keyClause _ => trivial
  | .operand _ => trivial
  | .action _ _ => trivial

theorem comparands_each_counted (as : List Argument)
    (each : ∀ c, .condition c ∈ as → c.IsCounted) : AreCounted (as.map Argument.comparand) := by
  induction as with
  | nil => trivial
  | cons a rest ih =>
      refine ⟨comparand_counted a fun c same => each c (by simp [same]), ih fun c present => ?_⟩
      exact each c (List.mem_cons_of_mem a present)

theorem assembled_counted (c : Draft) (assembled : Assembled c) : c.IsCounted := by
  induction assembled with
  | path p => trivial
  | size p => trivial
  | shared number => trivial
  | comparison left operator right _ each =>
      exact ⟨subject_counted left fun c same => each c (by simp [same]),
        comparand_counted right fun c same => each c (by simp [same])⟩
  | between subject low high _ each =>
      exact ⟨subject_counted subject fun c same => each c (by simp [same]),
        comparand_counted low fun c same => each c (by simp [same]),
        comparand_counted high fun c same => each c (by simp [same])⟩
  | isIn subject choices _ each =>
      exact ⟨subject_counted subject fun c same => each c (by simp [same]),
        comparands_each_counted choices fun c present => each c (List.mem_cons_of_mem _ present)⟩
  | call function subject arguments _ each =>
      exact ⟨subject_counted subject fun c same => each c (by simp [same]),
        comparands_each_counted arguments fun c present => each c (List.mem_cons_of_mem _ present)⟩
  | all conditions _ each => exact comparands_each_counted conditions each
  | any conditions _ each => exact comparands_each_counted conditions each
  | negation conditions made _ built each =>
      match conditions with
      | [] => simp [negationOf] at built
      | [a] =>
          rw [negationOf, Except.ok.injEq] at built
          subst built
          exact comparand_counted a fun c same => each c (by simp [same])
      | _ :: _ :: _ => simp [negationOf] at built
  | strict operator conditions made _ built each =>
      rw [strictOf] at built
      cases result : Strict.make operator (conditions.map Argument.comparand) with
      | error e => simp [result, Except.map] at built
      | ok s =>
          obtain ⟨rfl, full⟩ := Strict.make_eq _ _ _ result
          rw [result, Except.map, Except.ok.injEq] at built
          subst built
          exact ⟨full, comparands_each_counted conditions each⟩

theorem are_counted_iff (cs : List (Condition (Leaf Value))) :
    AreCounted cs ↔ ∀ c ∈ cs, c.IsCounted := by
  induction cs with
  | nil => simp [AreCounted]
  | cons c rest ih => rw [AreCounted, ih, List.forall_mem_cons]

end Condition

namespace Session

inductive Step
  | define (label : String) (operator : Word) (conditions : List Condition.Draft)
  | add (label : String) (c : Condition.Draft)

def Step.conditions : Step → List Condition.Draft
  | .define _ _ conditions => conditions
  | .add _ c => [c]

def attempt (s : Session) (step : Step) : Session :=
  let result := match step with
    | .define label operator conditions => s.define label operator conditions
    | .add label c => s.add label c
  match result with
  | .ok s' => s'
  | .error _ => s

def run (w : Workspace Value) (steps : List Step) : Session :=
  steps.foldl attempt { workspace := w }

theorem define_shared (s s' : Session) (label : String) (operator : Word)
    (conditions : List Condition.Draft) (defined : s.define label operator conditions = .ok s') :
    ∃ made, Strict.make operator conditions = .ok made ∧ s'.shared = s.shared ++ [made] := by
  rw [define] at defined
  cases result : Strict.make operator conditions with
  | error e => simp [result] at defined
  | ok made =>
      simp only [result, Except.ok.injEq] at defined
      exact ⟨made, rfl, by rw [← defined]⟩

theorem connective_found (s : Session) (label : String) (number : Nat) (old : Strict (Leaf Value))
    (known : s.connective label = .ok (number, old)) : s.shared[number]? = some old := by
  rw [connective, connective?] at known
  cases numbered : s.number? label with
  | none => simp [numbered] at known
  | some n =>
      cases found : s.shared[n]? with
      | none => simp [numbered, found] at known
      | some made =>
          simp only [numbered, found, Option.bind_eq_bind, Option.bind_some, Option.pure_def,
            Except.ok.injEq, Prod.mk.injEq] at known
          rw [← known.1, ← known.2, found]

theorem add_shared (s s' : Session) (label : String) (c : Condition.Draft)
    (added : s.add label c = .ok s') :
    ∃ number old new, s.shared[number]? = some old ∧ old.add c = .ok new ∧
      s'.shared = s.shared.set number new := by
  rw [add, change] at added
  cases known : s.connective label with
  | error e => simp [known] at added
  | ok found =>
      obtain ⟨number, old⟩ := found
      cases result : old.add c with
      | error e => simp [known, result, Except.mapError, Except.map] at added
      | ok new =>
          simp only [known, result, Except.mapError, Except.map, Except.ok.injEq] at added
          exact ⟨number, old, new, connective_found s label number old known, result,
            by rw [← added]⟩

theorem attempt_counted (s : Session) (step : Step)
    (assembled : ∀ c ∈ step.conditions, Condition.Assembled c)
    (full : ∀ made ∈ s.shared, made.condition.IsCounted) :
    ∀ made ∈ (s.attempt step).shared, made.condition.IsCounted := by
  have counted : ∀ c ∈ step.conditions, c.IsCounted := fun c present =>
    Condition.assembled_counted c (assembled c present)
  cases step with
  | define label operator conditions =>
      cases defined : s.define label operator conditions with
      | error e => simpa only [attempt, defined] using full
      | ok s' =>
          obtain ⟨made, built, shared⟩ := define_shared s s' label operator conditions defined
          obtain ⟨rfl, enough⟩ := Strict.make_eq _ _ _ built
          simp only [attempt, defined, shared, List.forall_mem_append, List.forall_mem_singleton]
          exact ⟨full, enough, (Condition.are_counted_iff conditions).mpr counted⟩
  | add label c =>
      cases added : s.add label c with
      | error e => simpa only [attempt, added] using full
      | ok s' =>
          obtain ⟨number, old, new, found, taken, shared⟩ := add_shared s s' label c added
          simp only [attempt, added, shared]
          intro made present
          rcases List.mem_or_eq_of_mem_set present with before | rfl
          · exact full made before
          · obtain ⟨enough, inner⟩ := full old (List.mem_of_getElem? found)
            rcases Strict.add_cases old enough c with ⟨_, _, failed⟩ | ⟨_, _, more⟩
            · simp [failed] at taken
            · have grown := Strict.add_full old made enough c taken
              rw [more, Except.ok.injEq] at taken
              subst taken
              refine ⟨grown, (Condition.are_counted_iff _).mpr ?_⟩
              rw [List.forall_mem_append, List.forall_mem_singleton]
              exact ⟨(Condition.are_counted_iff _).mp inner, counted c (List.mem_singleton_self c)⟩

theorem run_counted (w : Workspace Value) (steps : List Step)
    (assembled : ∀ step ∈ steps, ∀ c ∈ step.conditions, Condition.Assembled c) :
    ∀ made ∈ (run w steps).shared, made.condition.IsCounted := by
  have later (s : Session) (full : ∀ made ∈ s.shared, made.condition.IsCounted) :
      ∀ made ∈ (steps.foldl attempt s).shared, made.condition.IsCounted := by
    induction steps generalizing s with
    | nil => exact full
    | cons step rest ih =>
        rw [List.forall_mem_cons] at assembled
        exact ih assembled.2 (s.attempt step) (attempt_counted s step assembled.1 full)
  exact later { workspace := w } (by simp)

end Session

theorem strict_as_loose :
    (∀ {V : Type} (operator : Word) (conditions adds : List (Condition V)) (made : Strict V),
      Strict.make operator conditions = .ok made →
        (adds.foldl Strict.attempt made).operator = operator ∧
        if operator.passesFor "NOT" = true then
          (adds.foldl Strict.attempt made).conditions = conditions ∧ conditions.length = 1
        else
          (adds.foldl Strict.attempt made).conditions = conditions ++ adds ∧
            2 ≤ conditions.length) ∧
      ∀ (w : Workspace Value) (steps : List Session.Step) (c : Condition.Draft),
        (∀ step ∈ steps, ∀ d ∈ step.conditions, Condition.Assembled d) → Condition.Assembled c →
          (Session.run w steps).shared.IsAcyclic c →
            let tree := (Session.run w steps).conditionNow c
            tree = c.substitute (Session.run w steps).shared.present ∧
              ∀ t, ∃ f t', tree.render t = (.ok f, t') ∧ tree.unchecked.render t = (.ok f, t') := by
  constructor
  · intro V operator conditions adds made built
    obtain ⟨rfl, full⟩ := Strict.make_eq operator conditions made built
    have length := (counted_iff_length _ _).mp full
    obtain ⟨_, after⟩ := Strict.attempts_eq _ full adds
    rw [after]
    by_cases negated : operator.passesFor "NOT" = true
    · simpa [negated] using length
    · simpa [negated] using length
  · intro w steps c assembled made acyclic tree
    have full := Session.run_counted w steps assembled
    have counted := Shared.settle_counted _ full (Session.run w steps).shared.length c
      (Condition.assembled_counted c made)
    exact ⟨Shared.resolve_unfold _ c acyclic, fun t => Condition.counted_renders tree counted t⟩

section Guard

open Condition

def paid : Draft := comparison (.value (.str "paid")) "=" (.value (.bool true))

def itemized : Draft := attributeExists (.condition (.size "list.items[0]"))

-- Connective 1 holds connective 0, which grows after that; two of the steps are refused.
def guardSteps : List Session.Step :=
  [.define "open" "AND" [paid, itemized], .define "alone" "OR" [paid],
    .define "shut" "NOT" [.value (.shared 0)], .add "shut" paid,
    .add "open" (.strict "OR" [paid, itemized])]

def guard : Draft := allOf [.condition (.value (.shared 1)), .condition (.value (.shared 0))]

theorem guard_as_loose :
    let s := Session.run { table := { options := {} } } guardSteps
    (∀ step ∈ guardSteps, ∀ d ∈ step.conditions, Assembled d) ∧ Assembled guard ∧
      s.shared = [⟨"AND", [paid, itemized, .strict "OR" [paid, itemized]]⟩,
        ⟨"NOT", [.value (.shared 0)]⟩] ∧
      s.shared.IsAcyclic guard ∧ s.conditionNow guard = guard.substitute s.shared.present ∧
      (∀ t, ∃ f t', (s.conditionNow guard).render t = (.ok f, t') ∧
        (s.conditionNow guard).unchecked.render t = (.ok f, t')) ∧
      ((s.conditionNow guard).render { options := {} }).1.toOption.map Fragment.text =
        some ("((NOT (#n0 = :v0 AND attribute_exists(size(#n1.#n2[0])) AND " ++
          "(#n0 = :v1 OR attribute_exists(size(#n1.#n2[0]))))) AND " ++
          "(#n0 = :v2 AND attribute_exists(size(#n1.#n2[0])) AND " ++
          "(#n0 = :v3 OR attribute_exists(size(#n1.#n2[0])))))") ∧
      ((s.conditionNow guard).render { options := {} }).2.names =
        [("#n0", "paid"), ("#n1", "list"), ("#n2", "items")] ∧
      ((s.conditionNow guard).render { options := {} }).2.values =
        [(":v0", .bool true), (":v1", .bool true), (":v2", .bool true), (":v3", .bool true)] := by
  intro s
  have first : Assembled paid := .comparison _ _ _ (by simp)
  have second : Assembled itemized := .call _ _ _ (by simpa using Assembled.size _)
  have both : Assembled (.strict "OR" [paid, itemized]) :=
    .strict "OR" [.condition paid, .condition itemized] _ (by simp [first, second]) rfl
  have steps : ∀ step ∈ guardSteps, ∀ d ∈ step.conditions, Assembled d := by
    simp [guardSteps, Session.Step.conditions, first, second, both, Assembled.shared]
  have whole : Assembled guard := .all _ (by simp [Assembled.shared])
  have shape : s.shared = [⟨"AND", [paid, itemized, .strict "OR" [paid, itemized]]⟩,
      ⟨"NOT", [.value (.shared 0)]⟩] := rfl
  have acyclic : s.shared.IsAcyclic guard := by
    refine Shared.acyclic_of_earlier _ ?_ guard
    rintro n m ⟨made, found, mentioned⟩
    rw [shape] at found
    match n with
    | 0 =>
        rw [List.getElem?_cons_zero, Option.some.injEq] at found
        subst found
        simp [Mentions, Strict.condition, leaves, leavesEach, paid, itemized, comparison,
          attributeExists, callOf, Argument.subject, Argument.comparand, Argument.toValue] at mentioned
    | 1 =>
        simp only [List.getElem?_cons_succ, List.getElem?_cons_zero, Option.some.injEq] at found
        subst found
        simp [Mentions, Strict.condition, leaves, leavesEach] at mentioned
        omega
    | n + 2 => simp at found
  obtain ⟨unfolded, written⟩ := strict_as_loose.2 _ guardSteps guard steps whole acyclic
  exact ⟨steps, whole, shape, acyclic, unfolded, written, by decide +kernel, rfl, rfl⟩

end Guard
end ItemExpr
