import ItemExpr.Proofs.Condition.Leaves
import ItemExpr.Proofs.Condition.Strict
import ItemExpr.Session
import Mathlib.Data.Finset.Card
import Mathlib.Logic.Relation

set_option autoImplicit false

namespace ItemExpr

namespace Condition

variable {A B : Type} (f g : A → Condition B)

theorem substitute_each_length (cs : List (Condition A)) :
    (substituteEach f cs).length = cs.length := by
  induction cs with
  | nil => rfl
  | cons c rest ih => simp [substituteEach, ih]

mutual

theorem substitute_counted (c : Condition A) (counted : c.IsCounted)
    (leaves : ∀ a, (f a).IsCounted) : (c.substitute f).IsCounted := by
  match c with
  | .path _ => trivial
  | .attribute _ => trivial
  | .size _ => trivial
  | .value a => exact leaves a
  | .compare left _ right =>
      exact ⟨substitute_counted left counted.1 leaves, substitute_counted right counted.2 leaves⟩
  | .between subject low high =>
      exact ⟨substitute_counted subject counted.1 leaves, substitute_counted low counted.2.1 leaves,
        substitute_counted high counted.2.2 leaves⟩
  | .isIn subject choices =>
      exact ⟨substitute_counted subject counted.1 leaves,
        substitute_each_counted choices counted.2 leaves⟩
  | .call _ subject arguments =>
      exact ⟨substitute_counted subject counted.1 leaves,
        substitute_each_counted arguments counted.2 leaves⟩
  | .all conditions => exact substitute_each_counted conditions counted leaves
  | .any conditions => exact substitute_each_counted conditions counted leaves
  | .negation condition => exact substitute_counted condition counted leaves
  | .strict operator conditions =>
      refine ⟨?_, substitute_each_counted conditions counted.2 leaves⟩
      rw [substitute_each_length]
      exact counted.1

theorem substitute_each_counted (cs : List (Condition A)) (counted : AreCounted cs)
    (leaves : ∀ a, (f a).IsCounted) : AreCounted (substituteEach f cs) := by
  match cs with
  | [] => trivial
  | c :: rest =>
      exact ⟨substitute_counted c counted.1 leaves, substitute_each_counted rest counted.2 leaves⟩

end

mutual

theorem substitute_congr (c : Condition A) (same : ∀ a, .value a ∈ c.leaves → f a = g a) :
    c.substitute f = c.substitute g := by
  match c with
  | .path _ => rfl
  | .attribute _ => rfl
  | .size _ => rfl
  | .value a => exact same a (List.mem_singleton_self _)
  | .compare left operator right =>
      simp only [leaves, List.mem_append, or_imp, forall_and] at same
      rw [substitute, substitute, substitute_congr left same.1, substitute_congr right same.2]
  | .between subject low high =>
      simp only [leaves, List.mem_append, or_imp, forall_and] at same
      rw [substitute, substitute, substitute_congr subject same.1.1, substitute_congr low same.1.2,
        substitute_congr high same.2]
  | .isIn subject choices =>
      simp only [leaves, List.mem_append, or_imp, forall_and] at same
      rw [substitute, substitute, substitute_congr subject same.1,
        substitute_each_congr choices same.2]
  | .call function subject arguments =>
      simp only [leaves, List.mem_append, or_imp, forall_and] at same
      rw [substitute, substitute, substitute_congr subject same.1,
        substitute_each_congr arguments same.2]
  | .all conditions => rw [substitute, substitute, substitute_each_congr conditions same]
  | .any conditions => rw [substitute, substitute, substitute_each_congr conditions same]
  | .negation condition => rw [substitute, substitute, substitute_congr condition same]
  | .strict operator conditions => rw [substitute, substitute, substitute_each_congr conditions same]

theorem substitute_each_congr (cs : List (Condition A))
    (same : ∀ a, .value a ∈ leavesEach cs → f a = g a) : substituteEach f cs = substituteEach g cs := by
  match cs with
  | [] => rfl
  | c :: rest =>
      simp only [leavesEach, List.mem_append, or_imp, forall_and] at same
      rw [substituteEach, substituteEach, substitute_congr c same.1,
        substitute_each_congr rest same.2]

end

end Condition

variable {V : Type}

def Condition.Mentions (c : Condition (Leaf V)) (number : Nat) : Prop :=
  .value (.shared number) ∈ c.leaves

namespace Shared

def Holds (shared : Shared V) (n m : Nat) : Prop :=
  ∃ s, shared[n]? = some s ∧ s.condition.Mentions m

def IsAcyclic (shared : Shared V) (c : Condition (Leaf V)) : Prop :=
  ∀ n m, c.Mentions n → Relation.ReflTransGen shared.Holds n m →
    ¬ Relation.TransGen shared.Holds m m

def present (shared : Shared V) : Leaf V → Condition V
  | .plain v => .value v
  | .shared n =>
      match shared[n]? with
      | some s => shared.resolve s.condition
      | none => .any []

theorem acyclic_held (shared : Shared V) (c : Condition (Leaf V)) (acyclic : shared.IsAcyclic c)
    (n : Nat) (mentioned : c.Mentions n) (s : Strict (Leaf V)) (found : shared[n]? = some s) :
    shared.IsAcyclic s.condition :=
  fun _ m inside reached => acyclic n m mentioned (.head ⟨s, found, inside⟩ reached)

theorem acyclic_of_earlier (shared : Shared V) (earlier : ∀ n m, shared.Holds n m → m < n)
    (c : Condition (Leaf V)) : shared.IsAcyclic c := by
  have below (n m : Nat) (reached : Relation.TransGen shared.Holds n m) : m < n := by
    induction reached with
    | single holds => exact earlier n _ holds
    | tail _ holds ih => exact Nat.lt_trans (earlier _ _ holds) ih
  exact fun _ m _ _ cycle => Nat.lt_irrefl m (below m m cycle)

def Within (shared : Shared V) (c : Condition (Leaf V)) (met : Finset Nat) : Prop :=
  ∀ n m s, c.Mentions n → Relation.ReflTransGen shared.Holds n m → shared[m]? = some s → m ∈ met

theorem within_held (shared : Shared V) (c : Condition (Leaf V)) (acyclic : shared.IsAcyclic c)
    (met : Finset Nat) (within : shared.Within c met) (n : Nat) (mentioned : c.Mentions n)
    (s : Strict (Leaf V)) (found : shared[n]? = some s) :
    shared.Within s.condition (met.erase n) := by
  intro k m held inside reached there
  have holds : shared.Holds n k := ⟨s, found, inside⟩
  refine Finset.mem_erase.mpr ⟨?_, within n m held mentioned (.head holds reached) there⟩
  rintro rfl
  exact acyclic m m mentioned .refl (.head' holds reached)

-- One more step on the way to a leaf changes nothing if there are as many as connectives to meet.
theorem settle_stable (shared : Shared V) (depth : Nat) (c : Condition (Leaf V))
    (acyclic : shared.IsAcyclic c) (met : Finset Nat) (within : shared.Within c met)
    (enough : met.card ≤ depth) : shared.settle depth c = shared.settle (depth + 1) c := by
  induction depth generalizing c met with
  | zero =>
      have none : met = ∅ := Finset.card_eq_zero.mp (Nat.le_zero.mp enough)
      subst none
      refine Condition.substitute_congr _ _ c fun a mentioned => ?_
      cases a with
      | plain v => rfl
      | shared n =>
          cases found : shared[n]? with
          | none => simp [found]
          | some s => exact absurd (within n n s mentioned .refl found) (Finset.notMem_empty n)
  | succ depth ih =>
      refine Condition.substitute_congr _ _ c fun a mentioned => ?_
      cases a with
      | plain v => rfl
      | shared n =>
          cases found : shared[n]? with
          | none => simp [found]
          | some s =>
              have member := within n n s mentioned .refl found
              have fewer : (met.erase n).card ≤ depth := by
                rw [Finset.card_erase_of_mem member]
                omega
              simpa [found] using ih s.condition (acyclic_held shared c acyclic n mentioned s found)
                (met.erase n) (within_held shared c acyclic met within n mentioned s found) fewer

theorem resolve_unfold (shared : Shared V) (c : Condition (Leaf V)) (acyclic : shared.IsAcyclic c) :
    shared.resolve c = c.substitute shared.present := by
  have within : shared.Within c (Finset.range shared.length) := by
    intro n m s _ _ found
    obtain ⟨below, _⟩ := List.getElem?_eq_some_iff.mp found
    exact Finset.mem_range.mpr below
  rw [resolve, settle_stable shared shared.length c acyclic _ within (by simp)]
  refine Condition.substitute_congr _ _ c fun a _ => ?_
  cases a with
  | plain v => rfl
  | shared n => rfl

theorem settle_counted (shared : Shared V) (full : ∀ s ∈ shared, s.condition.IsCounted)
    (depth : Nat) (c : Condition (Leaf V)) (counted : c.IsCounted) :
    (shared.settle depth c).IsCounted := by
  induction depth generalizing c with
  | zero =>
      refine Condition.substitute_counted _ c counted fun a => ?_
      cases a <;> trivial
  | succ depth ih =>
      refine Condition.substitute_counted _ c counted fun a => ?_
      cases a with
      | plain v => trivial
      | shared n =>
          cases found : shared[n]? with
          | none => simp [found, Condition.IsCounted, Condition.AreCounted]
          | some s => simpa [found] using ih s.condition (full s (List.mem_of_getElem? found))

end Shared
end ItemExpr
