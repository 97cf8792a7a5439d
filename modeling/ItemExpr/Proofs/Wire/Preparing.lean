import ItemExpr.Wire.Prepare
import Mathlib.Tactic.SplitIfs

set_option autoImplicit false

namespace ItemExpr

section Failing

variable {A B E : Type}

def failure? : Except E A → Option E
  | .ok _ => none
  | .error e => some e

theorem failure_map (r : Except E A) (f : A → B) : failure? (r.map f) = failure? r := by
  cases r <;> rfl

theorem failure_none_iff (r : Except E A) : failure? r = none ↔ ∃ a, r = .ok a := by
  cases r <;> simp [failure?]

theorem failure_some_iff (r : Except E A) (e : E) : failure? r = some e ↔ r = .error e := by
  cases r <;> simp [failure?]

end Failing

namespace Value

-- What keeps an element out of a set once it is prepared: a tuple is a list by then, a frozen set
-- a set, and a member its value.
def unhashablePrepared? : Value → Option Unhashable
  | .tuple _ => some (.type "list")
  | .frozenSet _ => some (.type "set")
  | .member _ _ v => v.unhashable?
  | v => v.unhashable?

mutual

def KeepsSets : Value → Prop
  | .set vs => KeepsSetsEach vs ∧ ∀ v ∈ vs, v.unhashablePrepared? = none
  | .frozenSet vs => KeepsSetsEach vs ∧ ∀ v ∈ vs, v.unhashablePrepared? = none
  | .list vs => KeepsSetsEach vs
  | .tuple vs => KeepsSetsEach vs
  | .map entries => KeepsSetsEntries entries
  | _ => True

def KeepsSetsEach : List Value → Prop
  | [] => True
  | v :: rest => v.KeepsSets ∧ KeepsSetsEach rest

def KeepsSetsEntries : List (Value × Value) → Prop
  | [] => True
  | (_, v) :: rest => v.KeepsSets ∧ KeepsSetsEntries rest

end

theorem written_hashable (x : Binary64) : (Value.decimal x.written).unhashable? = none := by
  rw [Binary64.written]
  cases x.magnitude with
  | nan => rfl
  | infinite => rfl
  | finite m e =>
      dsimp only
      split_ifs <;> rfl

theorem prepare_unhashable (v p : Value) (prepared : v.prepare = .ok p) :
    p.unhashable? = v.unhashablePrepared? := by
  have mapped (r : Except Unhashable (List Value)) (f : List Value → Value)
      (done : r.map f = .ok p) : ∃ ps, p = f ps := by
    cases r with
    | error e => cases done
    | ok ps => exact ⟨ps, (Except.ok.inj done).symm⟩
  cases v with
  | float x =>
      rw [prepare, Except.ok.injEq] at prepared
      rw [← prepared, written_hashable]
      rfl
  | list vs | tuple vs =>
      obtain ⟨ps, rfl⟩ := mapped _ _ prepared
      rfl
  | map entries =>
      rw [prepare] at prepared
      cases made : prepareEntries entries with
      | error e => simp [made, Except.map] at prepared
      | ok ps =>
          rw [made, Except.map, Except.ok.injEq] at prepared
          rw [← prepared]
          rfl
  | set vs | frozenSet vs =>
      rw [prepare] at prepared
      cases made : prepareEach vs with
      | error e => simp [made] at prepared
      | ok ps =>
          rw [made] at prepared
          obtain ⟨ps, rfl⟩ := mapped _ _ prepared
          rfl
  | _ =>
      simp only [prepare, Except.ok.injEq] at prepared
      rw [← prepared]
      rfl

theorem prepare_each_unhashable (vs ps : List Value) (prepared : prepareEach vs = .ok ps) :
    (∀ p ∈ ps, p.unhashable? = none) ↔ ∀ v ∈ vs, v.unhashablePrepared? = none := by
  induction vs generalizing ps with
  | nil =>
      rw [prepareEach, Except.ok.injEq] at prepared
      simp [← prepared]
  | cons v rest ih =>
      rw [prepareEach] at prepared
      cases made : v.prepare with
      | error e => simp [made] at prepared
      | ok p =>
          cases others : prepareEach rest with
          | error e => simp [made, others, Except.map] at prepared
          | ok ps' =>
              have whole : p :: ps' = ps := by simpa [made, others, Except.map] using prepared
              rw [← whole, List.forall_mem_cons, List.forall_mem_cons, ih ps' others,
                prepare_unhashable v p made]

theorem add_elements_fine_iff (known vs : List Value) :
    failure? (addElements known vs) = none ↔ ∀ v ∈ vs, v.unhashable? = none := by
  induction vs generalizing known with
  | nil => simp [addElements, failure?]
  | cons v rest ih =>
      rw [addElements, List.forall_mem_cons]
      cases hashable : v.unhashable? with
      | some e => simp [failure?]
      | none => simpa using ih _

mutual

theorem prepare_fine_iff (v : Value) : failure? v.prepare = none ↔ v.KeepsSets := by
  have elements_iff (vs : List Value) (each : failure? (prepareEach vs) = none ↔ KeepsSetsEach vs) :
      failure? (match prepareEach vs with
        | .error e => .error e
        | .ok vs => (elements vs).map Value.set) = none ↔
        KeepsSetsEach vs ∧ ∀ v ∈ vs, v.unhashablePrepared? = none := by
    rw [← each]
    cases made : prepareEach vs with
    | error e => simp [failure?]
    | ok ps =>
        rw [← prepare_each_unhashable vs ps made]
        simp only [failure_map, elements, add_elements_fine_iff]
        simp [failure?]
  match v with
  | .set vs =>
      rw [prepare, KeepsSets]
      exact elements_iff vs (prepare_each_fine_iff vs)
  | .frozenSet vs =>
      rw [prepare, KeepsSets]
      exact elements_iff vs (prepare_each_fine_iff vs)
  | .list vs =>
      rw [prepare, failure_map, KeepsSets, prepare_each_fine_iff]
  | .tuple vs =>
      rw [prepare, failure_map, KeepsSets, prepare_each_fine_iff]
  | .map entries =>
      rw [prepare, failure_map, KeepsSets, prepare_entries_fine_iff]
  | .null | .bool _ | .int _ | .float _ | .decimal _ | .str _ | .bytes _ | .byteArray _
  | .dateTime _ | .date _ | .uuid _ | .member _ _ _ | .undefined | .model _ _ | .object _ _
  | .unprintable _ => simp [prepare, KeepsSets, failure?]

theorem prepare_each_fine_iff (vs : List Value) :
    failure? (prepareEach vs) = none ↔ KeepsSetsEach vs := by
  match vs with
  | [] => simp [prepareEach, KeepsSetsEach, failure?]
  | v :: rest =>
      rw [prepareEach, KeepsSetsEach, ← prepare_fine_iff v, ← prepare_each_fine_iff rest]
      cases v.prepare with
      | error e => simp [failure?]
      | ok p =>
          simp only [failure_map]
          simp [failure?]

theorem prepare_entries_fine_iff (entries : List (Value × Value)) :
    failure? (prepareEntries entries) = none ↔ KeepsSetsEntries entries := by
  match entries with
  | [] => simp [prepareEntries, KeepsSetsEntries, failure?]
  | (k, v) :: rest =>
      rw [prepareEntries, KeepsSetsEntries, ← prepare_fine_iff v, ← prepare_entries_fine_iff rest]
      cases v.prepare with
      | error e => simp [failure?]
      | ok p =>
          simp only [failure_map]
          simp [failure?]

end

end Value

end ItemExpr
