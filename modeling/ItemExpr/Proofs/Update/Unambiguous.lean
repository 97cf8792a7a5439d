import ItemExpr.Proofs.Update.Splitting
import ItemExpr.Proofs.Workspace.Sharing

set_option autoImplicit false

namespace ItemExpr

open Text

variable {V V' : Type}

theorem Clauses.equal_expressions (cs ds : Clauses) (phrases : cs.ArePhrases)
    (others : ds.ArePhrases)
    (same : cs.expression?.map Fragment.text = ds.expression?.map Fragment.text) (group : Group) :
    (cs.get group).map Fragment.text = (ds.get group).map Fragment.text := by
  cases written : cs.expression? with
  | none =>
      have absent : ds.expression? = none := by simpa [written] using same.symm
      rw [(Workspace.expression_none_iff cs).mp written, (Workspace.expression_none_iff ds).mp absent]
  | some f =>
      rw [written, Option.map_some] at same
      obtain ⟨g, printed, text⟩ := Option.map_eq_some_iff.mp same.symm
      have rows : cs.rows group = ds.rows group := by
        rw [← expression_clauses cs phrases f written, ← expression_clauses ds others g printed, text]
      apply List.map_injective_iff.mpr fun s s' => words_injective s s'
      rw [List.map_map, List.map_map]
      exact rows

namespace Workspace

def phraseForm : Form V where
  IsTable := Table.Reached .standard
  IsPath := IsIndexed
  IsTarget := fun f => IsWord f.text.toList
  IsClause := fun f => IsPhrase f.text.toList
  enter := fun t call reached => .enter t call reached
  path := fun t p reached indexed => path_word t reached p indexed
  inside := by
    intro under path outer inner
    have dotted := word_suffix _ ['.'] outer (by decide)
    simpa [within, Fragment.text_append, Fragment.text_cons, Token.spelling] using
      word_append _ _ dotted inner
  clause := fun a target t t' f indexed isWord reached made present ran =>
    clause_prints a target indexed isWord made present t t' f reached ran

def Step.HasIndexedPaths : Step V → Prop
  | .update under entries =>
      (∀ path ∈ under, IsIndexed path) ∧ ∀ path ∈ Action.pathsEach entries, IsIndexed path
  | _ => True

structure Phrased (w : Workspace V) : Prop where
  reached : w.table.Reached .standard
  phrases : w.update.ArePhrases

theorem empty_phrases : Clauses.ArePhrases {} := by
  intro group f present
  cases group <;> cases present

theorem appends_phrased (w w' : Workspace V) (phrased : Phrased w) (reached : w'.table.Reached .standard)
    (appends : Appends (fun f => IsPhrase f.text.toList) w w') : Phrased w' where
  reached := reached
  phrases := by
    intro group f present
    obtain ⟨added, shape, clauses⟩ := appends group
    rw [shape] at present
    exact (List.mem_append.mp present).elim (phrased.phrases group f) (clauses f)

theorem entries_phrased (w : Workspace V) (phrased : Phrased w) (under : Fragment)
    (outer : under = [] ∨ IsWord under.text.toList) (entries : List (String × Action V))
    (indexed : ∀ path ∈ Action.pathsEach entries, IsIndexed path) :
    Phrased (applyEntries under entries w).2 :=
  appends_phrased w _ phrased
    (enters_reached {} w.table _ phrased.reached (entries_enter entries under w))
    (entries_append phraseForm entries indexed under outer w phrased.reached)

theorem step_phrased (w : Workspace V) (phrased : Phrased w) (s : Step V)
    (indexed : s.HasIndexedPaths) : Phrased (w.step s) := by
  obtain ⟨reached, phrases⟩ := phrased
  cases s with
  | enter call => exact ⟨.enter w.table call reached, phrases⟩
  | key entries =>
      refine ⟨enters_reached {} w.table _ reached (keys_enter entries w), ?_⟩
      rw [step, buildKey, keys_update]
      exact phrases
  | update under entries =>
      cases under with
      | none => exact entries_phrased w ⟨reached, phrases⟩ [] (.inl rfl) entries indexed.2
      | some path =>
          have entered : Phrased (w.addPath path).2 := ⟨.enter w.table (.path path) reached, phrases⟩
          have target := path_word w.table reached path (indexed.1 path rfl)
          exact entries_phrased _ entered _ (.inr target) entries indexed.2
  | reset builder =>
      cases builder with
      | key => exact ⟨.reset w.table reached, phrases⟩
      | update => exact ⟨.reset w.table reached, empty_phrases⟩

theorem run_phrased (w : Workspace V) (phrased : Phrased w) (steps : List (Step V))
    (indexed : ∀ s ∈ steps, s.HasIndexedPaths) : Phrased (w.run steps) := by
  induction steps generalizing w with
  | nil => exact phrased
  | cons s rest ih =>
      rw [List.forall_mem_cons] at indexed
      exact ih (w.step s) (step_phrased w phrased s indexed.1) indexed.2

theorem fresh_phrased : Phrased (fresh : Workspace V) where
  reached := .fresh
  phrases := empty_phrases

theorem update_text_determines_clauses (first : List (Step V)) (second : List (Step V'))
    (indexed : ∀ s ∈ first, s.HasIndexedPaths) (indexed' : ∀ s ∈ second, s.HasIndexedPaths) :
    ((fresh.run first).updateExpression?.map Fragment.text =
        (fresh.run second).updateExpression?.map Fragment.text →
      ∀ group, ((fresh.run first).update.get group).map Fragment.text =
        ((fresh.run second).update.get group).map Fragment.text) ∧
      ((fresh.run first).updateExpression? = none ↔
        ∀ group, (fresh.run first).update.get group = []) :=
  ⟨Clauses.equal_expressions _ _ (run_phrased _ fresh_phrased first indexed).phrases
    (run_phrased _ fresh_phrased second indexed').phrases, expression_none_iff _⟩

theorem shelf_text_determines_clauses :
    let first : List (Step Nat) :=
      [.update none
        [("shelf", .nested [("log", .listAppend none (some (.pathOr "old.log[0]" 1))),
          ("sold", .removeIndexes [0, 12]), ("count", .arithmetic none .plus (.literal 2))]),
        ("owners", .addElements (.literal 3)), ("guests", .deleteElements (.path "owners"))]]
    let second : List (Step String) :=
      [.key [("id", .equals "u1")], .reset .update,
        .update none [("reader", .nested
          [("seen", .listAppend none (some (.pathOr "past.seen[0]" "a"))),
          ("marks", .removeIndexes [0, 12])])],
        .update (some "reader") [("pages", .arithmetic none .plus (.literal "b"))],
        .update none
          [("tags", .addElements (.literal "c")), ("muted", .deleteElements (.path "tags"))]]
    let text := "SET #n0.#n1 = list_append(#n0.#n1, if_not_exists(#n2.#n1[0], :v0)), " ++
      "#n0.#n4 = #n0.#n4 + :v1 REMOVE #n0.#n3[0], #n0.#n3[12] ADD #n5 :v2 DELETE #n6 #n5"
    (∀ s ∈ first, s.HasIndexedPaths) ∧ (∀ s ∈ second, s.HasIndexedPaths) ∧
      (fresh.run first).updateExpression?.map Fragment.text = some text ∧
      (fresh.run second).updateExpression?.map Fragment.text = some text ∧
      (∀ group, ((fresh.run first).update.get group).map Fragment.text =
        ((fresh.run second).update.get group).map Fragment.text) ∧
      (fresh.run first).updateExpression? ≠ none := by
  intro first second text
  have indexed : ∀ s ∈ first, s.HasIndexedPaths := by
    simp only [first, List.forall_mem_singleton]
    exact ⟨by simp, by decide +kernel⟩
  have indexed' : ∀ s ∈ second, s.HasIndexedPaths := by
    simp only [second, List.forall_mem_cons]
    refine ⟨trivial, trivial, ⟨by simp, by decide +kernel⟩, ⟨?_, by decide +kernel⟩,
      ⟨by simp, by decide +kernel⟩, by simp⟩
    rintro _ ⟨⟩
    decide +kernel
  have here : (fresh.run first).updateExpression?.map Fragment.text = some text := by
    decide +kernel
  have there : (fresh.run second).updateExpression?.map Fragment.text = some text := by
    decide +kernel
  obtain ⟨determined, absent⟩ := update_text_determines_clauses first second indexed indexed'
  refine ⟨indexed, indexed', here, there, determined (here.trans there.symm), fun none => ?_⟩
  have empty : (fresh.run first).update.get .add = [] := absent.mp none .add
  exact absurd empty (by decide +kernel)

end Workspace
end ItemExpr
