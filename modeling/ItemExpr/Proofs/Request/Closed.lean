import ItemExpr.Proofs.Request.Fields
import ItemExpr.Proofs.Request.Linked

set_option autoImplicit false

namespace ItemExpr

variable {V X : Type}

namespace Request

structure IsOffered (r : Request V) : Prop where
  key : ∀ entries ∈ r.key, ∀ entry ∈ entries, IsIndexed entry.1 ∧ entry.2.IsOffered
  update : ∀ entries ∈ r.update, Action.EntriesOffered entries
  conditions : Condition.AreOffered r.conditions
  filters : Condition.AreOffered r.filters

def HasFewKeys (r : Request V) : Prop := ∀ entries ∈ r.key, entries.length ≤ maxKeyClauses

def IsFruitful (r : Request V) : Prop := ∀ entries ∈ r.update, Action.EntriesFruitful entries

end Request

structure Built (kept full : Prop) (t t' : Table V) (fields : List String) (params : Params V X)
    (fs : List Fragment) : Prop where
  texts : expressionTexts params = fs.map Fragment.text
  others : ∀ field, field ∉ fields → find? field params = none
  linked : Linked kept full t t' fs

theorem built_nil (kept full : Prop) (t : Table V) (coherent : Coherent t) :
    Built kept full t t [] ([] : Params V X) [] where
  texts := rfl
  others := fun _ _ => rfl
  linked := linked_nil kept full t coherent

theorem built_step (kept full : Prop) (t t' t'' : Table V) (fields : List String) (field : String)
    (params params' : Params V X) (fs gs : List Fragment)
    (built : Built kept full t t' fields params fs) (unset : field ∉ fields)
    (filled : Filled field params params' gs) (linked : Linked kept full t' t'' gs) :
    Built kept full t t'' (field :: fields) params' (fs ++ gs) where
  texts := by
    rw [filled_texts _ _ _ _ filled (built.others field unset), built.texts, List.map_append]
  others := by
    intro other outside
    rw [List.mem_cons, not_or] at outside
    have same := filled_other field other _ _ _ filled (Ne.symm outside.1)
    exact same.trans (built.others other outside.2)
  linked := linked_append _ _ _ _ _ _ _ built.linked linked

theorem conditions_filled (kept full : Prop) (field : String) (cs : List (Condition V))
    (offered : Condition.AreOffered cs) (w w' : Workspace V) (coherent : Coherent w.table)
    (defaults : w.table.options = {}) (params params' : Params V X)
    (ran : w.addConditions field cs params = (.ok params', w')) :
    ∃ fs, Filled field params params' fs ∧ Linked kept full w.table w'.table fs := by
  by_cases empty : cs.isEmpty = true
  · rw [Workspace.addConditions, if_pos empty] at ran
    obtain ⟨same, stays⟩ := Prod.mk.inj ran
    rw [← Except.ok.inj same, ← stays]
    exact ⟨[], .left, linked_nil kept full w.table coherent⟩
  · have clear := join_clear " AND " Condition.and_clear _ (Condition.conditions_clear cs offered)
    cases run : (Script.join " AND " (Condition.scripts cs)).run [] w.table with
    | mk result t =>
        cases result with
        | error e => simp [Workspace.addConditions, empty, Workspace.runScript, run, Except.map] at ran
        | ok f =>
            have written := run_written w.table t coherent defaults [] [] (known_nil w.table) _
              clear f run
            have ends : put field (.expression f.text) params = params' ∧
                { w with table := t } = w' := by
              simpa [Workspace.addConditions, empty, Workspace.runScript, run, Except.map] using ran
            rw [← ends.1, ← ends.2]
            exact ⟨[f], .set f, written_linked kept full _ _ f _ written⟩

theorem key_filled (full : Prop) (entries : List (String × KeyClause V))
    (offered : ∀ entry ∈ entries, IsIndexed entry.1 ∧ entry.2.IsOffered) (w : Workspace V)
    (coherent : Coherent w.table) (defaults : w.table.options = {}) (empty : w.key = [])
    (params : Params V X) :
    ∃ fs, Filled "KeyConditionExpression" params (w.addKeyParam entries params).1 fs ∧
      Linked (entries.length ≤ maxKeyClauses) full w.table (w.addKeyParam entries params).2.table
        fs ∧
      (w.addKeyParam entries params).2.update = w.update := by
  by_cases none : entries.isEmpty = true
  · rw [Workspace.addKeyParam, if_pos none]
    exact ⟨[], .left, linked_nil _ full w.table coherent, rfl⟩
  · have linked := (key_linked full entries (fun entry present => ⟨(offered entry present).1,
      key_offered_legible _ (offered entry present).2⟩) w coherent defaults empty).2
    rw [Workspace.addKeyParam, if_neg none]
    exact ⟨_, .set _, linked, keys_update entries w⟩

theorem update_filled (entries : List (String × Action V))
    (offered : Action.EntriesOffered entries) (w w' : Workspace V) (coherent : Coherent w.table)
    (defaults : w.table.options = {}) (empty : w.update = {}) (params params' : Params V X)
    (absent : find? "UpdateExpression" params = none)
    (ran : w.addUpdateParam entries params = (.ok params', w')) :
    ∃ fs, Filled "UpdateExpression" params params' fs ∧
      Linked True (Action.EntriesFruitful entries) w.table w'.table fs := by
  cases applied : Workspace.applyEntries [] entries w with
  | mk fault reached =>
      cases fault with
      | some e => simp [Workspace.addUpdateParam, Workspace.buildUpdate, applied] at ran
      | none =>
          have linked := update_linked entries offered w reached coherent defaults empty applied
          cases made : reached.updateExpression? with
          | none =>
              have ends : erase "UpdateExpression" params = params' ∧ reached = w' := by
                simpa [Workspace.addUpdateParam, Workspace.buildUpdate, applied, made] using ran
              rw [made] at linked
              rw [← ends.1, ← ends.2, erase_absent _ _ absent]
              exact ⟨[], .left, linked⟩
          | some f =>
              have ends : put "UpdateExpression" (.expression f.text) params = params' ∧
                  reached = w' := by
                simpa [Workspace.addUpdateParam, Workspace.buildUpdate, applied, made] using ran
              rw [made] at linked
              rw [← ends.1, ← ends.2]
              exact ⟨[f], .set f, linked⟩

namespace Request

section Steps

variable (r : Request V) (offered : r.IsOffered)

include offered

theorem key_step (w : Workspace V) (coherent : Coherent w.table)
    (defaults : w.table.options = {}) (noKey : w.key = []) (noUpdate : w.update = {}) :
    ∃ fs, Filled "KeyConditionExpression" [] (r.keyParams (X := X) w).1 fs ∧
      Linked r.HasFewKeys r.IsFruitful w.table (r.keyParams (X := X) w).2.table fs ∧
      (r.keyParams (X := X) w).2.update = {} := by
  cases key : r.key with
  | none =>
      rw [keyParams, key]
      exact ⟨[], .left, linked_nil _ _ w.table coherent, noUpdate⟩
  | some entries =>
      obtain ⟨fs, filled, linked, stays⟩ := key_filled r.IsFruitful entries
        (offered.key entries key) w coherent defaults noKey ([] : Params V X)
      rw [keyParams, key]
      refine ⟨fs, filled, ?_, stays.trans noUpdate⟩
      exact linked_weaken _ _ _ _ _ _ _ linked (fun few => few entries key) fun whole => whole

theorem update_step (w w' : Workspace V) (coherent : Coherent w.table)
    (defaults : w.table.options = {}) (noUpdate : w.update = {}) (params params' : Params V X)
    (absent : find? "UpdateExpression" params = none)
    (ran : r.updateParams params w = (.ok params', w')) :
    ∃ fs, Filled "UpdateExpression" params params' fs ∧
      Linked r.HasFewKeys r.IsFruitful w.table w'.table fs := by
  cases update : r.update with
  | none =>
      rw [updateParams, update] at ran
      obtain ⟨same, stays⟩ := Prod.mk.inj ran
      rw [← Except.ok.inj same, ← stays]
      exact ⟨[], .left, linked_nil _ _ w.table coherent⟩
  | some entries =>
      rw [updateParams, update] at ran
      obtain ⟨fs, filled, linked⟩ := update_filled entries (offered.update entries update) w w'
        coherent defaults noUpdate params params' absent ran
      refine ⟨fs, filled, ?_⟩
      exact linked_weaken _ _ _ _ _ _ _ linked (fun _ => trivial) fun whole => whole entries update

theorem expressions_built (w w' : Workspace V) (coherent : Coherent w.table)
    (defaults : w.table.options = {}) (noKey : w.key = []) (noUpdate : w.update = {})
    (params : Params V X) (ran : r.expressions w = (.ok params, w')) :
    ∃ fs, Built r.HasFewKeys r.IsFruitful w.table w'.table
      ["FilterExpression", "ConditionExpression", "UpdateExpression", "KeyConditionExpression"]
      params fs := by
  obtain ⟨keyed, filled₁, linked₁, noUpdate₁⟩ :=
    r.key_step (X := X) offered w coherent defaults noKey noUpdate
  have built₁ := built_step _ _ _ _ _ _ _ _ _ _ _ (built_nil _ _ w.table coherent) (by decide)
    filled₁ linked₁
  have defaults₁ := linked₁.grown.options.trans defaults
  obtain ⟨p₂, w₂, p₃, w₃, updated, conditioned, filtered⟩ := r.expressions_parts w w' params ran
  obtain ⟨changed, filled₂, linked₂⟩ := r.update_step offered _ w₂ linked₁.grown.coherent defaults₁
    noUpdate₁ _ p₂ (built₁.others _ (by decide)) updated
  have built₂ := built_step _ _ _ _ _ _ _ _ _ _ _ built₁ (by decide) filled₂ linked₂
  have defaults₂ := linked₂.grown.options.trans defaults₁
  obtain ⟨asked, filled₃, linked₃⟩ := conditions_filled r.HasFewKeys r.IsFruitful _ r.conditions
    offered.conditions w₂ w₃ linked₂.grown.coherent defaults₂ p₂ p₃ conditioned
  have built₃ := built_step _ _ _ _ _ _ _ _ _ _ _ built₂ (by decide) filled₃ linked₃
  obtain ⟨chosen, filled₄, linked₄⟩ := conditions_filled r.HasFewKeys r.IsFruitful _ r.filters
    offered.filters w₃ w' linked₃.grown.coherent (linked₃.grown.options.trans defaults₂) p₃ params
    filtered
  exact ⟨_, built_step _ _ _ _ _ _ _ _ _ _ _ built₃ (by decide) filled₄ linked₄⟩

end Steps

end Request

theorem reads_present (t : Table V) (f : Fragment) (symbols : List (Symbol V))
    (reads : Reads t f symbols) :
    (∀ label ∈ f.nameLabels, label ∈ t.names.map Prod.fst) ∧
      ∀ label ∈ f.valueLabels, label ∈ t.values.map Prod.fst := by
  induction reads with
  | nil => simp [Fragment.nameLabels, Fragment.valueLabels]
  | text s f symbols _ _ ih => exact ih
  | name k label name f symbols _ present _ _ ih =>
      refine ⟨?_, ih.2⟩
      exact List.forall_mem_cons.mpr ⟨List.mem_map_of_mem present, ih.1⟩
  | value k label v f symbols _ present _ _ ih =>
      refine ⟨ih.1, ?_⟩
      exact List.forall_mem_cons.mpr ⟨List.mem_map_of_mem present, ih.2⟩

theorem name_lexeme (label : String) (f : Fragment) :
    .name label ∈ f.flatMap Token.lexemes ↔ label ∈ f.nameLabels := by
  induction f with
  | nil => simp [Fragment.nameLabels]
  | cons token f ih =>
      rw [Fragment.nameLabels] at ih ⊢
      cases token <;> simp [Token.lexemes, Token.nameLabel?, ih]

theorem value_lexeme_count (label : String) (f : Fragment) :
    (f.flatMap Token.lexemes).count (.value label) = f.valueLabels.count label := by
  induction f with
  | nil => simp [Fragment.valueLabels]
  | cons token f ih =>
      rw [Fragment.valueLabels] at ih ⊢
      cases token with
      | text s =>
          have silent : (s.toList.map Lexeme.char).count (.value label) = 0 :=
            List.count_eq_zero.mpr (by simp)
          simp [Token.lexemes, Token.valueLabel?, List.filterMap_cons, silent, ih]
      | name other => simp [Token.lexemes, Token.valueLabel?, List.filterMap_cons, ih]
      | value other =>
          simp [Token.lexemes, Token.valueLabel?, List.count_cons, ih]

theorem value_keys_distinct (t : Table V) (coherent : Coherent t) :
    (t.values.map Prod.fst).Nodup := by
  rw [coherent.values]
  exact List.Nodup.map (value_label_injective t.options) List.nodup_range

section Texts

variable (kept full : Prop) (t : Table V) (fs : List Fragment)
  (linked : Linked kept full { options := {} } t fs)

include linked

theorem texts_lexemes :
    (fs.map Fragment.text).flatMap lexemes = fs.flatMap (List.flatMap Token.lexemes) := by
  rw [List.flatMap_map]
  apply List.flatMap_congr
  intro f present
  obtain ⟨symbols, reads⟩ := linked.reads f present
  exact reads_lexemes t f symbols reads

theorem texts_closed (s : String) (present : s ∈ fs.map Fragment.text) :
    (∀ label, .name label ∈ lexemes s → label ∈ t.names.map Prod.fst) ∧
      ∀ label, .value label ∈ lexemes s → label ∈ t.values.map Prod.fst := by
  obtain ⟨f, here, rfl⟩ := List.mem_map.mp present
  obtain ⟨symbols, reads⟩ := linked.reads f here
  obtain ⟨names, values⟩ := reads_present t f symbols reads
  rw [reads_lexemes t f symbols reads]
  refine ⟨fun label mentioned => names label ((name_lexeme label f).mp mentioned), ?_⟩
  intro label mentioned
  have counted : 0 < f.valueLabels.count label := by
    rw [← value_lexeme_count]
    exact List.count_pos_iff.mpr mentioned
  exact values label (List.count_pos_iff.mp counted)

theorem texts_linear (all : kept) (label : String) (present : label ∈ t.values.map Prod.fst) :
    ((fs.map Fragment.text).flatMap lexemes).count (.value label) = 1 := by
  have mentions : ((fs.map Fragment.text).flatMap lexemes).count (.value label) =
      (fs.flatMap Fragment.valueLabels).count label := by
    rw [texts_lexemes kept full t fs linked, List.count_flatMap, List.count_flatMap]
    congr 1
    apply List.map_congr_left
    intro f _
    exact value_lexeme_count label f
  have entries : (t.values.map Prod.fst).count label =
      (fs.flatMap Fragment.valueLabels).count label := by
    simpa using (linked.values all).count_eq label
  rw [mentions, ← entries]
  exact List.count_eq_one_of_mem (value_keys_distinct t linked.grown.coherent) present

theorem texts_cover (all : kept) (whole : full) (label : String)
    (present : label ∈ t.names.map Prod.fst) :
    ∃ s ∈ fs.map Fragment.text, .name label ∈ lexemes s := by
  rcases linked.names all whole label present with old | ⟨f, here, mentioned⟩
  · simp at old
  · obtain ⟨symbols, reads⟩ := linked.reads f here
    refine ⟨f.text, List.mem_map_of_mem here, ?_⟩
    rw [reads_lexemes t f symbols reads]
    exact (name_lexeme label f).mpr mentioned

end Texts

-- Every alias that the expressions of a request mention is sent. Unless a key clause is too many,
-- every value that is sent is mentioned once; and unless a part of the update comes to nothing,
-- every name that is sent is mentioned.
theorem request_closed_linear (text : Value → Option String) (serializes : Bool)
    (r : Request Value) (offered : r.IsOffered) (params : Params Value X)
    (made : (r.params text (if serializes then some (serializeAll id) else none)
      { table := { options := {} } }).1 = .ok params) :
    (∀ s ∈ expressionTexts params,
        (∀ label, .name label ∈ lexemes s → label ∈ nameKeys params) ∧
          ∀ label, .value label ∈ lexemes s → label ∈ valueKeys params) ∧
      (r.HasFewKeys → ∀ label ∈ valueKeys params,
        ((expressionTexts params).flatMap lexemes).count (.value label) = 1) ∧
      (r.HasFewKeys → r.IsFruitful → ∀ label ∈ nameKeys params,
        ∃ s ∈ expressionTexts params, .name label ∈ lexemes s) := by
  cases ran : r.expressions (X := X) ({ table := { options := {} } } : Workspace Value) with
  | mk result w =>
      cases result with
      | error e => simp [Request.params, ran] at made
      | ok compiled =>
          obtain ⟨fs, built⟩ := r.expressions_built offered _ w coherent_default rfl rfl rfl compiled
            ran
          have linked := built.linked
          have converted : convertValues (if serializes then some (serializeAll id) else none) w.table
              (w.table.addParams compiled) = .ok params := by
            cases done : convertValues (if serializes then some (serializeAll id) else none) w.table
                (w.table.addParams compiled) with
            | error e => simp [Request.params, ran, done] at made
            | ok sent => simpa [Request.params, ran, done] using made
          have keeps : ∀ f ∈ (if serializes then some (serializeAll id) else none : Option (Converter Value)),
              ∀ values wires, f values = .ok wires → wires.map Prod.fst = values.map Prod.fst := by
            intro f chosen values wires done
            cases serializes with
            | false => simp at chosen
            | true =>
                obtain rfl : serializeAll id = f := by simpa using chosen
                exact serialized_labels id values wires done
          obtain ⟨sameTexts, names, values⟩ := converted_sent w.table compiled
            (built.others _ (by decide)) (built.others _ (by decide)) _ params keeps converted
          rw [sameTexts, built.texts, names, values]
          exact ⟨texts_closed _ _ w.table fs linked, texts_linear _ _ w.table fs linked,
            texts_cover _ _ w.table fs linked⟩

def profileRequest : Request Value :=
  { key := some [("id", .compare "=" (.str "7")), ("age", .between "BETWEEN" (.int 1) (.int 9))]
    update := some [("count", .arithmetic none .plus (.literal (.int 1))),
      ("profile", .nested [("tags[0]", .remove)])]
    conditions := [.negation (.call "attribute_exists" (.path "id") [])]
    filters := [.compare (.path "age") ">=" (.value (.int 18))] }

def profileTexts : List String :=
  ["#n0 = :v0 AND #n1 BETWEEN :v1 AND :v2", "SET #n2 = #n2 + :v3 REMOVE #n3.#n4[0]",
    "(NOT attribute_exists(#n0))", "#n1 >= :v4"]

theorem profile_request_offered : profileRequest.IsOffered where
  key := by
    intro entries given entry present
    have names : IsIndexed "id" ∧ IsIndexed "age" := by decide +kernel
    rw [← Option.some.inj given, List.mem_cons, List.mem_singleton] at present
    rcases present with rfl | rfl
    · exact ⟨names.1, .equal, rfl⟩
    · exact ⟨names.2, trivial⟩
  update := by
    have paths : IsIndexed "count" ∧ IsIndexed "profile" ∧ IsIndexed "tags[0]" := by decide +kernel
    simp [profileRequest, Action.EntriesOffered, Action.IsOffered, paths, Operand.IsOfferedOrSelf,
      Sign.IsArithmetic, Operand.IsOffered]
  conditions := by
    have path : IsIndexed "id" := by decide +kernel
    simp [profileRequest, Condition.AreOffered, Condition.IsOffered, path, IsFunction]
  filters := by
    have path : IsIndexed "age" := by decide +kernel
    simp [profileRequest, Condition.AreOffered, Condition.IsOffered, path,
      show IsOperator ">=" from ⟨.greaterOrEqual, rfl⟩]

theorem profile_request_closed_linear :
    profileRequest.IsOffered ∧ profileRequest.HasFewKeys ∧ profileRequest.IsFruitful ∧
      ∃ params : Params Value Unit,
        (profileRequest.params (fun _ => none) (some (serializeAll id))
          { table := { options := {} } }).1 = .ok params ∧
        expressionTexts params = profileTexts ∧
        (∀ s ∈ expressionTexts params,
          (∀ label, .name label ∈ lexemes s → label ∈ nameKeys params) ∧
            ∀ label, .value label ∈ lexemes s → label ∈ valueKeys params) ∧
        (∀ label ∈ valueKeys params,
          ((expressionTexts params).flatMap lexemes).count (.value label) = 1) ∧
        ∀ label ∈ nameKeys params, ∃ s ∈ expressionTexts params, .name label ∈ lexemes s := by
  have few : profileRequest.HasFewKeys := by
    simp [Request.HasFewKeys, profileRequest, maxKeyClauses]
  have fruitful : profileRequest.IsFruitful := by
    simp [Request.IsFruitful, profileRequest, Action.EntriesFruitful, Action.IsFruitful,
      Action.countEach, Action.count, Action.clauses]
  have texts : madeTexts? (profileRequest.params (fun _ => none) (some (serializeAll id))
      { table := { options := {} } }).1 = some profileTexts := by
    decide +kernel
  refine ⟨profile_request_offered, few, fruitful, ?_⟩
  cases made : (profileRequest.params (X := Unit) (fun _ => none) (some (serializeAll id))
      { table := { options := {} } }).1 with
  | error e => simp [made, madeTexts?] at texts
  | ok params =>
      have same : expressionTexts params = profileTexts := by simpa [made, madeTexts?] using texts
      obtain ⟨closed, linear, covered⟩ := request_closed_linear (fun _ => none) true profileRequest
        profile_request_offered params made
      exact ⟨params, rfl, same, closed, linear few, covered few fruitful⟩

end ItemExpr
