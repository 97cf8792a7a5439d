import ItemExpr.Proofs.Condition.Reading

set_option autoImplicit false

namespace ItemExpr

variable {V : Type}

-- Every part but a text is the last, or has a text behind it that prolongs no alias.
inductive Paced : List (Item V) → Prop
  | nil : Paced []
  | text (s : String) (rest : List (Item V)) : Mute s → Paced rest → Paced (.text s :: rest)
  | last (item : Item V) : item.Clear → Paced [item]
  | next (item : Item V) (s : String) (rest : List (Item V)) : item.Clear → s ≠ "" → Mute s →
      Separate s → Paced rest → Paced (item :: .text s :: rest)

theorem paced_read (t : Table V) (coherent : Coherent t) (defaults : t.options = {})
    (items : List (Item V)) (paced : Paced items) :
    Extends t (t.write [] items).2 ∧
      Reads (t.write [] items).2 (t.write [] items).1 (itemSymbols [] items) ∧
      (t.write [] items).2.values.map Prod.fst =
        t.values.map Prod.fst ++ (t.write [] items).1.valueLabels := by
  induction paced generalizing t with
  | nil => exact ⟨extends_refl t coherent, .nil, (List.append_nil _).symm⟩
  | text s rest mute _ ih =>
      obtain ⟨grown, reads, values⟩ := ih t coherent defaults
      exact ⟨grown, .text s _ _ mute reads, values⟩
  | last item clear =>
      have written := written_item t coherent defaults [] [] (known_nil t) item clear
      simpa [Table.write, itemSymbols] using
        And.intro written.grown (And.intro written.reads written.values)
  | next item s rest clear present mute separate _ ih =>
      have written := written_item t coherent defaults [] [] (known_nil t) item clear
      obtain ⟨grown, reads, values⟩ := ih (t.writeItem [] item).2 written.grown.coherent
        (written.grown.options.trans defaults)
      have apart : Separate
          (Fragment.text (.text s :: ((t.writeItem [] item).2.write [] rest).1)) := by
        rw [Fragment.text_cons]
        exact separate_front s _ present separate
      refine ⟨extends_trans _ _ _ written.grown grown, ?_, ?_⟩
      · exact reads_append _ _ _ _ _ (reads_extends _ _ grown _ _ written.reads)
          (.text s _ _ mute reads) apart
      · have labels : (t.write [] (item :: .text s :: rest)).1.valueLabels =
            (t.writeItem [] item).1.valueLabels ++
              ((t.writeItem [] item).2.write [] rest).1.valueLabels := List.filterMap_append
        rw [labels, ← List.append_assoc, ← written.values]
        exact values

section Pacing

variable (s : String) (present : s ≠ "") (mute : Mute s) (separate : Separate s)

include present mute separate

theorem paced_between (front back : List (Item V)) (first : Paced front) (second : Paced back) :
    Paced (front ++ .text s :: back) := by
  induction first with
  | nil => exact .text s back mute second
  | text s' rest mute' _ ih => exact .text s' _ mute' ih
  | last item clear => exact .next item s back clear present mute separate second
  | next item s' rest clear present' mute' separate' _ ih =>
      exact .next item s' _ clear present' mute' separate' ih

theorem paced_then (a b : Script V) (first : Paced a.items) (second : Paced b.items) :
    Paced (a ++ .text s ++ b).items := by
  cases fault : a.fault with
  | some e => rwa [Script.append_assoc, Script.append_of_fault a _ e fault]
  | none =>
      rw [Script.append_assoc, Script.append_of_sound a _ fault]
      exact paced_between s present mute separate a.items b.items first second

theorem paced_join (scripts : List (Script V)) (each : ∀ script ∈ scripts, Paced script.items) :
    Paced (Script.join s scripts).items := by
  match scripts with
  | [] => exact .nil
  | [script] => exact each script (by simp)
  | script :: next :: rest =>
      rw [List.forall_mem_cons] at each
      exact paced_then s present mute separate _ _ each.1 (paced_join (next :: rest) each.2)

end Pacing

theorem paced_closed (script : Script V) (inner : Paced script.items) :
    Paced (script ++ Script.text ")").items := by
  cases fault : script.fault with
  | some e => rwa [Script.append_of_fault _ _ e fault]
  | none =>
      rw [Script.append_of_sound _ _ fault]
      exact paced_between ")" (by decide) (quiet_mute _ close_clear.1) close_clear.2 _ [] inner .nil

theorem paced_enclosed (front : String) (mute : Mute front) (script : Script V)
    (inner : Paced script.items) :
    Paced (Script.text front ++ script ++ Script.text ")").items :=
  paced_closed _ (.text front _ mute inner)

theorem paced_comma (scripts : List (Script V)) (each : ∀ script ∈ scripts, Paced script.items) :
    Paced (Script.join ", " scripts).items :=
  paced_join ", " (by decide) (quiet_mute _ comma_clear.1) comma_clear.2 scripts each

namespace Condition

mutual

def IsLegible : Condition V → Prop
  | .path p => IsIndexed p
  | .attribute p => IsIndexed p
  | .size p => IsIndexed p
  | .value _ => True
  | .compare left operator right =>
      left.IsLegible ∧ AliasFree operator.spelling ∧ right.IsLegible
  | .between subject low high => subject.IsLegible ∧ low.IsLegible ∧ high.IsLegible
  | .isIn subject choices => subject.IsLegible ∧ AreLegible choices
  | .call function subject arguments =>
      AliasFree function.spelling ∧ subject.IsLegible ∧ AreLegible arguments
  | .all conditions => AreLegible conditions
  | .any conditions => AreLegible conditions
  | .negation condition => condition.IsLegible
  | .strict _ conditions => AreLegible conditions

def AreLegible : List (Condition V) → Prop
  | [] => True
  | c :: rest => c.IsLegible ∧ AreLegible rest

end

theorem junction_paced (separator : String) (junction : separator = " AND " ∨ separator = " OR ")
    (scripts : List (Script V)) (each : ∀ script ∈ scripts, Paced script.items) :
    Paced (Script.join separator scripts).items := by
  rcases junction with rfl | rfl
  · exact paced_join " AND " (by decide) (quiet_mute _ and_clear.1) and_clear.2 scripts each
  · exact paced_join " OR " (by decide) (quiet_mute _ or_clear.1) or_clear.2 scripts each

theorem call_mute (function : String) (free : AliasFree function) : Mute s!"{function}(" := by
  simpa [toString] using stopped_mute function '(' (.inr rfl) free

theorem word_present (word : String) : s!" {word} " ≠ "" := by
  intro empty
  simpa [toString] using congrArg String.toList empty

mutual

theorem condition_paced (c : Condition V) (legible : c.IsLegible) : Paced c.script.items := by
  match c with
  | .path p => exact .last _ legible
  | .attribute p => exact .last _ legible
  | .size p => exact paced_enclosed "size(" (quiet_mute _ size_clear.1) _ (.last _ legible)
  | .value v => exact .last _ trivial
  | .compare left operator right =>
      obtain ⟨mute, separate⟩ := word_mute operator.spelling legible.2.1
      exact paced_then _ (word_present operator.spelling) mute separate _ _
        (condition_paced left legible.1) (condition_paced right legible.2.2)
  | .between subject low high =>
      have front := paced_then " BETWEEN " (by decide) (quiet_mute _ between_clear.1)
        between_clear.2 _ _ (condition_paced subject legible.1) (condition_paced low legible.2.1)
      exact paced_then " AND " (by decide) (quiet_mute _ and_clear.1) and_clear.2 _ _ front
        (condition_paced high legible.2.2)
  | .isIn subject choices =>
      have listed := paced_comma _ (conditions_paced choices legible.2)
      exact paced_closed _ (paced_then " IN (" (by decide) (quiet_mute _ in_clear.1) in_clear.2 _ _
        (condition_paced subject legible.1) listed)
  | .call function subject arguments =>
      have each : ∀ script ∈ subject.script :: scripts arguments, Paced script.items :=
        List.forall_mem_cons.mpr
          ⟨condition_paced subject legible.2.1, conditions_paced arguments legible.2.2⟩
      exact paced_enclosed _ (call_mute function.spelling legible.1) _ (paced_comma _ each)
  | .all conditions =>
      exact paced_enclosed "(" (quiet_mute _ open_clear.1) _
        (junction_paced " AND " (.inl rfl) _ (conditions_paced conditions legible))
  | .any conditions =>
      exact paced_enclosed "(" (quiet_mute _ open_clear.1) _
        (junction_paced " OR " (.inr rfl) _ (conditions_paced conditions legible))
  | .negation condition =>
      exact paced_enclosed "(NOT " (quiet_mute _ not_clear.1) _ (condition_paced condition legible)
  | .strict operator conditions =>
      have each := conditions_paced conditions legible
      rw [script]
      cases usageError? operator conditions.length with
      | some e => exact .nil
      | none =>
          by_cases negated : operator.passesFor "NOT" = true
          · simp only [negated, if_true]
            exact paced_enclosed "(NOT " (quiet_mute _ not_clear.1) _
              (junction_paced " AND " (.inl rfl) _ each)
          · simp only [negated]
            have junction : (if operator.passesFor "AND" then " AND " else " OR ") = " AND " ∨
                (if operator.passesFor "AND" then " AND " else " OR ") = " OR " := by
              cases operator.passesFor "AND" <;> simp
            exact paced_enclosed "(" (quiet_mute _ open_clear.1) _
              (junction_paced _ junction _ each)

theorem conditions_paced (cs : List (Condition V)) (legible : AreLegible cs) :
    ∀ script ∈ scripts cs, Paced script.items := by
  match cs with
  | [] => simp [scripts]
  | c :: rest =>
      rw [scripts, List.forall_mem_cons]
      exact ⟨condition_paced c legible.1, conditions_paced rest legible.2⟩

end

end Condition
end ItemExpr
