import ItemExpr.Proofs.Path
import ItemExpr.Proofs.Table.Coherent

set_option autoImplicit false

namespace ItemExpr

inductive Spelled {V : Type} (t : Table V) : List Segment → Fragment → Prop
  | last (token : Token) (s : Segment) : Means t token s.name →
      Spelled t [s] [token, .text s.indexes]
  | cons (token : Token) (s : Segment) (rest : List Segment) (f : Fragment) :
      Means t token s.name → Spelled t rest f →
      Spelled t (s :: rest) (token :: .text s.indexes :: .text "." :: f)

inductive Call (V : Type)
  | path (p : String)
  | value (v : V)

variable {V : Type}

namespace Table

def enter (t : Table V) : Call V → Table V
  | .path p => (t.addPath p).2
  | .value v => (t.addValue v).2

def enterAll (t : Table V) (calls : List (Call V)) : Table V := calls.foldl enter t

end Table

theorem add_name_frame (t : Table V) (name : String) :
    (t.addName name).2.options = t.options ∧ (t.addName name).2.values = t.values ∧
      (t.addName name).2.nextValue = t.nextValue := by
  have adds := add_name_adds t name
  generalize t.addName name = added at adds ⊢
  cases adds <;> exact ⟨rfl, rfl, rfl⟩

theorem add_segments_frame (t : Table V) (segments : List Segment) :
    (t.addSegments segments).2.options = t.options ∧
      (t.addSegments segments).2.values = t.values ∧
        (t.addSegments segments).2.nextValue = t.nextValue := by
  match segments with
  | [] => exact ⟨rfl, rfl, rfl⟩
  | [s] => exact add_name_frame t s.name
  | s :: next :: rest =>
      obtain ⟨options, values, nextValue⟩ := add_name_frame t s.name
      obtain ⟨optionsRest, valuesRest, nextRest⟩ :=
        add_segments_frame (t.addName s.name).2 (next :: rest)
      exact ⟨optionsRest.trans options, valuesRest.trans values, nextRest.trans nextValue⟩

theorem spelled_extends (t t' : Table V) (segments : List Segment) (f : Fragment)
    (later : Extends t t') (spelled : Spelled t segments f) : Spelled t' segments f := by
  induction spelled with
  | last token s means => exact .last token s (means_extends t t' token s.name later means)
  | cons token s rest f means _ ih =>
      exact .cons token s rest f (means_extends t t' token s.name later means) ih

theorem segments_ne_nil (o : Options) (p : String) : o.segments p ≠ [] := by
  by_cases splits : o.splitPaths = true
  · simpa [Options.segments, splits] using Text.split_ne_nil o.delimiter p
  · simp [Options.segments, splits]

theorem add_segments_spelled (t : Table V) (coherent : Coherent t) (segments : List Segment)
    (present : segments ≠ []) :
    Extends t (t.addSegments segments).2 ∧
      Spelled (t.addSegments segments).2 segments (t.addSegments segments).1 := by
  match segments with
  | [] => exact absurd rfl present
  | [s] =>
      have entered := add_name_extends t coherent s.name
      exact ⟨entered.1, .last _ s entered.2⟩
  | s :: next :: rest =>
      have entered := add_name_extends t coherent s.name
      have others := add_segments_spelled (t.addName s.name).2 entered.1.coherent (next :: rest)
        (List.cons_ne_nil _ _)
      exact ⟨extends_trans _ _ _ entered.1 others.1,
        .cons _ s _ _ (means_extends _ _ _ _ others.1 entered.2) others.2⟩

theorem add_path_spelled (t : Table V) (coherent : Coherent t) (p : String) :
    Extends t (t.addPath p).2 ∧
      Spelled (t.addPath p).2 (t.options.segments p) (t.addPath p).1 :=
  add_segments_spelled t coherent (t.options.segments p) (segments_ne_nil t.options p)

theorem enter_extends (t : Table V) (coherent : Coherent t) (call : Call V) :
    Extends t (t.enter call) := by
  cases call with
  | path p => exact (add_path_spelled t coherent p).1
  | value v => exact add_value_extends t coherent v

theorem enter_all_extends (t : Table V) (coherent : Coherent t) (calls : List (Call V)) :
    Extends t (t.enterAll calls) := by
  induction calls generalizing t with
  | nil => exact extends_refl t coherent
  | cons call rest ih =>
      have first := enter_extends t coherent call
      exact extends_trans _ _ _ first (ih (t.enter call) first.coherent)

inductive Table.Reached (o : Options) : Table V → Prop
  | fresh : Reached o { options := o }
  | enter (t : Table V) (call : Call V) : Reached o t → Reached o (t.enter call)
  | reset (t : Table V) : Reached o t → Reached o t.reset

theorem reached_coherent (o : Options) (apart : o.Apart) (t : Table V) (reached : t.Reached o) :
    Coherent t ∧ t.options = o := by
  induction reached with
  | fresh => exact ⟨coherent_fresh o apart, rfl⟩
  | enter t call _ ih =>
      have entered := enter_extends t ih.1 call
      exact ⟨entered.coherent, entered.options.trans ih.2⟩
  | reset t _ ih =>
      rw [Table.reset, ih.2]
      exact ⟨coherent_fresh o apart, rfl⟩

end ItemExpr
