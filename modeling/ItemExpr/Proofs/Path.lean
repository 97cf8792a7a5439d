import ItemExpr.Table
import Mathlib.Data.List.TakeWhile

set_option autoImplicit false

namespace ItemExpr

theorem span_boundary {α : Type} (inside : α → Bool) (front rest : List α)
    (within : ∀ x ∈ front, inside x = true) (ended : ∀ x ∈ rest.head?, inside x = false) :
    (front ++ rest).takeWhile inside = front ∧ (front ++ rest).dropWhile inside = rest := by
  rw [List.takeWhile_append_of_pos within, List.dropWhile_append_of_pos within]
  cases rest with
  | nil => simp
  | cons x rest => simp [ended x rfl]

namespace Text

theorem glue_append (c : Char) (pieces others : List (List Char)) (present : pieces ≠ []) :
    glue c (pieces ++ others) = glue c pieces ++ others := by
  cases pieces with
  | nil => exact absurd rfl present
  | cons piece rest => rfl

theorem split_from_append (d : Char) (s rest : List Char) :
    splitFrom [d] 0 (s ++ d :: rest) = splitFrom [d] 0 s ++ splitFrom [d] 0 rest := by
  induction s with
  | nil => simp [splitFrom]
  | cons c s ih =>
      by_cases same : d = c
      · subst same
        simp [splitFrom, ih]
      · simp [splitFrom, same, ih, glue_append c _ _ (split_from_ne_nil [d] 0 s)]

theorem split_from_whole (d : Char) (piece : List Char) (absent : d ∉ piece) :
    splitFrom [d] 0 piece = [piece] := by
  induction piece with
  | nil => rfl
  | cons c piece ih =>
      obtain ⟨different, absentRest⟩ := not_or.mp (List.mem_cons.not.mp absent)
      simp [splitFrom, different, ih absentRest, glue]

theorem absent_glue (d c : Char) (pieces : List (List Char)) (different : d ≠ c)
    (absent : ∀ piece ∈ pieces, d ∉ piece) : ∀ piece ∈ glue c pieces, d ∉ piece := by
  cases pieces with
  | nil => simpa [glue] using different
  | cons first rest =>
      rw [List.forall_mem_cons] at absent
      rw [glue, List.forall_mem_cons]
      exact ⟨List.mem_cons.not.mpr (not_or.mpr ⟨different, absent.1⟩), absent.2⟩

theorem split_from_absent (d : Char) (s : List Char) :
    ∀ piece ∈ splitFrom [d] 0 s, d ∉ piece := by
  induction s with
  | nil => simp [splitFrom]
  | cons c rest ih =>
      by_cases same : d = c
      · subst same
        simpa [splitFrom] using ih
      · simpa [splitFrom, same] using absent_glue d c _ same ih

theorem split_from_lacks (d c : Char) (s : List Char) (absent : c ∉ s) :
    ∀ piece ∈ splitFrom [d] 0 s, c ∉ piece := by
  induction s with
  | nil => simp [splitFrom]
  | cons e rest ih =>
      obtain ⟨different, absentRest⟩ := not_or.mp (List.mem_cons.not.mp absent)
      by_cases same : d = e
      · subst same
        simpa [splitFrom] using ih absentRest
      · simpa [splitFrom, same] using absent_glue c e _ different (ih absentRest)

theorem split_append (d : Char) (s rest : String) :
    split (String.singleton d) (s ++ String.singleton d ++ rest) =
      split (String.singleton d) s ++ split (String.singleton d) rest := by
  simp [split, split_from_append]

theorem split_dot_append (s rest : String) :
    split "." (s ++ "." ++ rest) = split "." s ++ split "." rest :=
  split_append '.' s rest

theorem split_dot_whole (piece : String) (absent : '.' ∉ piece.toList) :
    split "." piece = [piece] := by
  simp [split, split_from_whole '.' piece.toList absent]

theorem split_dot_absent (s : String) : ∀ piece ∈ split "." s, '.' ∉ piece.toList := by
  simpa [split] using split_from_absent '.' s.toList

theorem split_dot_lacks (c : Char) (s : String) (absent : c ∉ s.toList) :
    ∀ piece ∈ split "." s, c ∉ piece.toList := by
  simpa [split] using split_from_lacks '.' c s.toList absent

theorem split_ne_nil (delimiter s : String) : split delimiter s ≠ [] := by
  simpa [split] using split_from_ne_nil delimiter.toList 0 s.toList

theorem intercalate_split_dot (s : String) : ".".intercalate (split "." s) = s := by
  apply String.toList_injective
  simpa [split, Function.comp_def] using intercalate_split_from '.' s.toList

theorem split_dot_intercalate (pieces : List String) (present : pieces ≠ [])
    (undotted : ∀ piece ∈ pieces, '.' ∉ piece.toList) :
    split "." (".".intercalate pieces) = pieces := by
  match pieces with
  | [] => exact absurd rfl present
  | [piece] => simpa using split_dot_whole piece (undotted piece (by simp))
  | piece :: next :: rest =>
      rw [List.forall_mem_cons] at undotted
      have others := split_dot_intercalate (next :: rest) (by simp) undotted.2
      rw [String.intercalate_cons_cons, split_dot_append, split_dot_whole piece undotted.1, others]
      rfl

end Text

def Segment.text (s : Segment) : String := s.name ++ s.indexes

-- The two ways to cut a segment. A segment without indexes may still end in `]` or hold a `[`,
-- but not both, and that is all there is to know of it.
def Unindexed (s : List Char) : Prop := s.getLast? ≠ some ']' ∨ '[' ∉ s

theorem of_string_unindexed (s : String) (unindexed : Unindexed s.toList) :
    Segment.ofString s = ⟨s, ""⟩ := by
  by_cases closed : s.toList.getLast? = some ']'
  · have absent : '[' ∉ s.toList := unindexed.resolve_left fun other => other closed
    have whole : ∀ c ∈ s.toList, (decide (c ≠ '[')) = true := by
      intro c present
      exact decide_eq_true fun same => absent (same ▸ present)
    rw [Segment.ofString, if_pos closed, List.takeWhile_eq_self_iff.mpr whole,
      List.dropWhile_eq_nil_iff.mpr whole]
    simp
  · rw [Segment.ofString, if_neg closed]

theorem of_string_indexed (head tail : List Char) (absent : '[' ∉ head)
    (closed : tail.getLast? = some ']') :
    Segment.ofString (String.ofList (head ++ '[' :: tail)) =
      ⟨String.ofList head, String.ofList ('[' :: tail)⟩ := by
  have whole : ∀ c ∈ head, (decide (c ≠ '[')) = true := by
    intro c present
    exact decide_eq_true fun same => absent (same ▸ present)
  have last : (head ++ '[' :: tail).getLast? = some ']' := by
    simp [List.getLast?_append, List.getLast?_cons, closed]
  rw [Segment.ofString, String.toList_ofList, if_pos last, List.takeWhile_append_of_pos whole,
    List.dropWhile_append_of_pos whole]
  simp

theorem segment_shape (s : String) :
    (Unindexed s.toList ∧ Segment.ofString s = ⟨s, ""⟩) ∨
      ∃ head tail, s = String.ofList (head ++ '[' :: tail) ∧ '[' ∉ head ∧
        tail.getLast? = some ']' ∧
        Segment.ofString s = ⟨String.ofList head, String.ofList ('[' :: tail)⟩ := by
  by_cases unindexed : Unindexed s.toList
  · exact .inl ⟨unindexed, of_string_unindexed s unindexed⟩
  · obtain ⟨closed, opened⟩ := not_or.mp unindexed
    obtain ⟨head, tail, shape, absent⟩ := List.eq_append_cons_of_mem (not_not.mp opened)
    have last : (head ++ '[' :: tail).getLast? = some ']' := shape ▸ not_not.mp closed
    have closedTail : tail.getLast? = some ']' := by
      cases tail with
      | nil => simp at last
      | cons c rest => simpa [List.getLast?_append, List.getLast?_cons_cons] using last
    have written : s = String.ofList (head ++ '[' :: tail) := by rw [← shape, String.ofList_toList]
    refine .inr ⟨head, tail, written, absent, closedTail, ?_⟩
    rw [written]
    exact of_string_indexed head tail absent closedTail

theorem of_string_text (s : String) : (Segment.ofString s).text = s := by
  obtain ⟨_, cut⟩ | ⟨head, tail, shape, _, _, cut⟩ := segment_shape s
  · simp [cut, Segment.text]
  · rw [cut, shape, Segment.text, String.ofList_append]

end ItemExpr
