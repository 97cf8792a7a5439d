set_option autoImplicit false

namespace ItemExpr.Text

def glue (c : Char) : List (List Char) → List (List Char)
  | [] => [[c]]
  | piece :: rest => (c :: piece) :: rest

def splitFrom (delimiter : List Char) : Nat → List Char → List (List Char)
  | _, [] => [[]]
  | skip + 1, _ :: rest => splitFrom delimiter skip rest
  | 0, c :: rest =>
      if delimiter.isPrefixOf (c :: rest) then
        [] :: splitFrom delimiter (delimiter.length - 1) rest
      else glue c (splitFrom delimiter 0 rest)

def split (delimiter s : String) : List String :=
  (splitFrom delimiter.toList 0 s.toList).map String.ofList

theorem glue_ne_nil (c : Char) (pieces : List (List Char)) : glue c pieces ≠ [] := by
  cases pieces <;> simp [glue]

theorem split_from_ne_nil (delimiter : List Char) (skip : Nat) (s : List Char) :
    splitFrom delimiter skip s ≠ [] := by
  induction s generalizing skip with
  | nil => simp [splitFrom]
  | cons c rest ih =>
      cases skip with
      | succ skip => simpa [splitFrom] using ih skip
      | zero =>
          by_cases found : delimiter.isPrefixOf (c :: rest)
          · simp [splitFrom, found]
          · simpa [splitFrom, found] using glue_ne_nil c _

theorem intercalate_glue (sep : List Char) (c : Char) (pieces : List (List Char)) :
    sep.intercalate (glue c pieces) = c :: sep.intercalate pieces := by
  match pieces with
  | [] => simp [glue]
  | [piece] => simp [glue]
  | piece :: next :: rest => simp [glue, List.intercalate_cons_cons]

theorem intercalate_split_from (d : Char) (s : List Char) :
    [d].intercalate (splitFrom [d] 0 s) = s := by
  induction s with
  | nil => simp [splitFrom]
  | cons c rest ih =>
      by_cases same : d = c
      · subst same
        obtain ⟨piece, pieces, shape⟩ := List.exists_cons_of_ne_nil (split_from_ne_nil [d] 0 rest)
        rw [shape] at ih
        simp [splitFrom, shape, List.intercalate_cons_cons, ih]
      · simp [splitFrom, same, intercalate_glue, ih]

end ItemExpr.Text
