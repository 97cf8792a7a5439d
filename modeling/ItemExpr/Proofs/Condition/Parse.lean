import ItemExpr.Proofs.Condition.Reading

set_option autoImplicit false

namespace ItemExpr

variable {V : Type}

def isPathSymbol : Symbol V → Bool
  | .name _ => true
  | .char c => isIndexChar c || c = '.'
  | _ => false

def Symbol.spelling : Symbol V → String
  | .char c => String.singleton c
  | .name n => n
  | _ => ""

def spelled (symbols : List (Symbol V)) : String := String.join (symbols.map Symbol.spelling)

def takePath (s : List (Symbol V)) : String × List (Symbol V) :=
  (spelled (s.takeWhile isPathSymbol), s.dropWhile isPathSymbol)

def isWordSymbol : Symbol V → Bool
  | .char c => c ≠ ' ' && c ≠ '('
  | _ => false

def takeWord (s : List (Symbol V)) : String × List (Symbol V) :=
  (spelled (s.takeWhile isWordSymbol), s.dropWhile isWordSymbol)

def expectChars : List Char → List (Symbol V) → Option (List (Symbol V))
  | [], s => some s
  | c :: cs, .char d :: s => if c = d then expectChars cs s else none
  | _, _ => none

def expect (word : String) (s : List (Symbol V)) : Option (List (Symbol V)) :=
  expectChars word.toList s

theorem spelled_append (a b : List (Symbol V)) : spelled (a ++ b) = spelled a ++ spelled b := by
  apply String.toList_injective
  simp [spelled]

theorem spelled_chars (s : String) : spelled (chars s : List (Symbol V)) = s := by
  apply String.toList_injective
  simp [spelled, chars, Symbol.spelling, Function.comp_def, List.flatMap_map]

theorem spelled_segment (s : Segment) : spelled (s.symbols : List (Symbol V)) = s.text := by
  have front := spelled_append ([.name s.name] : List (Symbol V)) (chars s.indexes)
  rw [spelled_chars] at front
  simpa [Segment.symbols, Segment.text, spelled, Symbol.spelling] using front

theorem spelled_segments (segments : List Segment) :
    spelled (segmentSymbols segments : List (Symbol V)) =
      ".".intercalate (segments.map Segment.text) := by
  match segments with
  | [] => rfl
  | [s] => simpa [segmentSymbols] using spelled_segment s
  | s :: next :: rest =>
      rw [segment_symbols_cons, spelled_append, spelled_append, spelled_chars, spelled_segment,
        spelled_segments (next :: rest)]
      simp [String.intercalate_cons_cons, String.append_assoc]

theorem spelled_path (p : String) : spelled (pathSymbols p : List (Symbol V)) = p := by
  have pieces : (Options.segments {} p).map Segment.text = Text.split "." p := by
    simp [Options.segments, Function.comp_def, of_string_text]
  rw [pathSymbols, spelled_segments, pieces, Text.intercalate_split_dot]

theorem segment_inside (s : Segment) (indexed : ∀ c ∈ s.indexes.toList, isIndexChar c = true) :
    ∀ x ∈ (s.symbols : List (Symbol V)), isPathSymbol x = true := by
  intro x present
  rcases List.mem_cons.mp present with rfl | index
  · rfl
  · obtain ⟨c, inside, rfl⟩ := List.mem_map.mp index
    simp [isPathSymbol, indexed c inside]

theorem segments_inside (segments : List Segment)
    (indexed : ∀ s ∈ segments, ∀ c ∈ s.indexes.toList, isIndexChar c = true) :
    ∀ x ∈ (segmentSymbols segments : List (Symbol V)), isPathSymbol x = true := by
  match segments with
  | [] => simp [segmentSymbols]
  | [s] => simpa [segmentSymbols] using segment_inside s (indexed s (by simp))
  | s :: next :: rest =>
      rw [List.forall_mem_cons] at indexed
      rw [segment_symbols_cons, List.forall_mem_append, List.forall_mem_append]
      refine ⟨segment_inside s indexed.1, ?_, segments_inside (next :: rest) indexed.2⟩
      simp [chars, isPathSymbol]

def Ended (rest : List (Symbol V)) : Prop := ∀ x ∈ rest.head?, isPathSymbol x = false

theorem take_path (p : String) (indexed : IsIndexed p) (rest : List (Symbol V))
    (ended : Ended rest) : takePath (pathSymbols p ++ rest) = (p, rest) := by
  have inside : ∀ x ∈ (pathSymbols p : List (Symbol V)), isPathSymbol x = true :=
    segments_inside _ indexed
  obtain ⟨front, back⟩ := span_boundary isPathSymbol _ rest inside ended
  rw [takePath, front, back, spelled_path]

theorem take_word (word : String) (inside : ∀ c ∈ word.toList, c ≠ ' ' ∧ c ≠ '(')
    (rest : List (Symbol V)) (ended : ∀ x ∈ rest.head?, isWordSymbol x = false) :
    takeWord (chars word ++ rest) = (word, rest) := by
  have within : ∀ x ∈ (chars word : List (Symbol V)), isWordSymbol x = true := by
    intro x present
    obtain ⟨c, letter, rfl⟩ := List.mem_map.mp present
    simp [isWordSymbol, inside c letter]
  obtain ⟨front, back⟩ := span_boundary isWordSymbol _ rest within ended
  rw [takeWord, front, back, spelled_chars]

theorem expect_chars (word : String) (rest : List (Symbol V)) :
    expect word (chars word ++ rest) = some rest := by
  rw [expect, chars]
  induction word.toList with
  | nil => rfl
  | cons c cs ih => simpa [expectChars] using ih

theorem chars_append (a b : String) : (chars (a ++ b) : List (Symbol V)) = chars a ++ chars b := by
  simp [chars]

namespace Condition

def parseSide : List (Symbol V) → Option (Condition V × List (Symbol V))
  | .value v :: s => some (.value v, s)
  | .name n :: s =>
      let (p, s) := takePath (.name n :: s)
      some (.attribute p, s)
  | s => do
      let s ← expect "size(" s
      let (p, s) := takePath s
      let s ← expect ")" s
      return (.size p, s)

def parseSides : Nat → List (Symbol V) → Option (List (Condition V) × List (Symbol V))
  | 0, _ => none
  | fuel + 1, s =>
      match expect ", " s with
      | none => some ([], s)
      | some s => do
          let (c, s) ← parseSide s
          let (cs, s) ← parseSides fuel s
          return (c :: cs, s)

def parseChoices (s : List (Symbol V)) : Option (List (Condition V) × List (Symbol V)) :=
  match expect ")" s with
  | some s => some ([], s)
  | none => do
      let (c, s) ← parseSide s
      let (cs, s) ← parseSides s.length s
      let s ← expect ")" s
      return (c :: cs, s)

def parseRelation (subject : Condition V) (s : List (Symbol V)) :
    Option (Condition V × List (Symbol V)) := do
  let (word, s) := takeWord s
  if word = "BETWEEN" then
    let s ← expect " " s
    let (low, s) ← parseSide s
    let s ← expect " AND " s
    let (high, s) ← parseSide s
    return (.between subject low high, s)
  else if word = "IN" then
    let s ← expect " (" s
    let (choices, s) ← parseChoices s
    return (.isIn subject choices, s)
  else
    let s ← expect " " s
    let (right, s) ← parseSide s
    return (.compare subject (.text word) right, s)

def parseCall (s : List (Symbol V)) : Option (Condition V × List (Symbol V)) := do
  let (word, s) := takeWord s
  let s ← expect "(" s
  let (subject, s) ← parseSide s
  let (arguments, s) ← parseSides s.length s
  let s ← expect ")" s
  return (.call (.text word) subject arguments, s)

mutual

def parse : Nat → List (Symbol V) → Option (Condition V × List (Symbol V))
  | 0, _ => none
  | fuel + 1, s =>
      match expect "(" s with
      | some s =>
          match expect "NOT " s with
          | some s => do
              let (c, s) ← parse fuel s
              let s ← expect ")" s
              return (.negation c, s)
          | none => do
              let (c, s) ← parse fuel s
              let (cs, s) ← parseRest fuel " AND " s
              if cs = [] then
                let (cs, s) ← parseRest fuel " OR " s
                let s ← expect ")" s
                return (.any (c :: cs), s)
              else
                let s ← expect ")" s
                return (.all (c :: cs), s)
      | none =>
          match parseSide s with
          | some (subject, s) => do
              let s ← expect " " s
              parseRelation subject s
          | none => parseCall s

def parseRest : Nat → String → List (Symbol V) → Option (List (Condition V) × List (Symbol V))
  | 0, _, _ => none
  | fuel + 1, separator, s =>
      match expect separator s with
      | none => some ([], s)
      | some s => do
          let (c, s) ← parse fuel s
          let (cs, s) ← parseRest fuel separator s
          return (c :: cs, s)

end

end Condition
end ItemExpr
