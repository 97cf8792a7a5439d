import ItemExpr.Proofs.Table.History

set_option autoImplicit false

namespace ItemExpr

inductive Lexeme
  | char (c : Char)
  | name (label : String)
  | value (label : String)
  deriving DecidableEq, Repr

def aliasDigits (c : Char) : List Char → List Char
  | [] => []
  | mark :: rest =>
      if (c = '#' ∧ mark = 'n') ∨ (c = ':' ∧ mark = 'v') then rest.takeWhile Char.isDigit else []

def lexFrom : Nat → List Char → List Lexeme
  | _, [] => []
  | skip + 1, _ :: rest => lexFrom skip rest
  | 0, c :: rest =>
      match aliasDigits c rest with
      | [] => .char c :: lexFrom 0 rest
      | d :: digits =>
          (if c = '#' then .name (String.ofList ('#' :: 'n' :: d :: digits))
            else .value (String.ofList (':' :: 'v' :: d :: digits)))
            :: lexFrom (digits.length + 2) rest

def lexemes (s : String) : List Lexeme := lexFrom 0 s.toList

inductive Symbol (V : Type)
  | char (c : Char)
  | name (n : String)
  | value (v : V)
  | unbound (label : String)

variable {V : Type}

def Symbol.name? : Symbol V → Option String
  | .name n => some n
  | _ => none

def Lexeme.symbol (names : List (String × String)) (values : List (String × V)) : Lexeme → Symbol V
  | .char c => .char c
  | .name label => ((find? label names).map Symbol.name).getD (.unbound label)
  | .value label => ((find? label values).map Symbol.value).getD (.unbound label)

def readText (names : List (String × String)) (values : List (String × V)) (s : String) :
    List (Symbol V) :=
  (lexemes s).map (Lexeme.symbol names values)

def Table.read (t : Table V) (f : Fragment) : List (Symbol V) :=
  readText t.names t.values (Fragment.text f)

def chars (s : String) : List (Symbol V) := s.toList.map .char

def Segment.symbols (s : Segment) : List (Symbol V) := .name s.name :: chars s.indexes

def segmentSymbols (segments : List Segment) : List (Symbol V) :=
  [.char '.'].intercalate (segments.map Segment.symbols)

def pathSymbols (p : String) : List (Symbol V) := segmentSymbols (Options.segments {} p)

theorem segment_symbols_cons (s next : Segment) (rest : List Segment) :
    (segmentSymbols (s :: next :: rest) : List (Symbol V)) =
      s.symbols ++ (chars "." ++ segmentSymbols (next :: rest)) := by
  simp [segmentSymbols, List.intercalate_cons_cons, chars]

theorem path_symbols_cons (p : String) :
    ∃ n more, (pathSymbols p : List (Symbol V)) = .name n :: more := by
  rw [pathSymbols]
  match Options.segments {} p, segments_ne_nil {} p with
  | [s], _ => exact ⟨s.name, chars s.indexes, by simp [segmentSymbols, Segment.symbols]⟩
  | s :: next :: rest, _ =>
      exact ⟨s.name, chars s.indexes ++ (chars "." ++ segmentSymbols (next :: rest)),
        segment_symbols_cons s next rest⟩

theorem segment_symbols_append (first others : List Segment) (front : first ≠ []) (back : others ≠ []) :
    (segmentSymbols (first ++ others) : List (Symbol V)) =
      segmentSymbols first ++ (chars "." ++ segmentSymbols others) := by
  match first, others with
  | [], _ => exact absurd rfl front
  | _, [] => exact absurd rfl back
  | [s], next :: rest =>
      have single : segmentSymbols [s] = (s.symbols : List (Symbol V)) := by simp [segmentSymbols]
      rw [single]
      exact segment_symbols_cons s next rest
  | s :: next :: rest, other :: more =>
      rw [segment_symbols_cons, List.cons_append, List.cons_append, segment_symbols_cons]
      rw [← List.cons_append, segment_symbols_append (next :: rest) (other :: more) (by simp) back]
      simp [List.append_assoc]

theorem path_symbols_append (p q : String) :
    (pathSymbols (p ++ "." ++ q) : List (Symbol V)) =
      pathSymbols p ++ (chars "." ++ pathSymbols q) := by
  have cut : Options.segments {} (p ++ "." ++ q) =
      Options.segments {} p ++ Options.segments {} q := by
    simp [Options.segments, Text.split_dot_append]
  rw [pathSymbols, cut]
  exact segment_symbols_append _ _ (segments_ne_nil {} p) (segments_ne_nil {} q)

def isIndexChar (c : Char) : Bool := c.isDigit || c = '[' || c = ']'

def IsIndexed (p : String) : Prop :=
  ∀ s ∈ Options.segments {} p, ∀ c ∈ s.indexes.toList, isIndexChar c = true

instance (p : String) : Decidable (IsIndexed p) :=
  decidable_of_iff
    ((Options.segments {} p).all fun s => s.indexes.toList.all isIndexChar)
    (by simp [IsIndexed])

def Quiet (s : String) : Prop := ∀ c ∈ s.toList, c ≠ '#' ∧ c ≠ ':'

def Separate (s : String) : Prop := ∀ c ∈ s.toList.head?, c.isDigit = false

theorem separate_append (a b : String) (first : Separate a) (second : Separate b) :
    Separate (a ++ b) := by
  intro c head
  rw [String.toList_append, List.head?_append] at head
  cases front : a.toList.head? with
  | none => exact second c (by simpa [front] using head)
  | some d => exact first c (by simpa [front] using head)

theorem separate_front (front back : String) (present : front ≠ "") (separate : Separate front) :
    Separate (front ++ back) := by
  obtain ⟨c, letters, shape⟩ := List.exists_cons_of_ne_nil (mt String.toList_eq_nil_iff.mp present)
  simpa [Separate, shape] using separate

theorem lex_quiet (s rest : List Char) (quiet : ∀ c ∈ s, c ≠ '#' ∧ c ≠ ':') :
    lexFrom 0 (s ++ rest) = s.map Lexeme.char ++ lexFrom 0 rest := by
  induction s with
  | nil => rfl
  | cons c s ih =>
      rw [List.forall_mem_cons] at quiet
      have plain : aliasDigits c (s ++ rest) = [] := by
        cases s ++ rest <;> simp [aliasDigits, quiet.1]
      rw [List.cons_append, lexFrom, plain, List.map_cons, List.cons_append, ← ih quiet.2]

def Mute (s : String) : Prop :=
  ∀ rest, lexFrom 0 (s.toList ++ rest) = s.toList.map Lexeme.char ++ lexFrom 0 rest

theorem quiet_mute (s : String) (quiet : Quiet s) : Mute s :=
  fun rest => lex_quiet s.toList rest quiet

theorem mute_append (a b : String) (first : Mute a) (second : Mute b) : Mute (a ++ b) := by
  intro rest
  rw [String.toList_append, List.append_assoc, first, second, List.map_append, List.append_assoc]

def Lexeme.isChar : Lexeme → Bool
  | .char _ => true
  | _ => false

-- Text in which there is no alias; one may still begin at its end.
def AliasFree (s : String) : Prop := ∀ l ∈ lexemes s, l.isChar = true

instance (s : String) : Decidable (AliasFree s) :=
  inferInstanceAs (Decidable (∀ l ∈ lexemes s, l.isChar = true))

theorem lex_stopped (s rest : List Char) (c : Char) (stop : c = ' ' ∨ c = '(')
    (free : ∀ l ∈ lexFrom 0 s, l.isChar = true) :
    lexFrom 0 (s ++ c :: rest) = (s ++ [c]).map Lexeme.char ++ lexFrom 0 rest := by
  induction s with
  | nil =>
      have plain : aliasDigits c rest = [] := by
        rcases stop with rfl | rfl <;> cases rest <;> simp [aliasDigits]
      rw [List.nil_append, lexFrom, plain]
      rfl
  | cons d s ih =>
      have plain : aliasDigits d s = [] := by
        cases digits : aliasDigits d s with
        | nil => rfl
        | cons e more =>
            have first := free (if d = '#' then .name (String.ofList ('#' :: 'n' :: e :: more))
              else .value (String.ofList (':' :: 'v' :: e :: more))) (by simp [lexFrom, digits])
            split at first <;> simp [Lexeme.isChar] at first
      have still : aliasDigits d (s ++ c :: rest) = [] := by
        cases s with
        | nil => rcases stop with rfl | rfl <;> simp [aliasDigits]
        | cons mark s =>
            cases s with
            | nil => rcases stop with rfl | rfl <;> simp [aliasDigits]
            | cons e s => simpa [aliasDigits, List.takeWhile_cons] using plain
      rw [lexFrom, plain] at free
      rw [List.cons_append, lexFrom, still, ih (List.forall_mem_cons.mp free).2]
      rfl

theorem stopped_mute (s : String) (c : Char) (stop : c = ' ' ∨ c = '(') (free : AliasFree s) :
    Mute (s ++ String.singleton c) := by
  intro rest
  simpa using lex_stopped s.toList rest c stop free

theorem lex_skip (front rest : List Char) :
    lexFrom front.length (front ++ rest) = lexFrom 0 rest := by
  induction front with
  | nil => rfl
  | cons c front ih => simpa [lexFrom] using ih

theorem take_numeral (k : Nat) (rest : List Char) (separate : ∀ c ∈ rest.head?, c.isDigit = false) :
    (Nat.toDigits 10 k ++ rest).takeWhile Char.isDigit = Nat.toDigits 10 k := by
  have digits := numeral_digits k
  rw [List.takeWhile_append_of_pos digits]
  cases rest with
  | nil => simp
  | cons c rest => simp [separate c rfl]

theorem lex_alias (c mark : Char) (marked : (c = '#' ∧ mark = 'n') ∨ (c = ':' ∧ mark = 'v'))
    (k : Nat) (rest : List Char) (separate : ∀ c ∈ rest.head?, c.isDigit = false) :
    lexFrom 0 (c :: mark :: (Nat.toDigits 10 k ++ rest)) =
      (if c = '#' then .name (String.ofList ('#' :: 'n' :: Nat.toDigits 10 k))
        else .value (String.ofList (':' :: 'v' :: Nat.toDigits 10 k))) :: lexFrom 0 rest := by
  have digits := take_numeral k rest separate
  obtain ⟨d, more, shape⟩ := List.exists_cons_of_ne_nil (Nat.toDigits_ne_nil (n := k) (b := 10))
  rw [shape] at digits ⊢
  rw [lexFrom, aliasDigits, if_pos marked, digits]
  simp [lexFrom, lex_skip more rest]

theorem lex_name (k : Nat) (rest : String) (separate : Separate rest) :
    lexemes (Options.nameLabel {} k ++ rest) = .name (Options.nameLabel {} k) :: lexemes rest := by
  have label : Options.nameLabel {} k = String.ofList ('#' :: 'n' :: Nat.toDigits 10 k) := by
    apply String.toList_injective
    simp [name_label_chars]
  simpa [lexemes, label] using
    lex_alias '#' 'n' (.inl ⟨rfl, rfl⟩) k rest.toList separate

theorem lex_value (k : Nat) (rest : String) (separate : Separate rest) :
    lexemes (Options.valueLabel {} k ++ rest) = .value (Options.valueLabel {} k) :: lexemes rest := by
  have label : Options.valueLabel {} k = String.ofList (':' :: 'v' :: Nat.toDigits 10 k) := by
    apply String.toList_injective
    simp [value_label_chars]
  simpa [lexemes, label] using
    lex_alias ':' 'v' (.inr ⟨rfl, rfl⟩) k rest.toList separate

inductive Reads (t : Table V) : Fragment → List (Symbol V) → Prop
  | nil : Reads t [] []
  | text (s : String) (f : Fragment) (symbols : List (Symbol V)) : Mute s → Reads t f symbols →
      Reads t (.text s :: f) (chars s ++ symbols)
  | name (k : Nat) (label name : String) (f : Fragment) (symbols : List (Symbol V)) :
      label = Options.nameLabel {} k → (label, name) ∈ t.names → Separate (Fragment.text f) →
      Reads t f symbols → Reads t (.name label :: f) (.name name :: symbols)
  | value (k : Nat) (label : String) (v : V) (f : Fragment) (symbols : List (Symbol V)) :
      label = Options.valueLabel {} k → (label, v) ∈ t.values → Separate (Fragment.text f) →
      Reads t f symbols → Reads t (.value label :: f) (.value v :: symbols)

def Token.lexemes : Token → List Lexeme
  | .text s => s.toList.map .char
  | .name label => [.name label]
  | .value label => [.value label]

theorem reads_lexemes (t : Table V) (f : Fragment) (symbols : List (Symbol V))
    (reads : Reads t f symbols) : lexemes (Fragment.text f) = f.flatMap Token.lexemes := by
  induction reads with
  | nil => rfl
  | text s f symbols mute _ ih =>
      rw [Fragment.text_cons, List.flatMap_cons, ← ih, lexemes, String.toList_append]
      exact mute (Fragment.text f).toList
  | name k label name f symbols shape _ separate _ ih =>
      rw [Fragment.text_cons, List.flatMap_cons, ← ih, shape]
      exact lex_name k (Fragment.text f) separate
  | value k label v f symbols shape _ separate _ ih =>
      rw [Fragment.text_cons, List.flatMap_cons, ← ih, shape]
      exact lex_value k (Fragment.text f) separate

theorem reads_symbols (t : Table V) (coherent : Coherent t) (f : Fragment)
    (symbols : List (Symbol V)) (reads : Reads t f symbols) :
    (f.flatMap Token.lexemes).map (Lexeme.symbol t.names t.values) = symbols := by
  induction reads with
  | nil => rfl
  | text s f symbols _ _ ih =>
      simp only [List.flatMap_cons, Token.lexemes, List.map_append, ih, List.map_map]
      rfl
  | name k label name f symbols _ present _ _ ih =>
      have found := find_name t coherent label name present
      simpa [Token.lexemes, Lexeme.symbol, found] using ih
  | value k label v f symbols _ present _ _ ih =>
      have found := find_value t coherent label v present
      simpa [Token.lexemes, Lexeme.symbol, found] using ih

theorem read_eq (t : Table V) (coherent : Coherent t) (f : Fragment) (symbols : List (Symbol V))
    (reads : Reads t f symbols) : t.read f = symbols := by
  rw [Table.read, readText, reads_lexemes t f symbols reads]
  exact reads_symbols t coherent f symbols reads

theorem reads_extends (t t' : Table V) (later : Extends t t') (f : Fragment)
    (symbols : List (Symbol V)) (reads : Reads t f symbols) : Reads t' f symbols := by
  induction reads with
  | nil => exact .nil
  | text s f symbols mute _ ih => exact .text s f symbols mute ih
  | name k label name f symbols shape present separate _ ih =>
      exact .name k label name f symbols shape (later.names.subset present) separate ih
  | value k label v f symbols shape present separate _ ih =>
      exact .value k label v f symbols shape (later.values.subset present) separate ih

theorem reads_append (t : Table V) (f g : Fragment) (symbols others : List (Symbol V))
    (first : Reads t f symbols) (second : Reads t g others) (separate : Separate (Fragment.text g)) :
    Reads t (f ++ g) (symbols ++ others) := by
  induction first with
  | nil => exact second
  | text s f symbols mute _ ih =>
      rw [List.cons_append, List.append_assoc]
      exact .text s _ _ mute ih
  | name k label name f symbols shape present apart _ ih =>
      have both := Fragment.text_append f g ▸ separate_append _ _ apart separate
      exact .name k label name _ _ shape present both ih
  | value k label v f symbols shape present apart _ ih =>
      have both := Fragment.text_append f g ▸ separate_append _ _ apart separate
      exact .value k label v _ _ shape present both ih

end ItemExpr
