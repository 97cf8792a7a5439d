import ItemExpr.Proofs.Table.History

set_option autoImplicit false

namespace ItemExpr

variable {V : Type}

namespace Table

def decodePiece (t : Table V) (piece : String) : String :=
  let s := Segment.ofString piece
  (find? s.name t.names).getD s.name ++ s.indexes

def decode (t : Table V) (text : String) : String :=
  ".".intercalate ((Text.split "." text).map t.decodePiece)

end Table

structure Options.Legible (o : Options) : Prop where
  splits : o.splitPaths = true
  delimiter : o.delimiter = "."
  undotted : '.' ∉ o.namePrefix.toList
  unbracketed : '[' ∉ o.namePrefix.toList
  apart : o.Apart
  unmarked : ∀ name : String, name.toList.head? = some '#' → o.bare name = false

theorem digit_absent (c : Char) (k : Nat) (other : c.isDigit = false) :
    c ∉ Nat.toDigits 10 k := by
  intro present
  have digit := numeral_digits k c present
  simp [other] at digit

theorem label_marked (t : Table V) (coherent : Coherent t) (label : String)
    (present : label ∈ t.names.map Prod.fst) : label.toList.head? = some '#' := by
  obtain ⟨entry, known, rfl⟩ := List.mem_map.mp present
  cases coherent.names entry known with
  | reserved _ shape => simp [shape]
  | counted k _ _ _ shape =>
      obtain ⟨rest, front⟩ := List.head?_eq_some_iff.mp t.options.name_marked
      simp [shape, name_label_chars, front]

theorem means_absent (t : Table V) (coherent : Coherent t) (token : Token) (name : String)
    (means : Means t token name) (c : Char) (unmarked : c ≠ '#') (other : c.isDigit = false)
    (outside : c ∉ t.options.namePrefix.toList) (absent : c ∉ name.toList) :
    c ∉ token.spelling.toList := by
  cases means with
  | bare => exact absent
  | entered label _ present =>
      cases coherent.names _ present with
      | reserved _ shape =>
          simp only at shape
          simp [Token.spelling, shape, unmarked, absent]
      | counted k _ _ _ shape =>
          simp only at shape
          have digits := digit_absent c k other
          simpa [Token.spelling, shape, name_label_chars, outside] using digits

theorem means_unindexed (t : Table V) (coherent : Coherent t) (token : Token) (name : String)
    (means : Means t token name) (unindexed : Unindexed name.toList) :
    Unindexed token.spelling.toList := by
  cases means with
  | bare => exact unindexed
  | entered label _ present =>
      cases coherent.names _ present with
      | reserved _ shape =>
          simp only at shape
          rcases unindexed with closed | absent
          · left
            cases last : name.toList.getLast? with
            | none => simp [Token.spelling, shape, List.getLast?_cons, last]
            | some c => simpa [Token.spelling, shape, List.getLast?_cons, last] using closed
          · right
            simp [Token.spelling, shape, absent]
      | counted k _ _ _ shape =>
          simp only at shape
          left
          have last := List.getLast?_eq_some_getLast (Nat.toDigits_ne_nil (n := k) (b := 10))
          have digit := numeral_digits k _ (List.getLast_mem Nat.toDigits_ne_nil)
          have open_ : (Nat.toDigits 10 k).getLast Nat.toDigits_ne_nil ≠ ']' := by
            intro same
            simp [same] at digit
          simpa [Token.spelling, shape, name_label_chars, last] using open_

theorem means_found (t : Table V) (coherent : Coherent t) (token : Token) (name : String)
    (unmarked : ∀ name : String, name.toList.head? = some '#' → t.options.bare name = false)
    (means : Means t token name) :
    (find? token.spelling t.names).getD token.spelling = name := by
  cases means with
  | entered label _ present => simp [Token.spelling, find_name t coherent label name present]
  | bare _ _ bare =>
      have missing : name ∉ t.names.map Prod.fst := by
        intro present
        have covered := unmarked name (label_marked t coherent name present)
        simp [covered] at bare
      simp [Token.spelling, find_none name t.names missing]

theorem piece_round_trip (t : Table V) (coherent : Coherent t) (legible : t.options.Legible)
    (raw : String) (undotted : '.' ∉ raw.toList) (token : Token)
    (means : Means t token (Segment.ofString raw).name) :
    '.' ∉ (token.spelling ++ (Segment.ofString raw).indexes).toList ∧
      t.decodePiece (token.spelling ++ (Segment.ofString raw).indexes) = raw := by
  have found := means_found t coherent token _ legible.unmarked means
  obtain ⟨unindexed, cut⟩ | ⟨head, tail, shape, absent, closed, cut⟩ := segment_shape raw
  · rw [cut] at means found ⊢
    have whole := of_string_unindexed token.spelling
      (means_unindexed t coherent token raw means unindexed)
    refine ⟨?_, ?_⟩
    · simpa using means_absent t coherent token raw means '.' (by decide) (by decide)
        legible.undotted undotted
    · rw [String.append_empty, Table.decodePiece, whole]
      simpa using found
  · have undottedParts : '.' ∉ head ∧ '.' ∉ '[' :: tail := by
      simpa [shape] using undotted
    rw [cut] at means found ⊢
    have unbracketed := means_absent t coherent token (String.ofList head) means '[' (by decide)
      (by decide) legible.unbracketed (by simpa using absent)
    have whole : Segment.ofString (token.spelling ++ String.ofList ('[' :: tail)) =
        ⟨token.spelling, String.ofList ('[' :: tail)⟩ := by
      simpa [String.ofList_append] using of_string_indexed token.spelling.toList tail unbracketed closed
    refine ⟨?_, ?_⟩
    · have headUndotted := means_absent t coherent token (String.ofList head) means '.' (by decide)
        (by decide) legible.undotted (by simpa using undottedParts.1)
      rw [String.toList_append, String.toList_ofList, List.mem_append, not_or]
      exact ⟨headUndotted, undottedParts.2⟩
    · rw [Table.decodePiece, whole]
      simp only [found]
      rw [shape, String.ofList_append]

theorem decode_cons (t : Table V) (piece rest : String) (undotted : '.' ∉ piece.toList) :
    t.decode (piece ++ "." ++ rest) = t.decodePiece piece ++ "." ++ t.decode rest := by
  have others : (Text.split "." rest).map t.decodePiece ≠ [] := by
    simpa using Text.split_ne_nil "." rest
  rw [Table.decode, Text.split_dot_append, Text.split_dot_whole piece undotted, List.singleton_append,
    List.map_cons, String.intercalate_cons_of_ne_nil others]
  rfl

theorem spelled_round_trip (t : Table V) (coherent : Coherent t) (legible : t.options.Legible)
    (segments : List Segment) (f : Fragment) (spelled : Spelled t segments f)
    (raws : List String) (undotted : ∀ raw ∈ raws, '.' ∉ raw.toList)
    (cut : segments = raws.map Segment.ofString) :
    t.decode (Fragment.text f) = ".".intercalate raws := by
  induction spelled generalizing raws with
  | last token s means =>
      obtain ⟨raw, rfl, rfl⟩ := List.map_eq_singleton_iff.mp cut.symm
      obtain ⟨whole, back⟩ := piece_round_trip t coherent legible raw (undotted raw (by simp))
        token means
      have written : Fragment.text [token, .text (Segment.ofString raw).indexes] =
          token.spelling ++ (Segment.ofString raw).indexes := by
        simp [Fragment.text_cons, Fragment.text_nil, Token.spelling]
      rw [written, Table.decode, Text.split_dot_whole _ whole]
      simpa using back
  | cons token s rest f means spelledRest ih =>
      obtain ⟨raw, others, rfl, rfl, rfl⟩ := List.map_eq_cons_iff.mp cut.symm
      rw [List.forall_mem_cons] at undotted
      obtain ⟨whole, back⟩ := piece_round_trip t coherent legible raw undotted.1 token means
      have written :
          Fragment.text (token :: .text (Segment.ofString raw).indexes :: .text "." :: f) =
            token.spelling ++ (Segment.ofString raw).indexes ++ "." ++ Fragment.text f := by
        simp [Fragment.text_cons, Token.spelling, String.append_assoc]
      have present : others ≠ [] := by
        rintro rfl
        cases spelledRest
      rw [written, decode_cons t _ _ whole, back, ih others undotted.2 rfl,
        String.intercalate_cons_of_ne_nil present]

theorem add_path_round_trip (t t' : Table V) (coherent : Coherent t) (legible : t.options.Legible)
    (p : String) (later : Extends (t.addPath p).2 t') :
    t'.decode (Fragment.text (t.addPath p).1) = p := by
  have entered := add_path_spelled t coherent p
  have legible' : t'.options.Legible := by
    rw [later.options, entered.1.options]
    exact legible
  have cut : t.options.segments p = (Text.split "." p).map Segment.ofString := by
    simp [Options.segments, legible.splits, legible.delimiter]
  rw [spelled_round_trip t' later.coherent legible' _ _ (spelled_extends _ _ _ _ later entered.2) _
    (Text.split_dot_absent p) cut]
  exact Text.intercalate_split_dot p

theorem path_round_trip (o : Options) (legible : o.Legible) (earlier later : List (Call V))
    (p : String) :
    let t := ({ options := o } : Table V).enterAll earlier
    let t' := (t.addPath p).2.enterAll later
    t'.decode (Fragment.text (t.addPath p).1) = p ∧
      ∀ q, Fragment.text (t'.addPath q).1 = Fragment.text (t.addPath p).1 → q = p := by
  intro t t'
  have reached := enter_all_extends _ (coherent_fresh o legible.apart) earlier
  have coherent : Coherent t := reached.coherent
  have options : t.options = o := reached.options
  have entered := (add_path_spelled t coherent p).1
  have grown : Extends (t.addPath p).2 t' := enter_all_extends _ entered.coherent later
  have coherent' : Coherent t' := grown.coherent
  have options' : t'.options = o := (grown.options.trans entered.options).trans options
  refine ⟨add_path_round_trip t t' coherent (options.symm ▸ legible) p grown, ?_⟩
  intro q same
  have enteredAfter := (add_path_spelled t' coherent' q).1
  have readQ := add_path_round_trip t' _ coherent' (options'.symm ▸ legible) q
    (extends_refl _ enteredAfter.coherent)
  have readP := add_path_round_trip t _ coherent (options.symm ▸ legible) p
    (extends_trans _ _ _ grown enteredAfter)
  rw [← readQ, same, readP]

def wordOptions : Options :=
  { Options.standard with reserved := fun name => name = "size", bare := isIdentifier }

theorem word_options_legible : wordOptions.Legible where
  splits := rfl
  delimiter := rfl
  undotted := by decide
  unbracketed := by decide
  apart := by
    intro name k same
    have letters := congrArg String.toList same
    rw [String.toList_append, name_label_chars] at letters
    have other : name ≠ "size" := by
      rintro rfl
      simp [wordOptions, Options.standard] at letters
    simp [wordOptions, other]
  unmarked := by
    intro name marked
    cases letters : name.toList with
    | nil => simp [letters] at marked
    | cons c rest =>
        have mark : c = '#' := by simpa [letters] using marked
        simp [wordOptions, isIdentifier, letters, mark]

theorem word_path_round_trip :
    wordOptions.Legible ∧
      Fragment.text ((({ options := wordOptions } : Table Nat).enterAll
        [.path "total.size", .value 3]).addPath "id.size[0].first name.").1 =
          "id.#size[0].#n0.#n1" ∧
      ((((({ options := wordOptions } : Table Nat).enterAll [.path "total.size", .value 3]).addPath
        "id.size[0].first name.").2.enterAll [.path "first name"]).decode
          "id.#size[0].#n0.#n1") = "id.size[0].first name." := by
  have text : Fragment.text ((({ options := wordOptions } : Table Nat).enterAll
      [.path "total.size", .value 3]).addPath "id.size[0].first name.").1 =
        "id.#size[0].#n0.#n1" := by
    decide +kernel
  have read := (path_round_trip wordOptions word_options_legible
    [.path "total.size", .value 3] [.path "first name"] "id.size[0].first name.").1
  exact ⟨word_options_legible, text, text ▸ read⟩

end ItemExpr
