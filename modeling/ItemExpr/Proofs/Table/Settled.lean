import ItemExpr.Proofs.Table.RoundTrip

set_option autoImplicit false

namespace ItemExpr

variable {V : Type}

inductive Settled (t : Table V) : List Segment → Fragment → Prop
  | last (token : Token) (s : Segment) : t.addName s.name = (token, t) →
      Settled t [s] [token, .text s.indexes]
  | cons (token : Token) (s : Segment) (rest : List Segment) (f : Fragment) :
      t.addName s.name = (token, t) → Settled t rest f →
      Settled t (s :: rest) (token :: .text s.indexes :: .text "." :: f)

theorem settled_ne_nil (t : Table V) (segments : List Segment) (f : Fragment)
    (settled : Settled t segments f) : segments ≠ [] := by
  cases settled <;> simp

theorem add_segments_cons (t : Table V) (s : Segment) (rest : List Segment) (present : rest ≠ []) :
    t.addSegments (s :: rest) =
      ((t.addName s.name).1 :: .text s.indexes :: .text "." ::
          ((t.addName s.name).2.addSegments rest).1,
        ((t.addName s.name).2.addSegments rest).2) := by
  cases rest with
  | nil => exact absurd rfl present
  | cons next rest => rfl

theorem settled_written (t : Table V) (segments : List Segment) (f : Fragment)
    (settled : Settled t segments f) : t.addSegments segments = (f, t) := by
  induction settled with
  | last token s again =>
      rw [Table.addSegments, Table.addSegment, again]
  | cons token s rest f again settled ih =>
      rw [add_segments_cons t s rest (settled_ne_nil t rest f settled), again, ih]

theorem add_name_reserved (t : Table V) (name : String) (reserved : t.options.reserved name = true) :
    t.addName name = (.name ("#" ++ name), { t with names := put ("#" ++ name) name t.names }) := by
  rw [Table.addName, if_pos reserved]
  rfl

theorem add_name_bare (t : Table V) (name : String) (plain : t.options.reserved name = false)
    (bare : t.options.bare name = true) : t.addName name = (.text name, t) := by
  rw [Table.addName, if_neg (by simp [plain]), if_pos bare]

theorem add_name_found (t : Table V) (name : String) (entry : String × String)
    (plain : t.options.reserved name = false) (covered : t.options.bare name = false)
    (found : t.names.find? (·.2 = name) = some entry) : t.addName name = (.name entry.1, t) := by
  rw [Table.addName, if_neg (by simp [plain]), if_neg (by simp [covered]), found]

theorem add_name_new (t : Table V) (coherent : Coherent t) (name : String)
    (plain : t.options.reserved name = false) (covered : t.options.bare name = false)
    (missing : t.names.find? (·.2 = name) = none) :
    t.addName name = (.name (t.options.nameLabel t.nextName),
      { t with names := t.names ++ [(t.options.nameLabel t.nextName, name)]
               nextName := t.nextName + 1 }) := by
  rw [Table.addName, if_neg (by simp [plain]), if_neg (by simp [covered]), missing]
  exact congrArg (fun names => (Token.name _, { t with names, nextName := t.nextName + 1 }))
    (put_new _ name t.names (next_name_missing t coherent))

theorem add_name_again (t : Table V) (coherent : Coherent t) (name : String) :
    (t.addName name).2.addName name = t.addName name := by
  cases reserved : t.options.reserved name with
  | true =>
      have entered := add_name_extends t coherent name
      rw [add_name_reserved t name reserved] at entered ⊢
      have again := put_known _ name _ entered.1.coherent.distinct
        (find_mem _ _ _ (find_put_self ("#" ++ name) name t.names))
      rw [add_name_reserved { t with names := put ("#" ++ name) name t.names } name reserved]
      exact congrArg (fun names => (Token.name ("#" ++ name), { t with names })) again
  | false =>
      cases bare : t.options.bare name with
      | true => rw [add_name_bare t name reserved bare, add_name_bare t name reserved bare]
      | false =>
          cases found : t.names.find? (·.2 = name) with
          | some entry =>
              rw [add_name_found t name entry reserved bare found,
                add_name_found t name entry reserved bare found]
          | none =>
              rw [add_name_new t coherent name reserved bare found]
              exact add_name_found _ name (t.options.nameLabel t.nextName, name) reserved bare
                (by simp [List.find?_append, found])

theorem add_name_later (t t' : Table V) (later : Extends t t') (coherent : Coherent t)
    (name : String) (token : Token) (again : t.addName name = (token, t)) :
    t'.addName name = (token, t') := by
  cases reserved : t.options.reserved name with
  | true =>
      rw [add_name_reserved t name reserved] at again
      obtain ⟨rfl, same⟩ := Prod.mk.inj again
      have present : ("#" ++ name, name) ∈ t.names := by
        rw [← congrArg Table.names same]
        exact find_mem _ _ _ (find_put_self _ name t.names)
      rw [add_name_reserved t' name (later.options ▸ reserved),
        put_known _ name _ later.coherent.distinct (later.names.subset present)]
  | false =>
      cases bare : t.options.bare name with
      | true =>
          rw [add_name_bare t name reserved bare] at again
          rw [← (Prod.mk.inj again).1]
          exact add_name_bare t' name (later.options ▸ reserved) (later.options ▸ bare)
      | false =>
          cases found : t.names.find? (·.2 = name) with
          | some entry =>
              rw [add_name_found t name entry reserved bare found] at again
              obtain ⟨more, names⟩ := later.names
              rw [← (Prod.mk.inj again).1]
              exact add_name_found t' name entry (later.options ▸ reserved) (later.options ▸ bare)
                (by rw [← names, List.find?_append, found, Option.some_or])
          | none =>
              rw [add_name_new t coherent name reserved bare found] at again
              have counted := congrArg Table.nextName (Prod.mk.inj again).2
              simp at counted

theorem settled_extends (t t' : Table V) (coherent : Coherent t) (later : Extends t t')
    (segments : List Segment) (f : Fragment) (settled : Settled t segments f) :
    Settled t' segments f := by
  induction settled with
  | last token s again => exact .last token s (add_name_later t t' later coherent _ token again)
  | cons token s rest f again _ ih =>
      exact .cons token s rest f (add_name_later t t' later coherent _ token again) ih

theorem add_segments_settled (t : Table V) (coherent : Coherent t) (segments : List Segment)
    (present : segments ≠ []) :
    Settled (t.addSegments segments).2 segments (t.addSegments segments).1 := by
  match segments with
  | [] => exact absurd rfl present
  | [s] => exact .last _ s (add_name_again t coherent s.name)
  | s :: next :: rest =>
      have entered := (add_name_extends t coherent s.name).1
      have others := add_segments_spelled (t.addName s.name).2 entered.coherent (next :: rest)
        (List.cons_ne_nil _ _)
      have again := add_name_later _ _ others.1 entered.coherent s.name _
        (add_name_again t coherent s.name)
      exact .cons _ s _ _ again
        (add_segments_settled (t.addName s.name).2 entered.coherent (next :: rest)
          (List.cons_ne_nil _ _))

theorem add_segments_append (t : Table V) (segments others : List Segment)
    (front : segments ≠ []) (back : others ≠ []) :
    t.addSegments (segments ++ others) =
      ((t.addSegments segments).1 ++ .text "." :: ((t.addSegments segments).2.addSegments others).1,
        ((t.addSegments segments).2.addSegments others).2) := by
  match segments with
  | [] => exact absurd rfl front
  | [s] => exact add_segments_cons t s others back
  | s :: next :: rest =>
      rw [List.cons_append, add_segments_cons t s (next :: rest ++ others) (by simp),
        add_segments_append (t.addName s.name).2 (next :: rest) others (by simp) back,
        add_segments_cons t s (next :: rest) (by simp)]
      rfl

theorem settled_text (t : Table V) (coherent : Coherent t) (named : t.options.bare "" = false)
    (segments : List Segment) (f : Fragment) (settled : Settled t segments f) : f.text ≠ "" := by
  have first (token : Token) (name : String) (again : t.addName name = (token, t)) :
      token.spelling ≠ "" := by
    have means := (add_name_extends t coherent name).2
    rw [again] at means
    cases means with
    | entered label _ present =>
        have marked := label_marked t coherent label (List.mem_map_of_mem present)
        rintro rfl
        simp at marked
    | bare _ _ bare =>
        rintro rfl
        simp [named] at bare
  cases settled with
  | last token s again => simp [Fragment.text_cons, first token s.name again]
  | cons token s rest f again _ => simp [Fragment.text_cons, first token s.name again]

end ItemExpr
