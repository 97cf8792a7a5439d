import ItemExpr.Proofs.Table.Pieces
import ItemExpr.Proofs.Table.RoundTrip

set_option autoImplicit false

namespace ItemExpr

inductive IsBareName : List Char → Prop
  | letter (c : Char) (rest : List Char) : c.isAlpha = true →
      (∀ d ∈ rest, d.isAlphanum = true) → IsBareName (c :: rest)

inductive IsLine : List Char → Prop
  | ended (name : List Char) : IsBareName name → IsLine (name ++ ['\n'])

theorem bare_name_cons (c : Char) (rest : List Char) :
    IsBareName (c :: rest) ↔ c.isAlpha = true ∧ ∀ d ∈ rest, d.isAlphanum = true :=
  ⟨fun | .letter _ _ letter characters => ⟨letter, characters⟩,
    fun ⟨letter, characters⟩ => .letter c rest letter characters⟩

theorem line_cons (c : Char) (rest : List Char) :
    IsLine (c :: rest) ↔ ∃ body, rest = body ++ ['\n'] ∧ IsBareName (c :: body) := by
  constructor
  · intro line
    generalize whole : c :: rest = raw at line
    cases line with
    | ended name bare =>
        cases bare with
        | letter d body letter characters =>
            obtain ⟨rfl, rfl⟩ := List.cons.inj whole
            exact ⟨body, rfl, .letter c body letter characters⟩
  · rintro ⟨body, rfl, bare⟩
    exact .ended (c :: body) bare

theorem bare_name_chars (name : List Char) (bare : IsBareName name) :
    ∀ c ∈ name, c.isAlphanum = true := by
  cases bare with
  | letter c rest letter characters =>
      rw [List.forall_mem_cons]
      exact ⟨by simp [Char.isAlphanum, letter], characters⟩

theorem bare_name_unbroken (name : List Char) (bare : IsBareName name) : '\n' ∉ name := by
  intro present
  have covered := bare_name_chars name bare '\n' present
  revert covered
  decide

theorem line_broken (raw : List Char) (line : IsLine raw) : '\n' ∈ raw := by
  cases line with
  | ended name _ => simp

theorem line_not_bare (raw : List Char) (line : IsLine raw) : ¬ IsBareName raw :=
  fun bare => bare_name_unbroken raw bare (line_broken raw line)

theorem identifier_front (raw : List Char) (accepted : IsBareName raw ∨ IsLine raw) :
    ∃ c rest, raw = c :: rest ∧ c.isAlpha = true := by
  obtain ⟨⟨c, rest, letter, _⟩⟩ | ⟨_, ⟨c, rest, letter, _⟩⟩ := accepted
  · exact ⟨c, rest, rfl, letter⟩
  · exact ⟨c, rest ++ ['\n'], rfl, letter⟩

-- Identifiers are the bare names and also the lines, since a newline at the end is overlooked.
theorem identifier_iff (raw : String) :
    isIdentifier raw = true ↔ IsBareName raw.toList ∨ IsLine raw.toList := by
  rw [isIdentifier]
  generalize raw.toList = chars
  cases chars with
  | nil =>
      constructor
      · intro accepted
        cases accepted
      · intro either
        obtain ⟨c, rest, whole, _⟩ := identifier_front [] either
        cases whole
  | cons c rest =>
      by_cases ended : rest.getLast? = some '\n'
      · obtain ⟨body, rfl⟩ := List.getLast?_eq_some_iff.mp ended
        have line : IsLine (c :: (body ++ ['\n'])) ↔ IsBareName (c :: body) := by simp [line_cons]
        have broken : ¬ IsBareName (c :: (body ++ ['\n'])) := fun bare =>
          bare_name_unbroken _ bare (by simp)
        rw [or_iff_right broken, line, bare_name_cons]
        simp
      · have unbroken : ¬ IsLine (c :: rest) := by
          rw [line_cons]
          rintro ⟨body, rfl, _⟩
          simp at ended
        rw [or_iff_left unbroken, bare_name_cons]
        simp [ended]

def Options.identifiers : Options := { Options.standard with bare := isIdentifier }

theorem identifiers_apart : Options.identifiers.Apart := fun _ _ _ => rfl

variable {V : Type}

structure Shows (t : Table V) (raw piece : String) : Prop where
  written : (∃ k, piece = Options.identifiers.nameLabel k) ∨
    IsBareName piece.toList ∧ piece = raw
  aliased : ¬ IsBareName raw.toList → ∃ k, piece = Options.identifiers.nameLabel k ∧
    find? (Options.identifiers.nameLabel k) t.names = some raw

theorem label_not_identifier (k : Nat) (raw : String)
    (accepted : IsBareName raw.toList ∨ IsLine raw.toList) :
    raw ≠ Options.identifiers.nameLabel k := by
  rintro rfl
  obtain ⟨c, rest, whole, letter⟩ := identifier_front _ accepted
  rw [name_label_chars] at whole
  have mark : c = '#' := (List.cons.inj whole).1.symm
  subst mark
  revert letter
  decide

theorem means_shows_iff (t : Table V) (coherent : Coherent t)
    (options : t.options = .identifiers) (token : Token) (raw : String)
    (means : Means t token raw) : Shows t raw token.spelling ↔ ¬ IsLine raw.toList := by
  have accepted := identifier_iff raw
  cases means with
  | entered label _ present =>
      have entry := coherent.names _ present
      rw [options] at entry
      cases entry with
      | reserved reserved _ => cases reserved
      | counted k _ _ covered shape =>
          have refused : ¬ (IsBareName raw.toList ∨ IsLine raw.toList) := by
            rw [← accepted]
            exact Bool.eq_false_iff.mp covered
          have found := find_name t coherent label raw present
          simp only at shape
          subst shape
          have shows : Shows t raw (Options.identifiers.nameLabel k) :=
            ⟨.inl ⟨k, rfl⟩, fun _ => ⟨k, rfl, found⟩⟩
          exact ⟨fun _ line => refused (.inr line), fun _ => shows⟩
  | bare _ _ bare =>
      rw [options] at bare
      have either := accepted.mp bare
      constructor
      · intro shows line
        rcases shows.written with ⟨k, same⟩ | ⟨name, _⟩
        · exact label_not_identifier k raw either same
        · exact line_not_bare _ line name
      · intro unbroken
        have name := either.resolve_right unbroken
        exact ⟨.inr ⟨name, rfl⟩, fun refused => absurd name refused⟩

theorem pointwise_iff {A B : Type} {related : A → B → Prop} {P : A → Prop} {as : List A}
    {bs : List B} (each : List.Forall₂ (fun a b => related a b ↔ P a) as bs) :
    List.Forall₂ related as bs ↔ ∀ a ∈ as, P a := by
  induction each with
  | nil => simp
  | cons here _ ih => rw [List.forall₂_cons, here, ih, List.forall_mem_cons]

theorem means_undotted (t : Table V) (coherent : Coherent t) (options : t.options = .identifiers)
    (token : Token) (raw : String) (means : Means t token raw) (absent : '.' ∉ raw.toList) :
    '.' ∉ token.spelling.toList := by
  have prefixed : '.' ∉ t.options.namePrefix.toList := by
    rw [options]
    decide
  exact means_absent t coherent token raw means '.' (by decide) (by decide) prefixed absent

theorem unbracketed_cut (p : String) (unbracketed : '[' ∉ p.toList ∨ ']' ∉ p.toList) :
    ∀ raw ∈ Text.split "." p, Segment.ofString raw = ⟨raw, ""⟩ := by
  intro raw inside
  apply of_string_unindexed
  rcases unbracketed with opened | closed
  · exact .inr (Text.split_dot_lacks '[' p opened raw inside)
  · have absent := Text.split_dot_lacks ']' p closed raw inside
    exact .inl fun last => absent (List.mem_of_getLast? last)

theorem path_pieces (t : Table V) (coherent : Coherent t) (options : t.options = .identifiers)
    (p : String) (unbracketed : '[' ∉ p.toList ∨ ']' ∉ p.toList) :
    List.Forall₂ (fun raw piece => ∃ token, Means (t.addPath p).2 token raw ∧
      piece = token.spelling) (Text.split "." p) (Text.split "." (t.addPath p).1.text) := by
  obtain ⟨grown, spelled⟩ := add_path_spelled t coherent p
  obtain ⟨pieces, present, text, each⟩ := spelled_text _ _ _ spelled
  have segments : t.options.segments p = (Text.split "." p).map Segment.ofString := by
    rw [options]
    rfl
  rw [segments, List.forall₂_map_left_iff] at each
  have known : List.Forall₂ (fun raw piece => ∃ token, Means (t.addPath p).2 token raw ∧
      piece = token.spelling) (Text.split "." p) pieces := by
    refine ((List.forall₂_and_left _ _).mpr ⟨unbracketed_cut p unbracketed, each⟩).imp ?_
    rintro raw piece ⟨cut, token, means, rfl⟩
    rw [cut] at means ⊢
    exact ⟨token, means, String.append_empty⟩
  have undotted : ∀ piece ∈ pieces, '.' ∉ piece.toList := by
    refine all_related (P := fun piece => '.' ∉ piece.toList) known.flip
      (Text.split_dot_absent p) ?_
    rintro piece raw ⟨token, means, rfl⟩ absent
    exact means_undotted _ grown.coherent (grown.options.trans options) token raw means absent
  rwa [text, Text.split_dot_intercalate pieces present undotted]

theorem bare_names_iff (t : Table V) (reached : t.Reached .identifiers) (p : String)
    (unbracketed : '[' ∉ p.toList ∨ ']' ∉ p.toList) :
    List.Forall₂ (Shows (t.addPath p).2) (Text.split "." p)
        (Text.split "." (t.addPath p).1.text) ↔
      ∀ raw ∈ Text.split "." p, ¬ IsLine raw.toList := by
  obtain ⟨coherent, options⟩ := reached_coherent _ identifiers_apart t reached
  obtain ⟨grown, _⟩ := add_path_spelled t coherent p
  refine pointwise_iff ((path_pieces t coherent options p unbracketed).imp ?_)
  rintro raw piece ⟨token, means, rfl⟩
  exact means_shows_iff _ grown.coherent (grown.options.trans options) token raw means

def memberTable : Table Nat := ({ options := .identifiers } : Table Nat).enter (.path "first name")

theorem member_reached : memberTable.Reached .identifiers := .enter _ (.path "first name") .fresh

theorem member_path_bare :
    memberTable.Reached .identifiers ∧
      ('[' ∉ "owner.a1.1a.first name".toList ∨ ']' ∉ "owner.a1.1a.first name".toList) ∧
      (memberTable.addPath "owner.a1.1a.first name").1.text = "owner.a1.#n1.#n0" ∧
      List.Forall₂ (Shows (memberTable.addPath "owner.a1.1a.first name").2)
        (Text.split "." "owner.a1.1a.first name")
        (Text.split "." (memberTable.addPath "owner.a1.1a.first name").1.text) := by
  have unbracketed :
      '[' ∉ "owner.a1.1a.first name".toList ∨ ']' ∉ "owner.a1.1a.first name".toList :=
    .inl (by decide)
  refine ⟨member_reached, unbracketed, by decide +kernel, ?_⟩
  apply (bare_names_iff memberTable member_reached _ unbracketed).mpr
  intro raw inside line
  exact Text.split_dot_lacks '\n' _ (by decide) raw inside (line_broken _ line)

theorem line_left_bare :
    memberTable.Reached .identifiers ∧ (memberTable.addPath "owner\n").1.text = "owner\n" ∧
      ¬ List.Forall₂ (Shows (memberTable.addPath "owner\n").2) (Text.split "." "owner\n")
        (Text.split "." (memberTable.addPath "owner\n").1.text) := by
  have text : (memberTable.addPath "owner\n").1.text = "owner\n" := by decide +kernel
  have line : IsLine "owner\n".toList :=
    .ended ['o', 'w', 'n', 'e', 'r'] (.letter 'o' _ (by decide) (by simp))
  refine ⟨member_reached, text, ?_⟩
  rw [text, Text.split_dot_whole _ (by decide)]
  intro each
  cases each with
  | cons shows _ =>
      rcases shows.written with ⟨k, same⟩ | ⟨name, _⟩
      · exact label_not_identifier k _ (.inr line) same
      · exact line_not_bare _ line name

end ItemExpr
