import ItemExpr.Proofs.Writing

set_option autoImplicit false

namespace ItemExpr

inductive IsIndexes : List Char → Prop
  | none : IsIndexes []
  | more (digits rest : List Char) : digits ≠ [] → (∀ c ∈ digits, c.isDigit = true) →
      IsIndexes rest → IsIndexes ('[' :: (digits ++ ']' :: rest))

inductive IsPiece : List Char → Prop
  | aliased (digits indexes : List Char) : digits ≠ [] → (∀ c ∈ digits, c.isDigit = true) →
      IsIndexes indexes → IsPiece ('#' :: 'n' :: (digits ++ indexes))

def IsAliased (s : String) : Prop :=
  ∃ pieces : List String, pieces ≠ [] ∧ (∀ piece ∈ pieces, IsPiece piece.toList) ∧
    s = ".".intercalate pieces

inductive Cut (raw : String) : String → String → Prop
  | indexed (name indexes : String) : raw = name ++ indexes → '[' ∉ name.toList →
      IsIndexes indexes.toList → Cut raw name indexes
  | whole : (∀ name indexes : String, raw = name ++ indexes → '[' ∉ name.toList →
      ¬ IsIndexes indexes.toList) → Cut raw raw ""

def WritesSegments {V : Type} (t : Table V) (raws : List String) (s : String) : Prop :=
  ∃ pieces : List String, s = ".".intercalate pieces ∧
    List.Forall₂ (fun raw piece => ∃ name indexes k, Cut raw name indexes ∧
      (Options.standard.nameLabel k, name) ∈ t.names ∧
      piece = Options.standard.nameLabel k ++ indexes)
      raws pieces

-- If the segment ends in a bracket, nothing but list indexes follows the first one.
def IsRegular (raw : String) : Prop :=
  ∀ head tail, raw.toList = head ++ '[' :: tail → '[' ∉ head → tail.getLast? = some ']' →
    IsIndexes ('[' :: tail)

variable {V : Type}

theorem indexes_front (s : List Char) (indexes : IsIndexes s) : ∀ c ∈ s.head?, c = '[' := by
  cases indexes with
  | none => simp
  | more digits rest _ _ _ => simp

theorem indexes_chars (s : List Char) (indexes : IsIndexes s) : ∀ c ∈ s, isIndexChar c = true := by
  induction indexes with
  | none => simp
  | more digits rest _ numeric _ ih =>
      intro c present
      rcases List.mem_cons.mp present with rfl | inside
      · rfl
      · rcases List.mem_append.mp inside with digit | later
        · simp [isIndexChar, numeric c digit]
        · rcases List.mem_cons.mp later with rfl | after
          · rfl
          · exact ih c after

theorem indexes_end (s : List Char) (indexes : IsIndexes s) (present : s ≠ []) :
    s.getLast? = some ']' := by
  induction indexes with
  | none => exact absurd rfl present
  | more digits rest _ _ _ ih =>
      cases rest with
      | nil => simp [List.getLast?_cons, List.getLast?_append]
      | cons c rest =>
          have last := ih (List.cons_ne_nil _ _)
          simpa [List.getLast?_cons, List.getLast?_append] using last

theorem regular_iff (raw : String) :
    IsRegular raw ↔ IsIndexes (Segment.ofString raw).indexes.toList := by
  constructor
  · intro regular
    obtain ⟨_, cut⟩ | ⟨head, tail, shape, absent, closed, cut⟩ := segment_shape raw
    · simpa [cut] using IsIndexes.none
    · rw [cut, String.toList_ofList]
      exact regular head tail (by simp [shape]) absent closed
  · intro indexes head tail shape absent closed
    have written : raw = String.ofList (head ++ '[' :: tail) := by rw [← shape, String.ofList_toList]
    rw [written, of_string_indexed head tail absent closed, String.toList_ofList] at indexes
    exact indexes

theorem regular_cut (raw : String) (regular : IsRegular raw) :
    Cut raw (Segment.ofString raw).name (Segment.ofString raw).indexes := by
  have indexes := (regular_iff raw).mp regular
  obtain ⟨unindexed, cut⟩ | ⟨head, tail, shape, absent, _, cut⟩ := segment_shape raw
  · rw [cut]
    by_cases opened : '[' ∈ raw.toList
    · apply Cut.whole
      intro name rest whole absent numeric
      have inside : '[' ∈ rest.toList := by simpa [whole, absent] using opened
      have last := indexes_end rest.toList numeric (List.ne_nil_of_mem inside)
      have closed : raw.toList.getLast? = some ']' := by
        simp [whole, List.getLast?_append, last]
      exact unindexed.elim (fun other => other closed) fun other => other opened
    · exact .indexed raw "" (by simp) opened .none
  · rw [cut] at indexes ⊢
    exact .indexed _ _ (by rw [shape, String.ofList_append]) (by simpa using absent) indexes

theorem spelled_text (t : Table V) (segments : List Segment) (f : Fragment)
    (spelled : Spelled t segments f) :
    ∃ pieces : List String, pieces ≠ [] ∧ f.text = ".".intercalate pieces ∧
      List.Forall₂ (fun s piece => ∃ token, Means t token s.name ∧
        piece = token.spelling ++ s.indexes) segments pieces := by
  induction spelled with
  | last token s means =>
      refine ⟨[token.spelling ++ s.indexes], by simp, ?_, .cons ⟨token, means, rfl⟩ .nil⟩
      simp [Fragment.text_cons, Fragment.text_nil, Token.spelling]
  | cons token s rest f means _ ih =>
      obtain ⟨pieces, some, text, each⟩ := ih
      refine ⟨(token.spelling ++ s.indexes) :: pieces, by simp, ?_, .cons ⟨token, means, rfl⟩ each⟩
      rw [String.intercalate_cons_of_ne_nil some, ← text]
      simp [Fragment.text_cons, Token.spelling, String.append_assoc]

theorem spelled_pieces (t : Table V) (coherent : Coherent t) (defaults : t.options = {})
    (segments : List Segment) (f : Fragment) (spelled : Spelled t segments f) :
    ∃ pieces : List String, pieces ≠ [] ∧ f.text = ".".intercalate pieces ∧
      List.Forall₂ (fun s piece => ∃ k, (Options.nameLabel {} k, s.name) ∈ t.names ∧
        piece = Options.nameLabel {} k ++ s.indexes) segments pieces := by
  obtain ⟨pieces, present, text, each⟩ := spelled_text t segments f spelled
  refine ⟨pieces, present, text, each.imp ?_⟩
  rintro s piece ⟨token, means, rfl⟩
  obtain ⟨k, rfl, known⟩ := means_default t coherent defaults token s.name means
  exact ⟨k, known, rfl⟩

theorem label_piece (k : Nat) (indexes : String) (numeric : IsIndexes indexes.toList) :
    IsPiece (Options.nameLabel {} k ++ indexes).toList := by
  have letters : (Options.nameLabel {} k ++ indexes).toList =
      '#' :: 'n' :: (Nat.toDigits 10 k ++ indexes.toList) := by
    simp [name_label_chars]
  rw [letters]
  exact .aliased _ _ Nat.toDigits_ne_nil (numeral_digits k) numeric

theorem piece_indexes (k : Nat) (indexes : String) (separate : Separate indexes)
    (piece : IsPiece (Options.nameLabel {} k ++ indexes).toList) : IsIndexes indexes.toList := by
  have letters : (Options.nameLabel {} k ++ indexes).toList =
      '#' :: 'n' :: (Nat.toDigits 10 k ++ indexes.toList) := by
    simp [name_label_chars]
  generalize whole : (Options.nameLabel {} k ++ indexes).toList = s at letters piece
  cases piece with
  | aliased digits rest _ numeric inside =>
      have front : ∀ c ∈ rest.head?, c.isDigit = false := by
        intro c head
        rw [indexes_front rest inside c head]
        rfl
      have split := span_boundary Char.isDigit digits rest numeric front
      have same : digits ++ rest = Nat.toDigits 10 k ++ indexes.toList := by simpa using letters
      rw [same] at split
      have other := span_boundary Char.isDigit _ indexes.toList (numeral_digits k) separate
      rw [← other.2, split.2]
      exact inside

theorem piece_chars (s : List Char) (piece : IsPiece s) :
    ∀ c ∈ s, c = '#' ∨ c = 'n' ∨ isIndexChar c = true := by
  cases piece with
  | aliased digits indexes _ numeric inside =>
      intro c present
      simp only [List.mem_cons, List.mem_append] at present
      rcases present with mark | letter | digit | index
      · exact .inl mark
      · exact .inr (.inl letter)
      · exact .inr (.inr (by simp [isIndexChar, numeric c digit]))
      · exact .inr (.inr (indexes_chars indexes inside c index))

theorem piece_undotted (s : List Char) (piece : IsPiece s) : '.' ∉ s := by
  intro present
  simpa [isIndexChar] using piece_chars s piece '.' present

theorem aliased_pieces (s : String) (aliased : IsAliased s) :
    ∀ piece ∈ Text.split "." s, IsPiece piece.toList := by
  obtain ⟨pieces, present, each, rfl⟩ := aliased
  rwa [Text.split_dot_intercalate pieces present fun piece inside =>
    piece_undotted _ (each piece inside)]

theorem all_related {A B : Type} {related : A → B → Prop} {P : A → Prop} {Q : B → Prop}
    {as : List A} {bs : List B} (each : List.Forall₂ related as bs) (right : ∀ b ∈ bs, Q b)
    (step : ∀ a b, related a b → Q b → P a) : ∀ a ∈ as, P a := by
  induction each with
  | nil => simp
  | cons here _ ih =>
      rw [List.forall_mem_cons] at right ⊢
      exact ⟨step _ _ here right.1, ih right.2⟩

theorem writes_aliased (t : Table V) (p s : String)
    (writes : WritesSegments t (Text.split "." p) s) : IsAliased s := by
  obtain ⟨pieces, text, each⟩ := writes
  refine ⟨pieces, ?_, ?_, text⟩
  · rintro rfl
    exact Text.split_ne_nil "." p (List.forall₂_nil_right_iff.mp each)
  · refine all_related (P := fun piece => IsPiece piece.toList) (Q := fun _ => True) each.flip
      (fun _ _ => trivial) ?_
    rintro piece raw ⟨name, indexes, k, cut, _, rfl⟩ _
    apply label_piece k indexes
    cases cut with
    | indexed _ _ _ _ numeric => exact numeric
    | whole _ => exact .none

section Segments

variable (t : Table V) (p : String) (pieces : List String)
  (each : List.Forall₂ (fun raw piece =>
    ∃ k, (Options.nameLabel {} k, (Segment.ofString raw).name) ∈ t.names ∧
      piece = Options.nameLabel {} k ++ (Segment.ofString raw).indexes) (Text.split "." p) pieces)

include each

theorem regular_writes (regular : ∀ raw ∈ Text.split "." p, IsRegular raw) :
    WritesSegments t (Text.split "." p) (".".intercalate pieces) := by
  refine ⟨pieces, rfl, ((List.forall₂_and_left _ _).mpr ⟨regular, each⟩).imp ?_⟩
  rintro raw piece ⟨regular, k, present, shape⟩
  exact ⟨_, _, k, regular_cut raw regular, present, shape⟩

theorem aliased_regular (present : pieces ≠ []) (undotted : ∀ piece ∈ pieces, '.' ∉ piece.toList)
    (aliased : IsAliased (".".intercalate pieces)) : ∀ raw ∈ Text.split "." p, IsRegular raw := by
  have written := aliased_pieces _ aliased
  rw [Text.split_dot_intercalate pieces present undotted] at written
  refine all_related (P := IsRegular) each written ?_
  rintro raw piece ⟨k, _, rfl⟩ isPiece
  exact (regular_iff raw).mpr (piece_indexes k _ (indexes_separate raw) isPiece)

theorem pieces_undotted : ∀ piece ∈ pieces, '.' ∉ piece.toList := by
  refine all_related (P := fun piece => '.' ∉ piece.toList) each.flip (Text.split_dot_absent p) ?_
  rintro piece raw ⟨k, _, rfl⟩ absent
  have outside : '.' ∉ (Segment.ofString raw).indexes.toList := by
    have whole := of_string_text raw
    rw [Segment.text] at whole
    rw [← whole] at absent
    simp at absent
    exact absent.2
  have digits : '.' ∉ Nat.toDigits 10 k := fun inside => by simpa using numeral_digits k '.' inside
  simp [name_label_chars, outside, digits]

end Segments

-- A path is written in aliases and list indexes alone, and as its segments are to be cut, exactly
-- if all of its segments are regular.
theorem aliased_iff_regular (t : Table V) (reached : t.Reached {}) (p : String) :
    (IsAliased (t.addPath p).1.text ↔ ∀ raw ∈ Text.split "." p, IsRegular raw) ∧
      (WritesSegments (t.addPath p).2 (Text.split "." p) (t.addPath p).1.text ↔
        ∀ raw ∈ Text.split "." p, IsRegular raw) := by
  obtain ⟨coherent, defaults⟩ := reached_coherent {} default_apart t reached
  obtain ⟨grown, spelled⟩ := add_path_spelled t coherent p
  obtain ⟨pieces, present, text, each⟩ := spelled_pieces _ grown.coherent
    (grown.options.trans defaults) _ _ spelled
  have segments : t.options.segments p = (Text.split "." p).map Segment.ofString := by
    simp [Options.segments, defaults]
  rw [segments, List.forall₂_map_left_iff] at each
  have regular := aliased_regular _ p pieces each present (pieces_undotted _ p pieces each)
  have writes := regular_writes _ p pieces each
  rw [text]
  exact ⟨⟨regular, fun all => writes_aliased _ p _ (writes all)⟩,
    fun written => regular (writes_aliased _ p _ written), writes⟩

def ordersTable : Table Nat := ({ options := .standard } : Table Nat).enter (.path "orders")

theorem orders_reached : ordersTable.Reached {} := .enter _ (.path "orders") .fresh

theorem item_path_aliased :
    ordersTable.Reached {} ∧
      (ordersTable.addPath "orders[0][12].b].[").1.text = "#n0[0][12].#n1.#n2" ∧
      IsAliased (ordersTable.addPath "orders[0][12].b].[").1.text := by
  have pieces : Text.split "." "orders[0][12].b].[" = ["orders[0][12]", "b]", "["] := by
    decide +kernel
  have cuts : Segment.ofString "orders[0][12]" = ⟨"orders", "[0][12]"⟩ ∧
      Segment.ofString "b]" = ⟨"b]", ""⟩ ∧ Segment.ofString "[" = ⟨"[", ""⟩ := by
    decide +kernel
  have numeric : IsIndexes "[0][12]".toList :=
    .more ['0'] _ (by simp) (by simp) (.more ['1', '2'] [] (by simp) (by simp) .none)
  have regular : ∀ raw ∈ Text.split "." "orders[0][12].b].[", IsRegular raw := by
    rw [pieces]
    simp only [List.forall_mem_cons, regular_iff, cuts]
    exact ⟨numeric, .none, .none, by simp⟩
  exact ⟨orders_reached, by decide +kernel,
    (aliased_iff_regular ordersTable orders_reached _).1.mpr regular⟩

theorem bracketed_text_leaks :
    ordersTable.Reached {} ∧ (ordersTable.addPath "a[0] OR a[1]").1.text = "#n1[0] OR a[1]" ∧
      ¬ IsAliased (ordersTable.addPath "a[0] OR a[1]").1.text := by
  have text : (ordersTable.addPath "a[0] OR a[1]").1.text = "#n1[0] OR a[1]" := by decide +kernel
  refine ⟨orders_reached, text, ?_⟩
  rw [text]
  intro aliased
  have pieces := aliased_pieces _ aliased
  rw [Text.split_dot_whole _ (by decide), List.forall_mem_singleton] at pieces
  simpa [isIndexChar] using piece_chars _ pieces ' ' (by decide)

end ItemExpr
