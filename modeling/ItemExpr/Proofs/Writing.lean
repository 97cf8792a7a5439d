import ItemExpr.Proofs.Reading
import ItemExpr.Script

set_option autoImplicit false

namespace ItemExpr

def Token.nameLabel? : Token → Option String
  | .name label => some label
  | _ => none

def Token.valueLabel? : Token → Option String
  | .value label => some label
  | _ => none

def Fragment.nameLabels (f : Fragment) : List String := f.filterMap Token.nameLabel?

def Fragment.valueLabels (f : Fragment) : List String := f.filterMap Token.valueLabel?

variable {V : Type}

def Item.symbols (about : List (Symbol V)) : Item V → List (Symbol V)
  | .text s => chars s
  | .path p => pathSymbols p
  | .value v => [.value v]
  | .self => about

def Item.Clear : Item V → Prop
  | .text s => Mute s ∧ Separate s
  | .path p => IsIndexed p
  | .value _ => True
  | .self => True

def itemSymbols (about : List (Symbol V)) (items : List (Item V)) : List (Symbol V) :=
  items.flatMap (Item.symbols about)

structure Written (t : Table V) (f : Fragment) (t' : Table V) (symbols : List (Symbol V)) :
    Prop where
  grown : Extends t t'
  reads : Reads t' f symbols
  separate : Separate (Fragment.text f)
  names : ∀ label ∈ t'.names.map Prod.fst, label ∈ t.names.map Prod.fst ∨ label ∈ f.nameLabels
  values : t'.values.map Prod.fst = t.values.map Prod.fst ++ f.valueLabels

structure Known (t : Table V) (f : Fragment) (symbols : List (Symbol V)) : Prop where
  reads : Reads t f symbols
  separate : Separate (Fragment.text f)
  values : f.valueLabels = []

theorem written_nil (t : Table V) (coherent : Coherent t) : Written t [] t [] where
  grown := extends_refl t coherent
  reads := .nil
  separate := by simp [Separate, Fragment.text_nil]
  names := fun _ present => .inl present
  values := by simp [Fragment.valueLabels]

theorem written_append (t t' t'' : Table V) (f g : Fragment) (symbols others : List (Symbol V))
    (first : Written t f t' symbols) (second : Written t' g t'' others) :
    Written t (f ++ g) t'' (symbols ++ others) where
  grown := extends_trans _ _ _ first.grown second.grown
  reads := reads_append t'' f g symbols others (reads_extends _ _ second.grown f symbols first.reads)
    second.reads second.separate
  separate := by
    rw [Fragment.text_append]
    exact separate_append _ _ first.separate second.separate
  names := by
    intro label present
    rw [Fragment.nameLabels, List.filterMap_append, List.mem_append]
    rcases second.names label present with old | new
    · exact (first.names label old).imp_right .inl
    · exact .inr (.inr new)
  values := by
    rw [second.values, first.values, Fragment.valueLabels, Fragment.valueLabels,
      Fragment.valueLabels, List.filterMap_append, List.append_assoc]

theorem written_text (t : Table V) (coherent : Coherent t) (s : String) (mute : Mute s)
    (separate : Separate s) : Written t [.text s] t (chars s) where
  grown := extends_refl t coherent
  reads := by simpa using Reads.text s [] [] mute (.nil (t := t))
  separate := by simpa [Fragment.text_cons, Fragment.text_nil, Token.spelling] using separate
  names := fun _ present => .inl present
  values := by simp [Fragment.valueLabels, Token.valueLabel?]

theorem written_known (t : Table V) (coherent : Coherent t) (f : Fragment)
    (symbols : List (Symbol V)) (known : Known t f symbols) : Written t f t symbols where
  grown := extends_refl t coherent
  reads := known.reads
  separate := known.separate
  names := fun _ present => .inl present
  values := by rw [known.values, List.append_nil]

theorem written_value (t : Table V) (coherent : Coherent t) (defaults : t.options = {}) (v : V) :
    Written t [(t.addValue v).1] (t.addValue v).2 [.value v] where
  grown := add_value_extends t coherent v
  reads := by
    rw [add_value_eq t coherent v, defaults]
    exact .value t.nextValue _ v [] [] rfl (by simp) (by simp [Separate, Fragment.text_nil]) .nil
  separate := by
    rw [add_value_eq t coherent v, defaults]
    simp [Separate, Fragment.text_cons, Fragment.text_nil, Token.spelling, value_label_chars]
  names := by
    rw [add_value_eq t coherent v]
    exact fun _ present => .inl present
  values := by
    rw [add_value_eq t coherent v]
    simp [Fragment.valueLabels, Token.valueLabel?]

theorem default_label (bound : Nat) (label name : String) (entry : Alias {} bound label name) :
    ∃ k, label = Options.nameLabel {} k := by
  cases entry with
  | reserved reserved => simp at reserved
  | counted k _ _ _ shape => exact ⟨k, shape⟩

theorem means_default (t : Table V) (coherent : Coherent t) (defaults : t.options = {})
    (token : Token) (name : String) (means : Means t token name) :
    ∃ k, token = .name (Options.nameLabel {} k) ∧ (Options.nameLabel {} k, name) ∈ t.names := by
  cases means with
  | entered label _ present =>
      have entry := coherent.names _ present
      rw [defaults] at entry
      obtain ⟨k, shape⟩ := default_label _ _ _ entry
      exact ⟨k, congrArg Token.name shape, shape ▸ present⟩
  | bare _ _ bare => simp [defaults] at bare

theorem add_name_default (t : Table V) (coherent : Coherent t) (defaults : t.options = {})
    (name : String) :
    ∃ k label, label = Options.nameLabel {} k ∧ (t.addName name).1 = .name label ∧
      (label, name) ∈ (t.addName name).2.names ∧ (t.addName name).2.values = t.values ∧
      ∀ other ∈ (t.addName name).2.names.map Prod.fst,
        other ∈ t.names.map Prod.fst ∨ other = label := by
  rcases add_name_cases t coherent name with ⟨same, means⟩ | ⟨label, next, written, _, _, entry⟩
  · rw [same]
    generalize (t.addName name).1 = token at means
    obtain ⟨k, rfl, present⟩ := means_default t coherent defaults token name means
    exact ⟨k, _, rfl, rfl, present, rfl, fun _ known => .inl known⟩
  · rw [defaults] at entry
    obtain ⟨k, shape⟩ := default_label _ _ _ entry
    rw [written]
    refine ⟨k, label, shape, rfl, by simp, rfl, ?_⟩
    intro other present
    rw [List.map_append, List.mem_append] at present
    exact present.imp_right List.mem_singleton.mp

theorem written_name (t : Table V) (coherent : Coherent t) (defaults : t.options = {})
    (name : String) : Written t [(t.addName name).1] (t.addName name).2 [.name name] := by
  obtain ⟨k, label, shape, token, present, values, names⟩ :=
    add_name_default t coherent defaults name
  rw [token]
  exact
    { grown := (add_name_extends t coherent name).1
      reads := .name k label name [] [] shape present (by simp [Separate, Fragment.text_nil]) .nil
      separate := by
        simp [Separate, Fragment.text_cons, Fragment.text_nil, Token.spelling, shape,
          name_label_chars]
      names := fun other known => (names other known).imp_right
        (by simp [Fragment.nameLabels, Token.nameLabel?])
      values := by simp [values, Fragment.valueLabels, Token.valueLabel?] }

theorem indexes_separate (s : String) : Separate (Segment.ofString s).indexes := by
  obtain ⟨_, cut⟩ | ⟨head, tail, _, _, _, cut⟩ := segment_shape s
  · simp [cut, Separate]
  · simp [cut, Separate]

theorem indexes_quiet (s : String) (indexed : ∀ c ∈ s.toList, isIndexChar c = true) : Quiet s := by
  intro c present
  have index := indexed c present
  constructor
  · rintro rfl
    simp [isIndexChar] at index
  · rintro rfl
    simp [isIndexChar] at index

theorem written_segment (t : Table V) (coherent : Coherent t) (defaults : t.options = {})
    (s : Segment) (separate : Separate s.indexes)
    (indexed : ∀ c ∈ s.indexes.toList, isIndexChar c = true) :
    Written t (t.addSegment s).1 (t.addSegment s).2 s.symbols := by
  have name := written_name t coherent defaults s.name
  have indexes := written_text (t.addName s.name).2 name.grown.coherent s.indexes
    (quiet_mute _ (indexes_quiet _ indexed)) separate
  exact written_append _ _ _ _ _ _ _ name indexes

theorem dot_clear : Quiet "." ∧ Separate "." := by
  simp [Quiet, Separate]

theorem written_segments (t : Table V) (coherent : Coherent t) (defaults : t.options = {})
    (segments : List Segment)
    (clear : ∀ s ∈ segments, Separate s.indexes ∧ ∀ c ∈ s.indexes.toList, isIndexChar c = true) :
    Written t (t.addSegments segments).1 (t.addSegments segments).2 (segmentSymbols segments) := by
  match segments with
  | [] => exact written_nil t coherent
  | [s] =>
      obtain ⟨separate, indexed⟩ := clear s (by simp)
      have symbols : segmentSymbols [s] = (s.symbols : List (Symbol V)) := by simp [segmentSymbols]
      rw [symbols]
      exact written_segment t coherent defaults s separate indexed
  | s :: next :: rest =>
      rw [List.forall_mem_cons] at clear
      have first := written_segment t coherent defaults s clear.1.1 clear.1.2
      have dot := written_text (t.addSegment s).2 first.grown.coherent "."
        (quiet_mute _ dot_clear.1) dot_clear.2
      have others := written_segments (t.addSegment s).2 first.grown.coherent
        (first.grown.options.trans defaults) (next :: rest) clear.2
      rw [segment_symbols_cons]
      exact written_append _ _ _ _ _ _ _ first (written_append _ _ _ _ _ _ _ dot others)

theorem written_path (t : Table V) (coherent : Coherent t) (defaults : t.options = {}) (p : String)
    (indexed : IsIndexed p) : Written t (t.addPath p).1 (t.addPath p).2 (pathSymbols p) := by
  rw [Table.addPath, defaults]
  apply written_segments t coherent defaults
  intro s present
  refine ⟨?_, indexed s present⟩
  obtain ⟨raw, _, rfl⟩ := List.mem_map.mp present
  exact indexes_separate raw

theorem written_item (t : Table V) (coherent : Coherent t) (defaults : t.options = {})
    (self : Fragment) (about : List (Symbol V)) (known : Known t self about)
    (item : Item V) (clear : item.Clear) :
    Written t (t.writeItem self item).1 (t.writeItem self item).2 (item.symbols about) := by
  cases item with
  | text s => exact written_text t coherent s clear.1 clear.2
  | path p => exact written_path t coherent defaults p clear
  | value v => exact written_value t coherent defaults v
  | self => exact written_known t coherent self about known

theorem known_extends (t t' : Table V) (later : Extends t t') (f : Fragment)
    (symbols : List (Symbol V)) (known : Known t f symbols) : Known t' f symbols where
  reads := reads_extends t t' later f symbols known.reads
  separate := known.separate
  values := known.values

-- The attribute in question is written first and mentioned again later, so what is known of it has
-- to outlast the entries between.
theorem write_written (t : Table V) (coherent : Coherent t) (defaults : t.options = {})
    (self : Fragment) (about : List (Symbol V)) (known : Known t self about)
    (items : List (Item V)) (clear : ∀ item ∈ items, item.Clear) :
    Written t (t.write self items).1 (t.write self items).2 (itemSymbols about items) := by
  induction items generalizing t with
  | nil => exact written_nil t coherent
  | cons item rest ih =>
      rw [List.forall_mem_cons] at clear
      have first := written_item t coherent defaults self about known item clear.1
      have others := ih (t.writeItem self item).2 first.grown.coherent
        (first.grown.options.trans defaults) (known_extends _ _ first.grown _ _ known) clear.2
      exact written_append _ _ _ _ _ _ _ first others

end ItemExpr
