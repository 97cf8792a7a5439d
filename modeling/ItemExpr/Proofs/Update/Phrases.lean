import ItemExpr.Proofs.Text.Words
import ItemExpr.Proofs.Update.Appending
import ItemExpr.Proofs.Update.Meaning

set_option autoImplicit false

namespace ItemExpr

namespace Text

structure IsWord (w : List Char) : Prop where
  shut : Shut w
  -- Keywords are in capitals.
  mixed : w.all Char.isUpper = false
  ended : w.getLast? ≠ some ','

def IsPhrase (s : List Char) : Prop := ∀ w ∈ wordsFrom (.outside 0) s, IsWord w

def isBare (c : Char) : Bool := isPlain c && c ≠ ','

theorem bare_shut (s : List Char) (bare : s.all isBare = true) : Shut s := by
  apply plain_shut
  rw [List.all_eq_true] at bare ⊢
  exact fun c present => (Bool.and_eq_true_iff.mp (bare c present)).1

theorem bare_ended (s : List Char) (bare : s.all isBare = true) : s.getLast? ≠ some ',' := by
  intro last
  have comma := List.all_eq_true.mp bare ',' (List.mem_of_getLast? last)
  simp [isBare] at comma

theorem digit_bare (c : Char) (digit : c.isDigit = true) : isBare c = true := by
  have apart (d : Char) (other : d.isDigit = false) : c ≠ d := by
    rintro rfl
    simp [digit] at other
  simp [isBare, isPlain, isQuote, apart]

theorem index_bare (c : Char) (index : isIndexChar c = true) : isBare c = true := by
  have shape : (c.isDigit = true ∨ c = '[') ∨ c = ']' := by simpa [isIndexChar] using index
  rcases shape with (digit | rfl) | rfl
  · exact digit_bare c digit
  · rfl
  · rfl

theorem word_bare (s : List Char) (bare : s.all isBare = true)
    (mixed : s.all Char.isUpper = false) : IsWord s where
  shut := bare_shut s bare
  mixed := mixed
  ended := bare_ended s bare

theorem word_append (a b : List Char) (first : IsWord a) (second : IsWord b) : IsWord (a ++ b) where
  shut := shut_append a b first.shut second.shut
  mixed := by rw [List.all_append, first.mixed, Bool.false_and]
  ended := by
    have present : b ≠ [] := by
      rintro rfl
      exact absurd second.mixed (by simp)
    rw [List.getLast?_append_of_ne_nil a present]
    exact second.ended

theorem word_suffix (a s : List Char) (word : IsWord a) (bare : s.all isBare = true) :
    IsWord (a ++ s) where
  shut := shut_append a s word.shut (bare_shut s bare)
  mixed := by rw [List.all_append, word.mixed, Bool.false_and]
  ended := by
    rw [List.getLast?_append]
    cases last : s.getLast? with
    | none => exact word.ended
    | some c => simpa [last] using bare_ended s bare

theorem call_word (name inner : List Char) (named : Shut name)
    (inside : ∀ depth, Leads (.outside (depth + 1)) inner (.outside (depth + 1))) :
    IsWord (name ++ '(' :: (inner ++ [')'])) where
  shut := shut_append name _ named (bracketed_shut inner inside)
  mixed := by
    have bracket : Char.isUpper ')' = false := rfl
    simp [bracket]
  ended := by simp [List.getLast?_append, List.getLast?_cons]

theorem pair_word (name l r : List Char) (named : Shut name) (left : IsWord l) (right : IsWord r) :
    IsWord (name ++ '(' :: (l ++ ([',', ' '] ++ r) ++ [')'])) :=
  call_word name _ named fun depth =>
    leads_append _ _ _ l _ (left.shut (depth + 1))
      (leads_append _ _ _ [',', ' '] r (comma_leads depth) (right.shut (depth + 1)))

theorem quoted_word (name : List Char) (named : Shut name) (p : String) :
    IsWord (name ++ '(' :: ((quoted p).toList ++ [')'])) :=
  call_word name _ named fun depth => quoted_shut p (depth + 1)

theorem word_phrase (w : List Char) (word : IsWord w) : IsPhrase w := by
  rw [IsPhrase, words_whole w word.shut]
  simpa using word

theorem phrase_cons (w s : List Char) (word : IsWord w) (phrase : IsPhrase s) :
    IsPhrase (w ++ ' ' :: s) := by
  rw [IsPhrase, words_cons w s word.shut, List.forall_mem_cons]
  exact ⟨word, phrase⟩

theorem equals_phrase (w s : List Char) (word : IsWord w) (phrase : IsPhrase s) :
    IsPhrase (w ++ ([' ', '=', ' '] ++ s)) :=
  phrase_cons w _ word (phrase_cons ['='] s (word_bare _ (by decide) (by decide)) phrase)

end Text

open Text

variable {V : Type}

theorem name_label_word (k : Nat) : IsWord (Options.nameLabel {} k).toList := by
  rw [name_label_chars]
  refine word_suffix ['#', 'n'] _ (word_bare _ (by decide) (by decide)) ?_
  exact List.all_eq_true.mpr fun c present => digit_bare c (numeral_digits k c present)

theorem value_label_word (k : Nat) : IsWord (Options.valueLabel {} k).toList := by
  rw [value_label_chars]
  refine word_suffix [':', 'v'] _ (word_bare _ (by decide) (by decide)) ?_
  exact List.all_eq_true.mpr fun c present => digit_bare c (numeral_digits k c present)

theorem indexes_bare (s : Segment) (indexed : ∀ c ∈ s.indexes.toList, isIndexChar c = true) :
    s.indexes.toList.all isBare = true :=
  List.all_eq_true.mpr fun c present => index_bare c (indexed c present)

theorem spelled_word (t : Table V) (coherent : Coherent t) (defaults : t.options = {})
    (segments : List Segment) (indexed : ∀ s ∈ segments, ∀ c ∈ s.indexes.toList, isIndexChar c = true)
    (f : Fragment) (spelled : Spelled t segments f) : IsWord f.text.toList := by
  induction spelled with
  | last token s means =>
      obtain ⟨k, rfl, _⟩ := means_default t coherent defaults token s.name means
      have bare := indexes_bare s (indexed s (List.mem_singleton_self s))
      simpa [Fragment.text_cons, Fragment.text_nil, Token.spelling] using
        word_suffix _ s.indexes.toList (name_label_word k) bare
  | cons token s rest f means _ ih =>
      obtain ⟨k, rfl, _⟩ := means_default t coherent defaults token s.name means
      rw [List.forall_mem_cons] at indexed
      have first := word_suffix _ s.indexes.toList (name_label_word k) (indexes_bare s indexed.1)
      have dotted := word_suffix _ ['.'] first (by decide)
      simpa [Fragment.text_cons, Token.spelling] using word_append _ _ dotted (ih indexed.2)

theorem path_word (t : Table V) (reached : t.Reached .standard) (p : String) (indexed : IsIndexed p) :
    IsWord (t.addPath p).1.text.toList := by
  obtain ⟨coherent, defaults⟩ := reached_coherent {} default_apart t reached
  obtain ⟨grown, spelled⟩ := add_path_spelled t coherent p
  rw [defaults] at spelled
  exact spelled_word _ grown.coherent (grown.options.trans defaults) _ indexed _ spelled

theorem value_word (t : Table V) (reached : t.Reached .standard) (v : V) :
    IsWord (Fragment.text [(t.addValue v).1]).toList := by
  obtain ⟨coherent, defaults⟩ := reached_coherent {} default_apart t reached
  rw [add_value_eq t coherent v, defaults]
  simpa [Fragment.text_cons, Fragment.text_nil, Token.spelling] using value_label_word t.nextValue

def Prints (target : Fragment) (s : Script V) (Kind : List Char → Prop) : Prop :=
  ∀ t t' f, t.Reached .standard → s.run target t = (.ok f, t') → Kind f.text.toList

section Prints

variable (target : Fragment)

theorem run_append_ok (a b : Script V) (t t' : Table V) (f : Fragment)
    (ran : (a ++ b).run target t = (.ok f, t')) :
    ∃ front middle back, a.run target t = (.ok front, middle) ∧
      b.run target middle = (.ok back, t') ∧ f = front ++ back := by
  cases fault : a.fault with
  | some e =>
      rw [Script.append_of_fault a b e fault] at ran
      simp [Script.run, fault] at ran
  | none =>
      refine ⟨(t.write target a.items).1, (t.write target a.items).2,
        ((t.write target a.items).2.write target b.items).1, by rw [Script.run, fault], ?_⟩
      rw [Script.append_of_sound a b fault] at ran
      cases later : b.fault with
      | some e => simp [Script.run, later] at ran
      | none =>
          simp only [Script.run, later, Table.write_append, Prod.mk.injEq, Except.ok.injEq] at ran
          simp [Script.run, later, ran]

theorem append_prints (a b : Script V) (Kind : List Char → Prop)
    (first : Prints target a fun x => Prints target b fun y => Kind (x ++ y)) :
    Prints target (a ++ b) Kind := by
  intro t t' f reached ran
  obtain ⟨front, middle, back, ranFirst, ranSecond, rfl⟩ := run_append_ok target a b t t' f ran
  have entered := enters_reached {} t _ reached (run_enters a target t)
  rw [ranFirst] at entered
  rw [Fragment.text_append, String.toList_append]
  exact first t middle front reached ranFirst middle t' back entered ranSecond

variable (Kind : List Char → Prop)

theorem item_prints (item : Item V)
    (kind : ∀ t : Table V, t.Reached .standard → Kind (t.writeItem target item).1.text.toList) :
    Prints target ⟨[item], none⟩ Kind := by
  intro t t' f reached ran
  simp only [Script.run, Table.write, List.append_nil, Prod.mk.injEq, Except.ok.injEq] at ran
  rw [← ran.1]
  exact kind t reached

theorem text_prints (s : String) (kind : Kind s.toList) :
    Prints target (Script.text s : Script V) Kind := by
  refine item_prints target Kind (.text s) fun t _ => ?_
  simpa [Table.writeItem, Fragment.text_cons, Fragment.text_nil, Token.spelling] using kind

theorem self_prints (kind : Kind target.text.toList) :
    Prints target (Script.self : Script V) Kind :=
  item_prints target Kind .self fun _ _ => kind

variable (words : ∀ w, IsWord w → Kind w)

include words

theorem path_prints (p : String) (indexed : IsIndexed p) :
    Prints target (Script.path p : Script V) Kind :=
  item_prints target Kind (.path p) fun t reached => words _ (path_word t reached p indexed)

theorem value_prints (v : V) : Prints target (Script.value v) Kind :=
  item_prints target Kind (.value v) fun t reached => words _ (value_word t reached v)

theorem operand_prints (o : Operand V) (indexed : ∀ p ∈ o.paths, IsIndexed p) :
    Prints target o.script Kind := by
  cases o with
  | literal v => exact value_prints target Kind words v
  | path p => exact path_prints target Kind words p (indexed p (by simp [Operand.paths]))
  | pathOr p v =>
      iterate 4 apply append_prints
      refine text_prints target _ _ ?_
      refine path_prints target _ (fun l left => ?_) p (indexed p (by simp [Operand.paths]))
      refine text_prints target _ _ ?_
      refine value_prints target _ (fun r right => ?_) v
      refine text_prints target _ _ ?_
      have call := pair_word "if_not_exists".toList l r (bare_shut _ (by decide)) left right
      simpa using words _ call

theorem operand_or_self_prints (o : Option (Operand V)) (isWord : IsWord target.text.toList)
    (indexed : ∀ p ∈ o.toList.flatMap Operand.paths, IsIndexed p) :
    Prints target (Operand.scriptOrSelf o) Kind := by
  cases o with
  | none => exact self_prints target Kind (words _ isWord)
  | some o => exact operand_prints target Kind words o (by simpa using indexed)

end Prints

theorem between_prints (target : Fragment) (Kind : List Char → Prop) (s : String) (o : Operand V)
    (indexed : ∀ p ∈ o.paths, IsIndexed p)
    (kind : ∀ w, IsWord w → Kind (target.text.toList ++ s.toList ++ w)) :
    Prints target (.self ++ .text s ++ o.script) Kind := by
  iterate 2 apply append_prints
  refine self_prints target _ ?_
  refine text_prints target _ _ ?_
  exact operand_prints target _ kind o indexed

theorem index_prints (target : Fragment) (i : Int) (Kind : List Char → Prop)
    (bare : ∀ s : List Char, s.all isBare = true → Kind s) :
    Prints target (Script.index i : Script V) Kind := by
  by_cases short : Number.isWritable i = true
  · rw [Script.index, if_pos short]
    refine text_prints target Kind _ (bare _ (List.all_eq_true.mpr ?_))
    intro c present
    have shape : c = '[' ∨ c ∈ (toString i).toList ∨ c = ']' := by simpa [toString] using present
    rcases shape with rfl | inside | rfl
    · rfl
    · rcases integer_chars i c inside with rfl | digit
      · rfl
      · exact digit_bare c digit
    · rfl
  · intro t t' f _ ran
    rw [Script.index, if_neg short] at ran
    simp [Script.run, Script.fail] at ran

theorem sign_word (sign : Sign) : IsWord sign.word.spelling.toList := by
  match sign with
  | .plus => exact word_bare _ (by decide) (by decide)
  | .minus => exact word_bare _ (by decide) (by decide)
  | .attribute p =>
      simpa [Sign.word, Word.spelling, attributeForm, toString] using
        quoted_word "Attr".toList (bare_shut _ (by decide)) p
  | .size p =>
      simpa [Sign.word, Word.spelling, sizeForm, toString] using
        quoted_word "Size".toList (bare_shut _ (by decide)) p

-- The script is run piece by piece; what is left is about the text that came out.
theorem clause_prints (a : Action V) (target : Fragment) (indexed : ∀ p ∈ a.paths, IsIndexed p)
    (isWord : IsWord target.text.toList) : ∀ made ∈ a.clauses, Prints target made.2 IsPhrase := by
  intro made present
  cases a with
  | skip => simp [Action.clauses] at present
  | remove =>
      rw [List.mem_singleton.mp present]
      exact self_prints target _ (word_phrase _ isWord)
  | assign o =>
      rw [List.mem_singleton.mp present]
      refine between_prints target _ " = " o indexed fun w word => ?_
      simpa using equals_phrase _ w isWord (word_phrase w word)
  | assignDefault o =>
      rw [List.mem_singleton.mp present]
      iterate 5 apply append_prints
      refine self_prints target _ ?_
      refine text_prints target _ _ ?_
      refine self_prints target _ ?_
      refine text_prints target _ _ ?_
      refine operand_prints target _ (fun w word => ?_) o indexed
      refine text_prints target _ _ ?_
      have call := pair_word "if_not_exists".toList _ w (bare_shut _ (by decide)) isWord word
      simpa using equals_phrase _ _ isWord (word_phrase _ call)
  | arithmetic left sign right =>
      rw [Action.paths, List.forall_mem_append] at indexed
      rw [List.mem_singleton.mp present]
      iterate 4 apply append_prints
      refine self_prints target _ ?_
      refine text_prints target _ _ ?_
      refine operand_or_self_prints target _ (fun l first => ?_) left isWord indexed.1
      refine text_prints target _ _ ?_
      refine operand_prints target _ (fun r second => ?_) right indexed.2
      have sum := phrase_cons l _ first
        (phrase_cons _ r (sign_word sign) (word_phrase r second))
      simpa [toString] using equals_phrase _ _ isWord sum
  | listAppend left right =>
      rw [Action.paths, List.forall_mem_append] at indexed
      rw [List.mem_singleton.mp present]
      iterate 5 apply append_prints
      refine self_prints target _ ?_
      refine text_prints target _ _ ?_
      refine operand_or_self_prints target _ (fun l first => ?_) left isWord indexed.1
      refine text_prints target _ _ ?_
      refine operand_or_self_prints target _ (fun r second => ?_) right isWord indexed.2
      refine text_prints target _ _ ?_
      have call := pair_word "list_append".toList l r (bare_shut _ (by decide)) first second
      simpa using equals_phrase _ _ isWord (word_phrase _ call)
  | removeIndexes indexes =>
      obtain ⟨i, _, rfl⟩ := List.mem_map.mp present
      apply append_prints
      refine self_prints target _ ?_
      refine index_prints target i _ fun s bare => ?_
      exact word_phrase _ (word_suffix _ s isWord bare)
  | assignIndexes entries =>
      obtain ⟨⟨i, o⟩, inside, rfl⟩ := List.mem_map.mp present
      have own : ∀ p ∈ o.paths, IsIndexed p :=
        fun p given => indexed p (List.mem_flatMap.mpr ⟨(i, o), inside, given⟩)
      iterate 3 apply append_prints
      refine self_prints target _ ?_
      refine index_prints target i _ fun s bare => ?_
      refine text_prints target _ _ ?_
      refine operand_prints target _ (fun w word => ?_) o own
      simpa using equals_phrase _ w (word_suffix _ s isWord bare) (word_phrase w word)
  | addElements o =>
      rw [List.mem_singleton.mp present]
      refine between_prints target _ " " o indexed fun w word => ?_
      simpa using phrase_cons _ w isWord (word_phrase w word)
  | deleteElements o =>
      rw [List.mem_singleton.mp present]
      refine between_prints target _ " " o indexed fun w word => ?_
      simpa using phrase_cons _ w isWord (word_phrase w word)
  | nested entries => simp [Action.clauses] at present
  | keyed groups => simp [Action.clauses] at present

end ItemExpr
