import ItemExpr.Proofs.Update.Phrases

set_option autoImplicit false

namespace ItemExpr

open Text

abbrev Row := List (List Char)

def isKeyword (w : List Char) : Bool := Group.inOrder.any fun group => group.keyword.toList = w

def gather (w : List Char) : List Row → List Row
  | [] => [[w]]
  | row :: rows => (w :: row) :: rows

def clausesFrom : Row → List Row
  | [] => []
  | w :: rest =>
      if isKeyword w then []
      else if w.getLast? = some ',' then [w.dropLast] :: clausesFrom rest
      else gather w (clausesFrom rest)

def clausesOf (group : Group) (row : Row) : List Row :=
  clausesFrom (row.dropWhile (· ≠ group.keyword.toList)).tail

def closed : Row → Row
  | [] => []
  | [w] => [w ++ [',']]
  | w :: next :: rest => w :: closed (next :: rest)

def listed : List Row → Row
  | [] => []
  | [row] => row
  | row :: next :: rest => closed row ++ listed (next :: rest)

def sections (rows : Group → List Row) (groups : List Group) : Row :=
  groups.flatMap fun group => group.keyword.toList :: listed (rows group)

theorem keyword_capital (w : List Char) (keyword : isKeyword w = true) :
    w.all Char.isUpper = true := by
  obtain ⟨group, _, same⟩ := List.any_eq_true.mp keyword
  rw [← of_decide_eq_true same]
  cases group <;> decide

theorem keyword_marked (group : Group) : isKeyword group.keyword.toList = true := by
  cases group <;> decide

theorem keyword_injective (group other : Group)
    (same : group.keyword.toList = other.keyword.toList) : group = other := by
  cases group <;> cases other <;> first | rfl | exact absurd same (by decide)

theorem mixed_ordinary (w : List Char) (mixed : w.all Char.isUpper = false) :
    isKeyword w = false := by
  rw [Bool.eq_false_iff]
  intro keyword
  rw [keyword_capital w keyword] at mixed
  cases mixed

theorem comma_mixed (w : List Char) : (w ++ [',']).all Char.isUpper = false := by
  have comma : Char.isUpper ',' = false := rfl
  simp [comma]

theorem clauses_word (w : List Char) (word : IsWord w) (rest : Row) :
    clausesFrom (w :: rest) = gather w (clausesFrom rest) := by
  simp [clausesFrom, mixed_ordinary w word.mixed, word.ended]

theorem clauses_comma (w : List Char) (rest : Row) :
    clausesFrom ((w ++ [',']) :: rest) = [w] :: clausesFrom rest := by
  simp [clausesFrom, mixed_ordinary _ (comma_mixed w)]

theorem clauses_closed (row rest : Row) (present : row ≠ []) (words : ∀ w ∈ row, IsWord w) :
    clausesFrom (closed row ++ rest) = row :: clausesFrom rest := by
  match row with
  | [] => exact absurd rfl present
  | [w] => exact clauses_comma w rest
  | w :: next :: more =>
      rw [List.forall_mem_cons] at words
      rw [closed, List.cons_append, clauses_word w words.1,
        clauses_closed (next :: more) rest (by simp) words.2, gather]

theorem clauses_last (row rest : Row) (present : row ≠ []) (words : ∀ w ∈ row, IsWord w)
    (ended : clausesFrom rest = []) : clausesFrom (row ++ rest) = [row] := by
  match row with
  | [] => exact absurd rfl present
  | [w] => rw [List.singleton_append, clauses_word w (words w (by simp)), ended, gather]
  | w :: next :: more =>
      rw [List.forall_mem_cons] at words
      rw [List.cons_append, clauses_word w words.1,
        clauses_last (next :: more) rest (by simp) words.2 ended, gather]

def AreRows (rows : List Row) : Prop := ∀ row ∈ rows, row ≠ [] ∧ ∀ w ∈ row, IsWord w

theorem clauses_listed (rows : List Row) (given : AreRows rows) (rest : Row)
    (ended : clausesFrom rest = []) : clausesFrom (listed rows ++ rest) = rows := by
  match rows with
  | [] => exact ended
  | [row] =>
      obtain ⟨present, words⟩ := given row (by simp)
      exact clauses_last row rest present words ended
  | row :: next :: more =>
      obtain ⟨⟨present, words⟩, others⟩ := List.forall_mem_cons.mp given
      rw [listed, List.append_assoc, clauses_closed row _ present words,
        clauses_listed (next :: more) others rest ended]

theorem closed_words (row : Row) (words : ∀ w ∈ row, IsWord w) :
    ∀ w ∈ closed row, Shut w ∧ w.all Char.isUpper = false := by
  match row with
  | [] => simp [closed]
  | [w] =>
      rw [closed, List.forall_mem_singleton]
      have comma : Shut [','] := plain_shut _ (by decide)
      exact ⟨shut_append w _ (words w (by simp)).shut comma, comma_mixed w⟩
  | w :: next :: rest =>
      rw [List.forall_mem_cons] at words
      rw [closed, List.forall_mem_cons]
      exact ⟨⟨words.1.shut, words.1.mixed⟩, closed_words (next :: rest) words.2⟩

theorem listed_words (rows : List Row) (given : AreRows rows) :
    ∀ w ∈ listed rows, Shut w ∧ w.all Char.isUpper = false := by
  match rows with
  | [] => simp [listed]
  | [row] =>
      intro w inside
      have word := (given row (by simp)).2 w inside
      exact ⟨word.shut, word.mixed⟩
  | row :: next :: more =>
      obtain ⟨⟨_, words⟩, others⟩ := List.forall_mem_cons.mp given
      rw [listed, List.forall_mem_append]
      exact ⟨closed_words row words, listed_words (next :: more) others⟩

section Sections

variable (rows : Group → List Row) (given : ∀ group, AreRows (rows group))

include given

theorem keyword_absent (group : Group) (groups : List Group) (absent : group ∉ groups) :
    ∀ w ∈ sections rows groups, w ≠ group.keyword.toList := by
  intro w inside
  obtain ⟨other, present, written⟩ := List.mem_flatMap.mp inside
  rcases List.mem_cons.mp written with rfl | later
  · exact fun same => absent (keyword_injective _ _ same ▸ present)
  · rintro rfl
    have ordinary := mixed_ordinary _ (listed_words _ (given other) _ later).2
    simp [keyword_marked] at ordinary

theorem sections_clauses (group : Group) (groups : List Group)
    (written : rows group ≠ [] → group ∈ groups) :
    clausesOf group (sections rows groups) = rows group := by
  by_cases present : group ∈ groups
  · obtain ⟨front, back, rfl, absent⟩ := List.eq_append_cons_of_mem present
    have passed : ∀ w ∈ sections rows front, (decide (w ≠ group.keyword.toList)) = true :=
      fun w inside => decide_eq_true (keyword_absent rows given group front absent w inside)
    have shape : sections rows (front ++ group :: back) =
        sections rows front ++ group.keyword.toList :: (listed (rows group) ++ sections rows back) := by
      simp [sections]
    have ended : clausesFrom (sections rows back) = [] := by
      cases back with
      | nil => rfl
      | cons next others => simp [sections, clausesFrom, keyword_marked]
    rw [clausesOf, shape, List.dropWhile_append_of_pos passed, List.dropWhile_cons_of_neg (by simp),
      List.tail_cons]
    exact clauses_listed _ (given group) _ ended
  · have empty : rows group = [] := not_not.mp (mt written present)
    have passed : ∀ w ∈ sections rows groups, (decide (w ≠ group.keyword.toList)) = true :=
      fun w inside => decide_eq_true (keyword_absent rows given group groups present w inside)
    rw [clausesOf, List.dropWhile_eq_nil_iff.mpr passed, empty]
    rfl

end Sections

theorem text_join (separator : String) (f next : Fragment) (rest : List Fragment) :
    (Fragment.join separator (f :: next :: rest)).text.toList =
      f.text.toList ++ (separator.toList ++ (Fragment.join separator (next :: rest)).text.toList) := by
  simp [join_cons, Fragment.text_append, Fragment.text_cons, Token.spelling]

theorem words_closed (row : Row) (present : row ≠ []) (shut : ∀ w ∈ row, Shut w)
    (rest : List Char) :
    wordsFrom (.outside 0) ([' '].intercalate row ++ ',' :: ' ' :: rest) =
      closed row ++ wordsFrom (.outside 0) rest := by
  match row with
  | [] => exact absurd rfl present
  | [w] =>
      have comma : Shut [','] := plain_shut _ (by decide)
      simpa [closed] using words_cons (w ++ [',']) rest (shut_append w _ (shut w (by simp)) comma)
  | w :: next :: more =>
      rw [List.forall_mem_cons] at shut
      rw [List.intercalate_cons_cons, List.append_assoc, List.append_assoc, List.singleton_append]
      exact (words_cons w _ shut.1).trans
        (congrArg (w :: ·) (words_closed (next :: more) (by simp) shut.2 rest))

theorem phrase_shut (s : List Char) (phrase : IsPhrase s) :
    ∀ w ∈ wordsFrom (.outside 0) s, Shut w :=
  fun w inside => (phrase w inside).shut

theorem clauses_words (fs : List Fragment) (present : fs ≠ [])
    (phrases : ∀ f ∈ fs, IsPhrase f.text.toList) :
    words (Fragment.join ", " fs).text = listed (fs.map fun f => words f.text) := by
  match fs with
  | [] => exact absurd rfl present
  | [f] => simp [Fragment.join, listed]
  | f :: next :: rest =>
      rw [List.forall_mem_cons] at phrases
      have front := words_closed _ (words_from_ne_nil (.outside 0) _) (phrase_shut _ phrases.1)
        (Fragment.join ", " (next :: rest)).text.toList
      rw [intercalate_words_from] at front
      have behind := clauses_words (next :: rest) (by simp) phrases.2
      rw [words, text_join]
      exact front.trans (congrArg (closed (words f.text) ++ ·) behind)

namespace Clauses

def ArePhrases (cs : Clauses) : Prop := ∀ group, ∀ f ∈ cs.get group, IsPhrase f.text.toList

def rows (cs : Clauses) (group : Group) : List Row := (cs.get group).map fun f => words f.text

def groupFragment (cs : Clauses) (group : Group) : Fragment :=
  .text s!"{group.keyword} " :: Fragment.join ", " (cs.get group)

theorem sections_written (cs : Clauses) (groups : List Group) :
    groups.filterMap cs.groupFragment? =
      (groups.filter fun group => !(cs.get group).isEmpty).map cs.groupFragment := by
  induction groups with
  | nil => rfl
  | cons group rest ih =>
      by_cases empty : (cs.get group).isEmpty = true
      · simp [groupFragment?, empty, ih]
      · simp [groupFragment?, empty, ih, groupFragment]

variable (cs : Clauses) (phrases : cs.ArePhrases)

include phrases

theorem rows_given (group : Group) : AreRows (cs.rows group) := by
  intro row present
  obtain ⟨f, inside, rfl⟩ := List.mem_map.mp present
  exact ⟨words_from_ne_nil _ _, phrases group f inside⟩

theorem group_words (group : Group) (present : cs.get group ≠ []) :
    words (cs.groupFragment group).text = group.keyword.toList :: listed (cs.rows group) := by
  have keyword : Shut group.keyword.toList := plain_shut _ (by cases group <;> decide)
  have listing := clauses_words (cs.get group) present (phrases group)
  have shape : (cs.groupFragment group).text.toList =
      group.keyword.toList ++ ' ' :: (Fragment.join ", " (cs.get group)).text.toList := by
    simp [groupFragment, Fragment.text_cons, Token.spelling, toString]
  rw [words, shape, words_cons _ _ keyword]
  exact congrArg (group.keyword.toList :: ·) listing

theorem sections_words (groups : List Group) (some : groups ≠ [])
    (present : ∀ group ∈ groups, cs.get group ≠ []) :
    words (Fragment.join " " (groups.map cs.groupFragment)).text = sections cs.rows groups := by
  match groups with
  | [] => exact absurd rfl some
  | [group] =>
      simpa [Fragment.join, sections] using group_words cs phrases group (present group (by simp))
  | group :: next :: rest =>
      rw [List.forall_mem_cons] at present
      have here := group_words cs phrases group present.1
      have behind := sections_words (next :: rest) (by simp) present.2
      have keyword : Shut group.keyword.toList := plain_shut _ (by cases group <;> decide)
      have shut : ∀ w ∈ words (cs.groupFragment group).text, Shut w := by
        rw [here, List.forall_mem_cons]
        exact ⟨keyword, fun w inside => (listed_words _ (rows_given cs phrases group) w inside).1⟩
      rw [List.map_cons, List.map_cons, words, text_join]
      refine (words_append _ _ shut).trans ?_
      exact congrArg₂ (· ++ ·) here behind

theorem expression_clauses (f : Fragment) (written : cs.expression? = some f) (group : Group) :
    clausesOf group (words f.text) = cs.rows group := by
  rw [expression?, sections_written] at written
  generalize shape : (Group.inOrder.filter fun group => !(cs.get group).isEmpty) = groups at written
  have kept : ∀ group, group ∈ groups ↔ cs.get group ≠ [] := by
    intro group
    have listed : group ∈ Group.inOrder := by cases group <;> simp [Group.inOrder]
    simp [← shape, listed]
  cases groups with
  | nil => simp at written
  | cons first others =>
      have text : f = Fragment.join " " ((first :: others).map cs.groupFragment) := by
        simpa using written.symm
      rw [text, sections_words cs phrases _ (by simp) fun group present => (kept group).mp present]
      refine sections_clauses cs.rows (rows_given cs phrases) group _ fun present => ?_
      exact (kept group).mpr fun empty => present (by rw [rows, empty]; rfl)

example : clausesOf .set (words "SET #n0 = list_append(#n0, :v0), #n1 = :v1 REMOVE #n2") =
    [["#n0", "=", "list_append(#n0, :v0)"], ["#n1", "=", ":v1"]].map (·.map String.toList) := by
  decide +kernel

end Clauses

end ItemExpr
