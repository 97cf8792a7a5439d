import ItemExpr.Proofs.Path
import ItemExpr.Text.Quoted

set_option autoImplicit false

namespace ItemExpr.Text

-- Where a place of a text is: how many brackets are open there, and in which quotes it stands.
inductive Zone
  | outside (depth : Nat)
  | quoted (depth : Nat) (quote : Char)
  | escaped (depth : Nat) (quote : Char)
  deriving DecidableEq

def isQuote (c : Char) : Bool := c = '\'' || c = '"'

def Zone.next : Zone → Char → Zone
  | .outside depth, c =>
      if c = '(' then .outside (depth + 1)
      else if c = ')' then .outside (depth - 1)
      else if isQuote c then .quoted depth c
      else .outside depth
  | .quoted depth quote, c =>
      if c = '\\' then .escaped depth quote
      else if c = quote then .outside depth
      else .quoted depth quote
  | .escaped depth quote, _ => .quoted depth quote

def wordsFrom : Zone → List Char → List (List Char)
  | _, [] => [[]]
  | z, c :: rest =>
      if z = .outside 0 ∧ c = ' ' then [] :: wordsFrom (z.next c) rest
      else glue c (wordsFrom (z.next c) rest)

def words (s : String) : List (List Char) := wordsFrom (.outside 0) s.toList

theorem intercalate_words_from (z : Zone) (s : List Char) :
    [' '].intercalate (wordsFrom z s) = s := by
  induction s generalizing z with
  | nil => simp [wordsFrom]
  | cons c rest ih =>
      by_cases cut : z = .outside 0 ∧ c = ' '
      · rw [wordsFrom, if_pos cut]
        cases shape : wordsFrom (z.next c) rest with
        | nil =>
            have none := ih (z.next c)
            rw [shape] at none
            cases rest with
            | nil => simp [wordsFrom] at shape
            | cons _ _ => simp at none
        | cons w more =>
            have others := ih (z.next c)
            rw [shape] at others
            rw [List.intercalate_cons_cons, others, cut.2]
            rfl
      · rw [wordsFrom, if_neg cut, intercalate_glue, ih]

theorem words_injective (s s' : String) (same : words s = words s') : s = s' := by
  apply String.toList_inj.mp
  rw [← intercalate_words_from (.outside 0) s.toList, ← intercalate_words_from (.outside 0) s'.toList]
  exact congrArg [' '].intercalate same

def Leads (z : Zone) (s : List Char) (z' : Zone) : Prop :=
  ∀ rest, wordsFrom z (s ++ rest) = s.foldr glue (wordsFrom z' rest)

theorem leads_nil (z : Zone) : Leads z [] z := fun _ => rfl

theorem leads_append (z z' z'' : Zone) (s s' : List Char) (first : Leads z s z')
    (second : Leads z' s' z'') : Leads z (s ++ s') z'' := by
  intro rest
  rw [List.append_assoc, first, second, List.foldr_append]

theorem leads_char (z : Zone) (c : Char) (kept : z ≠ .outside 0 ∨ c ≠ ' ') :
    Leads z [c] (z.next c) := by
  intro rest
  have whole : ¬ (z = .outside 0 ∧ c = ' ') := fun both => kept.elim (· both.1) (· both.2)
  simp [wordsFrom, whole]

theorem leads_cons (z z' : Zone) (c : Char) (s : List Char) (kept : z ≠ .outside 0 ∨ c ≠ ' ')
    (rest : Leads (z.next c) s z') : Leads z (c :: s) z' :=
  leads_append z _ z' [c] s (leads_char z c kept) rest

def Shut (s : List Char) : Prop := ∀ depth, Leads (.outside depth) s (.outside depth)

theorem shut_append (s s' : List Char) (first : Shut s) (second : Shut s') : Shut (s ++ s') :=
  fun depth => leads_append _ _ _ s s' (first depth) (second depth)

def isPlain (c : Char) : Bool := c ≠ ' ' && c ≠ '(' && c ≠ ')' && !isQuote c

theorem plain_shut (s : List Char) (plain : s.all isPlain = true) : Shut s := by
  intro depth
  induction s with
  | nil => exact leads_nil _
  | cons c rest ih =>
      rw [List.all_cons, Bool.and_eq_true] at plain
      have apart : c ≠ ' ' ∧ c ≠ '(' ∧ c ≠ ')' ∧ isQuote c = false := by
        simpa [isPlain, and_assoc] using plain.1
      have same : (Zone.outside depth).next c = .outside depth := by
        simp [Zone.next, apart]
      refine leads_cons _ _ c rest (.inr apart.1) ?_
      rw [same]
      exact ih plain.2

theorem comma_leads (depth : Nat) :
    Leads (.outside (depth + 1)) [',', ' '] (.outside (depth + 1)) := by
  have comma : (Zone.outside (depth + 1)).next ',' = .outside (depth + 1) := rfl
  have blank : (Zone.outside (depth + 1)).next ' ' = .outside (depth + 1) := rfl
  refine leads_cons _ _ ',' [' '] (.inr (by decide)) ?_
  rw [comma]
  refine leads_cons _ _ ' ' [] (.inl (by simp)) ?_
  rw [blank]
  exact leads_nil _

theorem bracketed_shut (s : List Char)
    (inner : ∀ depth, Leads (.outside (depth + 1)) s (.outside (depth + 1))) :
    Shut ('(' :: (s ++ [')'])) := by
  intro depth
  refine leads_cons _ _ '(' _ (.inr (by decide)) ?_
  have opened : (Zone.outside depth).next '(' = .outside (depth + 1) := rfl
  have closed : (Zone.outside (depth + 1)).next ')' = .outside depth := rfl
  rw [opened]
  refine leads_append _ _ _ s [')'] (inner depth) ?_
  rw [← closed]
  exact leads_char _ ')' (.inr (by decide))

theorem hex_digit_chars (n : Nat) (below : n < 16) : isPlain (hexDigit n) = true ∧ hexDigit n ≠ '\\' := by
  have all : ∀ k : Fin 16, isPlain (hexDigit k) = true ∧ hexDigit k ≠ '\\' := by decide
  exact all ⟨n, below⟩

theorem hex_digits_chars (width n : Nat) :
    ∀ c ∈ hexDigits width n, isPlain c = true ∧ c ≠ '\\' := by
  induction width generalizing n with
  | zero => simp [hexDigits]
  | succ width ih =>
      rw [hexDigits, List.forall_mem_append, List.forall_mem_singleton]
      exact ⟨ih (n / 16), hex_digit_chars (n % 16) (Nat.mod_lt n (by decide))⟩

section Quoted

variable (depth : Nat) (quote : Char) (quoting : isQuote quote = true)

theorem inside_leads (s : List Char) (inside : ∀ c ∈ s, c ≠ '\\' ∧ c ≠ quote) :
    Leads (.quoted depth quote) s (.quoted depth quote) := by
  induction s with
  | nil => exact leads_nil _
  | cons c rest ih =>
      rw [List.forall_mem_cons] at inside
      have same : (Zone.quoted depth quote).next c = .quoted depth quote := by
        simp [Zone.next, inside.1]
      refine leads_cons _ _ c rest (.inl (by simp)) ?_
      rw [same]
      exact ih inside.2

theorem escape_leads (c : Char) (s : List Char) (inside : ∀ c ∈ s, c ≠ '\\' ∧ c ≠ quote) :
    Leads (.quoted depth quote) ('\\' :: c :: s) (.quoted depth quote) := by
  have marked : (Zone.quoted depth quote).next '\\' = .escaped depth quote := by simp [Zone.next]
  have passed : (Zone.escaped depth quote).next c = .quoted depth quote := rfl
  refine leads_cons _ _ '\\' _ (.inl (by simp)) ?_
  rw [marked]
  refine leads_cons _ _ c s (.inl (by simp)) ?_
  rw [passed]
  exact inside_leads depth quote s inside

include quoting

theorem hex_leads (n : Nat) :
    Leads (.quoted depth quote) (hexEscape n) (.quoted depth quote) := by
  have inside (width : Nat) : ∀ c ∈ hexDigits width n, c ≠ '\\' ∧ c ≠ quote := by
    intro c present
    obtain ⟨plain, unmarked⟩ := hex_digits_chars width n c present
    refine ⟨unmarked, ?_⟩
    rintro rfl
    simp [isPlain, quoting] at plain
  rw [hexEscape]
  split
  · exact escape_leads depth quote _ _ (inside 2)
  · split
    · exact escape_leads depth quote _ _ (inside 4)
    · exact escape_leads depth quote _ _ (inside 8)

theorem escaped_leads (shown : Char → Bool) (c : Char) :
    Leads (.quoted depth quote) (escaped shown (isMarked quote) c) (.quoted depth quote) := by
  rw [escaped]
  by_cases marked : isMarked quote c = true
  · rw [if_pos marked]
    exact escape_leads depth quote c [] (by simp)
  · have apart : c ≠ quote ∧ c ≠ '\\' := by simpa [isMarked] using marked
    rw [if_neg marked]
    split
    · exact escape_leads depth quote _ [] (by simp)
    split
    · exact escape_leads depth quote _ [] (by simp)
    split
    · exact escape_leads depth quote _ [] (by simp)
    split
    · exact inside_leads depth quote [c] (by simp [apart])
    · exact hex_leads depth quote quoting c.toNat

theorem escaped_each_leads (shown : Char → Bool) (s : List Char) :
    Leads (.quoted depth quote) (s.flatMap (escaped shown (isMarked quote)))
      (.quoted depth quote) := by
  induction s with
  | nil => exact leads_nil _
  | cons c rest ih =>
      exact leads_append _ _ _ _ _ (escaped_leads depth quote quoting shown c) ih

end Quoted

theorem quoted_shut (s : String) : Shut (quoted s).toList := by
  intro depth
  have quoting : isQuote (quoteFor s.toList) = true := by
    rw [quoteFor]
    split <;> rfl
  rw [quoted, String.toList_ofList, quotedWith]
  generalize quoteFor s.toList = quote at quoting
  have blank : quote ≠ ' ' := by
    rintro rfl
    simp [isQuote] at quoting
  have brackets : quote ≠ '(' ∧ quote ≠ ')' := by
    constructor <;> rintro rfl <;> simp [isQuote] at quoting
  have unmarked : quote ≠ '\\' := by
    rintro rfl
    simp [isQuote] at quoting
  have opened : (Zone.outside depth).next quote = .quoted depth quote := by
    simp [Zone.next, brackets, quoting]
  have closed : (Zone.quoted depth quote).next quote = .outside depth := by
    simp [Zone.next, unmarked]
  refine leads_cons _ _ quote _ (.inr blank) ?_
  rw [opened]
  refine leads_append _ _ _ _ [quote] (escaped_each_leads depth quote quoting _ s.toList) ?_
  rw [← closed]
  exact leads_char _ quote (.inr blank)

theorem words_whole (w : List Char) (shut : Shut w) : wordsFrom (.outside 0) w = [w] := by
  have whole := shut 0 []
  rw [List.append_nil] at whole
  rw [whole]
  clear whole shut
  induction w with
  | nil => rfl
  | cons c rest ih => rw [List.foldr_cons, ih]; rfl

theorem words_cons (w rest : List Char) (shut : Shut w) :
    wordsFrom (.outside 0) (w ++ ' ' :: rest) = w :: wordsFrom (.outside 0) rest := by
  have blank : wordsFrom (.outside 0) (' ' :: rest) = [] :: wordsFrom (.outside 0) rest := rfl
  rw [shut 0, blank]
  clear blank shut
  induction w with
  | nil => rfl
  | cons c more ih => rw [List.foldr_cons, ih]; rfl

theorem words_intercalate (ws : List (List Char)) (present : ws ≠ [])
    (shut : ∀ w ∈ ws, Shut w) (rest : List Char) :
    wordsFrom (.outside 0) ([' '].intercalate ws ++ ' ' :: rest) =
      ws ++ wordsFrom (.outside 0) rest := by
  match ws with
  | [] => exact absurd rfl present
  | [w] => simpa using words_cons w rest (shut w (by simp))
  | w :: next :: more =>
      rw [List.forall_mem_cons] at shut
      rw [List.intercalate_cons_cons, List.append_assoc, List.append_assoc, List.singleton_append]
      exact (words_cons w _ shut.1).trans
        (congrArg (w :: ·) (words_intercalate (next :: more) (by simp) shut.2 rest))

theorem words_from_ne_nil (z : Zone) (s : List Char) : wordsFrom z s ≠ [] := by
  cases s with
  | nil => simp [wordsFrom]
  | cons c rest =>
      rw [wordsFrom]
      split
      · exact List.cons_ne_nil _ _
      · exact glue_ne_nil c _

theorem words_append (s rest : List Char) (shut : ∀ w ∈ wordsFrom (.outside 0) s, Shut w) :
    wordsFrom (.outside 0) (s ++ ' ' :: rest) =
      wordsFrom (.outside 0) s ++ wordsFrom (.outside 0) rest := by
  have whole := words_intercalate _ (words_from_ne_nil _ s) shut rest
  rwa [intercalate_words_from] at whole

end ItemExpr.Text
