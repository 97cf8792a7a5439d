import ItemExpr.Proofs.Writing
import Mathlib.Data.List.Forall2

set_option autoImplicit false

namespace ItemExpr

variable {V : Type}

def Script.Clear (s : Script V) : Prop := ∀ item ∈ s.items, item.Clear

structure Says (about : List (Symbol V)) (s : Script V) (symbols : List (Symbol V)) : Prop where
  sound : s.fault = none
  meaning : itemSymbols about s.items = symbols

def followSymbols (separator : String) : List (List (Symbol V)) → List (Symbol V)
  | [] => []
  | part :: rest => chars separator ++ (part ++ followSymbols separator rest)

def joinSymbols (separator : String) : List (List (Symbol V)) → List (Symbol V)
  | [] => []
  | first :: rest => first ++ followSymbols separator rest

theorem comma_clear : Quiet ", " ∧ Separate ", " := by simp [Quiet, Separate]

theorem close_clear : Quiet ")" ∧ Separate ")" := by simp [Quiet, Separate]

theorem text_clear (s : String) (clear : Quiet s ∧ Separate s) : (Script.text s : Script V).Clear := by
  intro item present
  rw [List.mem_singleton.mp present]
  exact ⟨quiet_mute s clear.1, clear.2⟩

theorem word_mute (word : String) (free : AliasFree word) :
    Mute s!" {word} " ∧ Separate s!" {word} " := by
  have front : Mute " " := quiet_mute " " (by simp [Quiet])
  have whole := mute_append " " _ front (stopped_mute word ' ' (.inl rfl) free)
  exact ⟨by simpa [toString, String.append_assoc] using whole, by simp [Separate, toString]⟩

theorem word_clear (word : String) (free : AliasFree word) :
    (Script.text s!" {word} " : Script V).Clear := by
  intro item present
  rw [List.mem_singleton.mp present]
  exact word_mute word free

theorem self_clear : (Script.self : Script V).Clear := by
  simp [Script.Clear, Script.self, Item.Clear]

theorem path_clear (p : String) (indexed : IsIndexed p) : (Script.path p : Script V).Clear := by
  intro item present
  rw [List.mem_singleton.mp present]
  exact indexed

theorem value_clear (v : V) : (Script.value v).Clear := by
  simp [Script.Clear, Script.value, Item.Clear]

theorem append_clear (a b : Script V) (first : a.Clear) (second : b.Clear) : (a ++ b).Clear := by
  cases fault : a.fault with
  | some e => rwa [Script.append_of_fault a b e fault]
  | none =>
      rw [Script.append_of_sound a b fault]
      intro item present
      exact (List.mem_append.mp present).elim (first item) (second item)

theorem join_clear (separator : String) (clear : Quiet separator ∧ Separate separator)
    (scripts : List (Script V)) (each : ∀ s ∈ scripts, s.Clear) :
    (Script.join separator scripts).Clear := by
  match scripts with
  | [] => simp [Script.Clear, Script.join, Script.empty]
  | [s] => exact each s (by simp)
  | s :: next :: rest =>
      rw [List.forall_mem_cons] at each
      have front := append_clear s (.text separator) each.1 (text_clear separator clear)
      exact append_clear _ _ front (join_clear separator clear (next :: rest) each.2)

theorem append_sound (a b : Script V) (first : a.fault = none) (second : b.fault = none) :
    (a ++ b).fault = none := by
  rw [Script.append_of_sound a b first, second]

section Saying

variable (about : List (Symbol V))

theorem says_text (s : String) : Says about (.text s) (chars s) :=
  ⟨rfl, by simp [itemSymbols, Script.text, Item.symbols]⟩

theorem says_self : Says about .self about :=
  ⟨rfl, by simp [itemSymbols, Script.self, Item.symbols]⟩

theorem says_path (p : String) : Says about (.path p) (pathSymbols p) :=
  ⟨rfl, by simp [itemSymbols, Script.path, Item.symbols]⟩

theorem says_value (v : V) : Says about (.value v) [.value v] :=
  ⟨rfl, by simp [itemSymbols, Script.value, Item.symbols]⟩

theorem says_append (a b : Script V) (symbols others : List (Symbol V))
    (first : Says about a symbols) (second : Says about b others) :
    Says about (a ++ b) (symbols ++ others) where
  sound := append_sound a b first.sound second.sound
  meaning := by
    rw [Script.append_of_sound a b first.sound, ← first.meaning, ← second.meaning]
    exact List.flatMap_append

theorem says_join (separator : String) (scripts : List (Script V)) (symbols : List (List (Symbol V)))
    (each : List.Forall₂ (Says about) scripts symbols) :
    Says about (Script.join separator scripts) (joinSymbols separator symbols) := by
  induction each with
  | nil => exact ⟨rfl, rfl⟩
  | @cons s first scripts others said rest ih =>
      cases rest with
      | nil => simpa [Script.join, joinSymbols, followSymbols] using said
      | @cons next second scripts others following rest =>
          have front := says_append about _ _ _ _ said (says_text about separator)
          simpa [Script.join, joinSymbols, followSymbols] using says_append about _ _ _ _ front ih

end Saying

theorem run_written (t t' : Table V) (coherent : Coherent t) (defaults : t.options = {})
    (target : Fragment) (about : List (Symbol V)) (known : Known t target about) (s : Script V)
    (clear : s.Clear) (f : Fragment) (ran : s.run target t = (.ok f, t')) :
    Written t f t' (itemSymbols about s.items) := by
  have written := write_written t coherent defaults target about known s.items clear
  cases fault : s.fault with
  | some e => simp [Script.run, fault] at ran
  | none =>
      rw [Script.run, fault] at ran
      obtain ⟨text, table⟩ := Prod.mk.inj ran
      rwa [Except.ok.inj text, table] at written

theorem run_said (t : Table V) (coherent : Coherent t) (defaults : t.options = {})
    (target : Fragment) (about : List (Symbol V)) (known : Known t target about) (s : Script V)
    (clear : s.Clear) (symbols : List (Symbol V)) (said : Says about s symbols) :
    ∃ f t', s.run target t = (.ok f, t') ∧ Written t f t' symbols := by
  refine ⟨(t.write target s.items).1, (t.write target s.items).2, ?_, ?_⟩
  · rw [Script.run, said.sound]
  · rw [← said.meaning]
    exact write_written t coherent defaults target about known s.items clear

theorem known_nil (t : Table V) : Known t [] [] where
  reads := .nil
  separate := by simp [Separate, Fragment.text_nil]
  values := rfl

end ItemExpr
