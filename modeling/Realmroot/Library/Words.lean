import Mathlib.Data.List.Basic

/-!
# Words between separators

Splitting at every separator and dropping what is empty gives the words of a
text. Joining words with one separator and splitting again gives them back.
-/

namespace Words

variable {α : Type} (sep : α → Bool)

/-- The maximal runs of non-separators, in order. -/
def words (text : List α) : List (List α) :=
  (text.splitOnP sep).filter fun w => !w.isEmpty

/-- A word is not empty and holds no separator. -/
def IsWord (w : List α) : Prop := w ≠ [] ∧ ∀ a ∈ w, sep a = false

/-- Words joined by one separator. -/
def unwords (blank : α) : List (List α) → List α
  | [] => []
  | [w] => w
  | w :: v :: ws => w ++ blank :: unwords blank (v :: ws)

variable {sep}

theorem splitOnP_no_sep (text : List α) :
    ∀ w ∈ text.splitOnP sep, ∀ a ∈ w, sep a = false := by
  induction text with
  | nil => simp
  | cons b text ih =>
    rw [List.splitOnP_cons_eq_if_modifyHead]
    split_ifs with hb
    · intro w hw
      rcases List.mem_cons.mp hw with rfl | hw
      · simp
      · exact ih w hw
    · obtain ⟨head, tail, hsplit⟩ := List.exists_cons_of_ne_nil (List.splitOnP_ne_nil sep text)
      rw [hsplit] at ih ⊢
      intro w hw a ha
      rcases List.mem_cons.mp hw with rfl | hw
      · rcases List.mem_cons.mp ha with rfl | ha
        · simpa using hb
        · exact ih head (List.mem_cons_self ..) a ha
      · exact ih w (List.mem_cons_of_mem _ hw) a ha

/-- Only how the separator falls on the text matters. -/
theorem words_congr {sep' : α → Bool} {text : List α} (h : ∀ a ∈ text, sep a = sep' a) :
    words sep text = words sep' text := by
  have hsplit : text.splitOnP sep = text.splitOnP sep' := by
    induction text with
    | nil => simp
    | cons b text ih =>
      rw [List.splitOnP_cons_eq_if_modifyHead, List.splitOnP_cons_eq_if_modifyHead,
        h b (by simp), ih fun a ha => h a (by simp [ha])]
  rw [words, words, hsplit]

theorem words_of_no_sep {text : List α} (hne : text ≠ []) (h : ∀ a ∈ text, sep a = false) :
    words sep text = [text] := by
  simp [words, List.splitOnP_eq_singleton h, hne]

theorem isWord_of_mem_words {text w : List α} (h : w ∈ words sep text) : IsWord sep w := by
  obtain ⟨hw, hne⟩ := List.mem_filter.mp h
  exact ⟨by simpa using hne, splitOnP_no_sep text w hw⟩

theorem words_unwords {blank : α} (hblank : sep blank = true) :
    ∀ ws : List (List α), (∀ w ∈ ws, IsWord sep w) → words sep (unwords blank ws) = ws
  | [], _ => by simp [words, unwords]
  | [w], h => by
    have hw := h w (List.mem_cons_self ..)
    simp [words, unwords, List.splitOnP_eq_singleton hw.2, hw.1]
  | w :: v :: ws, h => by
    have hw := h w (List.mem_cons_self ..)
    have ih := words_unwords hblank (v :: ws) fun u hu => h u (List.mem_cons_of_mem _ hu)
    rw [words] at ih ⊢
    rw [unwords, List.splitOnP_append_cons_of_forall_mem hw.2 blank hblank, List.filter_cons, ih]
    simp [hw.1]

end Words
