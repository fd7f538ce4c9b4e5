import Mathlib.Data.List.Infix

/-!
# Entries of a separated text

Searching a joined text, with the separator put at both ends, for a word enclosed
by separators finds the word exactly when it is one of the entries.
-/

namespace Separated

variable {α : Type} {sep : α} {word entry rest : List α} {entries : List (List α)}

/-- A text that starts with a separator is not found inside an entry. -/
theorem infix_append_iff (h : sep ∉ entry) :
    sep :: word <:+: entry ++ rest ↔ sep :: word <:+: rest := by
  induction entry with
  | nil => rfl
  | cons a entry ih =>
    have ha : sep ≠ a := fun he => h (by simp [he])
    have hentry : sep ∉ entry := fun he => h (List.mem_cons_of_mem _ he)
    have hhead : ¬ sep :: word <+: a :: (entry ++ rest) := by
      intro hp
      exact ha (List.cons_prefix_cons.mp hp).1
    rw [List.cons_append, List.infix_cons_iff, ih hentry]
    simp [hhead]

/-- Words before the first separator are equal. -/
theorem prefix_append_iff {more : List α} (hword : sep ∉ word) (hentry : sep ∉ entry) :
    word ++ sep :: more <+: entry ++ sep :: rest ↔ word = entry ∧ more <+: rest := by
  induction word generalizing entry with
  | nil =>
    cases entry with
    | nil => simp
    | cons b entry =>
      have hb : sep ≠ b := fun he => hentry (by simp [he])
      simp [hb]
  | cons a word ih =>
    have ha : a ≠ sep := fun he => hword (by simp [he])
    have hword' : sep ∉ word := fun he => hword (List.mem_cons_of_mem _ he)
    cases entry with
    | nil => simp [ha]
    | cons b entry =>
      have hentry' : sep ∉ entry := fun he => hentry (List.mem_cons_of_mem _ he)
      rw [List.cons_append, List.cons_append, List.cons_prefix_cons, ih hword' hentry',
        List.cons_eq_cons, and_assoc]

/-- A word with a separator after it begins an entry that is another word when the entry goes on
with a separator, or ends within what follows the entry. -/
theorem append_sep_prefix_iff (h : word ≠ entry) :
    word ++ [sep] <+: entry ++ sep :: rest ↔
      (∃ tail, entry = word ++ sep :: tail) ∨
        ∃ tail more, word = entry ++ sep :: tail ∧ rest = tail ++ sep :: more := by
  constructor
  · rintro ⟨more, hmore⟩
    rw [List.append_assoc, List.singleton_append] at hmore
    rcases List.append_eq_append_iff.mp hmore with ⟨tail, hentry, htail⟩ | ⟨tail, hword, htail⟩
    · cases tail with
      | nil => exact absurd (by simpa using hentry.symm) h
      | cons a tail =>
        obtain ⟨rfl, -⟩ := List.cons.inj htail
        exact Or.inl ⟨tail, hentry⟩
    · cases tail with
      | nil => exact absurd (by simpa using hword) h
      | cons a tail =>
        obtain ⟨rfl, hrest⟩ := List.cons.inj htail
        exact Or.inr ⟨tail, more, hword, hrest⟩
  · rintro (⟨tail, rfl⟩ | ⟨tail, more, rfl, rfl⟩)
    · exact ⟨tail ++ sep :: rest, by simp⟩
    · exact ⟨more, by simp⟩

/-! ## Enclosed entries -/

/-- Every entry with a separator before it, and a last separator. -/
def enclosed (sep : α) (entries : List (List α)) : List α := entries.flatMap (sep :: ·) ++ [sep]

theorem enclosed_cons :
    enclosed sep (entry :: entries) = sep :: (entry ++ enclosed sep entries) := by
  simp [enclosed]

/-- The enclosed entries start with a separator. -/
theorem enclosed_eq_cons (sep : α) (entries : List (List α)) :
    ∃ rest, enclosed sep entries = sep :: rest := by
  cases entries with
  | nil => exact ⟨[], rfl⟩
  | cons entry entries => exact ⟨_, enclosed_cons⟩

theorem enclosed_eq_intercalate (hne : entries ≠ []) :
    enclosed sep entries = sep :: [sep].intercalate entries ++ [sep] := by
  induction entries with
  | nil => exact absurd rfl hne
  | cons entry entries ih =>
    cases entries with
    | nil => simp [enclosed]
    | cons next entries =>
      rw [enclosed_cons, ih (by simp), List.intercalate_cons_cons]
      simp

theorem prefix_enclosed_iff {run : List (List α)} (hrun : ∀ word ∈ run, sep ∉ word)
    (hentries : ∀ entry ∈ entries, sep ∉ entry) :
    enclosed sep run <+: enclosed sep entries ↔ run <+: entries := by
  induction run generalizing entries with
  | nil =>
    obtain ⟨rest, hrest⟩ := enclosed_eq_cons sep entries
    exact iff_of_true ⟨rest, hrest.symm⟩ List.nil_prefix
  | cons word run ih =>
    obtain ⟨more, hmore⟩ := enclosed_eq_cons sep run
    cases entries with
    | nil => simp [enclosed]
    | cons entry entries =>
      obtain ⟨rest, hrest⟩ := enclosed_eq_cons sep entries
      have htail := ih (fun w hw => hrun w (List.mem_cons_of_mem _ hw))
        fun e (he : e ∈ entries) => hentries e (List.mem_cons_of_mem _ he)
      rw [hmore, hrest, List.cons_prefix_cons] at htail
      rw [enclosed_cons, enclosed_cons, hmore, hrest, List.cons_prefix_cons,
        prefix_append_iff (hrun word (by simp)) (hentries entry (by simp)),
        List.cons_prefix_cons, ← htail]
      simp

/-- Some enclosed words are found among enclosed entries exactly when they follow each other
there. -/
theorem infix_enclosed_run_iff {run : List (List α)} (hne : run ≠ [])
    (hrun : ∀ word ∈ run, sep ∉ word) (hentries : ∀ entry ∈ entries, sep ∉ entry) :
    enclosed sep run <:+: enclosed sep entries ↔ run <:+: entries := by
  obtain ⟨more, hmore⟩ := enclosed_eq_cons sep run
  induction entries with
  | nil =>
    have hlong : ¬ enclosed sep run <:+: [sep] := by
      intro h
      obtain ⟨word, run, rfl⟩ := List.exists_cons_of_ne_nil hne
      have hlength := h.length_le
      simp [enclosed] at hlength
    simpa [enclosed, hne] using hlong
  | cons entry entries ih =>
    have htail := ih fun e he => hentries e (List.mem_cons_of_mem _ he)
    have hstart := prefix_enclosed_iff hrun hentries
    rw [enclosed_cons] at hstart ⊢
    rw [List.infix_cons_iff, hstart, List.infix_cons_iff, ← htail, hmore,
      infix_append_iff (hentries entry (by simp))]

/-- The enclosed word is found exactly when it is an entry. -/
theorem infix_enclosed_iff (hword : sep ∉ word) (hentries : ∀ entry ∈ entries, sep ∉ entry)
    (hne : entries ≠ []) :
    sep :: word ++ [sep] <:+: sep :: [sep].intercalate entries ++ [sep] ↔ word ∈ entries := by
  have hrun : enclosed sep [word] <:+: enclosed sep entries ↔ [word] <:+: entries :=
    infix_enclosed_run_iff (by simp) (by simpa using hword) hentries
  rw [enclosed_eq_intercalate hne] at hrun
  rw [← List.singleton_infix_iff, ← hrun]
  simp [enclosed]

/-- What holds of the separator and of the entries holds of the joined text. -/
theorem forall_mem_intercalate {P : α → Prop} (hsep : P sep)
    (hentries : ∀ entry ∈ entries, ∀ a ∈ entry, P a) : ∀ a ∈ [sep].intercalate entries, P a := by
  induction entries with
  | nil => simp
  | cons entry entries ih =>
    have hrest := ih fun e he => hentries e (List.mem_cons_of_mem _ he)
    intro a ha
    cases entries with
    | nil => exact hentries entry (by simp) a (by simpa using ha)
    | cons next entries =>
      rw [List.intercalate_cons_cons, List.append_assoc, List.mem_append, List.singleton_append,
        List.mem_cons] at ha
      rcases ha with ha | rfl | ha
      · exact hentries entry (by simp) a ha
      · exact hsep
      · exact hrest a ha

end Separated
