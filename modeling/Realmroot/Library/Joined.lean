import Mathlib.Tactic

/-!
# Texts in a row

Texts stand in a row, with a separator between them and a closing character after the last one.
Where each of them can be told apart from what follows it, the row can be read back: two rows at
the head of longer texts agree entry by entry, and so do the rests.
-/

namespace Joined

variable {α χ : Type} {stops : χ → Prop} {sep close : χ} {f : α → List χ} {R : α → α → Prop}
  {xs ys : List α} {rest rest' : List χ}

/-- What follows a text: nothing, or a character that stops it. -/
def Stopped (stops : χ → Prop) (rest : List χ) : Prop := ∀ c ∈ rest.head?, stops c

/-- The two texts are told apart from what follows them, and stand for related values. -/
def Reads (stops : χ → Prop) (f : α → List χ) (R : α → α → Prop) (x y : α) : Prop :=
  ∀ rest rest', Stopped stops rest → Stopped stops rest' → f x ++ rest = f y ++ rest' →
    R x y ∧ rest = rest'

@[simp] theorem stopped_nil : Stopped stops [] := by simp [Stopped]

@[simp] theorem stopped_cons {c : χ} : Stopped stops (c :: rest) ↔ stops c := by simp [Stopped]

/-- A row of texts after its first one. -/
def following (sep close : χ) (f : α → List χ) (xs : List α) (rest : List χ) : List χ :=
  (xs.flatMap fun x => sep :: f x) ++ close :: rest

theorem following_cons {x : α} :
    following sep close f (x :: xs) rest = sep :: (f x ++ following sep close f xs rest) := by
  simp [following]

theorem stopped_following (hsep : stops sep) (hclose : stops close) :
    Stopped stops (following sep close f xs rest) := by
  cases xs with
  | nil => simpa [following] using hclose
  | cons x xs => simpa [following_cons] using hsep

theorem intercalate_eq_following {x : α} :
    [sep].intercalate ((x :: xs).map f) ++ close :: rest =
      f x ++ following sep close f xs rest := by
  induction xs generalizing x with
  | nil => simp [following]
  | cons y xs ih =>
    rw [List.map_cons, List.map_cons, List.intercalate_cons_cons, List.append_assoc,
      List.append_assoc, ← List.map_cons, ih, following_cons]
    simp

theorem forall₂_of_following (hsep : stops sep) (hclose : stops close) (hne : sep ≠ close)
    (hreads : ∀ x ∈ xs, ∀ y ∈ ys, Reads stops f R x y)
    (h : following sep close f xs rest = following sep close f ys rest') :
    List.Forall₂ R xs ys ∧ rest = rest' := by
  induction xs generalizing ys with
  | nil =>
    cases ys with
    | nil =>
      have hrest : rest = rest' := by simpa [following] using h
      exact ⟨.nil, hrest⟩
    | cons y ys =>
      rw [following_cons] at h
      have hhead : close = sep := by simpa [following] using congrArg List.head? h
      exact absurd hhead.symm hne
  | cons x xs ih =>
    rw [following_cons] at h
    cases ys with
    | nil =>
      have hhead : sep = close := by simpa [following] using congrArg List.head? h
      exact absurd hhead hne
    | cons y ys =>
      rw [following_cons, List.cons.injEq] at h
      obtain ⟨hfirst, htail⟩ := hreads x List.mem_cons_self y List.mem_cons_self _ _
        (stopped_following hsep hclose) (stopped_following hsep hclose) h.2
      have hrest := ih (fun a ha b hb =>
        hreads a (List.mem_cons_of_mem x ha) b (List.mem_cons_of_mem y hb)) htail
      exact ⟨.cons hfirst hrest.1, hrest.2⟩

/-- Two rows at the heads of two equal texts agree. -/
theorem forall₂_of_row (hsep : stops sep) (hclose : stops close) (hne : sep ≠ close)
    (hbegin : ∀ x ∈ xs ++ ys, ∃ c text, f x = c :: text ∧ c ≠ close)
    (hreads : ∀ x ∈ xs, ∀ y ∈ ys, Reads stops f R x y)
    (h : [sep].intercalate (xs.map f) ++ close :: rest =
      [sep].intercalate (ys.map f) ++ close :: rest') :
    List.Forall₂ R xs ys ∧ rest = rest' := by
  cases xs with
  | nil =>
    cases ys with
    | nil =>
      have hrest : rest = rest' := by simpa using h
      exact ⟨.nil, hrest⟩
    | cons y ys =>
      obtain ⟨c, text, htext, hc⟩ := hbegin y (by simp)
      rw [intercalate_eq_following, htext] at h
      have hhead : close = c := by simpa using congrArg List.head? h
      exact absurd hhead.symm hc
  | cons x xs =>
    rw [intercalate_eq_following] at h
    cases ys with
    | nil =>
      obtain ⟨c, text, htext, hc⟩ := hbegin x (by simp)
      rw [htext] at h
      have hhead : c = close := by simpa using congrArg List.head? h
      exact absurd hhead hc
    | cons y ys =>
      rw [intercalate_eq_following] at h
      obtain ⟨hfirst, htail⟩ := hreads x List.mem_cons_self y List.mem_cons_self _ _
        (stopped_following hsep hclose) (stopped_following hsep hclose) h
      have hrest := forall₂_of_following hsep hclose hne (fun a ha b hb =>
        hreads a (List.mem_cons_of_mem x ha) b (List.mem_cons_of_mem y hb)) htail
      exact ⟨.cons hfirst hrest.1, hrest.2⟩

end Joined
