import Mathlib.Data.List.Perm.Basic

/-!
# Matchings between two lists

The members of one list choose members of another. A perfect matching pairs all of them. The greedy
choice goes through the first list and takes the first member of the second that is left and fits;
it finds a perfect matching when no choice takes away what a later member needs.
-/

namespace Matching

variable {α β : Type}

/-- A perfect matching: the second list can be arranged so that each place fits. -/
def Perfect (R : α → β → Prop) (as : List α) (bs : List β) : Prop :=
  ∃ chosen, chosen.Perm bs ∧ List.Forall₂ R as chosen

/-- Each member takes the first that fits and is left. -/
def takeFirst (fits : α → β → Bool) : List α → List β → Bool
  | [], _ => true
  | a :: as, bs => bs.any (fits a) && takeFirst fits as (bs.eraseP (fits a))

/-- While a perfect matching is possible, the choice of the next member leaves one. -/
def Spares (fits : α → β → Bool) : List α → List β → Prop
  | [], _ => True
  | a :: as, bs =>
    Perfect (fits · ·) (a :: as) bs →
      Perfect (fits · ·) as (bs.eraseP (fits a)) ∧ Spares fits as (bs.eraseP (fits a))

section Perfect

variable {R : α → β → Prop} {a : α} {b : β} {as as' : List α} {bs bs' : List β}

theorem perfect_nil : Perfect R [] [] := ⟨[], List.Perm.nil, List.Forall₂.nil⟩

theorem Perfect.length_eq (h : Perfect R as bs) : as.length = bs.length := by
  obtain ⟨chosen, hperm, hfits⟩ := h
  rw [hfits.length_eq, hperm.length_eq]

/-- The first member is matched with some member of the second list. -/
theorem Perfect.exists_head (h : Perfect R (a :: as) bs) : ∃ b ∈ bs, R a b := by
  obtain ⟨chosen, hperm, hfits⟩ := h
  cases hfits with
  | cons hab hrest => exact ⟨_, hperm.subset List.mem_cons_self, hab⟩

theorem Perfect.cons (hab : R a b) (h : Perfect R as bs) : Perfect R (a :: as) (b :: bs) := by
  obtain ⟨chosen, hperm, hfits⟩ := h
  exact ⟨b :: chosen, hperm.cons b, hfits.cons hab⟩

/-- The orders of the lists do not matter. -/
theorem Perfect.perm (h : Perfect R as bs) (has : as'.Perm as) (hbs : bs.Perm bs') :
    Perfect R as' bs' := by
  obtain ⟨chosen, hperm, hfits⟩ := h
  obtain ⟨arranged, hfits', harranged⟩ := List.perm_comp_forall₂ has hfits
  exact ⟨arranged, (harranged.trans hperm).trans hbs, hfits'⟩

theorem perfect_perm (has : as'.Perm as) (hbs : bs.Perm bs') :
    Perfect R as' bs' ↔ Perfect R as bs :=
  ⟨fun h => h.perm has.symm hbs.symm, fun h => h.perm has hbs⟩

end Perfect

section Greedy

variable {fits : α → β → Bool} {a : α} {as : List α} {bs : List β}

/-- What a member takes, and what it leaves. -/
theorem exists_taken (h : bs.any (fits a) = true) :
    ∃ b, fits a b = true ∧ bs.Perm (b :: bs.eraseP (fits a)) := by
  obtain ⟨b', hb', hfits'⟩ := List.any_eq_true.mp h
  obtain ⟨b, before, later, -, hfits, hbs, hrest⟩ := List.exists_of_eraseP hb' hfits'
  refine ⟨b, hfits, ?_⟩
  rw [hrest, hbs]
  exact List.perm_middle

/-- A greedy choice that reaches the end is a perfect matching. -/
theorem perfect_of_takeFirst (hlength : as.length = bs.length)
    (h : takeFirst fits as bs = true) : Perfect (fits · ·) as bs := by
  induction as generalizing bs with
  | nil =>
    have hnil : bs = [] := List.length_eq_zero_iff.mp hlength.symm
    rw [hnil]
    exact perfect_nil
  | cons a as ih =>
    rw [takeFirst, Bool.and_eq_true] at h
    obtain ⟨b, hfits, hperm⟩ := exists_taken h.1
    have hrest : as.length = (bs.eraseP (fits a)).length := by
      have hcount := hperm.length_eq
      simp only [List.length_cons] at hlength hcount
      omega
    have hmatched : Perfect (fits · ·) as (bs.eraseP (fits a)) := ih hrest h.2
    have hall : Perfect (fits · ·) (a :: as) (b :: bs.eraseP (fits a)) :=
      Perfect.cons (R := (fits · ·)) hfits hmatched
    exact hall.perm (List.Perm.refl _) hperm.symm

/-- The greedy choice reaches the end when a perfect matching exists and every choice spares it. -/
theorem takeFirst_iff (hlength : as.length = bs.length) :
    takeFirst fits as bs = true ↔ Perfect (fits · ·) as bs ∧ Spares fits as bs := by
  induction as generalizing bs with
  | nil =>
    have hnil : bs = [] := List.length_eq_zero_iff.mp hlength.symm
    subst hnil
    exact ⟨fun _ => ⟨perfect_nil, trivial⟩, fun _ => rfl⟩
  | cons a as ih =>
    -- what the first member leaves is as long as what remains
    have hrest : bs.any (fits a) = true → as.length = (bs.eraseP (fits a)).length := by
      intro hany
      obtain ⟨b, -, hperm⟩ := exists_taken hany
      have hcount := hperm.length_eq
      simp only [List.length_cons] at hlength hcount
      omega
    constructor
    · intro h
      have hperfect := perfect_of_takeFirst hlength h
      rw [takeFirst, Bool.and_eq_true] at h
      exact ⟨hperfect, fun _ => (ih (hrest h.1)).mp h.2⟩
    · rintro ⟨hperfect, hspares⟩
      obtain ⟨b, hb, hfits⟩ := hperfect.exists_head
      have hany : bs.any (fits a) = true := List.any_eq_true.mpr ⟨b, hb, hfits⟩
      rw [takeFirst, Bool.and_eq_true]
      exact ⟨hany, (ih (hrest hany)).mpr (hspares hperfect)⟩

/-- The greedy choice decides whether a perfect matching exists exactly when its choices spare
what later members need. -/
theorem decides_iff (hlength : as.length = bs.length) :
    (takeFirst fits as bs = true ↔ Perfect (fits · ·) as bs) ↔ Spares fits as bs := by
  rw [takeFirst_iff hlength]
  constructor
  · intro h
    cases as with
    | nil => trivial
    | cons a as => exact fun hperfect => (h.mpr hperfect).2 hperfect
  · intro hspares
    exact ⟨fun h => h.1, fun hperfect => ⟨hperfect, hspares⟩⟩

end Greedy

end Matching
