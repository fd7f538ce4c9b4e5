import Realmroot.Library.Table

/-!
# References between tables

The rows of a table refer to the rows of another one by their keys. A statement on
either table keeps the references if it leaves no row of interest behind whose
target is gone.
-/

namespace Table

variable {α β κ : Type}

/-- Every row of interest refers to a row of the other table that is as it should be. -/
def Refers (p : α → Prop) (ref : α → κ) (key : β → κ) (q : β → Prop) (rows : List α)
    (targets : List β) : Prop :=
  ∀ row ∈ rows, p row → ∃ target ∈ targets, key target = ref row ∧ q target

instance {p : α → Prop} {ref : α → κ} {key : β → κ} {q : β → Prop} {rows : List α}
    {targets : List β} [DecidableEq κ] [DecidablePred p] [DecidablePred q] :
    Decidable (Refers p ref key q rows targets) :=
  inferInstanceAs (Decidable (∀ row ∈ rows, p row → ∃ target ∈ targets, _ ∧ _))

namespace Refers

variable {p : α → Prop} {ref : α → κ} {key : β → κ} {q : β → Prop} {rows : List α}
  {targets : List β}

/-- An update of the referring rows. -/
theorem update {selects : α → Bool} {f : α → α} (h : Refers p ref key q rows targets)
    (hf : ∀ row ∈ rows, selects row = true → p (f row) →
      ∃ target ∈ targets, key target = ref (f row) ∧ q target) :
    Refers p ref key q (updateWhere selects f rows) targets := by
  intro row hrow hp
  obtain ⟨old, hold, rfl⟩ := mem_updateWhere.mp hrow
  by_cases hselects : selects old = true
  · rw [if_pos hselects] at hp ⊢
    exact hf old hold hselects hp
  · rw [if_neg hselects] at hp ⊢
    exact h old hold hp

/-- An update after which a row of interest was one before, with the same reference. -/
theorem update_of_imp {selects : α → Bool} {f : α → α} (h : Refers p ref key q rows targets)
    (hf : ∀ row ∈ rows, selects row = true → p (f row) → p row ∧ ref (f row) = ref row) :
    Refers p ref key q (updateWhere selects f rows) targets := by
  apply h.update
  intro row hrow hselects hp
  obtain ⟨hold, href⟩ := hf row hrow hselects hp
  rw [href]
  exact h row hrow hold

/-- An update of the target rows: those that are referred to stay as they should be. -/
theorem update_target {selects : β → Bool} {g : β → β} (h : Refers p ref key q rows targets)
    (hkey : ∀ target, key (g target) = key target)
    (hg : ∀ row ∈ rows, p row → ∀ target ∈ targets, key target = ref row → q target →
      selects target = true → q (g target)) :
    Refers p ref key q rows (updateWhere selects g targets) := by
  intro row hrow hp
  obtain ⟨target, htarget, href, hq⟩ := h row hrow hp
  by_cases hselects : selects target = true
  · exact ⟨g target, mem_updateWhere_of_pos htarget hselects, (hkey target).trans href,
      hg row hrow hp target htarget href hq hselects⟩
  · exact ⟨target, mem_updateWhere_of_not htarget (by simpa using hselects), href, hq⟩

theorem append {row : α} (h : Refers p ref key q rows targets)
    (hnew : p row → ∃ target ∈ targets, key target = ref row ∧ q target) :
    Refers p ref key q (rows ++ [row]) targets := by
  intro row' hrow' hp
  rcases List.mem_append.mp hrow' with hold | hlast
  · exact h row' hold hp
  · cases List.mem_singleton.mp hlast
    exact hnew hp

theorem append_target (h : Refers p ref key q rows targets) (more : List β) :
    Refers p ref key q rows (targets ++ more) := by
  intro row hrow hp
  obtain ⟨target, htarget, hrest⟩ := h row hrow hp
  exact ⟨target, List.mem_append_left _ htarget, hrest⟩

end Refers
end Table
