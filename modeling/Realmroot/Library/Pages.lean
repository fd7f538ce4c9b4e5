import Mathlib.Data.List.Sort

/-!
# Pages of an ordered list

A query sorts the rows that it selects and returns some of them. Where the order is strict on the
rows, a row is on the first page exactly when fewer rows than the page holds come before it.
-/

namespace Pages

variable {α : Type}

/-- The rows from an offset on, as many as the limit admits. -/
def page (limit offset : ℕ) (rows : List α) : List α := (rows.drop offset).take limit

/-- What comes before a row in a list. -/
def before (lt : α → α → Bool) (row : α) (rows : List α) : List α :=
  rows.filter fun other => lt other row

variable {lt : α → α → Bool} {row : α} {rows sorted : List α} {limit : ℕ}

theorem mem_page_zero_iff (hirrefl : ∀ a, lt a a = false)
    (hasymm : ∀ a b, lt a b = true → lt b a = false)
    (hsorted : sorted.Pairwise fun a b => lt a b = true) (hrow : row ∈ sorted) :
    row ∈ page limit 0 sorted ↔ (before lt row sorted).length < limit := by
  obtain ⟨front, back, rfl⟩ := List.append_of_mem hrow
  obtain ⟨-, hback, hcross⟩ := List.pairwise_append.mp hsorted
  have hfront : ∀ other ∈ front, lt other row = true := fun other hother =>
    hcross other hother row (List.mem_cons_self ..)
  have hlater : ∀ other ∈ back, lt other row = false := fun other hother =>
    hasymm row other (List.rel_of_pairwise_cons hback hother)
  have hcount : before lt row (front ++ row :: back) = front := by
    have hnone : back.filter (fun other => lt other row) = [] :=
      List.filter_eq_nil_iff.mpr fun other hother => by simp [hlater other hother]
    rw [before, List.filter_append, List.filter_eq_self.mpr hfront, List.filter_cons, hnone]
    simp [hirrefl]
  have hnot : row ∉ front := fun h => by
    have hself := hfront row h
    rw [hirrefl] at hself
    cases hself
  rw [hcount, page, List.drop_zero]
  constructor
  · intro hmem
    by_contra hle
    rw [List.take_append_of_le_length (by omega)] at hmem
    exact hnot (List.mem_of_mem_take hmem)
  · intro hlt
    obtain ⟨k, rfl⟩ := Nat.exists_eq_add_of_lt hlt
    rw [show front.length + k + 1 = front.length + (k + 1) from rfl, List.take_length_add_append]
    simp

/-- The count does not depend on the order in which the rows are listed. -/
theorem length_before_perm (h : sorted.Perm rows) :
    (before lt row sorted).length = (before lt row rows).length :=
  (h.filter _).length_eq

end Pages
