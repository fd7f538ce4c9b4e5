import Mathlib.Data.List.Basic
import Mathlib.Data.List.Nodup
import Mathlib.Tactic

/-!
# Tables

A table is a list of rows. Statements select rows by a condition, change the
rows that satisfy one, or append rows. A table is keyed when no two rows share
a key; every statement here leaves the keys of existing rows alone.
-/

namespace Table

variable {α κ : Type}

/-- `UPDATE … SET f WHERE p`. -/
def updateWhere (p : α → Bool) (f : α → α) (rows : List α) : List α :=
  rows.map fun row => if p row then f row else row

/-- No two rows share a key. -/
def Keyed (key : α → κ) (rows : List α) : Prop := (rows.map key).Nodup

variable {p : α → Bool} {f : α → α} {rows : List α} {key : α → κ}

@[simp] theorem updateWhere_nil : updateWhere p f [] = [] := rfl

@[simp] theorem length_updateWhere : (updateWhere p f rows).length = rows.length :=
  List.length_map ..

theorem mem_updateWhere {row : α} :
    row ∈ updateWhere p f rows ↔ ∃ old ∈ rows, row = if p old then f old else old := by
  simp only [updateWhere, List.mem_map, eq_comm]

/-- A row that the condition does not select stays as it is. -/
theorem mem_updateWhere_of_not {row : α} (h : row ∈ rows) (hp : p row = false) :
    row ∈ updateWhere p f rows := by
  rw [mem_updateWhere]
  exact ⟨row, h, by simp [hp]⟩

theorem mem_updateWhere_of_pos {row : α} (h : row ∈ rows) (hp : p row = true) :
    f row ∈ updateWhere p f rows := by
  rw [mem_updateWhere]
  exact ⟨row, h, by simp [hp]⟩

/-- Nothing changes when every selected row already is what it is set to. -/
theorem updateWhere_eq_self (h : ∀ row ∈ rows, p row = true → f row = row) :
    updateWhere p f rows = rows := by
  rw [updateWhere]
  conv_rhs => rw [← List.map_id rows]
  refine List.map_congr_left fun row hrow => ?_
  by_cases hp : p row = true
  · simpa [hp] using h row hrow hp
  · simp [hp]

theorem map_updateWhere {β : Type} {g : α → β} (hg : ∀ row, g (f row) = g row) :
    (updateWhere p f rows).map g = rows.map g := by
  rw [updateWhere, List.map_map]
  refine List.map_congr_left fun row _ => ?_
  by_cases hp : p row = true <;> simp [hp, hg]

/-- Rows that are not selected are not seen to change. -/
theorem filter_updateWhere {q : α → Bool} (hselects : ∀ row, p row = true → q row = false)
    (hchanged : ∀ row, q (f row) = q row) : (updateWhere p f rows).filter q = rows.filter q := by
  induction rows with
  | nil => rfl
  | cons row rows ih =>
    have hcons : updateWhere p f (row :: rows) =
        (if p row = true then f row else row) :: updateWhere p f rows := rfl
    rw [hcons, List.filter_cons, List.filter_cons, ih]
    by_cases hp : p row = true
    · simp [hp, hchanged, hselects row hp]
    · simp [hp]

/-- Rows are not seen to change exactly when those that are seen and selected already are what
they are set to. -/
theorem filter_updateWhere_iff {q : α → Bool} (hchanged : ∀ row, q (f row) = q row) :
    (updateWhere p f rows).filter q = rows.filter q ↔
      ∀ row ∈ rows, q row = true → p row = true → f row = row := by
  have hseen : (q ∘ fun row => if p row = true then f row else row) = q := by
    funext row
    by_cases hp : p row = true <;> simp [hp, hchanged]
  rw [updateWhere, List.filter_map, hseen]
  conv_lhs => rhs; rw [← List.map_id (rows.filter q)]
  rw [List.map_inj_left]
  constructor
  · intro h row hrow hq hp
    simpa [hp] using h row (List.mem_filter.mpr ⟨hrow, hq⟩)
  · intro h row hrow
    obtain ⟨hmem, hq⟩ := List.mem_filter.mp hrow
    by_cases hp : p row = true
    · simpa [hp] using h row hmem hq hp
    · simp [hp]

/-- An update clears the rows that are live exactly when it selects each of them. -/
theorem updateWhere_cleared_iff (q live : α → Bool) (hkept : ∀ row, q (f row) = q row)
    (hcleared : ∀ row, live (f row) = false) :
    (∀ row ∈ updateWhere p f rows, q row = true → live row = false) ↔
      ∀ row ∈ rows, q row = true → live row = true → p row = true := by
  constructor
  · intro h row hrow hq hlive
    by_contra hp
    have hmem := mem_updateWhere_of_not (f := f) hrow (Bool.eq_false_iff.mpr hp)
    rw [h row hmem hq] at hlive
    cases hlive
  · intro h row' hrow' hq
    obtain ⟨row, hrow, rfl⟩ := mem_updateWhere.mp hrow'
    split_ifs at hq ⊢ with hp
    · exact hcleared row
    · by_contra hlive
      exact hp (h row hrow hq (by simpa using hlive))

/-- A row is found by its key as the update leaves it. -/
theorem find?_updateWhere {q : α → Bool} (hkey : ∀ row, q (f row) = q row) :
    (updateWhere p f rows).find? q =
      (rows.find? q).map fun row => if p row then f row else row := by
  rw [updateWhere, List.find?_map]
  have hsame : (q ∘ fun row => if p row = true then f row else row) = q := by
    funext row
    by_cases hp : p row = true <;> simp [hp, hkey]
  rw [hsame]

theorem Keyed.updateWhere (h : Keyed key rows) (hkey : ∀ row, key (f row) = key row) :
    Keyed key (updateWhere p f rows) := by
  rw [Keyed, map_updateWhere hkey]
  exact h

theorem Keyed.eq_of_key (h : Keyed key rows) {row row' : α} (hrow : row ∈ rows)
    (hrow' : row' ∈ rows) (hkey : key row = key row') : row = row' :=
  List.inj_on_of_nodup_map h hrow hrow' hkey

theorem Keyed.append_singleton (h : Keyed key rows) {row : α}
    (hnew : ∀ old ∈ rows, key old ≠ key row) : Keyed key (rows ++ [row]) := by
  rw [Keyed, List.map_append, List.nodup_append]
  refine ⟨h, by simp, ?_⟩
  intro k hk k' hk'
  obtain ⟨old, hold, rfl⟩ := List.mem_map.mp hk
  rw [List.map_singleton, List.mem_singleton] at hk'
  exact hk' ▸ hnew old hold

/-- In a keyed table, the rows with a given key are that one row. -/
theorem Keyed.filter_key [DecidableEq κ] (h : Keyed key rows) {row : α} (hrow : row ∈ rows) :
    rows.filter (fun r => key r = key row) = [row] := by
  induction rows with
  | nil => simp at hrow
  | cons head tail ih =>
    rw [Keyed, List.map_cons, List.nodup_cons] at h
    rcases List.mem_cons.mp hrow with rfl | hrow
    · have htail : tail.filter (fun r => key r = key row) = [] := by
        rw [List.filter_eq_nil_iff]
        intro r hr
        have hne : key r ≠ key row := fun he => h.1 (he ▸ List.mem_map_of_mem hr)
        simpa using hne
      simp [htail]
    · have hne : key head ≠ key row := fun he => h.1 (he ▸ List.mem_map_of_mem hrow)
      rw [List.filter_cons, if_neg (by simpa using hne)]
      exact ih h.2 hrow

/-- In a keyed table, what is computed of a row is found under its key. -/
theorem Keyed.lookup_filterMap {β : Type} [DecidableEq κ] (h : Keyed key rows)
    (g : α → Option β) {row : α} (hrow : row ∈ rows) :
    (rows.filterMap fun r => (g r).map fun b => (key r, b)).lookup (key row) = g row := by
  induction rows with
  | nil => cases hrow
  | cons head tail ih =>
    rw [Keyed, List.map_cons, List.nodup_cons] at h
    rcases List.mem_cons.mp hrow with rfl | hrow
    · have htail : (tail.filterMap fun r => (g r).map fun b => (key r, b)).lookup (key row) =
          none := by
        rw [List.lookup_eq_none_iff]
        intro entry hentry
        obtain ⟨r, hr, hmap⟩ := List.mem_filterMap.mp hentry
        obtain ⟨b, -, rfl⟩ := Option.map_eq_some_iff.mp hmap
        have hne : key r ≠ key row := fun he => h.1 (he ▸ List.mem_map_of_mem hr)
        simpa using Ne.symm hne
      cases hg : g row with
      | none => simpa [hg] using htail
      | some b => simp [hg]
    · have hne : key row ≠ key head := fun he => h.1 (he ▸ List.mem_map_of_mem hrow)
      have htail := ih h.2 hrow
      cases hg : g head with
      | none => simpa [hg] using htail
      | some b =>
        have hfalse : (key row == key head) = false := by simpa using hne
        simpa [hg, List.lookup_cons, hfalse] using htail

/-! ## Rows that live on -/

/-- Every row lives on under its key, in a row that it may become. -/
def Evolves (key : α → κ) (step : α → α → Prop) (rows rows' : List α) : Prop :=
  ∀ old ∈ rows, ∃ new ∈ rows', key new = key old ∧ step old new

/-- A row is inserted unless its key is taken. -/
def insertNew [DecidableEq κ] (key : α → κ) (row : α) (rows : List α) : List α :=
  if rows.any fun old => key old = key row then rows else rows ++ [row]

section Evolves

variable {step : α → α → Prop}

theorem Evolves.refl (hrefl : ∀ row, step row row) : Evolves key step rows rows :=
  fun old hold => ⟨old, hold, rfl, hrefl old⟩

theorem Evolves.trans (htrans : ∀ row row' row'', step row row' → step row' row'' →
    step row row'') {rows' rows'' : List α} (h : Evolves key step rows rows')
    (h' : Evolves key step rows' rows'') : Evolves key step rows rows'' := by
  intro old hold
  obtain ⟨middle, hmiddle, hkey, hstep⟩ := h old hold
  obtain ⟨new, hnew, hkey', hstep'⟩ := h' middle hmiddle
  exact ⟨new, hnew, hkey'.trans hkey, htrans _ _ _ hstep hstep'⟩

theorem Evolves.updateWhere (hrefl : ∀ row, step row row) (hkey : ∀ row, key (f row) = key row)
    (hstep : ∀ row, p row = true → step row (f row)) :
    Evolves key step rows (updateWhere p f rows) := by
  intro old hold
  cases hp : p old with
  | true => exact ⟨f old, mem_updateWhere_of_pos hold hp, hkey old, hstep old hp⟩
  | false => exact ⟨old, mem_updateWhere_of_not hold hp, rfl, hrefl old⟩

theorem Evolves.append (hrefl : ∀ row, step row row) (more : List α) :
    Evolves key step rows (rows ++ more) :=
  fun old hold => ⟨old, List.mem_append_left _ hold, rfl, hrefl old⟩

theorem Evolves.insertNew [DecidableEq κ] (hrefl : ∀ row, step row row) (row : α) :
    Evolves key step rows (insertNew key row rows) := by
  unfold Table.insertNew
  split_ifs
  · exact Evolves.refl hrefl
  · exact Evolves.append hrefl [row]

end Evolves

theorem Keyed.insertNew [DecidableEq κ] (h : Keyed key rows) (row : α) :
    Keyed key (insertNew key row rows) := by
  unfold Table.insertNew
  split_ifs with htaken
  · exact h
  · exact h.append_singleton (by simpa using htaken)

end Table
