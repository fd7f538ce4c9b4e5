import Realmroot.Library.Table

/-!
# Versioned rows

A row of a table is replaced by later versions of itself. Its version number never
falls, and its payload changes only when the number rises, so that a number stands
for one payload.
-/

namespace Versions

variable {α κ β : Type}

/-- How rows are read. -/
structure Scheme (α κ β : Type) where
  key : α → κ
  version : α → ℕ
  payload : α → β

variable (S : Scheme α κ β)

/-- The second row is the first one, or a later version of it. -/
structure Succeeds (old new : α) : Prop where
  key : S.key new = S.key old
  version : S.version old < S.version new ∨
    S.version new = S.version old ∧ S.payload new = S.payload old

/-- Every row of the first table is in the second one, in the same or a later version. -/
def Advances (rows rows' : List α) : Prop := ∀ row ∈ rows, ∃ row' ∈ rows', Succeeds S row row'

variable {S} {rows rows' : List α}

theorem Succeeds.refl (row : α) : Succeeds S row row := ⟨rfl, Or.inr ⟨rfl, rfl⟩⟩

theorem Succeeds.trans {a b c : α} (h : Succeeds S a b) (h' : Succeeds S b c) :
    Succeeds S a c := by
  refine ⟨h'.key.trans h.key, ?_⟩
  rcases h.version with hlt | ⟨hversion, hpayload⟩
  · rcases h'.version with hlt' | ⟨hversion', -⟩
    · exact Or.inl (hlt.trans hlt')
    · exact Or.inl (hversion' ▸ hlt)
  · rcases h'.version with hlt' | ⟨hversion', hpayload'⟩
    · exact Or.inl (hversion ▸ hlt')
    · exact Or.inr ⟨hversion'.trans hversion, hpayload'.trans hpayload⟩

theorem Succeeds.version_le {a b : α} (h : Succeeds S a b) : S.version a ≤ S.version b := by
  rcases h.version with hlt | ⟨hversion, -⟩
  · exact hlt.le
  · exact hversion.ge

/-- A change that keeps the version keeps the payload. -/
theorem Succeeds.payload {a b : α} (h : Succeeds S a b) (hversion : S.version b = S.version a) :
    S.payload b = S.payload a := by
  rcases h.version with hlt | ⟨-, hpayload⟩
  · exact absurd hversion hlt.ne'
  · exact hpayload

theorem Advances.refl (rows : List α) : Advances S rows rows :=
  fun row hrow => ⟨row, hrow, Succeeds.refl row⟩

theorem Advances.trans {a b c : List α} (h : Advances S a b) (h' : Advances S b c) :
    Advances S a c := by
  intro row hrow
  obtain ⟨middle, hmiddle, hfirst⟩ := h row hrow
  obtain ⟨last, hlast, hsecond⟩ := h' middle hmiddle
  exact ⟨last, hlast, hfirst.trans hsecond⟩

/-- An update advances the rows that it selects. -/
theorem advances_updateWhere {p : α → Bool} {f : α → α}
    (hf : ∀ row ∈ rows, p row = true → Succeeds S row (f row)) :
    Advances S rows (Table.updateWhere p f rows) := by
  intro row hrow
  by_cases hp : p row = true
  · exact ⟨f row, Table.mem_updateWhere_of_pos hrow hp, hf row hrow hp⟩
  · exact ⟨row, Table.mem_updateWhere_of_not hrow (by simpa using hp), Succeeds.refl row⟩

theorem advances_append (more : List α) : Advances S rows (rows ++ more) :=
  fun row hrow => ⟨row, List.mem_append_left _ hrow, Succeeds.refl row⟩

/-- In keyed tables the row with the same key is the successor. -/
theorem Advances.succeeds (h : Advances S rows rows') (hkeyed : Table.Keyed S.key rows')
    {row row' : α} (hrow : row ∈ rows) (hrow' : row' ∈ rows') (hkey : S.key row' = S.key row) :
    Succeeds S row row' := by
  obtain ⟨next, hnext, hsucceeds⟩ := h row hrow
  have hsame : next = row' := hkeyed.eq_of_key hnext hrow' (hsucceeds.key.trans hkey.symm)
  exact hsame ▸ hsucceeds

end Versions
