import Mathlib.Tactic

/-!
# Rotation of single-use credentials

Credentials come in families. A family starts with a root; using a credential
spends it and appends its child. A store is a list of credentials in which
parents precede their children. It is kept valid by three operations: changing
rows without unspending any, starting a family, and appending the child of a
credential whose family is all spent.
-/

namespace Rotation

/-- How credentials of type `α` are read. `core` is the part that never changes. -/
structure Scheme (α γ ι φ : Type) where
  core : α → γ
  id : γ → ι
  family : γ → φ
  parent : γ → Option ι
  spent : α → Prop
  revoked : α → Prop
  spent_of_revoked : ∀ a, revoked a → spent a

variable {α γ ι φ : Type} (S : Scheme α γ ι φ)

namespace Scheme

def idOf (a : α) : ι := S.id (S.core a)

def familyOf (a : α) : φ := S.family (S.core a)

def parentOf (a : α) : Option ι := S.parent (S.core a)

end Scheme

/-- Where a row stands in relation to the rows before it: a root starts its family,
a child belongs to the family of its parent. -/
def Descends (before : List α) (row : α) : Prop :=
  (S.parentOf row = none ∧ ∀ old ∈ before, S.familyOf old ≠ S.familyOf row) ∨
    ∃ parent ∈ before, S.parentOf row = some (S.idOf parent) ∧
      S.familyOf parent = S.familyOf row

/-- Every row descends from the rows before it; the list is read from its end. -/
inductive Lineage : List α → Prop
  | nil : Lineage []
  | snoc {before : List α} {row : α} : Lineage before → Descends S before row →
      Lineage (before ++ [row])

structure Valid (rows : List α) : Prop where
  keyed : (rows.map S.idOf).Nodup
  lineage : Lineage S rows
  one_child : ∀ a ∈ rows, ∀ b ∈ rows, S.parentOf a ≠ none → S.parentOf a = S.parentOf b →
    S.idOf a = S.idOf b
  parent_spent : ∀ a ∈ rows, ∀ b ∈ rows, S.parentOf b = some (S.idOf a) → S.spent a
  one_unspent : ∀ a ∈ rows, ∀ b ∈ rows, S.familyOf a = S.familyOf b → ¬ S.spent a →
    ¬ S.spent b → S.idOf a = S.idOf b

/-- A change of rows that keeps their cores and unspends none. -/
structure Ages (f : α → α) : Prop where
  core : ∀ a, S.core (f a) = S.core a
  spent : ∀ a, S.spent a → S.spent (f a)
  revoked : ∀ a, S.revoked a → S.revoked (f a)

variable {S} {rows : List α} {row parent : α} {f : α → α}

theorem Ages.idOf (h : Ages S f) (a : α) : S.idOf (f a) = S.idOf a := by
  rw [Scheme.idOf, h.core, Scheme.idOf]

theorem Ages.familyOf (h : Ages S f) (a : α) : S.familyOf (f a) = S.familyOf a := by
  rw [Scheme.familyOf, h.core, Scheme.familyOf]

theorem Ages.parentOf (h : Ages S f) (a : α) : S.parentOf (f a) = S.parentOf a := by
  rw [Scheme.parentOf, h.core, Scheme.parentOf]

theorem Descends.map (h : Ages S f) (hrow : Descends S rows row) :
    Descends S (rows.map f) (f row) := by
  rcases hrow with ⟨hroot, hfirst⟩ | ⟨parent, hparent, hid, hfamily⟩
  · refine Or.inl ⟨by rw [h.parentOf, hroot], ?_⟩
    intro old hold
    obtain ⟨a, ha, rfl⟩ := List.mem_map.mp hold
    rw [h.familyOf, h.familyOf]
    exact hfirst a ha
  · refine Or.inr ⟨f parent, List.mem_map_of_mem hparent, ?_, ?_⟩
    · rw [h.parentOf, h.idOf, hid]
    · rw [h.familyOf, h.familyOf, hfamily]

theorem Lineage.map (h : Ages S f) (hrows : Lineage S rows) : Lineage S (rows.map f) := by
  induction hrows with
  | nil => exact .nil
  | snoc _ hrow ih =>
    rw [List.map_append]
    exact .snoc ih (hrow.map h)

theorem valid_nil : Valid S [] where
  keyed := List.nodup_nil
  lineage := .nil
  one_child _ ha := absurd ha List.not_mem_nil
  parent_spent _ ha := absurd ha List.not_mem_nil
  one_unspent _ ha := absurd ha List.not_mem_nil

/-- Ageing rows keeps a store valid. -/
theorem Valid.map (h : Valid S rows) (hf : Ages S f) : Valid S (rows.map f) where
  keyed := by
    have hids : (rows.map f).map S.idOf = rows.map S.idOf := by
      rw [List.map_map]
      exact List.map_congr_left fun a _ => hf.idOf a
    rw [hids]
    exact h.keyed
  lineage := h.lineage.map hf
  one_child _ ha' _ hb' hne hparent := by
    obtain ⟨a, ha, rfl⟩ := List.mem_map.mp ha'
    obtain ⟨b, hb, rfl⟩ := List.mem_map.mp hb'
    rw [hf.parentOf] at hne
    rw [hf.parentOf, hf.parentOf] at hparent
    rw [hf.idOf, hf.idOf]
    exact h.one_child a ha b hb hne hparent
  parent_spent _ ha' _ hb' hparent := by
    obtain ⟨a, ha, rfl⟩ := List.mem_map.mp ha'
    obtain ⟨b, hb, rfl⟩ := List.mem_map.mp hb'
    rw [hf.parentOf, hf.idOf] at hparent
    exact hf.spent a (h.parent_spent a ha b hb hparent)
  one_unspent _ ha' _ hb' hfamily hunspent hunspent' := by
    obtain ⟨a, ha, rfl⟩ := List.mem_map.mp ha'
    obtain ⟨b, hb, rfl⟩ := List.mem_map.mp hb'
    rw [hf.familyOf, hf.familyOf] at hfamily
    rw [hf.idOf, hf.idOf]
    exact h.one_unspent a ha b hb hfamily (fun hs => hunspent (hf.spent a hs))
      fun hs => hunspent' (hf.spent b hs)

/-- Every parent is in the store, in the family of its child. -/
theorem Lineage.parent_mem (h : Lineage S rows) :
    ∀ row ∈ rows, ∀ p, S.parentOf row = some p →
      ∃ parent ∈ rows, S.idOf parent = p ∧ S.familyOf parent = S.familyOf row := by
  induction h with
  | nil => exact fun _ hrow => absurd hrow List.not_mem_nil
  | snoc _ hlast ih =>
    intro row hrow p hp
    rcases List.mem_append.mp hrow with hold | hnew
    · obtain ⟨parent, hparent, hid, hfamily⟩ := ih row hold p hp
      exact ⟨parent, List.mem_append_left _ hparent, hid, hfamily⟩
    · rw [List.mem_singleton.mp hnew] at hp ⊢
      rcases hlast with ⟨hroot, -⟩ | ⟨parent, hparent, hid, hfamily⟩
      · rw [hroot] at hp
        cases hp
      · rw [hid, Option.some.injEq] at hp
        exact ⟨parent, List.mem_append_left _ hparent, hp, hfamily⟩

/-- A row with a new key, whose family is all spent and whose parent, if it has one,
has no child yet, may be appended. -/
theorem Valid.append (h : Valid S rows) (hkey : ∀ old ∈ rows, S.idOf old ≠ S.idOf row)
    (hdescends : Descends S rows row)
    (hspent : ∀ old ∈ rows, S.familyOf old = S.familyOf row → S.spent old)
    (hchild : ∀ old ∈ rows, S.parentOf row ≠ none → S.parentOf old ≠ S.parentOf row) :
    Valid S (rows ++ [row]) where
  keyed := by
    rw [List.map_append, List.nodup_append]
    refine ⟨h.keyed, by simp, ?_⟩
    intro k hk k' hk'
    obtain ⟨old, hold, rfl⟩ := List.mem_map.mp hk
    rw [List.map_singleton, List.mem_singleton] at hk'
    rw [hk']
    exact hkey old hold
  lineage := .snoc h.lineage hdescends
  one_child a ha b hb hne hparent := by
    rcases List.mem_append.mp ha with ha | ha <;> rcases List.mem_append.mp hb with hb | hb
    · exact h.one_child a ha b hb hne hparent
    · rw [List.mem_singleton.mp hb] at hparent
      exact absurd hparent (hchild a ha (hparent ▸ hne))
    · rw [List.mem_singleton.mp ha] at hparent hne
      exact absurd hparent.symm (hchild b hb hne)
    · rw [List.mem_singleton.mp ha, List.mem_singleton.mp hb]
  parent_spent a ha b hb hparent := by
    rcases List.mem_append.mp ha with ha | ha <;> rcases List.mem_append.mp hb with hb | hb
    · exact h.parent_spent a ha b hb hparent
    · rw [List.mem_singleton.mp hb] at hparent
      rcases hdescends with ⟨hroot, -⟩ | ⟨parent, hmem, hid, hfamily⟩
      · rw [hroot] at hparent
        cases hparent
      · rw [hid, Option.some.injEq] at hparent
        have heq : parent = a := List.inj_on_of_nodup_map h.keyed hmem ha hparent
        exact hspent a ha (heq ▸ hfamily)
    · rw [List.mem_singleton.mp ha] at hparent
      obtain ⟨parent, hmem, hid, -⟩ := h.lineage.parent_mem b hb _ hparent
      exact absurd hid (hkey parent hmem)
    · rw [List.mem_singleton.mp ha, List.mem_singleton.mp hb] at hparent
      rcases hdescends with ⟨hroot, -⟩ | ⟨parent, hmem, hid, -⟩
      · rw [hroot] at hparent
        cases hparent
      · rw [hid, Option.some.injEq] at hparent
        exact absurd hparent (hkey parent hmem)
  one_unspent a ha b hb hfamily hunspent hunspent' := by
    rcases List.mem_append.mp ha with ha | ha <;> rcases List.mem_append.mp hb with hb | hb
    · exact h.one_unspent a ha b hb hfamily hunspent hunspent'
    · rw [List.mem_singleton.mp hb] at hfamily
      exact absurd (hspent a ha hfamily) hunspent
    · rw [List.mem_singleton.mp ha] at hfamily
      exact absurd (hspent b hb hfamily.symm) hunspent'
    · rw [List.mem_singleton.mp ha, List.mem_singleton.mp hb]

/-! ## What the lineage gives -/

/-- Every family has its root in the store. -/
theorem Lineage.root_mem (h : Lineage S rows) :
    ∀ row ∈ rows, ∃ root ∈ rows, S.parentOf root = none ∧ S.familyOf root = S.familyOf row := by
  induction h with
  | nil => exact fun _ hrow => absurd hrow List.not_mem_nil
  | @snoc before last _ hlast ih =>
    intro row hrow
    rcases List.mem_append.mp hrow with hold | hnew
    · obtain ⟨root, hroot, hnone, hfamily⟩ := ih row hold
      exact ⟨root, List.mem_append_left _ hroot, hnone, hfamily⟩
    · rw [List.mem_singleton.mp hnew]
      rcases hlast with ⟨hnone, -⟩ | ⟨parent, hparent, -, hsame⟩
      · exact ⟨last, by simp, hnone, rfl⟩
      · obtain ⟨root, hroot, hnone, hfamily⟩ := ih parent hparent
        exact ⟨root, List.mem_append_left _ hroot, hnone, hfamily.trans hsame⟩

/-- What holds of every root, and of every child whose parent it holds of, relates
every row to the root of its family. -/
theorem Lineage.root_induction {T : α → α → Prop} (h : Lineage S rows)
    (hroot : ∀ root ∈ rows, T root root)
    (hchild : ∀ parent ∈ rows, ∀ row ∈ rows, S.parentOf row = some (S.idOf parent) →
      ∀ root, T parent root → T row root)
    {root : α} (hmem : root ∈ rows) (hnone : S.parentOf root = none) :
    ∀ row ∈ rows, S.familyOf row = S.familyOf root → T row root := by
  induction h with
  | nil => exact fun _ hrow => absurd hrow List.not_mem_nil
  | @snoc before last _ hlast ih =>
    have ih' := ih (fun r hr => hroot r (List.mem_append_left _ hr))
      fun p hp r hr => hchild p (List.mem_append_left _ hp) r (List.mem_append_left _ hr)
    intro row hrow hfamily
    rcases List.mem_append.mp hmem with hold | hnew
    · rcases List.mem_append.mp hrow with hrow | hrow
      · exact ih' hold row hrow hfamily
      · rw [List.mem_singleton.mp hrow] at hfamily ⊢
        rcases hlast with ⟨-, hfirst⟩ | ⟨parent, hparent, hid, hsame⟩
        · exact absurd hfamily.symm (hfirst root hold)
        · exact hchild parent (List.mem_append_left _ hparent) last (by simp) hid root
            (ih' hold parent hparent (hsame.trans hfamily))
    · have heq := List.mem_singleton.mp hnew
      rcases List.mem_append.mp hrow with hrow | hrow
      · rcases hlast with ⟨-, hfirst⟩ | ⟨parent, -, hid, -⟩
        · exact absurd (heq ▸ hfamily) (hfirst row hrow)
        · rw [heq, hid] at hnone
          cases hnone
      · rw [List.mem_singleton.mp hrow, heq]
        exact hroot last (by simp)

/-! ## Stores over time -/

variable (S) in
/-- Every credential of the family is revoked. -/
def Dead (family : φ) (rows : List α) : Prop :=
  ∀ row ∈ rows, S.familyOf row = family → S.revoked row

variable (S) in
/-- What may happen to a store: rows stay, as they are at their core, and what is
spent or revoked remains so; a family that is dead stays dead, and gets no new row. -/
structure Evolves (rows rows' : List α) : Prop where
  kept : ∀ row ∈ rows, ∃ row' ∈ rows', S.core row' = S.core row ∧
    (S.spent row → S.spent row') ∧ (S.revoked row → S.revoked row')
  dead : ∀ family, (∃ row ∈ rows, S.familyOf row = family) → Dead S family rows →
    Dead S family rows'
  closed : ∀ family, (∃ row ∈ rows, S.familyOf row = family) → Dead S family rows →
    ∀ row' ∈ rows', S.familyOf row' = family → ∃ row ∈ rows, S.core row' = S.core row

theorem familyOf_eq {a b : α} (h : S.core a = S.core b) : S.familyOf a = S.familyOf b := by
  rw [Scheme.familyOf, h, Scheme.familyOf]

/-- A family that is there stays there. -/
theorem Evolves.family {rows rows' : List α} (h : Evolves S rows rows') {family : φ}
    (hfamily : ∃ row ∈ rows, S.familyOf row = family) :
    ∃ row ∈ rows', S.familyOf row = family := by
  obtain ⟨row, hrow, rfl⟩ := hfamily
  obtain ⟨row', hrow', hcore, -⟩ := h.kept row hrow
  exact ⟨row', hrow', familyOf_eq hcore⟩

theorem Evolves.refl (rows : List α) : Evolves S rows rows where
  kept row hrow := ⟨row, hrow, rfl, fun h => h, fun h => h⟩
  dead _ _ h := h
  closed _ _ _ row hrow _ := ⟨row, hrow, rfl⟩

theorem Evolves.trans {a b c : List α} (h : Evolves S a b) (h' : Evolves S b c) :
    Evolves S a c where
  kept row hrow := by
    obtain ⟨row', hrow', hcore, hspent, hrevoked⟩ := h.kept row hrow
    obtain ⟨row'', hrow'', hcore', hspent', hrevoked'⟩ := h'.kept row' hrow'
    exact ⟨row'', hrow'', hcore'.trans hcore, hspent' ∘ hspent, hrevoked' ∘ hrevoked⟩
  dead family hfamily hdead :=
    h'.dead family (h.family hfamily) (h.dead family hfamily hdead)
  closed family hfamily hdead row'' hrow'' hsame := by
    obtain ⟨row', hrow', hcore'⟩ := h'.closed family (h.family hfamily)
      (h.dead family hfamily hdead) row'' hrow'' hsame
    have hsame' : S.familyOf row' = family := (familyOf_eq hcore').symm.trans hsame
    obtain ⟨row, hrow, hcore⟩ := h.closed family hfamily hdead row' hrow' hsame'
    exact ⟨row, hrow, hcore'.trans hcore⟩

theorem evolves_map (hf : Ages S f) : Evolves S rows (rows.map f) where
  kept row hrow := ⟨f row, List.mem_map_of_mem hrow, hf.core row, hf.spent row, hf.revoked row⟩
  dead family _ hdead := by
    intro row' hrow' hfamily
    obtain ⟨row, hrow, rfl⟩ := List.mem_map.mp hrow'
    exact hf.revoked row (hdead row hrow (hf.familyOf row ▸ hfamily))
  closed family _ _ := by
    intro row' hrow' _
    obtain ⟨row, hrow, rfl⟩ := List.mem_map.mp hrow'
    exact ⟨row, hrow, hf.core row⟩

/-- A row may be appended to a family that is not there yet, or that is alive. -/
theorem evolves_append
    (h : (∃ old ∈ rows, S.familyOf old = S.familyOf row) → ¬ Dead S (S.familyOf row) rows) :
    Evolves S rows (rows ++ [row]) where
  kept old hold := ⟨old, List.mem_append_left _ hold, rfl, fun h => h, fun h => h⟩
  dead family hfamily hdead := by
    intro a ha hsame
    rcases List.mem_append.mp ha with ha | ha
    · exact hdead a ha hsame
    · rw [List.mem_singleton.mp ha] at hsame
      subst hsame
      exact absurd hdead (h hfamily)
  closed family hfamily hdead := by
    intro a ha hsame
    rcases List.mem_append.mp ha with ha | ha
    · exact ⟨a, ha, rfl⟩
    · rw [List.mem_singleton.mp ha] at hsame
      subst hsame
      exact absurd hdead (h hfamily)

end Rotation
