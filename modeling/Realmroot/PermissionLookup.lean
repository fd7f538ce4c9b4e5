import Realmroot.Library.Table
import Realmroot.Rules
import Realmroot.Usecases.AgentPermissions

/-!
# Fetching a permission of an agent

A permission is fetched by its identifier from the first page of a list. It is found exactly when
fewer than a hundred permissions of the list come before it, and when its status is the same at
the moment when the list is chosen and at the moment when it is read.
-/

namespace Realmroot

open AtomicProgram Error

/-! ## The order of the list -/

theorem newerEntitlement_iff {a b : ResourceScopeEntitlement} :
    newerEntitlement a b = true ↔
      b.createdAt < a.createdAt ∨ (a.createdAt = b.createdAt ∧ b.id < a.id) := by
  simp [newerEntitlement]

theorem newerEntitlement_irrefl (row : ResourceScopeEntitlement) :
    newerEntitlement row row = false := by
  simp [newerEntitlement]

theorem newerEntitlement_asymm {a b : ResourceScopeEntitlement} (h : newerEntitlement a b = true) :
    newerEntitlement b a = false := by
  rw [← Bool.not_eq_true, newerEntitlement_iff]
  rcases newerEntitlement_iff.mp h with hlt | ⟨heq, hid⟩
  · rintro (hgt | ⟨heq, -⟩)
    · exact absurd hgt hlt.asymm
    · exact absurd heq.symm hlt.ne'
  · rintro (hgt | ⟨-, hid'⟩)
    · exact absurd heq hgt.ne
    · exact absurd hid' hid.asymm

theorem newerEntitlement_total {a b : ResourceScopeEntitlement} (h : a.id ≠ b.id)
    (hnot : newerEntitlement b a = false) : newerEntitlement a b = true := by
  rw [← Bool.not_eq_true, newerEntitlement_iff, not_or, not_and, not_lt, not_lt] at hnot
  rw [newerEntitlement_iff]
  rcases lt_or_eq_of_le hnot.1 with hlt | heq
  · exact Or.inl hlt
  · exact Or.inr ⟨heq.symm, lt_of_le_of_ne (hnot.2 heq) h.symm⟩

theorem notNewer_trans {a b c : ResourceScopeEntitlement} (hab : newerEntitlement b a = false)
    (hbc : newerEntitlement c b = false) : newerEntitlement c a = false := by
  rw [← Bool.not_eq_true, newerEntitlement_iff, not_or, not_and, not_lt, not_lt] at hab hbc ⊢
  refine ⟨hbc.1.trans hab.1, fun heq => ?_⟩
  have hba : b.createdAt = a.createdAt := le_antisymm hab.1 (heq ▸ hbc.1)
  exact (hbc.2 (heq.trans hba.symm)).trans (hab.2 hba)

/-- The selected rows are sorted strictly. -/
theorem pairwise_newer {rows : List ResourceScopeEntitlement}
    (h : Table.Keyed ResourceScopeEntitlement.id rows) :
    (rows.insertionSort fun a b => !newerEntitlement b a).Pairwise fun a b =>
      newerEntitlement a b = true := by
  let before (a b : ResourceScopeEntitlement) : Prop := (!newerEntitlement b a) = true
  have htrans : IsTrans ResourceScopeEntitlement before :=
    ⟨fun a b c hab hbc => by
      simp only [before, Bool.not_eq_true'] at hab hbc ⊢
      exact notNewer_trans hab hbc⟩
  have htotal : Std.Total before := ⟨fun a b => by
    cases hba : newerEntitlement b a with
    | false => exact Or.inl (by simp [before, hba])
    | true => exact Or.inr (by simp [before, newerEntitlement_asymm hba])⟩
  have hsorted := List.pairwise_insertionSort before rows
  have hids : (rows.insertionSort before).Pairwise fun a b => a.id ≠ b.id := by
    have hnodup : ((rows.insertionSort before).map (·.id)).Nodup :=
      ((List.perm_insertionSort before rows).map _).nodup_iff.mpr h
    exact List.pairwise_map.mp hnodup
  exact (hsorted.and hids).imp fun ⟨hnot, hid⟩ =>
    newerEntitlement_total hid (by simpa [before] using hnot)

/-! ## The run -/

/-- Nothing happens but that the clock shows a time before every command. -/
def clockwork (times : ℕ → Time) : Program.Surroundings World Reply where
  elapse n s := { s with clock := times n }
  reply _ := {}

/-- The list in which the permission is looked for. -/
def lookupQuery (entitlement : ResourceScopeEntitlement) (decided : Time) : AgentPermissionQuery :=
  { agentId := truthy entitlement.agentIdentityId
    resourceServerId := some entitlement.resourceServerId
    status :=
      if (resourceScopeEntitlementLifecycle entitlement decided).1 = .inactive then some .inactive
      else none
    limit := 100, offset := 0 }

/-- The item of the page with the identifier. -/
def foundItem (db : Database) (entitlement : ResourceScopeEntitlement)
    (decided listed shown : Time) : Option AgentPermission :=
  ((db.listAgentPermissions (lookupQuery entitlement decided) listed).1.map fun item =>
    toAgentPermission item.1 item.2 shown).find? fun item => item.id = entitlement.id

/-- What `getManagementAgentPermission` returns, by the times at which it looks at the clock. -/
def permissionAt (db : Database) (entitlementId : String) (decided listed shown : Time) :
    Except Error AgentPermission :=
  match db.findEntitlement entitlementId with
  | none => .error (notFound "Agent Permission was not found.")
  | some entitlement =>
    match truthy entitlement.agentIdentityId with
    | none => .error (notFound "Agent Permission was not found.")
    | some agentId =>
      match db.findIdentity agentId with
      | none => .error (notFound "Agent identity was not found.")
      | some _ =>
        match foundItem db entitlement decided listed shown with
        | none => .error (notFound "Agent Permission was not found.")
        | some item => .ok item

section Identity

variable {α : Type} {around : Program.Surroundings World Reply} {n : ℕ} {w : World}
  {identityId : String} {next : AgentIdentityAggregate → Request α}

theorem execute_requireIdentity_none
    (h : (around.elapse n w).db.findIdentity identityId = none) :
    ((requireIdentity identityId).bind next).execute around n w =
      (.error (notFound "Agent identity was not found."), around.elapse n w) := by
  unfold requireIdentity findIdentityAggregate
  rw [Program.bind_eq, Program.bind_assoc, Program.bind_eq, Program.bind_assoc,
    ← Program.bind_eq, execute_query, h]
  rfl

theorem execute_requireIdentity_some {identity : AgentIdentity}
    (h : (around.elapse n w).db.findIdentity identityId = some identity) :
    ((requireIdentity identityId).bind next).execute around n w =
      (next { identity := identity, bindings :=
          (around.elapse (n + 1) (around.elapse n w)).db.bindingsOf identity.id }).execute around
        (n + 2) (around.elapse (n + 1) (around.elapse n w)) := by
  unfold requireIdentity findIdentityAggregate
  rw [Program.bind_eq, Program.bind_assoc, Program.bind_eq, Program.bind_assoc,
    ← Program.bind_eq, execute_query, h]
  rfl

end Identity

theorem execute_getManagementAgentPermission (times : ℕ → Time) (w : World)
    (entitlementId : String) :
    ((getManagementAgentPermission entitlementId).execute (clockwork times) 0 w).1 =
      permissionAt w.db entitlementId (times 3) (times 4) (times 6) := by
  have hdb : ∀ n s, ((clockwork times).elapse n s).db = s.db := fun _ _ => rfl
  unfold getManagementAgentPermission permissionAt
  rw [execute_query, hdb]
  cases w.db.findEntitlement entitlementId with
  | none => rfl
  | some entitlement =>
    rw [execute_orThrow_some]
    dsimp only
    cases hagent : truthy entitlement.agentIdentityId with
    | none => rfl
    | some agentId =>
      rw [execute_orThrow_some]
      dsimp only
      cases hidentity : w.db.findIdentity agentId with
      | none =>
        have hidentity' : ((clockwork times).elapse 1
            ((clockwork times).elapse 0 w)).db.findIdentity agentId = none := hidentity
        rw [Program.bind_eq, execute_requireIdentity_none hidentity']
      | some identity =>
        have hidentity' : ((clockwork times).elapse 1
            ((clockwork times).elapse 0 w)).db.findIdentity agentId = some identity := hidentity
        rw [Program.bind_eq, execute_requireIdentity_some hidentity', execute_currentTime]
        unfold listManagementAgentPermissions
        rw [← hagent]
        change (Program.execute (clockwork times) 7 (orThrow _
          (foundItem w.db entitlement (times 3) (times 4) (times 6))) _).1 =
            match foundItem w.db entitlement (times 3) (times 4) (times 6) with
            | none => .error (notFound "Agent Permission was not found.")
            | some item => .ok item
        cases foundItem w.db entitlement (times 3) (times 4) (times 6) <;> rfl

/-! ## The promise -/

section Promise

variable {db : Database} {entitlementId : String} {entitlement : ResourceScopeEntitlement}
  {resource : ResourceSummary} {decided listed shown : Time}

/-- The identifier is that of an entitlement of an agent identity and of a resource that are not
deleted. -/
def IsFetchable (db : Database) (entitlementId : String) (entitlement : ResourceScopeEntitlement)
    (resource : ResourceSummary) : Prop :=
  db.findEntitlement entitlementId = some entitlement ∧
    (truthy entitlement.agentIdentityId).isSome = true ∧
    db.permissionRow entitlement = some (entitlement, resource)

/-- The permission is returned where there is one, and is not found otherwise. -/
def FetchesExactly (db : Database) (entitlementId : String) (shown : Time)
    (result : Except Error AgentPermission) : Prop :=
  (∀ entitlement resource, IsFetchable db entitlementId entitlement resource →
      result = .ok (toAgentPermission entitlement resource shown)) ∧
    ((¬ ∃ entitlement resource, IsFetchable db entitlementId entitlement resource) →
      ∃ message, result = .error (notFound message))

/-- The permission has the same status at both times, and fewer than a hundred permissions come
before it in the list. -/
def IsListedFirst (db : Database) (entitlement : ResourceScopeEntitlement)
    (decided listed : Time) : Prop :=
  entitlement.isActive decided = entitlement.isActive listed ∧
    (Pages.before newerEntitlement entitlement (db.resourceScopeEntitlements.filter
      (db.selectsPermission (lookupQuery entitlement decided) listed))).length < 100

theorem isActive_eq_not (time : Time) :
    entitlement.isActive time =
      !(entitlement.endedAt.isSome || entitlement.expiresAt.any (· ≤ time)) := by
  unfold ResourceScopeEntitlement.isActive
  cases entitlement.endedAt with
  | some ended => rfl
  | none =>
    cases entitlement.expiresAt with
    | none => rfl
    | some expires =>
      have hlt : decide (time < expires) = !decide (expires ≤ time) := by
        rw [← decide_not]
        simp only [not_le]
      simpa using hlt

theorem lifecycle_inactive_iff :
    (resourceScopeEntitlementLifecycle entitlement decided).1 = .inactive ↔
      entitlement.isActive decided = false := by
  rw [isActive_eq_not]
  unfold resourceScopeEntitlementLifecycle
  split_ifs with hended hexpired
  · simp [hended]
  · simp [hexpired]
  · simp [hended, hexpired]

theorem statusCondition_iff :
    scopeEntitlementStatusCondition (lookupQuery entitlement decided).status listed entitlement =
        true ↔
      entitlement.isActive decided = entitlement.isActive listed := by
  cases hdecided : entitlement.isActive decided with
  | true =>
    have hnot : (resourceScopeEntitlementLifecycle entitlement decided).1 ≠ .inactive := by
      rw [ne_eq, lifecycle_inactive_iff, hdecided]
      simp
    have hstatus : (lookupQuery entitlement decided).status = none := if_neg hnot
    rw [hstatus, eq_comm]
    rfl
  | false =>
    have hstatus : (lookupQuery entitlement decided).status = some .inactive :=
      if_pos (lifecycle_inactive_iff.mpr hdecided)
    have hcondition : scopeEntitlementStatusCondition (some .inactive) listed entitlement =
        !entitlement.isActive listed := by
      rw [isActive_eq_not, Bool.not_not]
      rfl
    rw [hstatus, hcondition, Bool.not_eq_true', eq_comm]

/-- Where the permission is selected. -/
theorem selectsPermission_iff (hagent : (truthy entitlement.agentIdentityId).isSome = true) :
    db.selectsPermission (lookupQuery entitlement decided) listed entitlement = true ↔
      (db.permissionRow entitlement).isSome = true ∧
        entitlement.isActive decided = entitlement.isActive listed := by
  obtain ⟨agentId, hagent⟩ := Option.isSome_iff_exists.mp hagent
  obtain ⟨hid, hne⟩ := truthy_eq_some hagent
  have hsame : (truthy (lookupQuery entitlement decided).agentId).all
      (fun agentId => decide (entitlement.agentIdentityId = some agentId)) = true := by
    simp [lookupQuery, truthy, hid, hne]
  have hresource : (truthy (lookupQuery entitlement decided).resourceServerId).all
      (fun id => decide (entitlement.resourceServerId = id)) = true := by
    by_cases hempty : entitlement.resourceServerId = ""
    · simp [lookupQuery, truthy, hempty]
    · simp [lookupQuery, truthy, hempty]
  simp only [Database.selectsPermission, hsame, hresource, Bool.true_and, Bool.and_eq_true,
    statusCondition_iff]

theorem permissionRow_fst {pair : ResourceScopeEntitlement × ResourceSummary}
    (h : db.permissionRow entitlement = some pair) : pair.1 = entitlement := by
  unfold Database.permissionRow at h
  simp only [Option.bind_eq_bind, Option.bind_eq_some_iff, Option.some.injEq] at h
  obtain ⟨-, -, -, -, rfl⟩ := h
  rfl

/-! ## The page -/

section Page

variable (hkeys : Table.Keyed ResourceScopeEntitlement.id db.resourceScopeEntitlements)

include hkeys

/-- The permission is on the page exactly when it is selected and few others come before it. -/
theorem mem_page_iff (hentitlement : entitlement ∈ db.resourceScopeEntitlements)
    (hagent : (truthy entitlement.agentIdentityId).isSome = true)
    (hrow : (db.permissionRow entitlement).isSome = true) :
    entitlement ∈ Pages.page 100 0 ((db.resourceScopeEntitlements.filter
        (db.selectsPermission (lookupQuery entitlement decided) listed)).insertionSort
          fun a b => !newerEntitlement b a) ↔
      IsListedFirst db entitlement decided listed := by
  have hfiltered : Table.Keyed ResourceScopeEntitlement.id (db.resourceScopeEntitlements.filter
      (db.selectsPermission (lookupQuery entitlement decided) listed)) :=
    hkeys.sublist (List.filter_sublist.map _)
  have hselects : db.selectsPermission (lookupQuery entitlement decided) listed entitlement = true ↔
      entitlement.isActive decided = entitlement.isActive listed := by
    rw [selectsPermission_iff hagent, hrow]
    simp
  have hperm := List.perm_insertionSort (fun a b => (!newerEntitlement b a) = true)
    (db.resourceScopeEntitlements.filter
      (db.selectsPermission (lookupQuery entitlement decided) listed))
  rw [IsListedFirst, ← hselects]
  by_cases hselected :
      db.selectsPermission (lookupQuery entitlement decided) listed entitlement = true
  · have hmem := hperm.mem_iff.mpr (List.mem_filter.mpr ⟨hentitlement, hselected⟩)
    rw [Pages.mem_page_zero_iff newerEntitlement_irrefl (fun _ _ => newerEntitlement_asymm)
      (pairwise_newer hfiltered) hmem, Pages.length_before_perm hperm]
    simp [hselected]
  · have hnot : entitlement ∉ Pages.page 100 0 ((db.resourceScopeEntitlements.filter
        (db.selectsPermission (lookupQuery entitlement decided) listed)).insertionSort
          fun a b => !newerEntitlement b a) := by
      intro hpage
      have hmem := hperm.mem_iff.mp (List.mem_of_mem_drop (List.mem_of_mem_take hpage))
      exact hselected (List.mem_filter.mp hmem).2
    exact iff_of_false hnot fun h => hselected h.1

/-- What is found on the page is the permission of the entitlement. -/
theorem foundItem_spec (hentitlement : entitlement ∈ db.resourceScopeEntitlements)
    {item : AgentPermission} (h : foundItem db entitlement decided listed shown = some item) :
    ∃ resource, db.permissionRow entitlement = some (entitlement, resource) ∧
      item = toAgentPermission entitlement resource shown ∧
      entitlement ∈ Pages.page 100 0 ((db.resourceScopeEntitlements.filter
        (db.selectsPermission (lookupQuery entitlement decided) listed)).insertionSort
          fun a b => !newerEntitlement b a) := by
  have hid : item.id = entitlement.id := by simpa using List.find?_some h
  obtain ⟨pair, hpair, rfl⟩ := List.mem_map.mp (List.mem_of_find?_eq_some h)
  obtain ⟨row, hpage, hjoined⟩ := List.mem_filterMap.mp hpair
  have hsame := permissionRow_fst hjoined
  have hrow : row ∈ db.resourceScopeEntitlements := by
    have hmem := (List.mem_insertionSort _).mp (List.mem_of_mem_drop (List.mem_of_mem_take hpage))
    exact (List.mem_filter.mp hmem).1
  have hrowid : row.id = entitlement.id := by
    rw [← hid, ← hsame]
    rfl
  obtain rfl := hkeys.eq_of_key hrow hentitlement hrowid
  obtain ⟨first, resource⟩ := pair
  obtain rfl : first = row := hsame
  exact ⟨resource, hjoined, rfl, hpage⟩

theorem foundItem_eq {resource : ResourceSummary}
    (hentitlement : entitlement ∈ db.resourceScopeEntitlements)
    (hagent : (truthy entitlement.agentIdentityId).isSome = true)
    (hrow : db.permissionRow entitlement = some (entitlement, resource)) :
    foundItem db entitlement decided listed shown =
        some (toAgentPermission entitlement resource shown) ↔
      IsListedFirst db entitlement decided listed := by
  have hjoins : (db.permissionRow entitlement).isSome = true := by simp [hrow]
  rw [← mem_page_iff hkeys hentitlement hagent hjoins]
  constructor
  · intro h
    obtain ⟨-, -, -, hpage⟩ := foundItem_spec hkeys hentitlement h
    exact hpage
  · intro hpage
    have hsome : (foundItem db entitlement decided listed shown).isSome = true := by
      rw [foundItem, List.find?_isSome]
      have hmem : (entitlement, resource) ∈
          (db.listAgentPermissions (lookupQuery entitlement decided) listed).1 :=
        List.mem_filterMap.mpr ⟨entitlement, hpage, hrow⟩
      exact ⟨toAgentPermission entitlement resource shown, List.mem_map.mpr ⟨_, hmem, rfl⟩,
        by simp [toAgentPermission]⟩
    obtain ⟨item, hitem⟩ := Option.isSome_iff_exists.mp hsome
    obtain ⟨resource', hrow', rfl, -⟩ := foundItem_spec hkeys hentitlement hitem
    obtain ⟨-, rfl⟩ := Prod.mk.inj (Option.some.inj (hrow.symm.trans hrow'))
    exact hitem

end Page

/-! ## Every identifier -/

theorem IsFetchable.unique {other : ResourceScopeEntitlement} {otherResource : ResourceSummary}
    (h : IsFetchable db entitlementId entitlement resource)
    (h' : IsFetchable db entitlementId other otherResource) :
    other = entitlement ∧ otherResource = resource := by
  obtain ⟨hfound, -, hrow⟩ := h
  obtain ⟨hfound', -, hrow'⟩ := h'
  obtain rfl := Option.some.inj (hfound.symm.trans hfound')
  exact ⟨rfl, (Prod.mk.inj (Option.some.inj (hrow'.symm.trans hrow))).2⟩

/-- The identity of an entitlement in the join is found. -/
theorem findIdentity_of_row {pair : ResourceScopeEntitlement × ResourceSummary} {agentId : String}
    (hrow : db.permissionRow entitlement = some pair)
    (hagent : truthy entitlement.agentIdentityId = some agentId) :
    ∃ identity, db.findIdentity agentId = some identity := by
  unfold Database.permissionRow at hrow
  simp only [Option.bind_eq_bind, Option.bind_eq_some_iff] at hrow
  obtain ⟨identity, ⟨id, hid, hidentity⟩, -⟩ := hrow
  obtain rfl := Option.some.inj ((truthy_eq_some hagent).1.symm.trans hid)
  exact ⟨identity, hidentity⟩

theorem permissionAt_fetchable (h : IsFetchable db entitlementId entitlement resource) :
    permissionAt db entitlementId decided listed shown =
      match foundItem db entitlement decided listed shown with
      | none => .error (notFound "Agent Permission was not found.")
      | some item => .ok item := by
  obtain ⟨hfound, hagent, hrow⟩ := h
  obtain ⟨agentId, hagent⟩ := Option.isSome_iff_exists.mp hagent
  obtain ⟨identity, hidentity⟩ := findIdentity_of_row hrow hagent
  simp only [permissionAt, hfound, hagent, hidentity]

/-- Any other identifier is not found. -/
theorem permissionAt_not_fetchable
    (hkeys : Table.Keyed ResourceScopeEntitlement.id db.resourceScopeEntitlements)
    (h : ¬ ∃ entitlement resource, IsFetchable db entitlementId entitlement resource) :
    ∃ message, permissionAt db entitlementId decided listed shown = .error (notFound message) := by
  unfold permissionAt
  cases hfound : db.findEntitlement entitlementId with
  | none => exact ⟨_, rfl⟩
  | some entitlement =>
    dsimp only
    cases hagent : truthy entitlement.agentIdentityId with
    | none => exact ⟨_, rfl⟩
    | some agentId =>
      dsimp only
      cases db.findIdentity agentId with
      | none => exact ⟨_, rfl⟩
      | some identity =>
        have hnone : foundItem db entitlement decided listed shown = none := by
          by_contra hsome
          obtain ⟨item, hitem⟩ := Option.ne_none_iff_exists'.mp hsome
          obtain ⟨resource, hrow, -⟩ :=
            foundItem_spec hkeys (List.mem_of_find?_eq_some hfound) hitem
          exact h ⟨entitlement, resource, hfound, by simp [hagent], hrow⟩
        rw [hnone]
        exact ⟨_, rfl⟩

/-- A permission is fetched by its identifier exactly when it has the same status at the moment
when the list is chosen and at the moment when it is read, and fewer than a hundred permissions
come before it. -/
theorem fetches_permission_iff (w : World) (times : ℕ → Time) (entitlementId : String)
    (hkeys : Table.Keyed ResourceScopeEntitlement.id w.db.resourceScopeEntitlements) :
    FetchesExactly w.db entitlementId (times 6)
        ((getManagementAgentPermission entitlementId).execute (clockwork times) 0 w).1 ↔
      ∀ entitlement resource, IsFetchable w.db entitlementId entitlement resource →
        IsListedFirst w.db entitlement (times 3) (times 4) := by
  rw [execute_getManagementAgentPermission]
  by_cases hsome : ∃ entitlement resource, IsFetchable w.db entitlementId entitlement resource
  · obtain ⟨entitlement, resource, hfetchable⟩ := hsome
    have ⟨hfound, hagent, hrow⟩ := hfetchable
    have hmem := List.mem_of_find?_eq_some hfound
    have hitem : foundItem w.db entitlement (times 3) (times 4) (times 6) =
        some (toAgentPermission entitlement resource (times 6)) ↔
          IsListedFirst w.db entitlement (times 3) (times 4) :=
      foundItem_eq hkeys hmem hagent hrow
    rw [permissionAt_fetchable hfetchable]
    constructor
    · rintro ⟨hreturns, -⟩ other otherResource hother
      obtain ⟨rfl, rfl⟩ := hfetchable.unique hother
      have hok := hreturns _ _ hfetchable
      rw [← hitem]
      cases hfoundItem : foundItem w.db other (times 3) (times 4) (times 6) with
      | none =>
        rw [hfoundItem] at hok
        cases hok
      | some item =>
        rw [hfoundItem] at hok
        exact congrArg some (Except.ok.inj hok)
    · intro hlisted
      rw [hitem.mpr (hlisted entitlement resource hfetchable)]
      constructor
      · intro other otherResource hother
        obtain ⟨rfl, rfl⟩ := hfetchable.unique hother
        rfl
      · exact fun hnone => absurd ⟨entitlement, resource, hfetchable⟩ hnone
  · obtain ⟨message, herror⟩ := permissionAt_not_fetchable hkeys hsome
    rw [herror]
    apply iff_of_true
    · exact ⟨fun e r h => absurd ⟨e, r, h⟩ hsome, fun _ => ⟨message, rfl⟩⟩
    · exact fun e r h => absurd ⟨e, r, h⟩ hsome

end Promise

namespace PermissionLookupExample

def identity : AgentIdentity :=
  { id := "agent", issuer := "realmroot", subject := "agent", username := none, name := "agent"
    runtime := none, ownerUserId := "ada", status := .active, deletedAt := none, createdAt := 0
    updatedAt := 0 }

def resource : ApiResource :=
  { id := "files", identifier := "files", name := "Files", description := none
    resourceUrl := "https://files", authorizationModel := .native, connectorId := none
    authorizationDetails := [], enabled := true, ownerOrganizationId := "realm"
    visibility := .public, scopeRegistry := none, availableToAgents := true, deletedAt := none
    updatedAt := 0 }

/-- The `n`-th of some entitlements of the agent at the resource. -/
def entitlement (n : ℕ) : ResourceScopeEntitlement :=
  { id := String.ofList (List.replicate (n + 1) 'e'), userId := none, applicationId := none
    agentIdentityId := some "agent", organizationId := none, resourceServerId := "files"
    connectionId := none, authorizationDetails := [], authorizationContextHash := ""
    scope := "read", mode := .persistent, grantedByUserId := some "ada"
    grantedByAgentIdentityId := none, sourceAccessRequestId := none, expiresAt := none
    endedAt := none, endReason := none, createdAt := n, updatedAt := n }

/-- An agent with as many entitlements. -/
def world (count : ℕ) : World :=
  { db :=
      { agentIdentities := [identity], apiResources := [resource]
        resourceScopeEntitlements := ((List.range count).map entitlement).reverse }
    clock := 0, nextId := 0 }

def times (_ : ℕ) : Time := 1000

/-- Of a hundred and one permissions, the oldest is not found. -/
theorem oldest_permission_not_found :
    ¬ FetchesExactly (world 101).db "e" (times 6)
      ((getManagementAgentPermission "e").execute (clockwork times) 0 (world 101)).1 := by
  intro hexactly
  have hfetchable : IsFetchable (world 101).db "e" (entitlement 0)
      { id := "files", identifier := "files", name := "Files" } :=
    ⟨by decide +kernel, by decide, by decide +kernel⟩
  have hok := hexactly.1 _ _ hfetchable
  have hmissing : ((getManagementAgentPermission "e").execute (clockwork times) 0 (world 101)).1 =
      .error (notFound "Agent Permission was not found.") := by
    decide +kernel
  rw [hmissing] at hok
  cases hok

/-- The only permission is found. -/
theorem only_permission_found :
    Table.Keyed ResourceScopeEntitlement.id (world 1).db.resourceScopeEntitlements ∧
      FetchesExactly (world 1).db "e" (times 6)
        ((getManagementAgentPermission "e").execute (clockwork times) 0 (world 1)).1 := by
  have hkeys : Table.Keyed ResourceScopeEntitlement.id (world 1).db.resourceScopeEntitlements := by
    unfold Table.Keyed
    decide
  refine ⟨hkeys, (fetches_permission_iff (world 1) times "e" hkeys).mpr ?_⟩
  intro found _ hfetchable
  have hfound : (world 1).db.findEntitlement "e" = some (entitlement 0) := by decide
  obtain rfl := Option.some.inj (hfound.symm.trans hfetchable.1)
  refine ⟨by decide, ?_⟩
  decide +kernel

end PermissionLookupExample

end Realmroot
