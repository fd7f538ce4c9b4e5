import Realmroot.ClientRegistration
import Realmroot.Usecases.ResourceUpdates

/-!
# What a refresh of a scope registry removes

A refresh narrows entitlements, roles, Applications and consents to the registry that it writes.
Entitlements and roles keep the scopes that the registry has as assigned, Applications and
consents those that it declares. A refresh that fails narrows to the registry that was stored.
-/

namespace Realmroot

open AtomicProgram Program

/-! ## What is removed -/

/-- How the registry of a resource grants a scope after a refresh from a document with the
scopes. -/
def refreshedMode (resource : ApiResource) (supported : List String) (scope : String) :
    Option GrantMode :=
  if resource.isRealmroot then previousMode (some (realmrootRegistry "" 0)) scope
  else if scope ∈ supported then some ((previousMode resource.scopeRegistry scope).getD .assigned)
  else none

/-- The value gives a scope of the resource that is not assigned. -/
def Unassigned (mode : String → Option GrantMode) (id value : String) : Prop :=
  ∃ decoded, decodeRoleScope value = some decoded ∧ decoded.resourceId = id ∧
    mode decoded.scope ≠ some .assigned

/-- The value is the same, or it is encoded anew. -/
def SameRoleScope (value value' : String) : Prop :=
  value' = value ∨ ∃ decoded, decodeRoleScope value = some decoded ∧
    value' = encodeRoleScope decoded.resourceId decoded.scope

/-- The scope is one of OpenID Connect or is declared. -/
def Consentable (mode : String → Option GrantMode) (scope : String) : Prop :=
  scope ∈ Database.oidcConsentScopes ∨ (mode scope).isSome = true

section Rows

variable (mode : String → Option GrantMode) (id : String)

/-- An entitlement is ended only if it is to the resource and its scope is not assigned. -/
def EndsUnassigned (row row' : ResourceScopeEntitlement) : Prop :=
  row' = row ∨ (row.resourceServerId = id ∧ row.endedAt = none ∧
    mode row.scope ≠ some .assigned ∧ ∃ now, row' = row.end .revoked now)

/-- A role loses only scopes of the resource that are not assigned. -/
def NarrowsRole (row row' : OrganizationRole) : Prop :=
  row' = row ∨ ((∃ value ∈ Database.roleScopesOf row, Unassigned mode id value) ∧
    (∃ scopes now,
      row' = { row with
        permission := withRoleScopes row.permission scopes, updatedAt := now }) ∧
    ∀ value ∈ Database.roleScopesOf row, ¬ Unassigned mode id value →
      ∃ value' ∈ Database.roleScopesOf row', SameRoleScope value value')

/-- The configuration has a scope of the resource that is not declared, or none at all. -/
def Undeclared (configuration : ApplicationResourceScopes) : Prop :=
  configuration.resourceServerId = id ∧
    (configuration.scopes = [] ∨ ∃ scope ∈ configuration.scopes, mode scope = none)

/-- An Application loses only scopes of the resource that are not declared. -/
def NarrowsApplication (row row' : Application) : Prop :=
  row' = row ∨ ((∃ configuration ∈ row.resourceScopes, Undeclared mode id configuration) ∧
    (∃ resourceScopes now,
      row' = { row with resourceScopes := resourceScopes, updatedAt := now }) ∧
    ∀ configuration ∈ row.resourceScopes, ∀ scope ∈ configuration.scopes,
      (configuration.resourceServerId = id → (mode scope).isSome = true) →
        ∃ configuration' ∈ row'.resourceScopes,
          configuration'.resourceServerId = configuration.resourceServerId ∧
            scope ∈ configuration'.scopes)

/-- A consent that is not revoked loses only scopes that are not declared, and it is revoked only
when none remains. -/
def NarrowsConsent (row row' : ApplicationConsent) : Prop :=
  row.revokedAt = none → row' = row ∨ (row.resourceServerId = some id ∧
    (row.scopes = [] ∨ ∃ scope ∈ row.scopes, ¬ Consentable mode scope) ∧
    ((∃ scopes, row' = { row with scopes := scopes } ∧
        ∀ scope ∈ row.scopes, Consentable mode scope → scope ∈ scopes) ∨
      (∃ now, row' = { row with revokedAt := some now } ∧
        ∀ scope ∈ row.scopes, ¬ Consentable mode scope)))

/-- Only grants of the resource are ended or removed, and only those that the modes do not
cover. -/
structure OnlyRemoves (db db' : Database) : Prop where
  entitlements : List.Forall₂ (EndsUnassigned mode id) db.resourceScopeEntitlements
    db'.resourceScopeEntitlements
  roles : List.Forall₂ (NarrowsRole mode id) db.organizationRoles db'.organizationRoles
  applications : List.Forall₂ (NarrowsApplication mode id) db.applications db'.applications
  consents : List.Forall₂ (NarrowsConsent mode id) db.applicationConsents db'.applicationConsents

/-- Every grant of the resource is one that the modes cover. -/
structure CoversGrants (db : Database) : Prop where
  entitlements : ∀ row ∈ db.resourceScopeEntitlements, row.resourceServerId = id →
    row.endedAt = none → mode row.scope = some .assigned
  roles : ∀ row ∈ db.organizationRoles, ∀ value ∈ Database.roleScopesOf row,
    ¬ Unassigned mode id value
  applications : ∀ row ∈ db.applications, ∀ configuration ∈ row.resourceScopes,
    ¬ Undeclared mode id configuration
  consents : ∀ row ∈ db.applicationConsents, row.resourceServerId = some id →
    row.revokedAt = none → row.scopes ≠ [] ∧ ∀ scope ∈ row.scopes, Consentable mode scope

end Rows

/-- No grant changes; nothing is said of consents that were revoked before. -/
structure KeepsGrants (db db' : Database) : Prop where
  entitlements : db'.resourceScopeEntitlements = db.resourceScopeEntitlements
  roles : db'.organizationRoles = db.organizationRoles
  applications : db'.applications = db.applications
  consents : List.Forall₂ (fun row row' : ApplicationConsent => row.revokedAt = none → row' = row)
    db.applicationConsents db'.applicationConsents

/-- The primary keys of the tables that a registry narrows. -/
structure Database.GrantKeys (db : Database) : Prop where
  entitlements : Table.Keyed ResourceScopeEntitlement.id db.resourceScopeEntitlements
  roles : Table.Keyed OrganizationRole.id db.organizationRoles
  applications : Table.Keyed Application.id db.applications
  consents : Table.Keyed ApplicationConsent.id db.applicationConsents

theorem forall₂_of_mem {α : Type} {P : α → Prop} {R S : α → α → Prop} {rows rows' : List α}
    (h : List.Forall₂ R rows rows') (hrow : ∀ row row', P row → R row row' → S row row')
    (hrows : ∀ row ∈ rows, P row) : List.Forall₂ S rows rows' := by
  induction h with
  | nil => exact .nil
  | cons hhead _ ih =>
    rw [List.forall_mem_cons] at hrows
    exact .cons (hrow _ _ hrows.1 hhead) (ih hrows.2)

/-- Rows that stay, or change for a reason that no row has, stay. -/
theorem eq_of_forall₂ {α : Type} {P : α → Prop} {R : α → α → Prop} {rows rows' : List α}
    (h : List.Forall₂ R rows rows') (hrow : ∀ row row', P row → R row row' → row' = row)
    (hrows : ∀ row ∈ rows, P row) : rows' = rows := by
  have hsame := forall₂_of_mem (S := Eq) h (fun row row' hP hR => (hrow row row' hP hR).symm) hrows
  exact (List.forall₂_eq_eq_eq ▸ hsame).symm

/-- Rows that are changed one by one. -/
theorem forall₂_map {α : Type} {R : α → α → Prop} {rows : List α} {f : α → α}
    (h : ∀ row ∈ rows, R row (f row)) : List.Forall₂ R rows (rows.map f) := by
  rw [List.forall₂_map_right_iff, List.forall₂_same]
  exact h

section Covered

variable {mode : String → Option GrantMode} {id : String} {db db' : Database}

/-- Where every grant is covered, nothing changes. -/
theorem OnlyRemoves.keepsGrants (h : OnlyRemoves mode id db db') (hcovers : CoversGrants mode id db) :
    KeepsGrants db db' where
  entitlements := by
    refine eq_of_forall₂ h.entitlements ?_ hcovers.entitlements
    rintro row row' hcovered (hsame | ⟨hid, hended, hmode, -⟩)
    · exact hsame
    · exact absurd (hcovered hid hended) hmode
  roles := by
    refine eq_of_forall₂ h.roles ?_ hcovers.roles
    rintro row row' hcovered (hsame | ⟨⟨value, hvalue, hunassigned⟩, -⟩)
    · exact hsame
    · exact absurd hunassigned (hcovered value hvalue)
  applications := by
    refine eq_of_forall₂ h.applications ?_ hcovers.applications
    rintro row row' hcovered (hsame | ⟨⟨configuration, hmem, hundeclared⟩, -⟩)
    · exact hsame
    · exact absurd hundeclared (hcovered configuration hmem)
  consents := by
    refine forall₂_of_mem h.consents ?_ hcovers.consents
    intro row row' hcovered hnarrows hrevoked
    rcases hnarrows hrevoked with hsame | ⟨hid, hreason, -⟩
    · exact hsame
    · obtain ⟨hne, hall⟩ := hcovered hid hrevoked
      rcases hreason with hempty | ⟨scope, hscope, hnot⟩
      · exact absurd hempty hne
      · exact absurd (hall scope hscope) hnot

end Covered

/-! ## The batch -/

section Batch

variable {registry : ResourceScopeRegistry}

theorem previousMode_isSome {scope : String} :
    (previousMode (some registry) scope).isSome = true ↔
      scope ∈ registry.scopes.map (·.value) := by
  simp [previousMode, List.mem_map]

/-- A scope that counts as assigned is among the assigned ones of the registry. -/
theorem mem_assigned_of_previousMode {scope : String}
    (h : previousMode (some registry) scope = some .assigned) :
    scope ∈ (registry.scopes.filter fun scope => scope.grantMode = .assigned).map (·.value) := by
  obtain ⟨entry, hentry, hmode⟩ := Option.map_eq_some_iff.mp h
  have hmem := List.mem_of_find?_eq_some hentry
  have hvalue := List.find?_some hentry
  simp only [decide_eq_true_eq] at hvalue
  rw [List.mem_map]
  refine ⟨entry, ?_, hvalue⟩
  rw [List.mem_filter, decide_eq_true_eq]
  exact ⟨List.mem_reverse.mp hmem, hmode⟩

end Batch

namespace Database

variable {registry : ResourceScopeRegistry} {id : String} {now : Time} {db : Database}

theorem endsUnassigned_endAll (hkeyed : Table.Keyed ResourceScopeEntitlement.id
      db.resourceScopeEntitlements) :
    List.Forall₂ (EndsUnassigned (previousMode (some registry)) id) db.resourceScopeEntitlements
      (endAll (db.discoveryNarrowing id registry).entitlementIds .revoked now
        db).resourceScopeEntitlements := by
  refine forall₂_map fun row hrow => ?_
  split_ifs with hselected
  · right
    rw [List.contains_iff_mem] at hselected
    obtain ⟨found, hfound, hid⟩ := List.mem_map.mp hselected
    rw [List.mem_filter] at hfound
    obtain ⟨hmem, hcond⟩ := hfound
    have hsame : found = row := hkeyed.eq_of_key hmem hrow hid
    subst hsame
    simp only [Bool.and_eq_true, decide_eq_true_eq, Bool.not_eq_true', Option.isNone_iff_eq_none]
      at hcond
    refine ⟨hcond.1.1, hcond.2, ?_, now, rfl⟩
    intro hmode
    have hassigned := mem_assigned_of_previousMode hmode
    rw [← List.contains_iff_mem, hcond.1.2] at hassigned
    cases hassigned
  · exact Or.inl rfl

/-- A value that is not for an unassigned scope stays, if encoded anew. -/
theorem mem_assignedRoleScopes {values : List String} {value : String} (hvalue : value ∈ values)
    (hcovered : ¬ Unassigned (previousMode (some registry)) id value) :
    ∃ value' ∈ assignedRoleScopes id
      ((registry.scopes.filter fun scope => scope.grantMode = .assigned).map (·.value)) values,
      SameRoleScope value value' := by
  cases hdecoded : decodeRoleScope value with
  | none =>
    refine ⟨value, ?_, Or.inl rfl⟩
    refine List.mem_flatMap.mpr ⟨value, hvalue, ?_⟩
    simp [hdecoded]
  | some decoded =>
    by_cases hid : decoded.resourceId = id
    · have hmode : previousMode (some registry) decoded.scope = some .assigned := by
        by_contra hmode
        exact hcovered ⟨decoded, hdecoded, hid, hmode⟩
      refine ⟨encodeRoleScope id decoded.scope, ?_, Or.inr ⟨decoded, hdecoded, by rw [hid]⟩⟩
      refine List.mem_flatMap.mpr ⟨value, hvalue, ?_⟩
      have hassigned := mem_assigned_of_previousMode hmode
      simp only [hdecoded, hid, ne_eq, not_true_eq_false, if_false,
        List.contains_iff_mem.mpr hassigned, if_true, List.mem_singleton]
    · refine ⟨value, ?_, Or.inl rfl⟩
      refine List.mem_flatMap.mpr ⟨value, hvalue, ?_⟩
      simp [hdecoded, hid]

/-- Where every value stays, as many are left. -/
theorem length_assignedRoleScopes {values : List String}
    (h : ∀ value ∈ values, ¬ Unassigned (previousMode (some registry)) id value) :
    (assignedRoleScopes id
      ((registry.scopes.filter fun scope => scope.grantMode = .assigned).map (·.value))
      values).length = values.length := by
  induction values with
  | nil => rfl
  | cons value values ih =>
    rw [List.forall_mem_cons] at h
    have hrest := ih h.2
    unfold assignedRoleScopes at *
    rw [List.flatMap_cons, List.length_append, hrest, List.length_cons]
    cases hdecoded : decodeRoleScope value with
    | none => simp only [List.length_singleton, add_comm]
    | some decoded =>
      by_cases hid : decoded.resourceId = id
      · have hmode : previousMode (some registry) decoded.scope = some .assigned := by
          by_contra hmode
          exact h.1 ⟨decoded, hdecoded, hid, hmode⟩
        have hassigned := List.contains_iff_mem.mpr (mem_assigned_of_previousMode hmode)
        simp only [hid, ne_eq, not_true_eq_false, if_false, hassigned, if_true,
          List.length_singleton, add_comm]
      · simp only [ne_eq, hid, not_false_eq_true, if_true, List.length_singleton, add_comm]

theorem narrowsRole_setRoleScopes
    (hkeyed : Table.Keyed OrganizationRole.id db.organizationRoles) :
    List.Forall₂ (NarrowsRole (previousMode (some registry)) id) db.organizationRoles
      (setRoleScopes (db.discoveryNarrowing id registry).roles now db.organizationRoles) := by
  let assigned := (registry.scopes.filter fun scope => scope.grantMode = .assigned).map (·.value)
  let change : OrganizationRole → Option (List String) := fun role =>
    let scopes := assignedRoleScopes id assigned (roleScopesOf role)
    if scopes.length = (roleScopesOf role).length then none else some scopes
  have hchange : (db.discoveryNarrowing id registry).roles =
      db.organizationRoles.filterMap fun role =>
        (change role).map fun scopes => (role.id, scopes) := by
    refine List.filterMap_congr fun role _ => ?_
    dsimp only [change]
    split_ifs <;> rfl
  rw [hchange]
  refine forall₂_map fun row hrow => ?_
  rw [hkeyed.lookup_filterMap change hrow]
  by_cases hsame : (assignedRoleScopes id assigned (roleScopesOf row)).length =
      (roleScopesOf row).length
  · simp only [change, if_pos hsame]
    exact Or.inl rfl
  · simp only [change, if_neg hsame]
    refine Or.inr ⟨?_, ⟨_, now, rfl⟩, ?_⟩
    · by_contra hall
      refine hsame (length_assignedRoleScopes fun value hvalue hunassigned => ?_)
      exact hall ⟨value, hvalue, hunassigned⟩
    · intro value hvalue hcovered
      rw [roleScopesOf_withRoleScopes (List.ne_nil_of_mem hvalue)]
      exact mem_assignedRoleScopes hvalue hcovered

/-- Where every configuration of the resource is declared, all of them stay. -/
theorem declaredResourceScopes_eq_self {resourceScopes : List ApplicationResourceScopes}
    (h : ∀ configuration ∈ resourceScopes,
      ¬ Undeclared (previousMode (some registry)) id configuration) :
    declaredResourceScopes id (registry.scopes.map (·.value)) resourceScopes = resourceScopes := by
  have hmap : (resourceScopes.map fun configuration =>
      if configuration.resourceServerId = id then
        { configuration with
          scopes := configuration.scopes.filter (registry.scopes.map (·.value)).contains }
      else configuration) = resourceScopes := by
    conv_rhs => rw [← List.map_id resourceScopes]
    refine List.map_congr_left fun configuration hmem => ?_
    split_ifs with hid
    · have hkept : configuration.scopes.filter (registry.scopes.map (·.value)).contains =
          configuration.scopes := by
        rw [List.filter_eq_self]
        intro scope hscope
        rw [List.contains_iff_mem, ← previousMode_isSome, Option.isSome_iff_ne_none]
        intro hmode
        exact h configuration hmem ⟨hid, Or.inr ⟨scope, hscope, hmode⟩⟩
      rw [hkept]
      rfl
    · rfl
  unfold declaredResourceScopes
  rw [hmap, List.filter_eq_self]
  intro configuration hmem
  rw [Bool.or_eq_true, decide_eq_true_eq, decide_eq_true_eq]
  by_contra hboth
  rw [not_or, not_not, not_not] at hboth
  exact h configuration hmem ⟨hboth.1, Or.inl hboth.2⟩

/-- A declared scope stays configured. -/
theorem mem_declaredResourceScopes {resourceScopes : List ApplicationResourceScopes}
    {configuration : ApplicationResourceScopes} (hmem : configuration ∈ resourceScopes)
    {scope : String} (hscope : scope ∈ configuration.scopes)
    (hdeclared : configuration.resourceServerId = id →
      (previousMode (some registry) scope).isSome = true) :
    ∃ configuration' ∈ declaredResourceScopes id (registry.scopes.map (·.value)) resourceScopes,
      configuration'.resourceServerId = configuration.resourceServerId ∧
        scope ∈ configuration'.scopes := by
  by_cases hid : configuration.resourceServerId = id
  · have hkept : scope ∈
        configuration.scopes.filter (registry.scopes.map (·.value)).contains := by
      rw [List.mem_filter, List.contains_iff_mem]
      exact ⟨hscope, previousMode_isSome.mp (hdeclared hid)⟩
    refine ⟨{ configuration with
      scopes := configuration.scopes.filter (registry.scopes.map (·.value)).contains }, ?_, rfl,
      hkept⟩
    refine List.mem_filter.mpr ⟨List.mem_map.mpr ⟨configuration, hmem, if_pos hid⟩, ?_⟩
    simpa [hid] using List.ne_nil_of_mem hkept
  · refine ⟨configuration, ?_, rfl, hscope⟩
    refine List.mem_filter.mpr ⟨List.mem_map.mpr ⟨configuration, hmem, if_neg hid⟩, ?_⟩
    simp [hid]

theorem narrowsApplication_setResourceScopes
    (hkeyed : Table.Keyed Application.id db.applications) :
    List.Forall₂ (NarrowsApplication (previousMode (some registry)) id) db.applications
      (setResourceScopes (db.discoveryNarrowing id registry).applications now
        db.applications) := by
  let change : Application → Option (List ApplicationResourceScopes) := fun app =>
    let resourceScopes :=
      declaredResourceScopes id (registry.scopes.map (·.value)) app.resourceScopes
    if resourceScopes = app.resourceScopes then none else some resourceScopes
  have hchange : (db.discoveryNarrowing id registry).applications =
      db.applications.filterMap fun app =>
        (change app).map fun resourceScopes => (app.id, resourceScopes) := by
    refine List.filterMap_congr fun app _ => ?_
    dsimp only [change]
    split_ifs <;> rfl
  rw [hchange]
  refine forall₂_map fun row hrow => ?_
  rw [hkeyed.lookup_filterMap change hrow]
  by_cases hsame : declaredResourceScopes id (registry.scopes.map (·.value)) row.resourceScopes =
      row.resourceScopes
  · simp only [change, if_pos hsame]
    exact Or.inl rfl
  · simp only [change, if_neg hsame]
    refine Or.inr ⟨?_, ⟨_, now, rfl⟩, ?_⟩
    · by_contra hall
      refine hsame (declaredResourceScopes_eq_self fun configuration hmem hundeclared => ?_)
      exact hall ⟨configuration, hmem, hundeclared⟩
    · intro configuration hmem scope hscope hdeclared
      exact mem_declaredResourceScopes hmem hscope hdeclared

theorem consentable_iff {scope : String} :
    (oidcConsentScopes.contains scope || (registry.scopes.map (·.value)).contains scope) = true ↔
      Consentable (previousMode (some registry)) scope := by
  rw [Bool.or_eq_true, List.contains_iff_mem, List.contains_iff_mem, Consentable,
    previousMode_isSome]

theorem narrowsConsent_setConsents
    (hkeyed : Table.Keyed ApplicationConsent.id db.applicationConsents) :
    List.Forall₂ (NarrowsConsent (previousMode (some registry)) id) db.applicationConsents
      (setConsents (db.discoveryNarrowing id registry).consents now db.applicationConsents) := by
  let kept : ApplicationConsent → List String := fun consent =>
    consent.scopes.filter fun scope =>
      oidcConsentScopes.contains scope || (registry.scopes.map (·.value)).contains scope
  let change : ApplicationConsent → Option ConsentChange := fun consent =>
    if consent.resourceServerId = some id then
      some (if kept consent = [] then .revoked else .scopes (kept consent))
    else none
  have hchange : (db.discoveryNarrowing id registry).consents =
      db.applicationConsents.filterMap fun consent =>
        (change consent).map fun change => (consent.id, change) := by
    refine List.filterMap_congr fun consent _ => ?_
    dsimp only [change, kept]
    split_ifs <;> rfl
  rw [hchange]
  refine forall₂_map fun row hrow => ?_
  rw [hkeyed.lookup_filterMap change hrow]
  intro hrevoked
  by_cases hid : row.resourceServerId = some id
  · have hkeeps : ∀ scope ∈ row.scopes, Consentable (previousMode (some registry)) scope →
        scope ∈ kept row := by
      intro scope hscope hconsentable
      exact List.mem_filter.mpr ⟨hscope, consentable_iff.mpr hconsentable⟩
    by_cases hnone : kept row = []
    · simp only [change, if_pos hid, if_pos hnone]
      have hlost : ∀ scope ∈ row.scopes, ¬ Consentable (previousMode (some registry)) scope := by
        intro scope hscope hconsentable
        have hmem := hkeeps scope hscope hconsentable
        rw [hnone] at hmem
        cases hmem
      have hreason : row.scopes = [] ∨
          ∃ scope ∈ row.scopes, ¬ Consentable (previousMode (some registry)) scope := by
        by_cases hempty : row.scopes = []
        · exact Or.inl hempty
        · obtain ⟨scope, hscope⟩ := List.exists_mem_of_ne_nil _ hempty
          exact Or.inr ⟨scope, hscope, hlost scope hscope⟩
      exact Or.inr ⟨hid, hreason, Or.inr ⟨now, rfl, hlost⟩⟩
    · simp only [change, if_pos hid, if_neg hnone]
      by_cases hall : ∀ scope ∈ row.scopes, Consentable (previousMode (some registry)) scope
      · have hsame : kept row = row.scopes := by
          rw [List.filter_eq_self]
          exact fun scope hscope => consentable_iff.mpr (hall scope hscope)
        rw [hsame]
        exact Or.inl rfl
      · push_neg at hall
        exact Or.inr ⟨hid, Or.inr hall, Or.inl ⟨kept row, rfl, hkeeps⟩⟩
  · simp only [change, if_neg hid]
    exact Or.inl trivial

/-- The batch of `replaceResourceDiscovery` removes only what its registry does not cover. -/
theorem onlyRemoves_replaceResourceDiscovery {db' : Database} (hkeys : db.GrantKeys)
    (discovery : ResourceDiscovery) (now : Time)
    (hafter : (replaceResourceDiscovery id discovery
      (db.discoveryNarrowing id discovery.scopeRegistry) now).after db = db') :
    OnlyRemoves (previousMode (some discovery.scopeRegistry)) id db db' := by
  subst hafter
  exact
    { entitlements := endsUnassigned_endAll hkeys.entitlements
      roles := narrowsRole_setRoleScopes hkeys.roles
      applications := narrowsApplication_setResourceScopes hkeys.applications
      consents := narrowsConsent_setConsents hkeys.consents }

/-- The resources that are there stay there. -/
theorem isSome_findResource_replaceResourceDiscovery (id : String) (discovery : ResourceDiscovery)
    (narrowing : ResourceNarrowing) (now : Time) (db : Database) (other : String) :
    (((replaceResourceDiscovery id discovery narrowing now).after db).findResource other).isSome =
      (db.findResource other).isSome := by
  have hresources : ((replaceResourceDiscovery id discovery narrowing now).after db).apiResources =
      Table.updateWhere (isUndeleted id)
        (fun row => { row with
          name := discovery.name, description := discovery.description
          scopeRegistry := some discovery.scopeRegistry, updatedAt := now })
        db.apiResources := rfl
  have hfind : ((replaceResourceDiscovery id discovery narrowing now).after db).findResource
      other = (db.findResource other).map fun row =>
        if isUndeleted id row then
          { row with
            name := discovery.name, description := discovery.description
            scopeRegistry := some discovery.scopeRegistry, updatedAt := now }
        else row := by
    rw [findResource, hresources]
    exact Table.find?_updateWhere fun _ => rfl
  rw [hfind, Option.isSome_map]

end Database

/-! ## The run -/

/-- Resources and grants stay as they are. -/
structure LeavesGrants (s t : World) : Prop where
  resources : t.db.apiResources = s.db.apiResources
  entitlements : t.db.resourceScopeEntitlements = s.db.resourceScopeEntitlements
  roles : t.db.organizationRoles = s.db.organizationRoles
  applications : t.db.applications = s.db.applications
  consents : t.db.applicationConsents = s.db.applicationConsents

namespace LeavesGrants

variable {s t u : World}

theorem refl (s : World) : LeavesGrants s s := ⟨rfl, rfl, rfl, rfl, rfl⟩

theorem trans (h : LeavesGrants s t) (h' : LeavesGrants t u) : LeavesGrants s u :=
  ⟨h'.resources.trans h.resources, h'.entitlements.trans h.entitlements, h'.roles.trans h.roles,
    h'.applications.trans h.applications, h'.consents.trans h.consents⟩

theorem keys (h : LeavesGrants s t) (hkeys : s.db.GrantKeys) : t.db.GrantKeys where
  entitlements := h.entitlements ▸ hkeys.entitlements
  roles := h.roles ▸ hkeys.roles
  applications := h.applications ▸ hkeys.applications
  consents := h.consents ▸ hkeys.consents

theorem findResource (h : LeavesGrants s t) (id : String) :
    t.db.findResource id = s.db.findResource id := by
  unfold Database.findResource
  rw [h.resources]

theorem narrowing (h : LeavesGrants s t) (id : String) (registry : ResourceScopeRegistry) :
    t.db.discoveryNarrowing id registry = s.db.discoveryNarrowing id registry := by
  unfold Database.discoveryNarrowing
  rw [h.entitlements, h.roles, h.applications, h.consents]

theorem onlyRemoves (h : LeavesGrants s t) (mode : String → Option GrantMode) (id : String) :
    OnlyRemoves mode id s.db t.db where
  entitlements := h.entitlements ▸ List.forall₂_same.mpr fun _ _ => Or.inl rfl
  roles := h.roles ▸ List.forall₂_same.mpr fun _ _ => Or.inl rfl
  applications := h.applications ▸ List.forall₂_same.mpr fun _ _ => Or.inl rfl
  consents := h.consents ▸ List.forall₂_same.mpr fun _ _ _ => Or.inl rfl

end LeavesGrants

section Transfer

variable {mode : String → Option GrantMode} {id : String} {s t u : World}

theorem OnlyRemoves.after (h : OnlyRemoves mode id s.db t.db) (htu : LeavesGrants t u) :
    OnlyRemoves mode id s.db u.db where
  entitlements := htu.entitlements ▸ h.entitlements
  roles := htu.roles ▸ h.roles
  applications := htu.applications ▸ h.applications
  consents := htu.consents ▸ h.consents

theorem OnlyRemoves.before (h : OnlyRemoves mode id t.db u.db) (hst : LeavesGrants s t) :
    OnlyRemoves mode id s.db u.db where
  entitlements := hst.entitlements ▸ h.entitlements
  roles := hst.roles ▸ h.roles
  applications := hst.applications ▸ h.applications
  consents := hst.consents ▸ h.consents

end Transfer

/-- What the resource publishes, when it publishes metadata at all, names the scopes. -/
def Publishes [Platform] (resourceUrl : String) (supported : List String) (reply : Reply) : Prop :=
  ∀ sourceUrl response metadata,
    protectedResourceMetadataUrl resourceUrl = .ok sourceUrl →
    reply.respond { method := "GET", url := sourceUrl, authentication := .none } =
      some response →
    protectedResourceMetadata sourceUrl resourceUrl response = .ok metadata →
      metadata.scopesSupported = supported

/-- The contract of a refresh while nobody else changes resources or grants. -/
def besides [Platform] (resourceUrl : String) (supported : List String) :
    Contract Command World Reply :=
  alone Command LeavesGrants (Publishes resourceUrl supported)

/-- Reading, asking a peer and changing a connector. -/
def Besides : Command → Prop
  | .read | .send _ | .connector _ => True
  | _ => False

section Run

variable [Platform] {resourceUrl : String} {supported : List String} {w s : World}
  {resource : ApiResource}

theorem quiet_besides : Quiet (besides resourceUrl supported) Besides where
  refl := LeavesGrants.refl
  trans := LeavesGrants.trans
  guarantee _ _ _ _ := trivial
  moves c hc s _ := by
    cases c with
    | read | send => exact LeavesGrants.refl s
    | connector command =>
      have hexec : exec (Command.connector command) s = { s with db := command.after s.db } := rfl
      rw [hexec, command.after_eq]
      exact ⟨rfl, rfl, rfl, rfl, rfl⟩
    | _ => exact hc.elim

theorem readProtectedResourceMetadata_meets (w : World) :
    (readProtectedResourceMetadata resourceUrl).Meets (besides resourceUrl supported)
      (fun r t => LeavesGrants w t ∧ ∀ metadata, r = .ok metadata →
        metadata.scopesSupported = supported) w := by
  unfold readProtectedResourceMetadata
  cases hurl : protectedResourceMetadataUrl resourceUrl with
  | error e => exact ⟨LeavesGrants.refl w, fun _ h => nomatch h⟩
  | ok sourceUrl =>
    intro t hwt _
    refine ⟨trivial, ?_⟩
    intro reply u hreply htu
    have hwu : LeavesGrants w u := hwt.trans htu
    cases hrespond : reply.respond
        { method := "GET", url := sourceUrl, authentication := .none } with
    | none =>
      simp only [hrespond]
      exact ⟨hwu, fun _ h => nomatch h⟩
    | some response =>
      simp only [hrespond]
      cases hmetadata : protectedResourceMetadata sourceUrl resourceUrl response with
      | error e =>
        simp only [Program.bind_eq, orThrow, pure_bind, hmetadata]
        exact ⟨hwu, fun _ h => nomatch h⟩
      | ok metadata =>
        simp only [Program.bind_eq, orThrow, pure_bind, hmetadata]
        refine ⟨hwu, ?_⟩
        rintro _ ⟨rfl⟩
        exact hreply sourceUrl response metadata hurl hrespond hmetadata

/-- The replacement of a registry ends in a state in which its batch has run. -/
theorem replaceResourceDiscovery_meets (hkeys : w.db.GrantKeys) (hws : LeavesGrants w s)
    (id : String) (discovery : ResourceDiscovery) :
    (replaceResourceDiscovery id discovery).Meets (besides resourceUrl supported)
      (fun r t => r = .ok () ∧
        OnlyRemoves (previousMode (some discovery.scopeRegistry)) id w.db t.db ∧
        ∀ other, (t.db.findResource other).isSome = (w.db.findResource other).isSome) s := by
  intro s₁ h₁ _
  refine ⟨trivial, ?_⟩
  intro s₂ h₂ _
  refine ⟨trivial, ?_⟩
  intro s₃ h₃ _
  refine ⟨trivial, ?_⟩
  intro s₄ h₄ _
  refine ⟨trivial, ?_⟩
  intro s₅ h₅ _
  refine ⟨trivial, ?_⟩
  intro s₆ h₆ _
  have hw₂ := (hws.trans h₁).trans h₂
  have hw₃ := hw₂.trans h₃
  have hw₄ := hw₃.trans h₄
  have hw₅ := hw₄.trans h₅
  have hw₆ := hw₅.trans h₆
  -- each part was read in its own state, and all of them are those of `w`
  simp only [hw₂.narrowing, hw₃.narrowing, hw₄.narrowing, hw₅.narrowing]
  refine ⟨trivial, rfl, ?_, ?_⟩
  · refine OnlyRemoves.before (t := s₆) ?_ hw₆
    refine Database.onlyRemoves_replaceResourceDiscovery (hw₆.keys hkeys) discovery s₁.clock ?_
    rw [hw₆.narrowing]
    rfl
  · intro other
    refine (Database.isSome_findResource_replaceResourceDiscovery id discovery _ s₁.clock s₆.db
      other).trans ?_
    rw [hw₆.findResource]

theorem refreshConnectorMetadata_uses (connector : IdentityProviderConnector) (issuer : String) :
    (refreshConnectorMetadata connector issuer).Uses Besides := by
  unfold refreshConnectorMetadata
  apply uses_bind (fetchOidcMetadata_uses (fun _ => trivial) issuer)
  intro metadata
  apply uses_bind uses_ofResult
  intro authorizationEndpoint
  apply uses_bind uses_ofResult
  intro tokenEndpoint
  apply uses_bind uses_ofResult
  intro userInfoEndpoint
  apply uses_bind uses_ofResult
  intro jwksEndpoint
  apply uses_bind uses_ofResult
  intro registrationEndpoint
  apply uses_bind uses_ofResult
  intro revocationEndpoint
  apply uses_bind (uses_currentTime.mpr trivial)
  intro now
  have hupdate : ∀ command, (executeConnector command).Uses Besides :=
    fun command => uses_perform.mpr trivial
  exact uses_bind (hupdate _) fun _ => trivial

theorem validateResourceProviderBoundary_uses (resourceUrl : String)
    (authorizationModel : AuthorizationModel) (connectorId : Option String)
    (authorizationDetails : List AuthorizationDetail) (metadata : ProtectedResourceMetadata) :
    (validateResourceProviderBoundary resourceUrl authorizationModel connectorId
      authorizationDetails metadata).Uses Besides := by
  unfold validateResourceProviderBoundary
  split
  · unfold validateExternalResourceConnector
    apply uses_bind (uses_query.mpr trivial)
    intro connector
    exact uses_bind uses_orThrow fun _ => uses_ofResult
  · trivial
  · trivial
  · trivial

theorem refreshConnector_uses (resource : ApiResource) (metadata : ProtectedResourceMetadata) :
    (refreshConnector resource metadata).Uses Besides := by
  unfold refreshConnector
  split
  · refine uses_bind ?_ fun _ => validateResourceProviderBoundary_uses ..
    unfold refreshDynamicConnectorMetadata
    apply uses_bind (uses_query.mpr trivial)
    intro connector
    apply uses_bind uses_orThrow
    intro connector
    split
    · trivial
    · apply uses_bind uses_orThrow
      intro issuer
      exact refreshConnectorMetadata_uses connector issuer
  · trivial

theorem readResourceContract_uses (resourceUrl : String) :
    (readResourceContract resourceUrl).Uses Besides := by
  unfold readResourceContract
  apply uses_bind (uses_fetchPeer.mpr trivial)
  intro reply
  apply uses_bind uses_orThrow
  intro response
  apply uses_bind uses_throwIf
  intro _
  apply uses_bind uses_ofResult
  intro documentUrl
  apply uses_bind (uses_fetchPeer.mpr trivial)
  intro reply
  apply uses_bind uses_orThrow
  intro response
  apply uses_bind uses_throwIf
  intro _
  apply uses_bind uses_throwIf
  intro _
  exact uses_bind uses_orThrow fun _ => uses_ofResult

theorem synchronizeResourceDiscovery_uses (previousRegistry : Option ResourceScopeRegistry)
    (metadata : ProtectedResourceMetadata) :
    (synchronizeResourceDiscovery resourceUrl previousRegistry metadata).Uses Besides := by
  unfold synchronizeResourceDiscovery
  apply uses_bind (uses_currentTime.mpr trivial)
  intro now
  exact uses_bind (readResourceContract_uses resourceUrl) fun _ => trivial

theorem synchronizeResourceDiscovery_returns (previousRegistry : Option ResourceScopeRegistry)
    (metadata : ProtectedResourceMetadata) :
    (synchronizeResourceDiscovery resourceUrl previousRegistry metadata).Returns fun discovery =>
      ∃ described, discovery.scopeRegistry.scopes =
        synchronizedScopes previousRegistry described metadata.scopesSupported := by
  unfold synchronizeResourceDiscovery
  refine (returns_true currentTime).bind fun now _ => ?_
  refine (returns_true (readResourceContract resourceUrl)).bind fun contract _ => ?_
  exact ⟨contract.scopes, rfl⟩

/-- The modes of a registry that was read off a document. -/
theorem previousMode_synchronizedScopes {registry : ResourceScopeRegistry}
    {previousRegistry : Option ResourceScopeRegistry} {described : List ResourceScopeDefinition}
    (hscopes : registry.scopes = synchronizedScopes previousRegistry described supported)
    (scope : String) :
    previousMode (some registry) scope =
      if scope ∈ supported then some ((previousMode previousRegistry scope).getD .assigned)
      else none := by
  have hentries : ∀ entry ∈ registry.scopes,
      entry.grantMode = (previousMode previousRegistry entry.value).getD .assigned := by
    intro entry hentry
    rw [hscopes] at hentry
    obtain ⟨value, -, rfl⟩ := List.mem_map.mp hentry
    rfl
  have hvalues : registry.scopes.map (·.value) = supported := by
    rw [hscopes, synchronizedScopes, List.map_map]
    exact List.map_id supported
  by_cases hscope : scope ∈ supported
  · rw [if_pos hscope]
    rw [← hvalues, ← previousMode_isSome, Option.isSome_iff_exists] at hscope
    obtain ⟨mode, hmode⟩ := hscope
    obtain ⟨entry, hentry, rfl⟩ := Option.map_eq_some_iff.mp hmode
    have hmem := List.mem_reverse.mp (List.mem_of_find?_eq_some hentry)
    have hvalue := List.find?_some hentry
    simp only [decide_eq_true_eq] at hvalue
    rw [hmode, hentries entry hmem, hvalue]
  · rw [if_neg hscope]
    rw [← hvalues, ← previousMode_isSome] at hscope
    simpa using hscope

/-- What is known at the end of the part of a refresh that writes. -/
def EndsRefresh (w : World) (resource : ApiResource) (supported : List String) :
    Except Error Unit → World → Prop
  | .ok _, t => OnlyRemoves (refreshedMode resource supported) resource.id w.db t.db ∧
      ∀ other, (t.db.findResource other).isSome = (w.db.findResource other).isSome
  | .error _, t => OnlyRemoves (previousMode resource.scopeRegistry) resource.id w.db t.db

theorem synchronizeResource_meets (hkeys : w.db.GrantKeys) (hws : LeavesGrants w s)
    (hrealmroot : resource.isRealmroot = false) :
    (synchronizeResource resource).Meets (besides resource.resourceUrl supported)
      (fun r t => match r with
        | .ok () => OnlyRemoves (refreshedMode resource supported) resource.id w.db t.db ∧
            ∀ other, (t.db.findResource other).isSome = (w.db.findResource other).isSome
        | .error _ => LeavesGrants w t) s := by
  unfold synchronizeResource
  rw [Program.bind_eq, meets_bind]
  refine (readProtectedResourceMetadata_meets s).mono ?_
  rintro (e | metadata) s₁ ⟨h₁, hmetadata⟩
  · exact hws.trans h₁
  have hsupported := hmetadata metadata rfl
  refine quiet_besides.meets_bind (refreshConnector_uses resource metadata) ?_ ?_
  · intro _ s₂ h₂
    refine quiet_besides.meets_bind_returns
      (synchronizeResourceDiscovery_uses resource.scopeRegistry metadata)
      (synchronizeResourceDiscovery_returns resource.scopeRegistry metadata) ?_ ?_
    · rintro discovery s₃ ⟨described, hscopes⟩ h₃
      rw [hsupported] at hscopes
      have hw₃ : LeavesGrants w s₃ := ((hws.trans h₁).trans h₂).trans h₃
      refine (replaceResourceDiscovery_meets hkeys hw₃ resource.id discovery).mono ?_
      rintro r t ⟨rfl, honly, hfound⟩
      have hmode : previousMode (some discovery.scopeRegistry) =
          refreshedMode resource supported := by
        funext scope
        rw [previousMode_synchronizedScopes hscopes, refreshedMode, hrealmroot]
        rfl
      exact ⟨hmode ▸ honly, hfound⟩
    · intro e s₃ h₃
      exact ((hws.trans h₁).trans h₂).trans h₃
  · intro e s₂ h₂
    exact (hws.trans h₁).trans h₂

theorem recordSynchronizationError_meets (hkeys : w.db.GrantKeys) (hws : LeavesGrants w s)
    (error : Error) :
    (recordSynchronizationError resource error).Meets (besides resource.resourceUrl supported)
      (EndsRefresh w resource supported) s := by
  unfold recordSynchronizationError
  split
  · next registry hregistry =>
    rw [Program.bind_eq, meets_bind]
    refine (replaceResourceDiscovery_meets hkeys hws resource.id _).mono ?_
    rintro r t ⟨rfl, honly, -⟩
    have hstored : OnlyRemoves (previousMode resource.scopeRegistry) resource.id w.db t.db := by
      rw [hregistry]
      exact honly
    exact hstored
  · exact hws.onlyRemoves _ _

theorem refreshRealmroot_meets (hkeys : w.db.GrantKeys) (hws : LeavesGrants w s)
    (hrealmroot : resource.isRealmroot = true) :
    (refreshRealmroot resource).Meets (besides resource.resourceUrl supported)
      (EndsRefresh w resource supported) s := by
  unfold refreshRealmroot
  refine quiet_besides.meets_bind uses_ofResult ?_ ?_
  · intro sourceUrl s₁ h₁
    refine quiet_besides.meets_bind (uses_currentTime.mpr trivial) ?_ ?_
    · intro now s₂ h₂
      have hw₂ : LeavesGrants w s₂ := (hws.trans h₁).trans h₂
      refine (replaceResourceDiscovery_meets hkeys hw₂ resource.id _).mono ?_
      rintro r t ⟨rfl, honly, hfound⟩
      have hmode : previousMode (some (realmrootRegistry sourceUrl now)) =
          refreshedMode resource supported := by
        funext scope
        rw [refreshedMode, hrealmroot]
        rfl
      exact ⟨hmode ▸ honly, hfound⟩
    · intro e s₂ h₂
      exact ((hws.trans h₁).trans h₂).onlyRemoves _ _
  · intro e s₁ h₁
    exact (hws.trans h₁).onlyRemoves _ _

theorem refreshRegistry_meets (hkeys : w.db.GrantKeys) (hws : LeavesGrants w s) :
    (refreshRegistry resource).Meets (besides resource.resourceUrl supported)
      (EndsRefresh w resource supported) s := by
  unfold refreshRegistry
  split_ifs with hrealmroot
  · exact refreshRealmroot_meets hkeys hws hrealmroot
  · rw [meets_tryCatch]
    rw [Bool.not_eq_true] at hrealmroot
    refine (synchronizeResource_meets hkeys hws hrealmroot).mono ?_
    rintro (e | _) t ht
    · exact recordSynchronizationError_meets hkeys ht e
    · exact ht

/-- A refresh that ends well removes only what its document does not cover, and one that fails
only what the registry that was stored does not cover. -/
theorem refreshResourceScopeRegistry_meets (hkeys : w.db.GrantKeys) {id : String}
    (hresource : w.db.findResource id = some resource) :
    (refreshResourceScopeRegistry id).Meets (besides resource.resourceUrl supported)
      (fun r t => match r with
        | .ok _ => OnlyRemoves (refreshedMode resource supported) id w.db t.db
        | .error _ => OnlyRemoves (previousMode resource.scopeRegistry) id w.db t.db) w := by
  have hid : resource.id = id := by
    have hfound := List.find?_some hresource
    simp only [Bool.and_eq_true, decide_eq_true_eq] at hfound
    exact hfound.1
  have hget : ∀ t, (getResource id).Meets (besides resource.resourceUrl supported)
      (fun r u => LeavesGrants t u ∧ ∀ found, t.db.findResource id = some found →
        r = .ok found) t := by
    intro t u htu _
    refine ⟨trivial, ?_⟩
    have hread : u.db.findResource id = t.db.findResource id := htu.findResource id
    cases hfound : t.db.findResource id with
    | none =>
      simp only [pure_bind, hread, hfound]
      exact ⟨htu, fun found h => nomatch h⟩
    | some found =>
      simp only [pure_bind, hread, hfound]
      refine ⟨htu, ?_⟩
      rintro _ ⟨rfl⟩
      rfl
  unfold refreshResourceScopeRegistry
  rw [Program.bind_eq, meets_bind]
  refine (hget w).mono ?_
  rintro r s₁ ⟨h₁, hr⟩
  rw [hr resource hresource]
  refine quiet_besides.meets_bind uses_throwIf ?_ ?_
  · intro _ s₂ h₂
    have hw₂ : LeavesGrants w s₂ := h₁.trans h₂
    rw [Program.bind_eq, meets_bind]
    refine (refreshRegistry_meets hkeys hw₂).mono ?_
    rintro (e | _) s₃ hs₃
    · exact hid ▸ hs₃
    · obtain ⟨honly, hfound⟩ := hs₃
      refine (hget s₃).mono ?_
      rintro r s₄ ⟨h₄, hr⟩
      have hsome : (s₃.db.findResource id).isSome = true := by
        rw [hfound id, hresource]
        rfl
      obtain ⟨found, hthere⟩ := Option.isSome_iff_exists.mp hsome
      rw [hr found hthere]
      exact hid ▸ honly.after h₄
  · intro e s₂ h₂
    exact (h₁.trans h₂).onlyRemoves _ _

end Run

/-! ## A scope that is automatic -/

namespace RefreshExample

@[reducible] def platform : Platform :=
  { samplePlatform with
    parseUrl := fun _ => some
      { protocol := "https:", username := "", password := "", hostname := "api.example"
        pathname := "/", search := "", hash := "" }
    printUrl := fun url => "https://api.example" ++ url.pathname
    resolveUrl := fun target _ => some ("https://api.example" ++ target) }

attribute [local instance] platform

/-- The resource publishes one scope. -/
def respond (request : PeerRequest) : Option PeerResponse :=
  if request.url = "https://api.example/.well-known/oauth-protected-resource" then
    some
      { status := 200, contentType := some "application/json"
        body := some (.obj [("resource", .str "https://api.example"),
          ("scopes_supported", .arr [.str "read"])]) }
  else if request.url = "https://api.example" then
    some { status := 200, link := some "</openapi.json>; rel=service-desc" }
  else if request.url = "https://api.example/openapi.json" then
    some
      { status := 200
        body := some (.obj [("openapi", .str "3.1.0"), ("info", .obj [("title", .str "API")])]) }
  else none

def around : Surroundings World Reply :=
  { elapse := fun _ s => s, reply := fun _ => { respond := respond } }

def resource (grantMode : GrantMode) : ApiResource :=
  { id := "api", identifier := "api", name := "API", description := none
    resourceUrl := "https://api.example", authorizationModel := .native, connectorId := none
    authorizationDetails := [], enabled := true, ownerOrganizationId := "platform"
    visibility := .public
    scopeRegistry :=
      some { scopes := [{ value := "read", description := none, grantMode := grantMode }] }
    availableToAgents := false, deletedAt := none, updatedAt := 0 }

/-- Ada has the scope, which is granted in one of the two ways. -/
def entitlement : ResourceScopeEntitlement :=
  { id := "entitlement", userId := some "ada", applicationId := none, agentIdentityId := none
    organizationId := none, resourceServerId := "api", connectionId := none
    authorizationContextHash := "", authorizationDetails := [], scope := "read"
    mode := .persistent, grantedByUserId := none, grantedByAgentIdentityId := none
    sourceAccessRequestId := none, expiresAt := none, endedAt := none, endReason := none
    createdAt := 0, updatedAt := 0 }

def world (grantMode : GrantMode) : World :=
  { db := { apiResources := [resource grantMode], resourceScopeEntitlements := [entitlement] }
    clock := 10, nextId := 0 }

theorem world_keys (grantMode : GrantMode) : (world grantMode).db.GrantKeys where
  entitlements := List.nodup_singleton _
  roles := List.nodup_nil
  applications := List.nodup_nil
  consents := List.nodup_nil

theorem around_alone (n : ℕ) (s : World) : LeavesGrants s (around.elapse n s) :=
  LeavesGrants.refl s

theorem around_publishes (n : ℕ) :
    Publishes "https://api.example" ["read"] (around.reply n) := by
  intro sourceUrl response metadata hurl hrespond hmetadata
  have hsource : protectedResourceMetadataUrl "https://api.example" =
      .ok "https://api.example/.well-known/oauth-protected-resource" := by
    rfl
  rw [hsource] at hurl
  cases hurl
  cases hrespond
  have hread : (protectedResourceMetadata
      "https://api.example/.well-known/oauth-protected-resource" "https://api.example"
      { status := 200, contentType := some "application/json"
        body := some (.obj [("resource", .str "https://api.example"),
          ("scopes_supported", .arr [.str "read"])]) }).map (·.scopesSupported) =
      .ok ["read"] := by
    decide +kernel
  rw [hmetadata] at hread
  exact Except.ok.inj hread

theorem same_scopes (grantMode : GrantMode) (scope : String) : scope ∈ ["read"] ↔
    (previousMode (resource grantMode).scopeRegistry scope).isSome = true := by
  have hregistry : (resource grantMode).scopeRegistry =
      some { scopes := [{ value := "read", description := none, grantMode := grantMode }] } := rfl
  rw [hregistry, previousMode_isSome]
  rfl

end RefreshExample

end Realmroot
