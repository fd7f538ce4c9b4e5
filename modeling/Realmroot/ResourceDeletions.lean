import Realmroot.Rules
import Realmroot.Usecases.Resources

/-!
# Deletion of a resource

The batch that deletes a resource withdraws what was granted through it, table by table. The
stored tokens are found through their credentials, by the audience that these have at present,
and not by the audience for which they were issued.
-/

namespace Realmroot

open AtomicProgram Program

/-! ## Role scopes -/

section RoleScopes

variable {id value : String}

/-- The role scope names the resource. -/
def namesResource (id value : String) : Bool :=
  (decodeRoleScope value).any fun item => item.resourceId = id

/-- The role scope names another resource. -/
def namesAnother (id value : String) : Bool :=
  (decodeRoleScope value).any fun item => item.resourceId ≠ id

def hasRoleScopePrefix (id value : String) : Bool :=
  (encodeURIComponent id ++ "/").toList.isPrefixOf value.toList

theorem roleScopesWithout_eq (id : String) (scopes : List String) :
    Database.roleScopesWithout id scopes =
      scopes.filter fun value => !hasRoleScopePrefix id value := rfl

/-- A prefix ends at the first separator, so it belongs to one resource. -/
theorem namesAnother_of_hasRoleScopePrefix (h : hasRoleScopePrefix id value = true) :
    namesAnother id value = false := by
  obtain ⟨rest, hrest⟩ := List.isPrefixOf_iff_prefix.mp h
  rw [String.toList_append, List.append_assoc] at hrest
  have hbefore : value.toList.takeWhile (· ≠ '/') = (encodeURIComponent id).toList := by
    have hfree : ∀ c ∈ (encodeURIComponent id).toList, decide (c ≠ '/') = true := by
      intro c hc
      apply decide_eq_true
      rintro rfl
      exact slash_not_mem_encodeURIComponent id hc
    rw [← hrest, List.takeWhile_append_of_pos hfree]
    simp
  unfold namesAnother decodeRoleScope
  simp only [hbefore, String.ofList_toList, decodeURIComponent_encodeURIComponent]
  split_ifs with hempty
  · rfl
  · split
    · rename_i resourceId scope hresource _
      obtain rfl := Option.some.inj hresource
      simp
    · rfl

theorem hasRoleScopePrefix_encodeRoleScope (id scope : String) :
    hasRoleScopePrefix id (encodeRoleScope id scope) = true := by
  simp [hasRoleScopePrefix, encodeRoleScope, String.toList_append]

/-- The scopes that `encodeRoleScope` writes are found by the prefix of the resource they name. -/
theorem hasRoleScopePrefix_of_names {scope : String} {resourceId : String}
    (h : namesResource id (encodeRoleScope resourceId scope) = true) :
    hasRoleScopePrefix id (encodeRoleScope resourceId scope) = true := by
  have hstart := hasRoleScopePrefix_encodeRoleScope resourceId scope
  have hnone := namesAnother_of_hasRoleScopePrefix hstart
  unfold namesResource at h
  unfold namesAnother at hnone
  cases hdecoded : decodeRoleScope (encodeRoleScope resourceId scope) with
  | none =>
    rw [hdecoded] at h
    cases h
  | some item =>
    rw [hdecoded] at h hnone
    simp only [Option.any_some, decide_eq_true_eq, decide_eq_false_iff_not, not_not] at h hnone
    rw [← h, hnone]
    exact hstart

end RoleScopes

/-! ## What is asked of a deletion -/

namespace Database

/-- The credential of a token has the resource as its present audience. -/
def isUnderResource (db : Database) (id credentialId : String) : Bool :=
  ((db.federatedCredentials.filter fun row => row.audienceResourceId = id).map (·.id)).contains
    credentialId

/-- The URL is that of another resource. -/
def isOtherUrl (db : Database) (r : ApiResource) (url : String) : Bool :=
  url ≠ r.resourceUrl &&
    db.apiResources.any fun other => other.id ≠ r.id && other.resourceUrl = url

end Database

/-- Nothing is left of the authority of a resource. -/
structure AuthorityRemoved (r : ApiResource) (db : Database) : Prop where
  entitlements : ∀ row ∈ db.resourceScopeEntitlements, row.resourceServerId = r.id →
    row.endedAt.isNone = false
  leases : ∀ row ∈ db.externalTokenLeases, row.requestId ∈ db.requestIdsOf r.id →
    row.revokedAt.isNone = false
  authorizations : ∀ row ∈ db.providerResourceAuthorizations, row.resourceId = r.id →
    row.status ≠ .active
  intents : ∀ row ∈ db.resourceConnectionIntents, row.resourceId = r.id → row.status ≠ .pending
  requests : ∀ row ∈ db.agentAccessRequests, row.resourceId = r.id → row.status ≠ .pending
  consents : ∀ row ∈ db.applicationConsents, row.resourceServerId = some r.id →
    row.revokedAt.isNone = false
  credentials : ∀ row ∈ db.federatedCredentials, row.audienceResourceId = r.id →
    row.enabled = false
  accessTokens : ∀ row ∈ db.tokenExchangeAccessTokens, row.audience = r.resourceUrl →
    row.revokedAt.isNone = false
  refreshTokens : ∀ row ∈ db.tokenExchangeRefreshTokens, row.audience = r.resourceUrl →
    row.revokedAt.isNone = false
  applications : ∀ row ∈ db.applications, ∀ item ∈ row.resourceScopes, item.resourceServerId ≠ r.id
  roles : ∀ row ∈ db.organizationRoles, ∀ value ∈ Database.roleScopesOf row,
    namesResource r.id value = false

/-- The records of other resources are the same. -/
structure OthersKept (r : ApiResource) (db db' : Database) : Prop where
  entitlements :
    (db'.resourceScopeEntitlements.filter fun row => row.resourceServerId ≠ r.id) =
      db.resourceScopeEntitlements.filter fun row => row.resourceServerId ≠ r.id
  leases : (db'.externalTokenLeases.filter fun row => row.requestId ∉ db.requestIdsOf r.id) =
    db.externalTokenLeases.filter fun row => row.requestId ∉ db.requestIdsOf r.id
  authorizations :
    (db'.providerResourceAuthorizations.filter fun row => row.resourceId ≠ r.id) =
      db.providerResourceAuthorizations.filter fun row => row.resourceId ≠ r.id
  intents : (db'.resourceConnectionIntents.filter fun row => row.resourceId ≠ r.id) =
    db.resourceConnectionIntents.filter fun row => row.resourceId ≠ r.id
  requests : (db'.agentAccessRequests.filter fun row => row.resourceId ≠ r.id) =
    db.agentAccessRequests.filter fun row => row.resourceId ≠ r.id
  consents : (db'.applicationConsents.filter fun row => row.resourceServerId ≠ some r.id) =
    db.applicationConsents.filter fun row => row.resourceServerId ≠ some r.id
  credentials : (db'.federatedCredentials.filter fun row => row.audienceResourceId ≠ r.id) =
    db.federatedCredentials.filter fun row => row.audienceResourceId ≠ r.id
  accessTokens :
    (db'.tokenExchangeAccessTokens.filter fun row => db.isOtherUrl r row.audience) =
      db.tokenExchangeAccessTokens.filter fun row => db.isOtherUrl r row.audience
  refreshTokens :
    (db'.tokenExchangeRefreshTokens.filter fun row => db.isOtherUrl r row.audience) =
      db.tokenExchangeRefreshTokens.filter fun row => db.isOtherUrl r row.audience
  applications :
    (db'.applications.map fun row =>
      (row.id, row.resourceScopes.filter fun item => item.resourceServerId ≠ r.id)) =
      db.applications.map fun row =>
        (row.id, row.resourceScopes.filter fun item => item.resourceServerId ≠ r.id)
  roles :
    (db'.organizationRoles.map fun row =>
      (row.id, (Database.roleScopesOf row).filter (namesAnother r.id))) =
      db.organizationRoles.map fun row =>
        (row.id, (Database.roleScopesOf row).filter (namesAnother r.id))

/-- A deletion removes exactly the authority of the resource. -/
structure DeletionExact (r : ApiResource) (db db' : Database) : Prop where
  removed : AuthorityRemoved r db'
  kept : OthersKept r db db'

/-- The credential of a token of the resource has it as its audience, and that of a token of
another resource has not. -/
def Database.FollowsAudience (db : Database) (r : ApiResource) (audience credentialId : String) :
    Prop :=
  (audience = r.resourceUrl → db.isUnderResource r.id credentialId = true) ∧
    (db.isOtherUrl r audience = true → db.isUnderResource r.id credentialId = false)

/-- The tokens that are not revoked are under the credentials of their audience, and the scopes
of roles that name the resource are written as `encodeRoleScope` writes them. -/
structure Deletable (r : ApiResource) (db : Database) : Prop where
  accessTokens : ∀ row ∈ db.tokenExchangeAccessTokens, row.revokedAt.isNone = true →
    db.FollowsAudience r row.audience row.credentialId
  refreshTokens : ∀ row ∈ db.tokenExchangeRefreshTokens, row.revokedAt.isNone = true →
    db.FollowsAudience r row.audience row.credentialId
  roles : ∀ row ∈ db.organizationRoles, ∀ value ∈ Database.roleScopesOf row,
    namesResource r.id value = true → hasRoleScopePrefix r.id value = true

/-! ## What the batch does -/

section Batch

variable {r : ApiResource} {now : Time} {audit : AgentAuditEvent} {db db' : Database}

namespace Database

/-- The tables after the batch. -/
theorem deleteResource_ok {id : String} (h : deleteResource id now audit db = .ok ((), db')) :
    ∃ events, db' = removeConfiguration id now (withdrawGrants id now { db with
      agentAuditEvents := events
      apiResources :=
        Table.updateWhere (isUndeleted id)
          (fun row => { row with enabled := false, deletedAt := some now, updatedAt := now })
          db.apiResources }) := by
  cases h
  by_cases hthere : db.apiResources.any (isUndeleted id) = true
  · exact ⟨_, by rw [recordAudit, if_pos hthere]⟩
  · exact ⟨_, by rw [recordAudit, if_neg hthere]⟩

end Database

end Batch

/-! ## Tokens -/

section Tokens

variable {α : Type} (audience credentialId : α → String) (revokedAt : α → Option Time)
  (revoke : α → α) (r : ApiResource) (db : Database) (rows : List α)

/-- The tokens of one table, after those under the credentials of the resource are revoked. -/
def revokeUnder : List α :=
  Table.updateWhere
    (fun row => (revokedAt row).isNone && db.isUnderResource r.id (credentialId row)) revoke rows

variable (haudience : ∀ row, audience (revoke row) = audience row)
  (hrevoked : ∀ row, (revokedAt (revoke row)).isNone = false)

include haudience hrevoked

/-- Exactly the tokens of the resource are revoked when each token is under a credential of its
audience. -/
theorem revokeUnder_iff :
    ((∀ row ∈ revokeUnder credentialId revokedAt revoke r db rows,
        audience row = r.resourceUrl → (revokedAt row).isNone = false) ∧
      (revokeUnder credentialId revokedAt revoke r db rows).filter
          (fun row => db.isOtherUrl r (audience row)) =
        rows.filter fun row => db.isOtherUrl r (audience row)) ↔
    ∀ row ∈ rows, (revokedAt row).isNone = true →
      db.FollowsAudience r (audience row) (credentialId row) := by
  have hcleared := @Table.updateWhere_cleared_iff _
    (fun row => (revokedAt row).isNone && db.isUnderResource r.id (credentialId row)) revoke rows
    (fun row => decide (audience row = r.resourceUrl))
    (fun row => (revokedAt row).isNone) (fun row => by simp only [haudience]) hrevoked
  have hkept := @Table.filter_updateWhere_iff _
    (fun row => (revokedAt row).isNone && db.isUnderResource r.id (credentialId row)) revoke rows
    (fun row => db.isOtherUrl r (audience row))
    (fun row => by simp only [haudience])
  simp only [decide_eq_true_eq, Bool.and_eq_true] at hcleared hkept
  unfold revokeUnder
  rw [hcleared, hkept]
  constructor
  · rintro ⟨hown, hothers⟩ row hrow hlive
    refine ⟨fun heq => (hown row hrow heq hlive).2, fun hother => ?_⟩
    by_contra hunder
    have hsame := hothers row hrow hother ⟨hlive, by simpa using hunder⟩
    have hgone := hrevoked row
    rw [hsame, hlive] at hgone
    cases hgone
  · intro hfollows
    constructor
    · intro row hrow heq hlive
      exact ⟨hlive, (hfollows row hrow hlive).1 heq⟩
    · intro row hrow hother hselected
      have hnot := (hfollows row hrow hselected.1).2 hother
      rw [hselected.2] at hnot
      cases hnot

end Tokens

/-! ## Scopes of roles and Applications -/

section Scopes

variable (r : ApiResource) (now : Time)

/-- A role without the scopes of the resource. -/
def roleWithout (row : OrganizationRole) : OrganizationRole :=
  if Database.roleScopesWithout r.id (Database.roleScopesOf row) ≠ Database.roleScopesOf row then
    { row with
      permission := withRoleScopes row.permission
        (Database.roleScopesWithout r.id (Database.roleScopesOf row))
      updatedAt := now }
  else row

@[simp] theorem roleWithout_id (row : OrganizationRole) : (roleWithout r now row).id = row.id := by
  unfold roleWithout
  split_ifs <;> rfl

theorem roleScopesOf_roleWithout (row : OrganizationRole) :
    Database.roleScopesOf (roleWithout r now row) =
      Database.roleScopesWithout r.id (Database.roleScopesOf row) := by
  unfold roleWithout
  split_ifs with hchanged
  · apply Database.roleScopesOf_withRoleScopes
    intro hempty
    rw [hempty] at hchanged
    exact hchanged rfl
  · exact (not_not.mp hchanged).symm

/-- No scope of the resource is left in the roles when all have its prefix. -/
theorem roles_removed_iff (rows : List OrganizationRole) :
    (∀ row ∈ rows.map (roleWithout r now), ∀ value ∈ Database.roleScopesOf row,
        namesResource r.id value = false) ↔
      ∀ row ∈ rows, ∀ value ∈ Database.roleScopesOf row, namesResource r.id value = true →
        hasRoleScopePrefix r.id value = true := by
  rw [List.forall_mem_map]
  apply forall₂_congr
  intro row _
  rw [roleScopesOf_roleWithout, roleScopesWithout_eq]
  constructor
  · intro h value hvalue hnames
    by_contra hstart
    have hgone := h value (List.mem_filter.mpr ⟨hvalue, by simpa using hstart⟩)
    rw [hnames] at hgone
    cases hgone
  · intro h value hvalue
    obtain ⟨hvalue, hstart⟩ := List.mem_filter.mp hvalue
    by_contra hnames
    rw [h value hvalue (by simpa using hnames)] at hstart
    cases hstart

/-- The roles keep the scopes of other resources. -/
theorem roles_kept (rows : List OrganizationRole) :
    ((rows.map (roleWithout r now)).map fun row =>
        (row.id, (Database.roleScopesOf row).filter (namesAnother r.id))) =
      rows.map fun row => (row.id, (Database.roleScopesOf row).filter (namesAnother r.id)) := by
  rw [List.map_map]
  apply List.map_congr_left
  intro row _
  simp only [Function.comp_apply, roleWithout_id, roleScopesOf_roleWithout, roleScopesWithout_eq,
    List.filter_filter, Prod.mk.injEq, true_and]
  apply List.filter_congr
  intro value _
  cases hstart : hasRoleScopePrefix r.id value with
  | true => simp [namesAnother_of_hasRoleScopePrefix hstart]
  | false => simp

/-- An Application without the configuration of the resource. -/
def applicationWithout (row : Application) : Application :=
  if row.resourceScopes.any fun configuration => configuration.resourceServerId = r.id then
    { row with
      resourceScopes := row.resourceScopes.filter fun configuration =>
        configuration.resourceServerId ≠ r.id
      updatedAt := now }
  else row

@[simp] theorem applicationWithout_id (row : Application) :
    (applicationWithout r now row).id = row.id := by
  unfold applicationWithout
  split_ifs <;> rfl

theorem resourceScopes_applicationWithout (row : Application) :
    (applicationWithout r now row).resourceScopes =
      row.resourceScopes.filter fun configuration => configuration.resourceServerId ≠ r.id := by
  unfold applicationWithout
  split_ifs with hconfigured
  · rfl
  · symm
    rw [List.filter_eq_self]
    intro configuration hmem
    apply decide_eq_true
    intro hsame
    exact hconfigured (List.any_eq_true.mpr ⟨configuration, hmem, decide_eq_true hsame⟩)

end Scopes

/-! ## Deletion -/

section Deletion

variable {r : ApiResource} {now : Time} {audit : AgentAuditEvent} {db db' : Database}

/-- The tables of a deletion, by what each of them loses. -/
structure Deleted (r : ApiResource) (now : Time) (db db' : Database) : Prop where
  entitlements : db'.resourceScopeEntitlements =
    Table.updateWhere (fun row => row.resourceServerId = r.id && row.endedAt.isNone)
      (·.end .revoked now) db.resourceScopeEntitlements
  leases : db'.externalTokenLeases =
    Table.updateWhere
      (fun row => row.revokedAt.isNone && (db.requestIdsOf r.id).contains row.requestId)
      (fun row => { row with revokedAt := some now }) db.externalTokenLeases
  authorizations : db'.providerResourceAuthorizations =
    Table.updateWhere (fun row => row.resourceId = r.id && row.status = .active) (·.revoke now)
      db.providerResourceAuthorizations
  intents : db'.resourceConnectionIntents =
    Table.updateWhere (fun row => row.resourceId = r.id && row.status = .pending)
      (fun row => { row with status := .cancelled, completedAt := some now, updatedAt := now })
      db.resourceConnectionIntents
  requests : db'.agentAccessRequests =
    Table.updateWhere (fun row => row.resourceId = r.id && row.status = .pending)
      (fun row => { row with status := .denied, decidedAt := some now, updatedAt := now })
      db.agentAccessRequests
  consents : db'.applicationConsents =
    Table.updateWhere (fun row => row.resourceServerId = some r.id && row.revokedAt.isNone)
      (fun row => { row with revokedAt := some now }) db.applicationConsents
  credentials : db'.federatedCredentials =
    Table.updateWhere (fun row => row.audienceResourceId = r.id && row.enabled)
      (fun row => { row with enabled := false, updatedAt := now }) db.federatedCredentials
  accessTokens : db'.tokenExchangeAccessTokens =
    revokeUnder (·.credentialId) (·.revokedAt) (fun row => { row with revokedAt := some now }) r db
      db.tokenExchangeAccessTokens
  refreshTokens : db'.tokenExchangeRefreshTokens =
    revokeUnder (·.credentialId) (·.revokedAt) (·.revoke now) r db db.tokenExchangeRefreshTokens
  applications : db'.applications = db.applications.map (applicationWithout r now)
  roles : db'.organizationRoles = db.organizationRoles.map (roleWithout r now)

theorem deleted_of_ok (h : Database.deleteResource r.id now audit db = .ok ((), db')) :
    Deleted r now db db' := by
  obtain ⟨events, rfl⟩ := Database.deleteResource_ok h
  have hroles : ∀ rows, Table.updateWhere
      (fun row : OrganizationRole =>
        Database.roleScopesWithout r.id (Database.roleScopesOf row) ≠ Database.roleScopesOf row)
      (fun row => { row with
        permission := withRoleScopes row.permission
          (Database.roleScopesWithout r.id (Database.roleScopesOf row))
        updatedAt := now }) rows = rows.map (roleWithout r now) := by
    intro rows
    apply List.map_congr_left
    intro row _
    simp only [decide_eq_true_eq]
    rfl
  constructor
  case roles => exact hroles db.organizationRoles
  all_goals rfl

/-- The rows of the resource that are live are cleared. -/
theorem cleared {α : Type} {rows : List α} {p : α → Bool} {f : α → α} {row : α}
    (hrow : row ∈ Table.updateWhere p f rows) (q live : α → Bool)
    (hkept : ∀ row, q (f row) = q row) (hcleared : ∀ row, live (f row) = false)
    (hselects : ∀ row, q row = true → live row = true → p row = true) (hq : q row = true) :
    live row = false :=
  (Table.updateWhere_cleared_iff q live hkept hcleared).mpr (fun row _ => hselects row) row hrow hq

theorem Deleted.requestIdsOf (h : Deleted r now db db') :
    db'.requestIdsOf r.id = db.requestIdsOf r.id := by
  have hpairs : ∀ rows : List AgentAccessRequest,
      (rows.filter fun row => row.resourceId = r.id).map (·.id) =
        ((rows.map fun row => (row.id, row.resourceId)).filter fun pair => pair.2 = r.id).map
          (·.1) := by
    intro rows
    simp [List.filter_map, Function.comp_def]
  unfold Database.requestIdsOf
  rw [h.requests, hpairs, hpairs, Table.map_updateWhere]
  intro row
  rfl

/-- What is left of the authority of the resource can only be tokens and role scopes. -/
theorem Deleted.removed (h : Deleted r now db db')
    (haccess : ∀ row ∈ db'.tokenExchangeAccessTokens, row.audience = r.resourceUrl →
      row.revokedAt.isNone = false)
    (hrefresh : ∀ row ∈ db'.tokenExchangeRefreshTokens, row.audience = r.resourceUrl →
      row.revokedAt.isNone = false)
    (hroles : ∀ row ∈ db'.organizationRoles, ∀ value ∈ Database.roleScopesOf row,
      namesResource r.id value = false) : AuthorityRemoved r db' where
  entitlements := by
    rw [h.entitlements]
    intro row hrow hresource
    exact cleared hrow (fun row => decide (row.resourceServerId = r.id))
      (fun row => row.endedAt.isNone) (fun _ => rfl) (fun _ => rfl) (by simp +contextual)
      (decide_eq_true hresource)
  leases := by
    rw [h.leases, h.requestIdsOf]
    intro row hrow hrequest
    exact cleared hrow (fun row => decide (row.requestId ∈ db.requestIdsOf r.id))
      (fun row => row.revokedAt.isNone) (fun _ => rfl) (fun _ => rfl)
      (by simp +contextual) (decide_eq_true hrequest)
  authorizations := by
    rw [h.authorizations]
    intro row hrow hresource
    have hgone := cleared hrow (fun row => decide (row.resourceId = r.id))
      (fun row => decide (row.status = .active)) (fun _ => rfl) (fun _ => rfl)
      (by simp +contextual) (decide_eq_true hresource)
    exact of_decide_eq_false hgone
  intents := by
    rw [h.intents]
    intro row hrow hresource
    have hgone := cleared hrow (fun row => decide (row.resourceId = r.id))
      (fun row => decide (row.status = .pending)) (fun _ => rfl) (fun _ => rfl)
      (by simp +contextual) (decide_eq_true hresource)
    exact of_decide_eq_false hgone
  requests := by
    rw [h.requests]
    intro row hrow hresource
    have hgone := cleared hrow (fun row => decide (row.resourceId = r.id))
      (fun row => decide (row.status = .pending)) (fun _ => rfl) (fun _ => rfl)
      (by simp +contextual) (decide_eq_true hresource)
    exact of_decide_eq_false hgone
  consents := by
    rw [h.consents]
    intro row hrow hresource
    exact cleared hrow (fun row => decide (row.resourceServerId = some r.id))
      (fun row => row.revokedAt.isNone) (fun _ => rfl) (fun _ => rfl)
      (by simp +contextual) (decide_eq_true hresource)
  credentials := by
    rw [h.credentials]
    intro row hrow hresource
    exact cleared hrow (fun row => decide (row.audienceResourceId = r.id)) (fun row => row.enabled)
      (fun _ => rfl) (fun _ => rfl) (by simp +contextual) (decide_eq_true hresource)
  accessTokens := haccess
  refreshTokens := hrefresh
  applications := by
    rw [h.applications, List.forall_mem_map]
    intro row _ item hitem
    rw [resourceScopes_applicationWithout] at hitem
    simpa using (List.mem_filter.mp hitem).2
  roles := hroles

/-- What is changed of other resources can only be tokens. -/
theorem Deleted.kept (h : Deleted r now db db')
    (haccess : (db'.tokenExchangeAccessTokens.filter fun row => db.isOtherUrl r row.audience) =
      db.tokenExchangeAccessTokens.filter fun row => db.isOtherUrl r row.audience)
    (hrefresh : (db'.tokenExchangeRefreshTokens.filter fun row => db.isOtherUrl r row.audience) =
      db.tokenExchangeRefreshTokens.filter fun row => db.isOtherUrl r row.audience) :
    OthersKept r db db' where
  entitlements := by
    rw [h.entitlements]
    exact Table.filter_updateWhere (by simp +contextual) fun _ => rfl
  leases := by
    rw [h.leases]
    exact Table.filter_updateWhere (by simp +contextual) fun _ => rfl
  authorizations := by
    rw [h.authorizations]
    exact Table.filter_updateWhere (by simp +contextual) fun _ => rfl
  intents := by
    rw [h.intents]
    exact Table.filter_updateWhere (by simp +contextual) fun _ => rfl
  requests := by
    rw [h.requests]
    exact Table.filter_updateWhere (by simp +contextual) fun _ => rfl
  consents := by
    rw [h.consents]
    exact Table.filter_updateWhere (by simp +contextual) fun _ => rfl
  credentials := by
    rw [h.credentials]
    exact Table.filter_updateWhere (by simp +contextual) fun _ => rfl
  accessTokens := haccess
  refreshTokens := hrefresh
  applications := by
    rw [h.applications, List.map_map]
    apply List.map_congr_left
    intro row _
    simp [resourceScopes_applicationWithout]
  roles := by
    rw [h.roles]
    exact roles_kept r now db.organizationRoles

/-- A deletion is exact exactly when it finds the tokens by their credentials and the role scopes
by their prefix. -/
theorem Deleted.exact_iff (h : Deleted r now db db') :
    DeletionExact r db db' ↔ Deletable r db := by
  have haccess := revokeUnder_iff (·.audience) (·.credentialId) (·.revokedAt)
    (fun row : TokenExchangeAccessToken => { row with revokedAt := some now }) r db
    db.tokenExchangeAccessTokens (fun _ => rfl) fun _ => rfl
  have hrefresh := revokeUnder_iff (·.audience) (·.credentialId) (·.revokedAt)
    (fun row : TokenExchangeRefreshToken => row.revoke now) r db
    db.tokenExchangeRefreshTokens (fun _ => rfl) fun _ => rfl
  have hroles := roles_removed_iff r now db.organizationRoles
  rw [← h.accessTokens] at haccess
  rw [← h.refreshTokens] at hrefresh
  rw [← h.roles] at hroles
  constructor
  · rintro ⟨hremoved, hkept⟩
    exact
      { accessTokens := haccess.mp ⟨hremoved.accessTokens, hkept.accessTokens⟩
        refreshTokens := hrefresh.mp ⟨hremoved.refreshTokens, hkept.refreshTokens⟩
        roles := hroles.mp hremoved.roles }
  · intro hdeletable
    obtain ⟨hown, hothers⟩ := haccess.mpr hdeletable.accessTokens
    obtain ⟨hown', hothers'⟩ := hrefresh.mpr hdeletable.refreshTokens
    exact ⟨h.removed hown hown' (hroles.mpr hdeletable.roles), h.kept hothers hothers'⟩

/-- The repository deletes a resource that is there, and the deletion is exact exactly when the
tokens that are not revoked are under credentials of their audience, and the role scopes that
name the resource begin with its prefix. -/
theorem deletion_exact_iff (w : World) (r : ApiResource) (hr : r ∈ w.db.apiResources)
    (hundeleted : r.deletedAt = none) (around : Surroundings World Reply)
    (haround : Quiescent around) (n : ℕ) (now : Time) (audit : AgentAuditEvent) :
    ((deleteActiveResource r.id now audit).execute around n w).1 = .ok true ∧
      (DeletionExact r w.db ((deleteActiveResource r.id now audit).execute around n w).2.db ↔
        Deletable r w.db) := by
  have hmeets : (deleteActiveResource r.id now audit).Meets undisturbed
      (fun result t => result = .ok true ∧
        Database.deleteResource r.id now audit w.db = .ok ((), t.db)) w := by
    apply meets_query
    intro t hwt _
    refine ⟨trivial, ?_⟩
    have hactive : t.db.apiResources.any (Database.isUndeleted r.id) = true := by
      rw [hwt.1, List.any_eq_true]
      exact ⟨r, hr, by simp [Database.isUndeleted, hundeleted]⟩
    rw [if_pos hactive]
    apply meets_execute
    intro u htu _
    have hdb : u.db = w.db := (hwt.trans htu).1
    refine ⟨trivial, ?_, ?_⟩
    · intro _ db hok
      rw [hdb] at hok
      exact ⟨rfl, hok⟩
    · intro e herror
      cases herror
  obtain ⟨hresult, hok⟩ := hmeets.execute around haround (fun _ => trivial) n
  exact ⟨hresult, (deleted_of_ok hok).exact_iff⟩

end Deletion

namespace DeletionExample

def resource (id : String) : ApiResource :=
  { id := id, identifier := id, name := id, description := none, resourceUrl := "https://" ++ id
    authorizationModel := .native, connectorId := none, authorizationDetails := [], enabled := true
    ownerOrganizationId := "acme", visibility := .public, scopeRegistry := none
    availableToAgents := true, deletedAt := none, updatedAt := 0 }

/-- A token for `api` under a credential that was created for it. -/
def issued : Database :=
  { apiResources := [resource "api", resource "files"]
    federatedCredentials :=
      [{ id := "credential", applicationId := "app", issuer := "https://ci", subject := "job"
         audienceResourceId := "api", jwksUrl := none, publicKeys := some [], enabled := true
         updatedAt := 0 }]
    tokenExchangeAccessTokens :=
      [{ id := "token", tokenHash := "hash", clientId := "client", credentialId := "credential"
         subject := "job", subjectTokenIssuer := "https://ci", audience := "https://api"
         scopes := [], claims := [], expiresAt := 3600000, createdAt := 0, revokedAt := none }] }

/-- The audience of the credential is changed to `files`. -/
def moved : Database :=
  (Database.updateFederatedCredential "app" "credential" { audienceResourceId := some "files" }
    1).after issued

def still : Surroundings World Reply := { elapse := fun _ s => s, reply := fun _ => {} }

def audit : AgentAuditEvent :=
  resourceMutationAudit "audit" "api" "acme" 2 { controllerUserId := some "ada", agent := none }

def deleted (db : Database) : Except Error Bool × World :=
  (deleteActiveResource "api" 2 audit).execute still 0 { db := db, clock := 2, nextId := 0 }

theorem deletion_exact_iff_api :
    (deleted issued).1 = .ok true ∧
      (DeletionExact (resource "api") issued (deleted issued).2.db ↔
        Deletable (resource "api") issued) :=
  deletion_exact_iff { db := issued, clock := 2, nextId := 0 } (resource "api")
    List.mem_cons_self rfl still (fun _ s => Undisturbed.refl s) 0 2 audit

/-- The token for `api` is not revoked with its resource. -/
theorem moved_token_left :
    (deleted moved).1 = .ok true ∧
      ¬ DeletionExact (resource "api") moved (deleted moved).2.db := by
  constructor
  · decide +kernel
  · intro hexact
    have hrevoked := hexact.removed.accessTokens
    revert hrevoked
    decide +kernel

end DeletionExample

end Realmroot
