import Realmroot.Repos.ExternalResources
import Realmroot.Repos.TokenExchange

/-!
# The authorization repository: resources and direct grants

The statements that grant a permission without a request, and the batches that
change, narrow or delete a resource. A batch that was prepared from earlier reads
carries what they selected.
-/

namespace Realmroot

/-! ## Direct grants -/

structure EntitlementLifetime where
  mode : EntitlementMode
  expiresAt : Option Time
  deriving DecidableEq

/-- `strongerLifetime`. An `until` row has an expiry, so a missing one is never read. -/
def strongerLifetime (current requested : ResourceScopeEntitlement) :
    Option EntitlementLifetime :=
  if current.mode = .persistent ∨ requested.mode = .once then none
  else if requested.mode = .persistent then some { mode := .persistent, expiresAt := none }
  else if current.mode = .once then some { mode := .until, expiresAt := requested.expiresAt }
  else if (current.expiresAt.getD 0) < (requested.expiresAt.getD 0) then
    some { mode := .until, expiresAt := requested.expiresAt }
  else none

/-- A column holds the value that the input gives, or is null with it. -/
def matchesOrNull (input column : Option String) : Bool :=
  match truthy input with
  | some value => column = some value
  | none => column.isNone

/-- `activeEquivalentEntitlement`: the same subject, target and scope, under the same hash or
the same details. -/
def activeEquivalentEntitlement (input row : ResourceScopeEntitlement) : Bool :=
  matchesOrNull input.userId row.userId && matchesOrNull input.applicationId row.applicationId &&
    matchesOrNull input.agentIdentityId row.agentIdentityId &&
    matchesOrNull input.organizationId row.organizationId &&
    row.resourceServerId = input.resourceServerId &&
    matchesOrNull input.connectionId row.connectionId &&
    (row.authorizationContextHash = input.authorizationContextHash ||
      row.authorizationDetails = input.authorizationDetails) &&
    row.scope = input.scope && row.endedAt.isNone

/-- The new values of an equivalent entitlement that is kept. -/
structure EntitlementRenewal where
  id : String
  lifetime : Option EntitlementLifetime
  authorizationContextHash : String
  updatedAt : Time
  deriving DecidableEq

def EntitlementRenewal.apply (renewal : EntitlementRenewal) (row : ResourceScopeEntitlement) :
    ResourceScopeEntitlement :=
  { row with
    mode := (renewal.lifetime.map (·.mode)).getD row.mode
    expiresAt := (renewal.lifetime.map (·.expiresAt)).getD row.expiresAt
    authorizationContextHash := renewal.authorizationContextHash
    updatedAt := renewal.updatedAt }

/-- What `updateResource` may change. -/
structure ResourcePatch where
  identifier : Option String
  name : Option String
  description : Option (Option String)
  resourceUrl : Option String
  connectorId : Option (Option String)
  authorizationDetails : Option (List AuthorizationDetail)
  enabled : Option Bool
  ownerOrganizationId : Option String
  visibility : Option Visibility
  availableToAgents : Option Bool
  deriving DecidableEq

def ResourcePatch.apply (patch : ResourcePatch) (now : Time) (row : ApiResource) : ApiResource :=
  { row with
    identifier := patch.identifier.getD row.identifier
    name := patch.name.getD row.name
    description := patch.description.getD row.description
    resourceUrl := patch.resourceUrl.getD row.resourceUrl
    connectorId := patch.connectorId.getD row.connectorId
    authorizationDetails := patch.authorizationDetails.getD row.authorizationDetails
    enabled := patch.enabled.getD row.enabled
    ownerOrganizationId := patch.ownerOrganizationId.getD row.ownerOrganizationId
    visibility := patch.visibility.getD row.visibility
    availableToAgents := patch.availableToAgents.getD row.availableToAgents
    updatedAt := now }

structure ResourceDiscovery where
  name : String
  description : Option String
  scopeRegistry : ResourceScopeRegistry
  deriving DecidableEq

/-- What a consent becomes: fewer scopes, or none and revoked. -/
inductive ConsentChange where
  | scopes (scopes : List String)
  | revoked
  deriving DecidableEq

/-- What the reads before a batch selected, by the ids of the rows. -/
structure ResourceNarrowing where
  applications : List (String × List ApplicationResourceScopes)
  entitlementIds : List String
  roles : List (String × List String)
  consents : List (String × ConsentChange)
  deriving DecidableEq

/-- `{ ...permission, scope: scopes }`, where the key is there. -/
def withRoleScopes (permission : List (String × List String)) (scopes : List String) :
    List (String × List String) :=
  permission.map fun (key, values) => if key = "scope" then (key, scopes) else (key, values)

namespace Database

def findEquivalentEntitlement (input : ResourceScopeEntitlement) (db : Database) :
    Option ResourceScopeEntitlement :=
  db.resourceScopeEntitlements.find? (activeEquivalentEntitlement input)

/-- The first insert of `createScopeEntitlement`: a conflict is ignored. -/
def insertScopeEntitlement (row : ResourceScopeEntitlement) :
    Statement (Option ResourceScopeEntitlement) := fun db =>
  if db.conflicts row then .ok (none, db)
  else
    .ok (some row, { db with resourceScopeEntitlements := db.resourceScopeEntitlements ++ [row] })

/-- Ends the entitlements with the ids, whether or not they have ended. -/
def endAll (ids : List String) (reason : EndReason) (now : Time) (db : Database) : Database :=
  { db with
    resourceScopeEntitlements :=
      Table.updateWhere (fun row => ids.contains row.id) (·.end reason now)
        db.resourceScopeEntitlements }

/-- Its batch for an expired equivalent: the old row ends, and the new one is inserted. -/
def replaceExpiredEntitlement (id : String) (row : ResourceScopeEntitlement) (now : Time) :
    Statement Unit := fun db =>
  let db := endAll [id] .expired now db
  if db.conflicts row then
    .error (.constraint row.activeIndex)
  else
    .ok ((), { db with resourceScopeEntitlements := db.resourceScopeEntitlements ++ [row] })

/-- Its update of an equivalent that lasts: the row may have ended in between. -/
def renewEntitlement (renewal : EntitlementRenewal) :
    Statement (Option ResourceScopeEntitlement) := fun db =>
  let selects := fun row : ResourceScopeEntitlement => row.id = renewal.id
  let collides := fun row : ResourceScopeEntitlement =>
    selects row && db.resourceScopeEntitlements.any fun other =>
      other.id ≠ row.id && (renewal.apply row).sharesActiveKey other
  match db.resourceScopeEntitlements.find? collides with
  | some row => .error (.constraint row.activeIndex)
  | none =>
    .ok ((db.resourceScopeEntitlements.find? selects).map renewal.apply,
      { db with
        resourceScopeEntitlements :=
          Table.updateWhere selects renewal.apply db.resourceScopeEntitlements })

/-! ## Resources -/

/-- The Applications of a batch get their new resource scopes. -/
def setResourceScopes (changes : List (String × List ApplicationResourceScopes)) (now : Time)
    (rows : List Application) : List Application :=
  rows.map fun row =>
    match changes.lookup row.id with
    | some resourceScopes => { row with resourceScopes := resourceScopes, updatedAt := now }
    | none => row

/-- The organization roles of a batch get their new scopes. -/
def setRoleScopes (changes : List (String × List String)) (now : Time)
    (rows : List OrganizationRole) : List OrganizationRole :=
  rows.map fun row =>
    match changes.lookup row.id with
    | some scopes => { row with permission := withRoleScopes row.permission scopes, updatedAt := now }
    | none => row

/-- The consents of a batch are narrowed or revoked. -/
def setConsents (changes : List (String × ConsentChange)) (now : Time)
    (rows : List ApplicationConsent) : List ApplicationConsent :=
  rows.map fun row =>
    match changes.lookup row.id with
    | some (.scopes scopes) => { row with scopes := scopes }
    | some .revoked => { row with revokedAt := some now }
    | none => row

/-- The statements after the first one of a batch that changes a resource. -/
def narrow (narrowing : ResourceNarrowing) (now : Time) (db : Database) : Database :=
  endAll narrowing.entitlementIds .revoked now
    { db with
      applications := setResourceScopes narrowing.applications now db.applications
      organizationRoles := setRoleScopes narrowing.roles now db.organizationRoles
      applicationConsents := setConsents narrowing.consents now db.applicationConsents }

/-- A resource with the id that is not deleted. -/
def isUndeleted (id : String) (row : ApiResource) : Bool := row.id = id && row.deletedAt.isNone

/-- The identifier or the URL of the patch belongs to another resource that is not deleted. -/
def resourceKeyTaken (id : String) (patch : ResourcePatch) (db : Database) : Bool :=
  db.apiResources.any fun row =>
    row.id ≠ id && row.deletedAt.isNone &&
      (patch.identifier = some row.identifier || patch.resourceUrl = some row.resourceUrl)

def resourceKeyConflict : Error :=
  Error.conflict "An active Resource Server already uses this identifier or resource URL."

/-- The batch of `updateResource`, or its one statement with nothing to narrow. The answer
says whether the resource was there. -/
def updateResource (id : String) (patch : ResourcePatch) (narrowing : ResourceNarrowing)
    (now : Time) : Statement Bool := fun db =>
  if db.apiResources.any (isUndeleted id) && resourceKeyTaken id patch db then
    .error resourceKeyConflict
  else
    .ok (db.apiResources.any (isUndeleted id),
      narrow narrowing now
        { db with
          apiResources := Table.updateWhere (isUndeleted id) (patch.apply now) db.apiResources })

/-- The batch of `replaceResourceDiscovery`. -/
def replaceResourceDiscovery (id : String) (discovery : ResourceDiscovery)
    (narrowing : ResourceNarrowing) (now : Time) : Statement Unit := fun db =>
  .ok ((), narrow narrowing now
    { db with
      apiResources :=
        Table.updateWhere (isUndeleted id)
          (fun row => { row with
            name := discovery.name, description := discovery.description
            scopeRegistry := some discovery.scopeRegistry, updatedAt := now })
          db.apiResources })

/-- The scopes of a role that are not for the resource. -/
def roleScopesWithout (id : String) (scopes : List String) : List String :=
  let encodedRoleScopePrefix := (encodeURIComponent id ++ "/").toList
  scopes.filter fun value => !encodedRoleScopePrefix.isPrefixOf value.toList

/-- The configuration of a resource goes from Applications, roles, consents and
credentials, with the tokens under those credentials. -/
def removeConfiguration (id : String) (now : Time) (db : Database) : Database :=
  let credentialIds :=
    (db.federatedCredentials.filter fun row => row.audienceResourceId = id).map (·.id)
  { db with
    applicationConsents :=
      Table.updateWhere (fun row => row.resourceServerId = some id && row.revokedAt.isNone)
        (fun row => { row with revokedAt := some now }) db.applicationConsents
    applications :=
      Table.updateWhere
        (fun row => row.resourceScopes.any fun configuration => configuration.resourceServerId = id)
        (fun row => { row with
          resourceScopes := row.resourceScopes.filter fun configuration =>
            configuration.resourceServerId ≠ id
          updatedAt := now })
        db.applications
    organizationRoles :=
      Table.updateWhere
        (fun row =>
          let scopes := (row.permission.lookup "scope").getD []
          roleScopesWithout id scopes ≠ scopes)
        (fun row => { row with
          permission := withRoleScopes row.permission
            (roleScopesWithout id ((row.permission.lookup "scope").getD []))
          updatedAt := now })
        db.organizationRoles
    federatedCredentials :=
      Table.updateWhere (fun row => row.audienceResourceId = id && row.enabled)
        (fun row => { row with enabled := false, updatedAt := now }) db.federatedCredentials
    tokenExchangeAccessTokens :=
      Table.updateWhere
        (fun row => row.revokedAt.isNone && credentialIds.contains row.credentialId)
        (fun row => { row with revokedAt := some now }) db.tokenExchangeAccessTokens
    tokenExchangeRefreshTokens :=
      Table.updateWhere
        (fun row => row.revokedAt.isNone && credentialIds.contains row.credentialId)
        (·.revoke now) db.tokenExchangeRefreshTokens }

/-- The requests of a resource. -/
def requestIdsOf (id : String) (db : Database) : List String :=
  (db.agentAccessRequests.filter fun row => row.resourceId = id).map (·.id)

/-- Everything that was granted through a resource is withdrawn. -/
def withdrawGrants (id : String) (now : Time) (db : Database) : Database :=
  { db with
    providerResourceAuthorizations :=
      Table.updateWhere (fun row => row.resourceId = id && row.status = .active) (·.revoke now)
        db.providerResourceAuthorizations
    resourceConnectionIntents :=
      Table.updateWhere (fun row => row.resourceId = id && row.status = .pending)
        (fun row => { row with status := .cancelled, completedAt := some now, updatedAt := now })
        db.resourceConnectionIntents
    agentAccessRequests :=
      Table.updateWhere (fun row => row.resourceId = id && row.status = .pending)
        (fun row => { row with status := .denied, decidedAt := some now, updatedAt := now })
        db.agentAccessRequests
    resourceScopeEntitlements :=
      Table.updateWhere (fun row => row.resourceServerId = id && row.endedAt.isNone)
        (·.end .revoked now) db.resourceScopeEntitlements
    externalTokenLeases :=
      Table.updateWhere
        (fun row => row.revokedAt.isNone && (requestIdsOf id db).contains row.requestId)
        (fun row => { row with revokedAt := some now }) db.externalTokenLeases }

/-- The batch of `deleteResource`. -/
def deleteResource (id : String) (now : Time) (audit : AgentAuditEvent) : Statement Unit :=
  fun db =>
    let recorded := recordAudit { audit with resourceId := some id }
      (fun db => db.apiResources.any (isUndeleted id)) db
    .ok ((), removeConfiguration id now (withdrawGrants id now
      { recorded with
        apiResources :=
          Table.updateWhere (isUndeleted id)
            (fun row => { row with enabled := false, deletedAt := some now, updatedAt := now })
            recorded.apiResources }))

end Database
end Realmroot
