import Realmroot.Database
import Realmroot.Repos.Authorization

/-!
# The external-resource repository

Entitlements of agents, access requests, token leases and provider connections.
An approval and the issue of a lease are batches of guarded statements.
-/

namespace Realmroot

/-! ## Rows -/

namespace ExternalTokenLease

/-- Neither revoked nor expired at the given time. -/
def isActive (lease : ExternalTokenLease) (now : Time) : Bool :=
  now < lease.expiresAt && lease.revokedAt.isNone

end ExternalTokenLease

namespace ResourceScopeEntitlement

def «end» (reason : EndReason) (now : Time) (row : ResourceScopeEntitlement) :
    ResourceScopeEntitlement :=
  { row with endedAt := some now, endReason := some reason, updatedAt := now }

/-- The key under which `resourceScopeEntitlement_activeUser_unique` holds the row. -/
def activeUserKey (row : ResourceScopeEntitlement) :
    Option (String × String × String × String × String) :=
  if row.endedAt.isNone then
    row.userId.map fun user =>
      (user, row.organizationId.getD "", row.resourceServerId, row.authorizationContextHash,
        row.scope)
  else none

/-- The key under which `resourceScopeEntitlement_activeApplication_unique` holds the row. -/
def activeApplicationKey (row : ResourceScopeEntitlement) :
    Option (String × String × String × String) :=
  if row.endedAt.isNone then
    row.applicationId.map fun application =>
      (application, row.resourceServerId, row.authorizationContextHash, row.scope)
  else none

/-- The key under which `resourceScopeEntitlement_activeAgent_unique` holds the row. -/
def activeAgentKey (row : ResourceScopeEntitlement) :
    Option (String × String × String × String × String) :=
  if row.endedAt.isNone then
    row.agentIdentityId.map fun agent =>
      (agent, row.resourceServerId, row.connectionId.getD "", row.authorizationContextHash,
        row.scope)
  else none

/-- Both rows are in one of the unique indexes, under one key. -/
def sharesActiveKey (row other : ResourceScopeEntitlement) : Bool :=
  (row.activeUserKey.isSome && row.activeUserKey = other.activeUserKey) ||
    (row.activeApplicationKey.isSome && row.activeApplicationKey = other.activeApplicationKey) ||
      (row.activeAgentKey.isSome && row.activeAgentKey = other.activeAgentKey)

/-- The unique index that holds the active rows of the subject. -/
def activeIndex (row : ResourceScopeEntitlement) : String :=
  if row.userId.isSome then "resourceScopeEntitlement_activeUser_unique"
  else if row.applicationId.isSome then "resourceScopeEntitlement_activeApplication_unique"
  else "resourceScopeEntitlement_activeAgent_unique"

end ResourceScopeEntitlement

def ProviderResourceAuthorization.revoke (now : Time) (row : ProviderResourceAuthorization) :
    ProviderResourceAuthorization :=
  { row with status := .revoked, revokedAt := some now, updatedAt := now }

/-- The stored credential of an authorization, with the values of a new one. -/
def ProviderCredential.replaces (input row : ProviderCredential) : ProviderCredential :=
  { row with
    encryptedTokens := input.encryptedTokens, grantedScopes := input.grantedScopes
    authorizationDetails := input.authorizationDetails
    clientGeneration := input.clientGeneration, credentialVersion := input.credentialVersion
    refreshClaimId := none, refreshClaimExpiresAt := none, status := .active
    credentialExpiresAt := input.credentialExpiresAt, revokedAt := none
    updatedAt := input.updatedAt }

/-- What an approval changes on an entitlement that the agent already has. -/
structure EntitlementUpdate where
  id : String
  mode : EntitlementMode
  expiresAt : Option Time
  authorizationContextHash : String
  updatedAt : Time
  deriving DecidableEq

namespace EntitlementUpdate

/-- An update selects the row with its id if it has not ended. -/
def selects (update : EntitlementUpdate) (row : ResourceScopeEntitlement) : Bool :=
  row.id = update.id && row.endedAt.isNone

def apply (update : EntitlementUpdate) (row : ResourceScopeEntitlement) :
    ResourceScopeEntitlement :=
  { row with
    mode := update.mode, expiresAt := update.expiresAt
    authorizationContextHash := update.authorizationContextHash, updatedAt := update.updatedAt }

end EntitlementUpdate

inductive AccessRequestDecision where
  | denied (decidedAt : Time)
  | approved (approvedEntitlements : List ApprovedEntitlement) (connectionId : Option String)
      (authorizationDetails : List AuthorizationDetail) (decidedAt : Time)
  deriving DecidableEq

namespace AccessRequestDecision

/-- `.set(input)`. -/
def apply (decision : AccessRequestDecision) (row : AgentAccessRequest) : AgentAccessRequest :=
  match decision with
  | denied decidedAt =>
    { row with
      status := .denied, approvedEntitlements := [], decidedAt := some decidedAt
      updatedAt := decidedAt }
  | approved approvedEntitlements connectionId authorizationDetails decidedAt =>
    { row with
      status := .approved, approvedEntitlements := approvedEntitlements
      connectionId := connectionId, authorizationDetails := authorizationDetails
      decidedAt := some decidedAt, updatedAt := decidedAt }

end AccessRequestDecision

structure TokenLeaseAuthorizationBoundary where
  agentIdentityId : String
  resourceServerId : String
  connectionId : Option String
  authorizationContextHash : String
  scopes : List String
  deriving DecidableEq

/-- The part of a new credential that replaces what an old one holds. -/
structure ProviderCredentialRefresh where
  encryptedTokens : String
  credentialExpiresAt : Option Time
  expectedVersion : ℕ
  claimId : String
  updatedAt : Time
  deriving DecidableEq

structure ProviderCredentialClaim where
  id : String
  expectedVersion : ℕ
  claimId : String
  now : Time
  claimExpiresAt : Time
  deriving DecidableEq

/-- A connection as the use cases see it. -/
structure ProviderResourceAuthorizationRecord where
  id : String
  providerConnectionId : String
  resourceId : String
  status : ConnectionStatus
  ownerUserId : Option String
  ownerOrganizationId : Option String
  externalSubject : String
  displayName : String
  credentials : List ProviderCredential
  grantedScopes : List String
  authorizationDetails : List AuthorizationDetail
  createdAt : Time
  updatedAt : Time
  deriving DecidableEq

/-- `toProviderResourceAuthorization`, once the credentials are read. -/
def toProviderResourceAuthorization (authorization : ProviderResourceAuthorization)
    (connection : ProviderConnection) (credentials : List ProviderCredential) :
    ProviderResourceAuthorizationRecord :=
  let active := credentials.filter fun credential => credential.status = .active
  { id := authorization.id
    providerConnectionId := authorization.providerConnectionId
    resourceId := authorization.resourceId
    status := authorization.status
    ownerUserId := connection.ownerUserId
    ownerOrganizationId := connection.ownerOrganizationId
    externalSubject := connection.externalSubject
    displayName := connection.displayName
    credentials := credentials
    grantedScopes := sortStrings (unique (active.flatMap (·.grantedScopes)))
    authorizationDetails := unique (active.flatMap (·.authorizationDetails))
    createdAt := authorization.createdAt
    updatedAt := authorization.updatedAt }

namespace Database

/-! ## Queries -/

section Queries

variable (db : Database)

def findAccessRequest (id : String) : Option AgentAccessRequest :=
  db.agentAccessRequests.find? fun row => row.id = id

def findEntitlement (id : String) : Option ResourceScopeEntitlement :=
  db.resourceScopeEntitlements.find? fun row => row.id = id

/-- The first to be created first. -/
def listActiveEntitlementsByAgent (agentIdentityId : String) (now : Time) :
    List ResourceScopeEntitlement :=
  (db.resourceScopeEntitlements.filter fun row =>
    row.agentIdentityId = some agentIdentityId && row.isActive now).insertionSort
      fun a b => a.createdAt ≤ b.createdAt

def listActiveEntitlementsByConnection (connectionId : String) (now : Time) :
    List ResourceScopeEntitlement :=
  (db.resourceScopeEntitlements.filter fun row =>
    row.connectionId = some connectionId && row.isActive now).insertionSort
      fun a b => a.createdAt ≤ b.createdAt

def listActiveTokenLeasesByEntitlement (entitlementId : String) (now : Time) :
    List ExternalTokenLease :=
  db.externalTokenLeases.filter fun row =>
    row.entitlementIds.contains entitlementId && row.isActive now

def listActiveTokenLeasesByBinding (bindingId : String) (now : Time) : List ExternalTokenLease :=
  db.externalTokenLeases.filter fun row => row.bindingId = bindingId && row.isActive now

def findActiveTokenLeaseByTokenHash (tokenHash : String) (now : Time) :
    Option ExternalTokenLease :=
  db.externalTokenLeases.find? fun row => row.tokenHash = tokenHash && row.isActive now

/-- The provider connection of an authorization. -/
def connectionOf (authorization : ProviderResourceAuthorization) :
    Option (ProviderResourceAuthorization × ProviderConnection) :=
  (db.providerConnections.find? fun row => row.id = authorization.providerConnectionId).map
    (authorization, ·)

def findAuthorizationRow (id : String) :
    Option (ProviderResourceAuthorization × ProviderConnection) :=
  (db.providerResourceAuthorizations.find? fun row => row.id = id).bind db.connectionOf

/-- The condition on the owner of a provider connection: an organization, or a user. -/
def ownedBy (ownerUserId ownerOrganizationId : Option String) (row : ProviderConnection) : Bool :=
  match truthy ownerOrganizationId with
  | some organizationId => row.ownerOrganizationId = some organizationId
  | none => row.ownerUserId.isSome && row.ownerUserId = ownerUserId

def findAuthorizationRowByOwner (resourceId : String)
    (ownerUserId ownerOrganizationId : Option String) :
    Option (ProviderResourceAuthorization × ProviderConnection) :=
  db.providerResourceAuthorizations.findSome? fun row =>
    if row.resourceId = resourceId then
      (db.connectionOf row).filter fun (_, connection) =>
        ownedBy ownerUserId ownerOrganizationId connection
    else none

def findAuthorizationRowByProvider (providerConnectionId resourceId : String) :
    Option (ProviderResourceAuthorization × ProviderConnection) :=
  (db.providerResourceAuthorizations.find? fun row =>
    row.providerConnectionId = providerConnectionId && row.resourceId = resourceId).bind
      db.connectionOf

def listCredentials (authorizationId : String) : List ProviderCredential :=
  (db.providerCredentials.filter fun row =>
    row.providerResourceAuthorizationId = authorizationId).insertionSort
      fun a b => a.createdAt ≤ b.createdAt

def findActiveUserProviderConnectionByProviderSubject (providerId externalSubject : String) :
    Option ProviderConnection :=
  db.providerConnections.find? fun row =>
    row.externalSubject = externalSubject && row.status = .active && row.ownerUserId.isSome &&
      db.identityProviderConnectors.any fun connector =>
        connector.id = row.connectorId && connector.providerId = providerId

def findProviderConnectionByOwnerConnector (connectorId : String)
    (ownerUserId ownerOrganizationId : Option String) : Option ProviderConnection :=
  db.providerConnections.find? fun row =>
    row.connectorId = connectorId && ownedBy ownerUserId ownerOrganizationId row

def findConnector (id : String) : Option IdentityProviderConnector :=
  db.identityProviderConnectors.find? fun row => row.id = id

/-- The authorization is active; `revokeConnection` looks for it first. -/
def hasActiveAuthorization (id : String) : Bool :=
  db.providerResourceAuthorizations.any fun row => row.id = id && row.status = .active

/-- `activeResource`. -/
def hasActiveResource (id : String) : Bool :=
  db.apiResources.any fun row => row.id = id && row.enabled && row.deletedAt.isNone

end Queries

/-! ## Access requests -/

section Requests

variable (audit : AgentAuditEvent)

/-- An audit event that a batch records when a condition holds. -/
def recordAudit (condition : Database → Bool) (db : Database) : Database :=
  if condition db then { db with agentAuditEvents := db.agentAuditEvents ++ [audit] } else db

/-- `insertAccessRequest`: the row, if its resource is active. -/
def createAccessRequest (row : AgentAccessRequest) : Statement (Option AgentAccessRequest) :=
  fun db =>
    if db.hasActiveResource row.resourceId then
      if db.agentAccessRequests.any fun old => old.id = row.id then
        .error (.constraint "agent_access_request.id")
      else
        .ok (some row, { db with agentAccessRequests := db.agentAccessRequests ++ [row] })
    else .ok (none, db)

/-- An approved entitlement is there, is not ended, and fits the request. A null agent is
not compared. -/
def approvedEntitlementFits (db : Database) (request : AgentAccessRequest)
    (connectionId : Option String) (approved : ApprovedEntitlement) : Bool :=
  (db.findEntitlement approved.entitlementId).any fun entitlement =>
    entitlement.agentIdentityId.all (· = request.agentIdentityId) &&
      entitlement.resourceServerId = request.resourceId &&
      entitlement.connectionId = connectionId && entitlement.scope = approved.scope &&
      entitlement.endedAt.isNone

/-- The conditions of `updateAccessRequestDecision` on the request. -/
def mayDecide (db : Database) (id : String) (decision : AccessRequestDecision)
    (request : AgentAccessRequest) : Bool :=
  request.id = id && request.status = .pending &&
    match decision with
    | .denied _ => true
    | .approved approvedEntitlements connectionId _ _ =>
      db.hasActiveResource request.resourceId &&
        approvedEntitlements.length = request.scopes.length &&
        approvedEntitlements.all (db.approvedEntitlementFits request connectionId)

/-- `updateAccessRequestDecision`. -/
def updateAccessRequestDecision (id : String) (decision : AccessRequestDecision) (db : Database) :
    Option AgentAccessRequest × Database :=
  ((db.agentAccessRequests.find? (db.mayDecide id decision)).map decision.apply,
    { db with
      agentAccessRequests :=
        Table.updateWhere (db.mayDecide id decision) decision.apply db.agentAccessRequests })

def isPending (id : String) (db : Database) : Bool :=
  db.agentAccessRequests.any fun row => row.id = id && row.status = .pending

def isApproved (id : String) (db : Database) : Bool :=
  db.agentAccessRequests.any fun row => row.id = id && row.status = .approved

def decideAccessRequestWithAudit (id : String) (decision : AccessRequestDecision) :
    Statement (Option AgentAccessRequest) := fun db =>
  .ok (updateAccessRequestDecision id decision (recordAudit audit (isPending id) db))

/-! ## Approvals -/

/-- The condition under which `insertEntitlement` finds a source row. -/
def canGrant (db : Database) (input : ResourceScopeEntitlement) (requestId : String) : Bool :=
  db.hasActiveResource input.resourceServerId &&
    db.agentAccessRequests.any (fun request =>
      request.id = requestId && request.resourceId = input.resourceServerId &&
        some request.agentIdentityId = input.agentIdentityId && request.status = .pending) &&
    (truthy input.connectionId).all db.hasActiveAuthorization

/-- The row that `insertEntitlement` selects. -/
def grantedRow (input : ResourceScopeEntitlement) (requestId : String) :
    ResourceScopeEntitlement :=
  { input with
    userId := none, applicationId := none, organizationId := none
    sourceAccessRequestId := some requestId, endedAt := none, endReason := none }

/-- The row's id, or its key among the active rows, is taken. -/
def conflicts (db : Database) (row : ResourceScopeEntitlement) : Bool :=
  db.resourceScopeEntitlements.any fun old => old.id = row.id || row.sharesActiveKey old

/-- `insertEntitlement`: a conflict is ignored. -/
def insertEntitlement (requestId : String) (db : Database) (input : ResourceScopeEntitlement) :
    Option ResourceScopeEntitlement × Database :=
  let row := grantedRow input requestId
  if db.canGrant input requestId && !db.conflicts row then
    (some row, { db with resourceScopeEntitlements := db.resourceScopeEntitlements ++ [row] })
  else (none, db)

/-- The inserts of an approval. -/
def insertEntitlements (requestId : String) :
    List ResourceScopeEntitlement → Database → List ResourceScopeEntitlement × Database
  | [], db => ([], db)
  | input :: inputs, db =>
    let (inserted, db) := insertEntitlement requestId db input
    let (rows, db) := insertEntitlements requestId inputs db
    (inserted.toList ++ rows, db)

/-- An update of an approval; the answer is the number of rows. It is refused when it would
put two active rows under one key. -/
def updateEntitlement (update : EntitlementUpdate) : Statement ℕ := fun db =>
  if db.resourceScopeEntitlements.any fun row =>
      update.selects row &&
        db.resourceScopeEntitlements.any fun other =>
          other.id ≠ row.id && (update.apply row).sharesActiveKey other then
    .error (.constraint "resourceScopeEntitlement_activeAgent_unique")
  else
    .ok ((db.resourceScopeEntitlements.filter update.selects).length,
      { db with
        resourceScopeEntitlements :=
          Table.updateWhere update.selects update.apply
            db.resourceScopeEntitlements })

/-- The updates of an approval. -/
def updateEntitlements : List EntitlementUpdate → Statement (List ℕ)
  | [], db => .ok ([], db)
  | update :: updates, db => do
    let (count, db) ← updateEntitlement update db
    let (counts, db) ← updateEntitlements updates db
    .ok (count :: counts, db)

end Requests

end Database

inductive ApprovalOutcome where
  | entitlementsChanged
  | resourceUnavailable
  | requestChanged
  | approved (entitlements : List ResourceScopeEntitlement) (request : AgentAccessRequest)
  deriving DecidableEq

/-- What `approveAccessRequestWithEntitlements` is given. -/
structure Approval where
  entitlements : List ResourceScopeEntitlement
  entitlementUpdates : List EntitlementUpdate
  requestId : String
  decision : AccessRequestDecision
  audit : AgentAuditEvent
  deriving DecidableEq

namespace Database

/-- `approveAccessRequestWithEntitlements`: one batch, and how its answers are read. -/
def approveAccessRequestWithEntitlements (approval : Approval) : Statement ApprovalOutcome :=
  fun db => do
    let (inserted, db) := insertEntitlements approval.requestId approval.entitlements db
    let (counts, db) ← updateEntitlements approval.entitlementUpdates db
    let (request, db) := updateAccessRequestDecision approval.requestId approval.decision db
    let db := recordAudit approval.audit (isApproved approval.requestId) db
    if inserted.length ≠ approval.entitlements.length then .ok (.entitlementsChanged, db)
    else if counts.any (· ≠ 1) then .ok (.resourceUnavailable, db)
    else
      match request with
      | none => .ok (.requestChanged, db)
      | some request => .ok (.approved inserted request, db)

/-! ## Ends of entitlements -/

/-- An entitlement with the id that has not ended. -/
def isOpen (id : String) (db : Database) : Bool :=
  db.resourceScopeEntitlements.any fun row => row.id = id && row.endedAt.isNone

/-- Ends the entitlements with the ids that have not ended. -/
def endOpen (ids : List String) (reason : EndReason) (now : Time) (db : Database) : Database :=
  { db with
    resourceScopeEntitlements :=
      Table.updateWhere (fun row => ids.contains row.id && row.endedAt.isNone) (·.end reason now)
        db.resourceScopeEntitlements }

def endEntitlement (id : String) (reason : EndReason) (now : Time) : Statement Bool := fun db =>
  .ok (isOpen id db, endOpen [id] reason now db)

/-- Revokes the leases with the ids that are not revoked. -/
def revokeLeases (ids : List String) (now : Time) (db : Database) : Database :=
  { db with
    externalTokenLeases :=
      Table.updateWhere (fun row => ids.contains row.id && row.revokedAt.isNone)
        (fun row => { row with revokedAt := some now }) db.externalTokenLeases }

def endEntitlementWithAudit (id : String) (reason : EndReason) (tokenLeaseIds : List String)
    (now : Time) (audit : AgentAuditEvent) : Statement Bool := fun db =>
  let recorded := recordAudit audit (isOpen id) db
  .ok (isOpen id db, revokeLeases tokenLeaseIds now (endOpen [id] reason now recorded))

/-! ## Token leases -/

/-- A supplied entitlement is there, not ended, not expired when the lease was made, and
within the boundary. A null agent is not compared. -/
def suppliedEntitlementFits (db : Database) (boundary : TokenLeaseAuthorizationBoundary)
    (createdAt : Time) (id : String) : Bool :=
  (db.findEntitlement id).any fun entitlement =>
    entitlement.agentIdentityId.all (· = boundary.agentIdentityId) &&
      entitlement.resourceServerId = boundary.resourceServerId &&
      entitlement.connectionId = boundary.connectionId &&
      entitlement.authorizationContextHash = boundary.authorizationContextHash &&
      entitlement.endedAt.isNone && entitlement.expiresAt.all (createdAt < ·) &&
      boundary.scopes.contains entitlement.scope

/-- Some supplied entitlement is for the scope. -/
def suppliedScope (db : Database) (entitlementIds : List String) (scope : String) : Bool :=
  entitlementIds.any fun id => (db.findEntitlement id).any fun entitlement =>
    entitlement.scope = scope

/-- The conditions of `insertTokenLease` on the request of the lease. -/
def canIssue (db : Database) (lease : ExternalTokenLease)
    (boundary : TokenLeaseAuthorizationBoundary) (request : AgentAccessRequest) : Bool :=
  request.id = lease.requestId && (request.status = .approved || request.status = .consumed) &&
    request.agentIdentityId = boundary.agentIdentityId &&
    request.resourceId = boundary.resourceServerId &&
    request.connectionId = boundary.connectionId &&
    lease.entitlementIds.length = boundary.scopes.length &&
    lease.entitlementIds.all (db.suppliedEntitlementFits boundary lease.createdAt) &&
    boundary.scopes.all (db.suppliedScope lease.entitlementIds) &&
    request.connectionId.all db.hasActiveAuthorization &&
    db.hasActiveResource request.resourceId

/-- `insertTokenLease`, with its primary key and the unique hash. -/
def insertTokenLease (lease : ExternalTokenLease) (boundary : TokenLeaseAuthorizationBoundary) :
    Statement (Option ExternalTokenLease) := fun db =>
  if db.agentAccessRequests.any (db.canIssue lease boundary) then
    if db.externalTokenLeases.any fun old => old.id = lease.id then
      .error (.constraint "external_token_lease.id")
    else if db.externalTokenLeases.any fun old => old.tokenHash = lease.tokenHash then
      .error (.constraint "external_token_lease.token_hash")
    else .ok (some lease, { db with externalTokenLeases := db.externalTokenLeases ++ [lease] })
  else .ok (none, db)

def hasLease (id : String) (db : Database) : Bool :=
  db.externalTokenLeases.any fun row => row.id = id

/-- An approved request is consumed. -/
def consumeRequest (id : String) (now : Time) (db : Database) : Database :=
  { db with
    agentAccessRequests :=
      Table.updateWhere (fun row => row.id = id && row.status = .approved)
        (fun row => { row with status := .consumed, updatedAt := now }) db.agentAccessRequests }

/-- The statements of `issueTokenLeaseWithAudit` after the insert: each of them looks for the
lease. -/
def spendLease (lease : ExternalTokenLease) (consumeEntitlementIds : List String) (now : Time)
    (audit : AgentAuditEvent) (db : Database) : Database :=
  if hasLease lease.id db then
    recordAudit audit (hasLease lease.id)
      (endOpen consumeEntitlementIds .consumed now (consumeRequest lease.requestId now db))
  else db

def issueTokenLeaseWithAudit (lease : ExternalTokenLease)
    (boundary : TokenLeaseAuthorizationBoundary) (consumeEntitlementIds : List String)
    (now : Time) (audit : AgentAuditEvent) : Statement (Option ExternalTokenLease) := fun db => do
  let (inserted, db) ← insertTokenLease lease boundary db
  .ok (inserted, spendLease lease consumeEntitlementIds now audit db)

def revokeTokenLease (id : String) (now : Time) : Statement Bool := fun db =>
  let selects := fun row : ExternalTokenLease => row.id = id && now < row.expiresAt
  .ok (db.externalTokenLeases.any selects,
    { db with
      externalTokenLeases :=
        Table.updateWhere selects (fun row => { row with revokedAt := some now })
          db.externalTokenLeases })

/-! ## Provider credentials -/

/-- The claim on a refresh is free, or has expired. -/
def refreshUnclaimed (now : Time) (row : ProviderCredential) : Bool :=
  row.refreshClaimId.isNone || row.refreshClaimExpiresAt.all (· ≤ now)

def claimProviderCredentialRefresh (claim : ProviderCredentialClaim) : Statement Bool := fun db =>
  let selects := fun row : ProviderCredential =>
    row.id = claim.id && row.status = .active && row.credentialVersion = claim.expectedVersion &&
      refreshUnclaimed claim.now row
  .ok (db.providerCredentials.any selects,
    { db with
      providerCredentials :=
        Table.updateWhere selects
          (fun row => { row with
            refreshClaimId := some claim.claimId, refreshClaimExpiresAt := some claim.claimExpiresAt
            updatedAt := claim.now })
          db.providerCredentials })

/-- The credential is active, at the version, and claimed under the id. -/
def claimed (id : String) (expectedVersion : ℕ) (claimId : String) (row : ProviderCredential) :
    Bool :=
  row.id = id && row.status = .active && row.credentialVersion = expectedVersion &&
    row.refreshClaimId = some claimId

def completeProviderCredentialRefresh (id : String) (input : ProviderCredentialRefresh) :
    Statement Bool := fun db =>
  let selects := claimed id input.expectedVersion input.claimId
  .ok (db.providerCredentials.any selects,
    { db with
      providerCredentials :=
        Table.updateWhere selects
          (fun row => { row with
            encryptedTokens := input.encryptedTokens
            credentialExpiresAt := input.credentialExpiresAt
            credentialVersion := input.expectedVersion + 1, refreshClaimId := none
            refreshClaimExpiresAt := none, updatedAt := input.updatedAt })
          db.providerCredentials })

def releaseProviderCredentialRefresh (id : String) (expectedVersion : ℕ) (claimId : String)
    (now : Time) : Statement Bool := fun db =>
  let selects := claimed id expectedVersion claimId
  .ok (db.providerCredentials.any selects,
    { db with
      providerCredentials :=
        Table.updateWhere selects
          (fun row => { row with
            refreshClaimId := none, refreshClaimExpiresAt := none, updatedAt := now })
          db.providerCredentials })

/-- The first statement of `revokeProviderCredential`: the credential, if it is active. The
answer names its authorization. -/
def revokeActiveCredential (id : String) (now : Time) : Statement (Option String) := fun db =>
  let selects := fun row : ProviderCredential => row.id = id && row.status = .active
  .ok ((db.providerCredentials.find? selects).map (·.providerResourceAuthorizationId),
    { db with
      providerCredentials :=
        Table.updateWhere selects
          (fun row => { row with
            status := .revoked, revokedAt := some now, refreshClaimId := none
            refreshClaimExpiresAt := none, updatedAt := now })
          db.providerCredentials })

/-! ## Connections -/

/-- Some credential of the authorization is active. -/
def hasActiveCredential (authorizationId : String) (db : Database) : Bool :=
  db.providerCredentials.any fun row =>
    row.providerResourceAuthorizationId = authorizationId && row.status = .active

/-- The second statement: the authorization, if none of its credentials is active. -/
def revokeUncredentialedAuthorization (authorizationId : String) (now : Time) : Statement Unit :=
  fun db =>
    .ok ((), { db with
      providerResourceAuthorizations :=
        Table.updateWhere
          (fun row => row.id = authorizationId && !hasActiveCredential authorizationId db)
          (·.revoke now) db.providerResourceAuthorizations })

/-- The batch of `revokeConnection`. -/
def revokeConnection (id : String) (now : Time) : Statement Unit := fun db =>
  .ok ((), { db with
    providerResourceAuthorizations :=
      Table.updateWhere (fun row => row.id = id) (·.revoke now)
        db.providerResourceAuthorizations
    providerCredentials :=
      Table.updateWhere (fun row => row.providerResourceAuthorizationId = id)
        (fun row => { row with status := .revoked, revokedAt := some now, updatedAt := now })
        db.providerCredentials })

/-- The active authorizations of the resources of a connector, as
`revokeResourceAuthorizationsByConnector` reads them. -/
def activeAuthorizationIdsByConnector (connectorId : String) (db : Database) : List String :=
  (db.providerResourceAuthorizations.filter fun row =>
    row.status = .active && db.apiResources.any fun resource =>
      resource.id = row.resourceId && resource.connectorId = some connectorId).map (·.id)

/-- Its batch. Entitlements of two connections may come to share a key. -/
def revokeAuthorizations (authorizationIds : List String) (now : Time) : Statement Unit :=
  fun db =>
    let detached := fun row : ResourceScopeEntitlement => row.connectionId.any authorizationIds.contains
    let detach := fun row : ResourceScopeEntitlement =>
      { row with connectionId := none, updatedAt := now }
    let rows := Table.updateWhere detached detach db.resourceScopeEntitlements
    if db.resourceScopeEntitlements.any fun row => detached row &&
        rows.any fun other => other.id ≠ row.id && (detach row).sharesActiveKey other then
      .error (.constraint "resourceScopeEntitlement_activeAgent_unique")
    else
      .ok ((), { db with
        agentAccessRequests :=
          Table.updateWhere (fun row => row.connectionId.any authorizationIds.contains)
            (fun row => { row with connectionId := none, updatedAt := now }) db.agentAccessRequests
        resourceScopeEntitlements := rows
        providerCredentials :=
          Table.updateWhere
            (fun row => authorizationIds.contains row.providerResourceAuthorizationId)
            (fun row => { row with
              status := .revoked, revokedAt := some now, refreshClaimId := none
              refreshClaimExpiresAt := none, updatedAt := now })
            db.providerCredentials
        providerResourceAuthorizations :=
          Table.updateWhere (fun row => authorizationIds.contains row.id) (·.revoke now)
            db.providerResourceAuthorizations })

/-- The intent, if its resource is active. -/
def createConnectionIntent (row : ResourceConnectionIntent) :
    Statement (Option ResourceConnectionIntent) := fun db =>
  if !db.hasActiveResource row.resourceId then .ok (none, db)
  else if db.resourceConnectionIntents.any fun old =>
      old.id = row.id || old.stateHash = row.stateHash then
    .error (.constraint "resource_connection_intent.state_hash")
  else
    .ok (some row,
      { db with resourceConnectionIntents := db.resourceConnectionIntents ++ [row] })

def consumeConnectionIntent (stateHash : String) (now : Time) :
    Statement (Option ResourceConnectionIntent) := fun db =>
  let selects := fun row : ResourceConnectionIntent =>
    row.stateHash = stateHash && row.status = .pending && now < row.expiresAt
  let completes := fun row : ResourceConnectionIntent =>
    { row with status := .completed, completedAt := some now, updatedAt := now }
  .ok ((db.resourceConnectionIntents.find? selects).map completes,
    { db with
      resourceConnectionIntents :=
        Table.updateWhere selects completes db.resourceConnectionIntents })

/-- Equal values of a unique column; nulls are not compared. -/
def sameValue (a b : Option String) : Bool := a.isSome && a = b

/-- The first statement of `upsertProviderConnection`: a conflict is ignored, and a connection
has exactly one owner. -/
def insertProviderConnection (row : ProviderConnection) : Statement (Option ProviderConnection) :=
  fun db =>
    if row.ownerUserId.isSome = row.ownerOrganizationId.isSome then
      .error (.constraint "providerConnection_exactly_one_owner_check")
    else if db.providerConnections.any fun old =>
        old.id = row.id ||
          (old.connectorId = row.connectorId &&
            (sameValue old.ownerUserId row.ownerUserId ||
              sameValue old.ownerOrganizationId row.ownerOrganizationId)) ||
          sameValue old.authenticationAccountId row.authenticationAccountId then
      .ok (none, db)
    else .ok (some row, { db with providerConnections := db.providerConnections ++ [row] })

/-- The second statement: the connection of the owner with the connector. -/
def updateProviderConnection (input : ProviderConnection) :
    Statement (Option ProviderConnection) := fun db =>
  let selects := fun row : ProviderConnection =>
    row.connectorId = input.connectorId &&
      ownedBy input.ownerUserId input.ownerOrganizationId row
  let sets := fun row : ProviderConnection =>
    { row with
      authenticationAccountId := input.authenticationAccountId
      externalSubject := input.externalSubject, displayName := input.displayName
      status := input.status, updatedAt := input.updatedAt }
  .ok ((db.providerConnections.find? selects).map sets,
    { db with
      providerConnections := Table.updateWhere selects sets db.providerConnections })

/-- The authorization, with an active resource; `upsertProviderCredential` looks for it
first. -/
def hasAuthorizationOfActiveResource (id : String) (db : Database) : Bool :=
  db.providerResourceAuthorizations.any fun row =>
    row.id = id && db.hasActiveResource row.resourceId

/-- A new credential, or the stored one of its authorization with new values. -/
def storeCredential (input : ProviderCredential) : Statement Unit := fun db =>
  let selects := fun row : ProviderCredential =>
    row.providerResourceAuthorizationId = input.providerResourceAuthorizationId
  if db.providerCredentials.any selects then
    .ok ((), { db with
      providerCredentials :=
        Table.updateWhere selects input.replaces db.providerCredentials })
  else if db.providerCredentials.any fun row => row.id = input.id then
    .error (.constraint "provider_credential.id")
  else .ok ((), { db with providerCredentials := db.providerCredentials ++ [input] })

/-- The batch of `upsertProviderCredential`: the authorization becomes active again. -/
def upsertProviderCredential (authorizationId : String) (input : ProviderCredential) :
    Statement Unit := fun db =>
  storeCredential { input with providerResourceAuthorizationId := authorizationId }
    { db with
      providerResourceAuthorizations :=
        Table.updateWhere (fun row => row.id = authorizationId)
          (fun row => { row with
            status := .active, revokedAt := none, updatedAt := input.updatedAt })
          db.providerResourceAuthorizations }

/-- The first insert of `createResourceAuthorization`. A credential without its
authorization is refused, so nothing is stored for a resource that is not active. -/
def insertAuthorization (row : ProviderResourceAuthorization) : Statement Unit := fun db =>
  if !db.hasActiveResource row.resourceId then
    .error (.constraint "provider_credential.provider_resource_authorization_id")
  else if db.providerResourceAuthorizations.any fun old => old.id = row.id then
    .error (.constraint "provider_resource_authorization.id")
  else if db.providerResourceAuthorizations.any fun old =>
      old.providerConnectionId = row.providerConnectionId && old.resourceId = row.resourceId then
    .error (.constraint "providerResourceAuthorization_connection_resource_unique")
  else
    .ok ((), { db with
      providerResourceAuthorizations := db.providerResourceAuthorizations ++ [row] })

/-- The second one. -/
def insertCredential (row : ProviderCredential) : Statement Unit := fun db =>
  if db.providerCredentials.any fun old => old.id = row.id then
    .error (.constraint "provider_credential.id")
  else if db.providerCredentials.any fun old =>
      old.providerResourceAuthorizationId = row.providerResourceAuthorizationId then
    .error (.constraint "providerCredential_authorization_unique")
  else .ok ((), { db with providerCredentials := db.providerCredentials ++ [row] })

/-- The batch of `createResourceAuthorization`. -/
def createResourceAuthorization (row : ProviderResourceAuthorization)
    (credential : ProviderCredential) : Statement Unit := fun db => do
  let ((), db) ← insertAuthorization row db
  insertCredential credential db

end Database
end Realmroot
