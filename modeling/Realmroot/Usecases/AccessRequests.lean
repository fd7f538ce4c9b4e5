import Realmroot.Usecases.NativeAuthority
import Realmroot.Usecases.Permissions
import Realmroot.Usecases.ResourceCatalog

/-!
# Access requests

The decision of a controller on the access request of an agent. An approval is checked
against the target, planned scope by scope from the entitlements that the agent already has,
and then written as one batch.
-/

namespace Realmroot

open AtomicProgram Error

/-! ## Agents -/

/-- `findIdentity`: the bindings are read by a statement of their own. -/
def findIdentity (id : String) : Request (Option (AgentIdentity × List AgentIdentityBinding)) := do
  let found ← query (·.findAgentIdentity id)
  match found with
  | none => .pure none
  | some identity => do
    let bindings ← query (·.listAgentIdentityBindings identity.id)
    pure (some (identity, bindings))

/-- `controlsAgentIdentity`. -/
def controlsAgentIdentity (identityId actorUserId : String) : Request Bool := do
  let found ← findIdentity identityId
  pure (found.any fun (identity, _) => identity.ownerUserId = actorUserId)

/-- `requestHostId`. -/
def requestHostId (request : AgentAccessRequest) : Request String := do
  let found ← findIdentity request.agentIdentityId
  let bindings := (found.map (·.2)).getD []
  let binding ← orThrow (notFound "Agent host binding was not found.")
    (bindings.find? fun candidate => candidate.id = request.bindingId)
  pure binding.hostId

/-- `activeIdentityOrganizationIds`. -/
def activeIdentityOrganizationIds (ownerUserId : String) : Request (List String) := do
  let memberships ← query (·.listUserMemberships ownerUserId)
  let candidateIds := unique (memberships.map (·.organizationId))
  let organizations ← Program.mapEach candidateIds fun id => query (·.findOrganization id)
  pure (organizations.filterMap fun organization =>
    (organization.filter fun organization => !organization.disabled).map (·.id))

/-- `activeResourceVisibleToAgent`. -/
def activeResourceVisibleToAgent (resource : ApiResource) (organizationIds : List String) : Bool :=
  resource.activePublic || organizationIds.any resource.activeVisibleToOrganization

/-- `requireAgentResourceVisibility`. -/
def requireAgentResourceVisibility (resource : ApiResource) (ownerUserId : String) :
    Request Unit := do
  let organizationIds ← activeIdentityOrganizationIds ownerUserId
  throwIf (resource.availableToAgents = false ∨
      activeResourceVisibleToAgent resource organizationIds = false)
    (forbidden "Resource Server is not visible to this Agent.")

/-! ## Native contexts -/

def nativeAuthority (authority id : String) : AuthorizationDetail :=
  [("type", .str "realmroot_authority"), ("authority", .str authority), ("id", .str id)]

/-- `nativeAuthorityDetails`: the owner of the agent, and each organization of the owner. -/
def nativeAuthorityDetails (ownerUserId : String) : Request (List AuthorizationDetail) := do
  let organizationIds ← activeIdentityOrganizationIds ownerUserId
  pure (nativeAuthority "user" ownerUserId ::
    (sortStrings organizationIds).map (nativeAuthority "organization"))

/-- `requireCurrentNativeAuthorityContext`. -/
def requireCurrentNativeAuthorityContext [Platform] (ownerUserId : String)
    (authorizationDetails : List AuthorizationDetail) : Request Unit := do
  ofResult (assertNativeAuthoritySelection authorizationDetails)
  let available ← nativeAuthorityDetails ownerUserId
  throwIf ((available.any fun candidate =>
      exactAuthorizationDetails [candidate] (authorizationDetails.take 1)) = false)
    (forbidden "Selected Realmroot authority Context is no longer available.")

/-- `validateRequestedScopes` and `validateResourceRequestedScopes`. -/
def validateResourceRequestedScopes (resource : ApiResource) (scopes : List String) :
    Except Error Unit :=
  if resource.isRealmroot then
    if scopes.any fun scope => !realmrootOAuthScopes.contains scope then
      .error (badRequest "Requested scope is not declared by the Realmroot scope registry.")
    else .ok ()
  else if scopes.any fun scope => !resource.declaredScopes.contains scope then
    .error (badRequest "Requested scope is not declared by the Resource Server scope registry.")
  else .ok ()

/-! ## Control of the target -/

/-- `organizationUserHasScope`, statement by statement. -/
def requestOrganizationScope (organizationId userId requiredScope : String) : Request Bool := do
  let member ← query (·.findMemberByOrganizationUser organizationId userId)
  let realmroot ← query findRealmrootResourceServer
  match member, realmroot with
  | some member, some realmroot => do
    let dynamicRoles ← query (·.listOrganizationRoleScopes organizationId)
    let scopes ← ofResult
      (membershipScopesForResource dynamicRoles organizationId member.roles (some realmroot))
    pure (scopes.contains requiredScope)
  | _, _ => .pure false

/-- `requireControlledConnection`. -/
def requireControlledConnection (connectionId actorUserId : String) :
    Request ProviderResourceAuthorizationRecord := do
  let found ← findConnection connectionId
  let connection ← orThrow (notFound "Resource account connection was not found.") found
  if connection.ownerUserId = some actorUserId then .pure connection
  else
    match truthy connection.ownerOrganizationId with
    | none => .throw (forbidden "Resource account controller access is required.")
    | some organizationId => do
      let allowed ← requestOrganizationScope organizationId actorUserId "agents:write"
      throwIf (allowed = false) (forbidden "Resource account controller access is required.")
      pure connection

/-- `requireControlledRequestTarget`. -/
def requireControlledRequestTarget (request : AgentAccessRequest) (actorUserId : String) :
    Request (Option ProviderResourceAuthorizationRecord) :=
  match truthy request.connectionId with
  | some connectionId => do
    let connection ← requireControlledConnection connectionId actorUserId
    pure (some connection)
  | none => do
    let controls ← controlsAgentIdentity request.agentIdentityId actorUserId
    throwIf (controls = false) (forbidden "Agent controller access is required.")
    pure none

/-- `findConnectionByOwnerResource` for a user. -/
def findConnectionByOwnerResource (resourceId ownerUserId : String) :
    Request (Option ProviderResourceAuthorizationRecord) := do
  let row ← query (·.findAuthorizationRowByOwner resourceId (some ownerUserId) none)
  match row with
  | none => .pure none
  | some (authorization, connection) => do
    let credentials ← query (·.listCredentials authorization.id)
    pure (some (toProviderResourceAuthorization authorization connection credentials))

/-! ## Validation of a permission -/

structure AgentPermissionTarget where
  agentIdentityId : String
  scopes : List String
  connectionId : Option String
  deriving DecidableEq

section Validation

variable [Platform]

/-- The connection of a permission: the one that is named, or the one of the agent's owner. -/
def permissionConnection (resource : ApiResource) (connectionId : Option String)
    (ownerUserId actorUserId : String) : Request ProviderResourceAuthorizationRecord :=
  match truthy connectionId with
  | some id => requireControlledConnection id actorUserId
  | none => do
    let found ← findConnectionByOwnerResource resource.id ownerUserId
    let ownerConnection ← orThrow
      (badRequest "An account connection is required to approve external API access.") found
    requireControlledConnection ownerConnection.id actorUserId

/-- The scopes that the provider grants for the details, unless they are already known. -/
def permissionContextualScopes (resource : ApiResource)
    (connection : ProviderResourceAuthorizationRecord)
    (authorizationDetails : List AuthorizationDetail)
    (resolvedAccountScopes : Option (List String)) : Request (Option (List String)) :=
  match resolvedAccountScopes with
  | some scopes => .pure (some scopes)
  | none =>
    if authorizationDetails = [] then .pure none
    else accountScopesForAuthorizationDetails resource connection authorizationDetails

/-- The branch of `validateAgentPermissionTarget` for external resources. -/
def validateExternalTarget (resource : ApiResource) (target : AgentPermissionTarget)
    (authorizationDetails : List AuthorizationDetail) (ownerUserId actorUserId : String)
    (resolvedAccountScopes : Option (List String)) :
    Request ProviderResourceAuthorizationRecord := do
  let connection ← permissionConnection resource target.connectionId ownerUserId actorUserId
  throwIf (connection.resourceId ≠ resource.id ∨ connection.status ≠ .active)
    (badRequest "The selected account connection does not belong to this API resource.")
  throwIf (connection.ownerUserId ≠ some ownerUserId)
    (forbidden "Resource account connection is outside the Agent home space.")
  ofResult (assertAuthorizationDetailsSelection resource (some connection.authorizationDetails)
    authorizationDetails)
  ofResult (assertAuthorizationDetailsSubset authorizationDetails connection.authorizationDetails
    "connected account")
  let contextualScopes ←
    permissionContextualScopes resource connection authorizationDetails resolvedAccountScopes
  ofResult (assertScopeSubset target.scopes (contextualScopes.getD connection.grantedScopes)
    "connected account")
  pure connection

/-- What the grantor of a permission may do at the resource. -/
def grantorScopes (resource : ApiResource) (authorizationDetails : List AuthorizationDetail)
    (ownerUserId actorUserId : String) : Request (List String) :=
  if requiresAccountConnection resource then
    currentUserScopes resource actorUserId .unrestricted
  else do
    requireCurrentNativeAuthorityContext ownerUserId authorizationDetails
    nativeAuthorityEffectiveScopes (some actorUserId) resource (authorizationDetails.headD [])

/-- `validateAgentPermissionTarget`: the connection that the permission is for, if any. -/
def validateAgentPermissionTarget (resource : ApiResource) (target : AgentPermissionTarget)
    (authorizationDetails : List AuthorizationDetail) (actorUserId : String)
    (resolvedAccountScopes : Option (List String)) :
    Request (Option ProviderResourceAuthorizationRecord) := do
  ofResult (validateResourceRequestedScopes resource target.scopes)
  let found ← findIdentity target.agentIdentityId
  let (identity, _) ← orThrow (notFound "Active Agent identity was not found.")
    (found.filter fun (identity, _) => identity.status = .active)
  requireAgentResourceVisibility resource identity.ownerUserId
  let allowed ← grantorScopes resource authorizationDetails identity.ownerUserId actorUserId
  ofResult (assertScopeSubset target.scopes allowed "controller effective scope")
  if requiresAccountConnection resource then do
    let connection ← validateExternalTarget resource target authorizationDetails
      identity.ownerUserId actorUserId resolvedAccountScopes
    pure (some connection)
  else do
    throwIf ((truthy target.connectionId).isSome)
      (badRequest "Native API resources do not use account connections.")
    ofResult (assertAuthorizationDetailsSelection resource none authorizationDetails)
    pure none

end Validation

/-! ## Deciding -/

/-- How long a permission lasts. -/
inductive PermissionLifetime where
  | once
  | «until» (expiresAt : Time)
  | persistent
  deriving DecidableEq, Repr

namespace PermissionLifetime

def mode : PermissionLifetime → EntitlementMode
  | once => .once
  | «until» _ => .until
  | persistent => .persistent

def expiresAt : PermissionLifetime → Option Time
  | «until» time => some time
  | _ => none

end PermissionLifetime

inductive DecideAgentAccessRequest where
  | deny
  | approve (lifetime : PermissionLifetime) (authorizationDetails : List AuthorizationDetail)
  deriving DecidableEq

/-- `toAgentAccessRequest`: a request with the host of its binding. -/
structure DecidedAccessRequest where
  record : AgentAccessRequest
  hostId : String
  deriving DecidableEq

/-- What an approval fixes for the entitlements of all its scopes. -/
structure ApprovalContext where
  request : AgentAccessRequest
  connectionId : Option String
  authorizationDetails : List AuthorizationDetail
  contextHash : String
  lifetime : PermissionLifetime
  actorUserId : String
  now : Time

/-- What an approval does for one scope. -/
structure ScopeApproval where
  approved : ApprovedEntitlement
  inserted : Option ResourceScopeEntitlement
  updated : Option EntitlementUpdate

section Deciding

variable [Platform]

namespace ApprovalContext

variable (context : ApprovalContext)

/-- `shouldPersist`. -/
def shouldPersist (current : ResourceScopeEntitlement) : Bool :=
  context.lifetime = .persistent && current.mode ≠ .persistent

/-- `shouldExtend`. -/
def shouldExtend (current : ResourceScopeEntitlement) : Bool :=
  match context.lifetime with
  | .until expiresAt => current.mode ≠ .persistent && current.expiresAt.all (· < expiresAt)
  | _ => false

/-- The update of an entitlement that the agent has, unless nothing changes. -/
def entitlementUpdate (current : ResourceScopeEntitlement) : Option EntitlementUpdate :=
  let persist := context.shouldPersist current
  let extend := context.shouldExtend current
  if persist || extend || current.authorizationContextHash ≠ context.contextHash then
    some
      { id := current.id
        mode := if persist then .persistent else if extend then .until else current.mode
        expiresAt :=
          if persist then none else if extend then context.lifetime.expiresAt
          else current.expiresAt
        authorizationContextHash := context.contextHash
        updatedAt := context.now }
  else none

/-- A new entitlement for a scope. -/
def entitlement (id scope : String) : ResourceScopeEntitlement :=
  { id := id, userId := none, applicationId := none
    agentIdentityId := some context.request.agentIdentityId, organizationId := none
    resourceServerId := context.request.resourceId, connectionId := context.connectionId
    authorizationDetails := context.authorizationDetails
    authorizationContextHash := context.contextHash, scope := scope
    mode := context.lifetime.mode, grantedByUserId := some context.actorUserId
    grantedByAgentIdentityId := none, sourceAccessRequestId := some context.request.id
    expiresAt := context.lifetime.expiresAt, endedAt := none, endReason := none
    createdAt := context.now, updatedAt := context.now }

/-- The entitlements of the agent in the context of the approval. -/
def existing (entitlements : List ResourceScopeEntitlement) : List ResourceScopeEntitlement :=
  entitlements.filter fun entitlement =>
    entitlement.resourceServerId = context.request.resourceId &&
      entitlement.connectionId = context.connectionId &&
      exactAuthorizationDetails entitlement.authorizationDetails context.authorizationDetails

/-- What the approval does for one scope. -/
def approveScope (existing : List ResourceScopeEntitlement) (scope : String) :
    Request ScopeApproval :=
  match existing.find? fun entitlement => entitlement.scope = scope with
  | some current =>
    .pure
      { approved := { scope := scope, entitlementId := current.id }, inserted := none
        updated := context.entitlementUpdate current }
  | none => do
    let id ← generateId
    pure
      { approved := { scope := scope, entitlementId := id }
        inserted := some (context.entitlement id scope), updated := none }

/-- The batch of an approval. -/
def approval (plans : List ScopeApproval) (audit : AgentAuditEvent) : Approval :=
  { entitlements := plans.filterMap (·.inserted)
    entitlementUpdates := plans.filterMap (·.updated)
    requestId := context.request.id
    decision := .approved (plans.map (·.approved)) context.connectionId
      context.authorizationDetails context.now
    audit := audit }

end ApprovalContext

/-- What a decision says of its audit event. -/
def decisionAudit (request : AgentAccessRequest)
    (connection : Option ProviderResourceAuthorizationRecord) (actorUserId result : String)
    (authorizationDetails : List AuthorizationDetail) (reasonCode : Option String) :
    ResourceAudit :=
  { action := "api_resource.access_decided", result := result
    agentIdentityId := some request.agentIdentityId
    resourceId := request.resourceId, connection := connection
    accessRequestId := some request.id, controllerUserId := some actorUserId
    scopes := request.scopes, authorizationDetails := authorizationDetails
    reasonCode := reasonCode }

/-- The pending request of a decision, which its controller decides. -/
def requirePendingRequest (requestId : String) : Request AgentAccessRequest := do
  let found ← query (·.findAccessRequest requestId)
  let now ← currentTime
  orThrow (notFound "Pending Agent access request was not found.")
    (found.filter fun request => request.status = .pending && now < request.expiresAt)

/-- The answer of a decision. -/
def decidedRequest (record request : AgentAccessRequest) : Request DecidedAccessRequest := do
  let hostId ← requestHostId request
  pure { record := record, hostId := hostId }

/-- The branch of a denial. -/
def denyAccessRequest (request : AgentAccessRequest)
    (connection : Option ProviderResourceAuthorizationRecord) (actorUserId : String)
    (now : Time) : Request DecidedAccessRequest := do
  let audit ← resourceAuditRecord (decisionAudit request connection actorUserId "denied"
    request.authorizationDetails (some "controller_denied"))
  let decided ← execute (.decideAccessRequest request.id (.denied now) audit)
  let record ← orThrow (badRequest "Agent access request was already decided.") decided
  decidedRequest record request

/-- The checks of an approval, and what they fix for its entitlements. -/
def prepareApproval (request : AgentAccessRequest) (lifetime : PermissionLifetime)
    (authorizationDetails : List AuthorizationDetail) (actorUserId : String) (now : Time) :
    Request (ApprovalContext × Option ProviderResourceAuthorizationRecord) := do
  let resource ← requireEnabledResource request.resourceId
  throwIf (authorizationDetailsMatchRequest authorizationDetails request.authorizationDetails
      = false)
    (invalidAuthorizationDetails
      "Approved authorization details do not match the pending access request.")
  let connection ← validateAgentPermissionTarget resource
    { agentIdentityId := request.agentIdentityId, scopes := request.scopes
      connectionId := request.connectionId }
    authorizationDetails actorUserId none
  throwIf (lifetime.expiresAt.any (· ≤ now)) (badRequest "Permission expiry must be in the future.")
  pure
    ({ request := request
       connectionId := (connection.map (·.id)).or request.connectionId
       authorizationDetails := authorizationDetails
       contextHash := contextHash authorizationDetails, lifetime := lifetime
       actorUserId := actorUserId, now := now }, connection)

/-- The branch of an approval. A competing approval of the request counts; otherwise the
decision is taken again, once. -/
def approveAccessRequest (request : AgentAccessRequest) (lifetime : PermissionLifetime)
    (authorizationDetails : List AuthorizationDetail) (actorUserId : String)
    (approvalReasonCode : Option String) (now : Time)
    (again : Request DecidedAccessRequest) : Request DecidedAccessRequest := do
  let (context, connection) ←
    prepareApproval request lifetime authorizationDetails actorUserId now
  let active ← query (·.listActiveEntitlementsByAgent request.agentIdentityId now)
  let plans ← Program.mapEach request.scopes (context.approveScope (context.existing active))
  let audit ← resourceAuditRecord (decisionAudit request connection actorUserId "allowed"
    authorizationDetails approvalReasonCode)
  let outcome ← execute (.approveAccessRequest (context.approval plans audit))
  match outcome with
  | .resourceUnavailable =>
    .throw (badRequest "The API resource was deleted before access could be approved.")
  | .requestChanged => .throw (badRequest "Agent access request was already decided.")
  | .approved _ record => decidedRequest record request
  | .entitlementsChanged => do
    let found ← query (·.findAccessRequest request.id)
    match found.filter fun competing => competing.status = .approved with
    | some competing => decidedRequest competing competing
    | none => again

/-- `decideAgentAccessRequest`, with what it does when the entitlements have changed. -/
def decideOnce (requestId : String) (input : DecideAgentAccessRequest) (actorUserId : String)
    (approvalReasonCode : Option String) (again : Request DecidedAccessRequest) :
    Request DecidedAccessRequest := do
  let request ← requirePendingRequest requestId
  let connection ← requireControlledRequestTarget request actorUserId
  let now ← currentTime
  match input with
  | .deny => denyAccessRequest request connection actorUserId now
  | .approve lifetime authorizationDetails =>
    approveAccessRequest request lifetime authorizationDetails actorUserId approvalReasonCode now
      again

/-- `decideAgentAccessRequest`. -/
def decideAgentAccessRequest (requestId : String) (input : DecideAgentAccessRequest)
    (actorUserId : String) (approvalReasonCode : Option String := none) :
    Request DecidedAccessRequest :=
  decideOnce requestId input actorUserId approvalReasonCode
    (decideOnce requestId input actorUserId approvalReasonCode
      (.throw (badRequest "Agent permissions changed while access was being approved.")))

end Deciding

end Realmroot
