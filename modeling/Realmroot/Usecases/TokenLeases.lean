import Realmroot.Usecases.ExternalAuthorization

/-!
# Revoking token leases

A lease is revoked at the authorization server of its resource, and an entitlement
ends together with the leases that were issued on it.
-/

namespace Realmroot

open AtomicProgram Error

/-! ## Audit records -/

inductive AuditTenant where
  | user (id : String)
  | organization (id : String)
  deriving DecidableEq

/-- `resolveAuditTenant`: the owner of the connection, or of the agent. -/
def resolveAuditTenant (connection : Option ProviderResourceAuthorizationRecord)
    (agentIdentityId : Option String) : Request AuditTenant :=
  match connection.bind (truthy ·.ownerUserId), connection.bind (truthy ·.ownerOrganizationId) with
  | some id, _ => .pure (.user id)
  | none, some id => .pure (.organization id)
  | none, none =>
    match truthy agentIdentityId with
    | none => .throw (.internal "Agent audit event has no tenant-owned resource.")
    | some id => do
      let found ← query (·.findAgentIdentity id)
      let identity ← orThrow
        (.internal ("Agent identity " ++ id ++ " was not found while writing its audit event."))
        found
      pure (.user identity.ownerUserId)

/-- What a caller of `resourceAuditRecord` says of an event. -/
structure ResourceAudit where
  action : String
  result : String
  subjectIssuer : Option String := none
  subject : Option String := none
  agentIdentityId : Option String := none
  hostId : Option String := none
  resourceId : String
  connection : Option ProviderResourceAuthorizationRecord
  accessRequestId : Option String
  controllerUserId : Option String := none
  scopes : List String
  authorizationDetails : List AuthorizationDetail
  reasonCode : Option String

/-- The projection of a detail that the trail keeps. -/
def auditProjection (detail : AuthorizationDetail) : Json :=
  let type := ("type", (Record.field detail "type").getD .null)
  match Record.field detail "identifier" with
  | some (.str identifier) => .obj [type, ("identifier", .str identifier)]
  | _ => .obj [type]

/-- `resourceAuditRecord`. -/
def resourceAuditRecord [Platform] (input : ResourceAudit) : Request AgentAuditEvent := do
  let tenant ← resolveAuditTenant input.connection input.agentIdentityId
  let id ← generateId
  let occurredAt ← currentTime
  pure
    { id := id
      action := input.action
      result := input.result
      realmOwned := false
      ownerUserId := match tenant with
        | .user id => some id
        | .organization _ => none
      ownerOrganizationId := match tenant with
        | .user _ => none
        | .organization id => some id
      controllerUserId := input.controllerUserId
      subjectIssuer := input.subjectIssuer
      subject := input.subject
      agentIdentityId := input.agentIdentityId
      hostId := input.hostId
      resourceId := some input.resourceId
      resourceConnectionId := input.connection.map (·.id)
      accessRequestId := input.accessRequestId
      scopes := some input.scopes
      reasonCode := input.reasonCode
      metadata :=
        if input.authorizationDetails = [] then none
        else some [("authorizationDetails", .arr (input.authorizationDetails.map auditProjection))]
      occurredAt := occurredAt }

/-! ## Leases -/

section Leases

variable [Platform]

def tokenLeaseContext (leaseId : String) : String :=
  "external-token-lease:" ++ leaseId ++ ":access-token"

/-- The generation of the client that revokes the leases of a connection. -/
def revocationGeneration : Option ProviderResourceAuthorizationRecord → ℕ
  | some connection =>
    (connection.credentials.head?.map (·.clientGeneration)).getD
      (providerCredentialGeneration connection)
  | none => 1

/-- The database learns of a revocation only when the caller says so. -/
def persistRevocation (persist : Bool) (leaseId : String) (now : Time) : Request Unit :=
  if persist then do
    let _ ← execute (.revokeTokenLease leaseId now)
    pure ()
  else .pure ()

/-- `revokeTokenLeaseAtTarget`. -/
def revokeTokenLeaseAtTarget (lease : ExternalTokenLease) (now : Time) (persist : Bool) :
    Request Unit := do
  let foundRequest ← query (·.findAccessRequest lease.requestId)
  let request ← orThrow (notFound "Approved Agent access request was not found.") foundRequest
  let foundResource ← query (·.findResource request.resourceId)
  let resource ← orThrow (notFound "API resource was not found.") foundResource
  let connection ← findConnectionWhen request.connectionId
  let authorization ← externalOAuthAuthorization resource (some (revocationGeneration connection))
  match authorization with
  | none => persistRevocation persist lease.id now
  | some authorization => do
    let _ ← orThrow (notFound "Resource account connection was not found.") connection
    let token ← ofResult (openSecret lease.encryptedAccessToken (tokenLeaseContext lease.id))
    postEmptyForm authorization.revocationEndpoint
      [("token", token), ("token_type_hint", "access_token")] authorization.clientId
      authorization.encryptedClientSecret
    persistRevocation persist lease.id now

/-- `revokeEntitlementTokenLeases`. -/
def revokeEntitlementTokenLeases (entitlementId : String) (now : Time) : Request Unit := do
  let leases ← query (·.listActiveTokenLeasesByEntitlement entitlementId now)
  Program.forEach leases fun lease => revokeTokenLeaseAtTarget lease now true

/-- `revokeEntitlementTokenLeasesAtTarget`. -/
def revokeEntitlementTokenLeasesAtTarget (entitlementId : String) (now : Time) :
    Request (List String) := do
  let leases ← query (·.listActiveTokenLeasesByEntitlement entitlementId now)
  Program.forEach leases fun lease => revokeTokenLeaseAtTarget lease now false
  pure (leases.map (·.id))

/-- The entitlement is within what the connection grants. -/
def coveredByConnection (connection : ProviderResourceAuthorizationRecord)
    (authorizationDetailsRequired : Bool) (entitlement : ResourceScopeEntitlement) : Bool :=
  connection.grantedScopes.contains entitlement.scope &&
    (!authorizationDetailsRequired || entitlement.authorizationDetails ≠ []) &&
    isAuthorizationDetailsSubset entitlement.authorizationDetails connection.authorizationDetails

/-- `revokeUncoveredEntitlements`. -/
def revokeUncoveredEntitlements (connection : ProviderResourceAuthorizationRecord)
    (authorizationDetailsRequired : Bool) (controllerUserId : String) (now : Time) :
    Request Unit := do
  let entitlements ← query (·.listActiveEntitlementsByConnection connection.id now)
  Program.forEach entitlements fun entitlement =>
    if coveredByConnection connection authorizationDetailsRequired entitlement then .pure ()
    else do
      let leaseIds ← revokeEntitlementTokenLeasesAtTarget entitlement.id now
      let audit ← resourceAuditRecord
        { action := "api_resource.access_revoked", result := "allowed"
          resourceId := entitlement.resourceServerId, connection := some connection
          accessRequestId := entitlement.sourceAccessRequestId
          controllerUserId := some controllerUserId, scopes := [entitlement.scope]
          authorizationDetails := entitlement.authorizationDetails
          reasonCode := some "connection_authorization_changed" }
      let _ ← execute (.endEntitlementWithAudit entitlement.id .revoked leaseIds now audit)
      pure ()

end Leases

end Realmroot
