import Realmroot.Schema.Authorization

/-!
# Tables of the external-resource schema

Agents, their entitlements, access requests and token leases, and the provider
connections and credentials behind them.
-/

namespace Realmroot

inductive AgentStatus where
  | active
  | inactive
  deriving DecidableEq, Repr

structure AgentIdentity where
  id : String
  issuer : String
  subject : String
  username : Option String := none
  name : String := ""
  runtime : Option String := none
  ownerUserId : String
  status : AgentStatus
  deletedAt : Option Time
  createdAt : Time := 0
  updatedAt : Time := 0
  deriving DecidableEq

/-- `status` is a free text column; `hostId` is the host of the protocol agent. -/
structure AgentIdentityBinding where
  id : String
  agentIdentityId : String
  protocolAgentId : String
  hostId : String := ""
  status : String
  boundAt : Time := 0
  revokedAt : Option Time
  createdAt : Time := 0
  updatedAt : Time := 0
  deriving DecidableEq

inductive EntitlementMode where
  | persistent
  | «until»
  | once
  deriving DecidableEq, Repr

inductive EndReason where
  | revoked
  | consumed
  | expired
  | merged
  deriving DecidableEq, Repr

structure ResourceScopeEntitlement where
  id : String
  userId : Option String
  applicationId : Option String
  agentIdentityId : Option String
  organizationId : Option String
  resourceServerId : String
  connectionId : Option String
  authorizationDetails : List AuthorizationDetail
  authorizationContextHash : String
  scope : String
  mode : EntitlementMode
  grantedByUserId : Option String
  grantedByAgentIdentityId : Option String
  sourceAccessRequestId : Option String
  expiresAt : Option Time
  endedAt : Option Time
  endReason : Option EndReason
  createdAt : Time
  updatedAt : Time
  deriving DecidableEq

inductive AccessRequestStatus where
  | pending
  | approved
  | denied
  | consumed
  | revoked
  deriving DecidableEq, Repr

structure ApprovedEntitlement where
  scope : String
  entitlementId : String
  deriving DecidableEq

structure AgentAccessRequest where
  id : String
  resourceId : String
  connectionId : Option String
  agentIdentityId : String
  bindingId : String
  scopes : List String
  authorizationDetails : List AuthorizationDetail
  status : AccessRequestStatus
  approvedEntitlements : List ApprovedEntitlement
  expiresAt : Time
  decidedAt : Option Time
  createdAt : Time
  updatedAt : Time
  deriving DecidableEq

structure ExternalTokenLease where
  id : String
  entitlementIds : List String
  requestId : String
  bindingId : String
  encryptedAccessToken : String
  tokenHash : String
  confirmationJkt : String
  scopes : List String
  authorizationDetails : List AuthorizationDetail
  expiresAt : Time
  revokedAt : Option Time
  createdAt : Time
  deriving DecidableEq

inductive ConnectionStatus where
  | active
  | suspended
  | revoked
  deriving DecidableEq, Repr

structure ProviderConnection where
  id : String
  connectorId : String
  ownerUserId : Option String
  ownerOrganizationId : Option String
  authenticationAccountId : Option String
  externalSubject : String
  displayName : String
  status : ConnectionStatus
  createdAt : Time
  updatedAt : Time
  deriving DecidableEq

structure ProviderResourceAuthorization where
  id : String
  providerConnectionId : String
  resourceId : String
  status : ConnectionStatus
  revokedAt : Option Time
  createdAt : Time
  updatedAt : Time
  deriving DecidableEq

structure ProviderCredential where
  id : String
  providerResourceAuthorizationId : String
  encryptedTokens : String
  grantedScopes : List String
  authorizationDetails : List AuthorizationDetail
  clientGeneration : ℕ
  credentialVersion : ℕ
  refreshClaimId : Option String
  refreshClaimExpiresAt : Option Time
  status : ConnectionStatus
  credentialExpiresAt : Option Time
  revokedAt : Option Time
  createdAt : Time
  updatedAt : Time
  deriving DecidableEq

inductive IntentStatus where
  | pending
  | completed
  | cancelled
  deriving DecidableEq, Repr

structure ResourceConnectionIntent where
  id : String
  stateHash : String
  resourceId : String
  ownerUserId : Option String
  ownerOrganizationId : Option String
  initiatedByUserId : String
  scopes : List String
  authorizationDetails : List AuthorizationDetail
  encryptedPkceVerifier : String
  clientGeneration : ℕ
  status : IntentStatus
  expiresAt : Time
  completedAt : Option Time
  updatedAt : Time
  deriving DecidableEq

structure AgentAuditEvent where
  id : String
  action : String
  result : String
  realmOwned : Bool
  ownerUserId : Option String
  ownerOrganizationId : Option String
  controllerUserId : Option String
  subjectIssuer : Option String
  subject : Option String
  agentIdentityId : Option String
  hostId : Option String
  resourceId : Option String
  resourceConnectionId : Option String
  accessRequestId : Option String
  scopes : Option (List String)
  reasonCode : Option String
  metadata : Option Record
  occurredAt : Time
  deriving DecidableEq

end Realmroot
