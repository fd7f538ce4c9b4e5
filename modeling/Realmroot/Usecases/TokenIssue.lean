import Realmroot.Usecases.AccessRequests
import Realmroot.Usecases.Connectors
import Realmroot.Usecases.TokenExchange

/-!
# Issuing target access tokens

An approved request is served from all active entitlements of the agent in its context. For
an external resource the token comes from the authorization server of the connector, for a
native one the server signs it itself; either way one batch records the lease and spends the
entitlements that may be used once.
-/

namespace Realmroot

open AtomicProgram Error

structure AgentResourcePrincipal where
  issuer : String
  subject : String
  identityId : String
  protocolAgentId : String
  hostId : String
  runtime : Option String
  sessionId : Option String
  identity : AgentIdentity
  binding : AgentIdentityBinding

structure AgentAssertionSigner where
  issuer : String
  /-- The token for a payload and a token type. -/
  sign : Record → String → String

/-- The proof and the URL of a token request, with the origin of the URL. -/
structure TargetTokenRequest where
  requestId : String
  dpopProof : String
  tokenRequestUrl : String
  tokenRequestOrigin : String

structure TargetAccessToken where
  accessToken : String
  expiresIn : ℕ
  expiresAt : Time
  scopes : List String
  authorizationDetails : List AuthorizationDetail
  resourceUrl : String
  dpopNonce : Option String
  deriving DecidableEq

def jwtBearerGrantType : String := "urn:ietf:params:oauth:grant-type:jwt-bearer"

def realmrootAgentBindingClaim : String := "urn:realmroot:params:agent:binding"

/-! ## The agent -/

/-- `requireActiveIdentityAndBinding`. -/
def requireActiveIdentityAndBinding (principal : AgentResourcePrincipal) : Except Error Unit :=
  if principal.identity.id ≠ principal.identityId ∨ principal.identity.status ≠ .active ∨
      principal.binding.agentIdentityId ≠ principal.identityId ∨
      principal.binding.protocolAgentId ≠ principal.protocolAgentId ∨
      principal.binding.hostId ≠ principal.hostId ∨ principal.binding.status ≠ "active" then
    .error (forbidden "An active Agent identity and host binding are required.")
  else .ok ()

/-- `toRealmrootAgentBindingClaim`. -/
def toRealmrootAgentBindingClaim (principal : AgentResourcePrincipal) : Except Error Json :=
  let claim := [("protocol_agent_id", Json.str principal.protocolAgentId),
    ("host_id", .str principal.hostId)]
  match principal.runtime, principal.sessionId with
  | some runtime, some sessionId =>
    .ok (.obj (claim ++ [("runtime", .str runtime), ("session_id", .str sessionId)]))
  | none, none => .ok (.obj claim)
  | _, _ => .error (.internal "Agent runtime and session ID must be provided together.")

/-- `validateDpopTokenProof`, as an issuer of tokens sees it: the thumbprint of the key of a
proof, or an error. -/
def validateDpopTokenProof (_proof _tokenEndpoint : String) : Request String := .ask fun reply =>
  match reply.header with
  | some thumbprint => .pure thumbprint
  | none => .throw (badRequest "DPoP proof is malformed.")

/-! ## Entitlements -/

/-- `earliestEntitlementExpiry`. -/
def earliestEntitlementExpiry (entitlements : List ResourceScopeEntitlement) : Option Time :=
  (entitlements.filterMap (·.expiresAt)).min?

/-- The entitlements that a lease spends. -/
def onceEntitlementIds (entitlements : List ResourceScopeEntitlement) : List String :=
  (entitlements.filter fun entitlement => entitlement.mode = .once).map (·.id)

section Issuing

variable [Platform]

/-- The context of `activeContextEntitlements`. -/
def inRequestContext (request : AgentAccessRequest) (entitlement : ResourceScopeEntitlement) :
    Bool :=
  entitlement.resourceServerId = request.resourceId &&
    entitlement.connectionId = request.connectionId &&
    exactAuthorizationDetails entitlement.authorizationDetails request.authorizationDetails

/-- What `activeContextEntitlements` selects. -/
def Database.activeContextEntitlements (request : AgentAccessRequest) (agentIdentityId : String)
    (now : Time) (db : Database) : List ResourceScopeEntitlement :=
  ((db.listActiveEntitlementsByAgent agentIdentityId now).filter
    (inRequestContext request)).insertionSort fun a b => Platform.localeLe a.scope b.scope

/-- What is issued: the request with the scopes of its active entitlements, and these. -/
structure IssueContext where
  request : AgentAccessRequest
  entitlements : List ResourceScopeEntitlement
  resource : ApiResource
  principal : AgentResourcePrincipal

/-- The stored request, served from the entitlements. -/
def servedRequest (stored : AgentAccessRequest) (entitlements : List ResourceScopeEntitlement) :
    AgentAccessRequest :=
  { stored with
    scopes := sortStrings (entitlements.map (·.scope))
    approvedEntitlements := entitlements.map fun entitlement =>
      { scope := entitlement.scope, entitlementId := entitlement.id } }

/-- What a lease records of an issued token. -/
structure IssuedToken where
  accessToken : String
  confirmationJkt : String
  expiresAt : Time

namespace IssueContext

variable (context : IssueContext)

def lease (id encryptedAccessToken : String) (token : IssuedToken) (createdAt : Time) :
    ExternalTokenLease :=
  { id := id, entitlementIds := context.entitlements.map (·.id)
    requestId := context.request.id, bindingId := context.principal.binding.id
    encryptedAccessToken := encryptedAccessToken
    tokenHash := Platform.sha256 token.accessToken, confirmationJkt := token.confirmationJkt
    scopes := context.request.scopes
    authorizationDetails := context.request.authorizationDetails
    expiresAt := token.expiresAt, revokedAt := none, createdAt := createdAt }

def boundary : TokenLeaseAuthorizationBoundary :=
  { agentIdentityId := context.request.agentIdentityId
    resourceServerId := context.request.resourceId, connectionId := context.request.connectionId
    authorizationContextHash := contextHash context.request.authorizationDetails
    scopes := context.request.scopes }

def audit (connection : Option ProviderResourceAuthorizationRecord) : ResourceAudit :=
  { action := "api_resource.token_issued", result := "allowed"
    subjectIssuer := some context.principal.issuer, subject := some context.principal.subject
    agentIdentityId := some context.principal.identityId
    hostId := some context.principal.hostId, resourceId := context.resource.id
    connection := connection, accessRequestId := some context.request.id
    scopes := context.request.scopes
    authorizationDetails := context.request.authorizationDetails, reasonCode := none }

/-- The lease of an issued token, and the batch that stores it. -/
def store (connection : Option ProviderResourceAuthorizationRecord) (token : IssuedToken)
    (now : Time) : Request Unit := do
  let leaseId ← generateId
  let encryptedAccessToken ← sealSecret token.accessToken (tokenLeaseContext leaseId)
  let audit ← resourceAuditRecord (context.audit connection)
  let lease ← execute (.issueTokenLease (context.lease leaseId encryptedAccessToken token now)
    context.boundary (onceEntitlementIds context.entitlements) now audit)
  throwIf (lease = none) (forbidden "Approved Entitlements changed before token issuance.")

end IssueContext

/-! ## Native tokens -/

/-- The claims that `issueNativeAccessToken` signs. -/
def nativeTokenClaims (context : IssueContext) (issuer jti confirmationJkt : String)
    (groups : List String) (bindingClaim : Json) (now expiresAt : Time) : Record :=
  let authority := context.request.authorizationDetails.headD []
  let issuedScopes :=
    if context.resource.isRealmroot then
      sortStrings (unique (agentBootstrapScopes ++ context.request.scopes))
    else context.request.scopes
  [("iss", .str issuer), ("sub", .str context.principal.identity.ownerUserId),
    ("aud", .str context.resource.resourceUrl), ("jti", .str jti),
    ("iat", .num (toSeconds now)), ("exp", .num (toSeconds expiresAt)),
    ("scope", .str (joinWithSpace issuedScopes)), ("groups", .arr (groups.map .str)),
    ("client_id", .str realmrootCliClientId)] ++
  (match truthy (organizationAuthority authority) with
    | some id => [(realmrootOrganizationClaim, .str id)]
    | none => []) ++
  (if context.request.authorizationDetails = [] then []
    else [("authorization_details",
      .arr (context.request.authorizationDetails.map .obj))]) ++
  (if context.resource.isRealmroot then [("realmroot_authority", .obj authority)] else []) ++
  [("cnf", .obj [("jkt", .str confirmationJkt)]),
    ("act", .obj [("iss", .str context.principal.issuer),
      ("sub", .str context.principal.subject)]),
    (realmrootAgentBindingClaim, bindingClaim)]

/-- The end of a native token: five minutes, or the first end of an entitlement. -/
def nativeExpiry (entitlements : List ResourceScopeEntitlement) (now : Time) : Time :=
  match earliestEntitlementExpiry entitlements with
  | some expiry => min expiry (now + 5 * 60 * 1000)
  | none => now + 5 * 60 * 1000

/-- The teams of the owner in the organization that a native token is for. -/
def nativeGroups (context : IssueContext) : Request (List String) :=
  match truthy (organizationAuthority (context.request.authorizationDetails.headD [])),
      truthy (some context.principal.identity.ownerUserId) with
  | some organizationId, some ownerUserId =>
    query (·.listTeamNamesForUser organizationId ownerUserId)
  | _, _ => .pure []

/-- `issueNativeAccessToken`. -/
def issueNativeAccessToken (context : IssueContext) (input : TargetTokenRequest)
    (signer : AgentAssertionSigner) : Request TargetAccessToken := do
  throwIf (context.request.connectionId ≠ none)
    (forbidden "Native API resource grants cannot use account connections.")
  throwIf (signer.issuer ≠ context.principal.issuer)
    (forbidden "Agent identity does not belong to the active OAuth issuer.")
  requireCurrentNativeAuthorityContext context.principal.identity.ownerUserId
    context.request.authorizationDetails
  let confirmationJkt ← validateDpopTokenProof input.dpopProof input.tokenRequestUrl
  let now ← currentTime
  let expiresAt := nativeExpiry context.entitlements now
  ofResult (assertNativeAuthoritySelection context.request.authorizationDetails)
  let groups ← nativeGroups context
  let jti ← randomString
  let bindingClaim ← ofResult (toRealmrootAgentBindingClaim context.principal)
  let accessToken := signer.sign
    (nativeTokenClaims context signer.issuer jti confirmationJkt groups bindingClaim now expiresAt)
    "at+jwt"
  context.store none
    { accessToken := accessToken, confirmationJkt := confirmationJkt, expiresAt := expiresAt } now
  pure
    { accessToken := accessToken, expiresIn := max 1 ((expiresAt - now) / 1000)
      expiresAt := expiresAt, scopes := context.request.scopes
      authorizationDetails := context.request.authorizationDetails
      resourceUrl := context.resource.resourceUrl, dpopNonce := none }

/-! ## External tokens -/

/-- `postFormResponse` with a DPoP proof: the body, and the nonce of the answer. -/
def postFormResponse (url : String) (form : List (String × String))
    (clientId clientSecret dpopProof : String) : Request (Record × Option String) := do
  let reply ← fetchPeer
    { method := "POST", url := url, form := form
      authentication := .client .basic clientId clientSecret, dpop := some dpopProof }
  let response ← orThrow (badGateway "External authorization server is unavailable.") reply
  throwIf (response.ok = false) (tokenRequestError false response)
  throwIf (response.dpopNonce.any fun nonce => !validDpopNonce nonce)
    (badGateway "External authorization server returned an invalid DPoP nonce.")
  let body ← ofResult (readObject response "External authorization server response is invalid.")
  pure (body, response.dpopNonce)

/-- `requiredPositiveInteger`. -/
def requiredPositiveInteger (value : Record) (field label : String) : Except Error ℕ :=
  match naturalNumber (value.field field) with
  | some (result + 1) => .ok (result + 1)
  | _ => .error (badRequest (label ++ " has invalid " ++ field ++ "."))

/-- The checks on the answer of a token exchange: the token and how long it lasts. -/
def readTargetToken (context : IssueContext) (token : Record) (now : Time) :
    Except Error (String × ℕ) := do
  let accessToken ← requiredString token "access_token" "Token exchange response"
  if Platform.toLowerCase (((token.field "token_type").map textOf).getD "undefined") ≠ "dpop" then
    throw (unauthorized "Target authorization server did not issue a DPoP-bound access token.")
  let expiresIn ← requiredPositiveInteger token "expires_in" "Token exchange response"
  if 3600 < expiresIn then
    throw (unauthorized
      "Target authorization server issued an access token with an excessive lifetime.")
  if (earliestEntitlementExpiry context.entitlements).any (· < now + expiresIn * 1000) then
    throw (unauthorized
      "Target authorization server issued an access token beyond an Entitlement lifetime.")
  let issuedScope := (scopeString (token.field "scope")).getD context.request.scopes
  if exactScopes issuedScope context.request.scopes = false then
    throw (unauthorized "Target authorization server issued a different scope set.")
  let details := context.request.authorizationDetails
  let issuedDetails ← readAuthorizationDetails (token.field "authorization_details")
    (details ≠ []) (details.map detailType) "Token exchange response"
  if exactAuthorizationDetails issuedDetails details = false then
    throw (unauthorized "Target authorization server issued different authorization details.")
  pure (accessToken, expiresIn)

/-- The connection and the credential of an external token, with the scopes that the provider
grants for the details. -/
structure ExternalGrant where
  connection : ProviderResourceAuthorizationRecord
  credential : ProviderCredential
  contextualScopes : Option (List String)

/-- The first checks on an external token. -/
def externalGrant (context : IssueContext) : Request ExternalGrant := do
  let found ← findConnectionWhen context.request.connectionId
  let connection ← orThrow (forbidden "Active external API resource grant is required.")
    (found.filter fun connection => connection.status = .active)
  let contextualScopes ← permissionContextualScopes context.resource connection
    context.request.authorizationDetails none
  let credential ← ofResult (match contextualScopes with
    | none => requireProviderCredential connection context.request.scopes
        context.request.authorizationDetails
    | some _ => requireProviderCredential connection [] [])
  pure { connection := connection, credential := credential, contextualScopes := contextualScopes }

/-- The client under which the credential was granted has the scopes of the connection. -/
def ensureClientScopes (resource : ApiResource) (grant : ExternalGrant) (origin : String) :
    Request Unit := do
  let connectorId := resource.connectorId.getD ""
  let connector ← query (·.findConnector connectorId)
  if (connector.map (·.resourceClientGeneration)).getD 1 = grant.credential.clientGeneration then do
    let generation ← Connectors.ensureDynamicConnectorScopes connectorId
      grant.connection.grantedScopes origin
    throwIf (generation ≠ grant.credential.clientGeneration)
      (forbidden "The connected account must be reauthorized after OAuth client rotation.")
  else .pure ()

/-- The last checks on an external token. -/
def checkExternalGrant (context : IssueContext) (grant : ExternalGrant) : Except Error Unit := do
  assertScopeSubset context.request.scopes
    (grant.contextualScopes.getD grant.connection.grantedScopes) "connected account"
  assertAuthorizationDetailsSelection context.resource
    (some grant.connection.authorizationDetails) context.request.authorizationDetails
  assertAuthorizationDetailsSubset context.request.authorizationDetails
    grant.connection.authorizationDetails "connected account"

/-- The assertion with which an agent asks for the actor token. -/
def agentAssertion (principal : AgentResourcePrincipal) (signer : AgentAssertionSigner)
    (audience jti : String) (bindingClaim : Json) (nowSeconds : ℕ) : String :=
  signer.sign
    [("iss", .str principal.issuer), ("sub", .str principal.subject), ("aud", .str audience),
      ("iat", .num nowSeconds), ("exp", .num (nowSeconds + 300)), ("jti", .str jti),
      (realmrootAgentBindingClaim, bindingClaim)] "JWT"

/-- The token exchange at the authorization server: the answer, and its nonce. -/
def exchangeTargetToken (context : IssueContext) (grant : ExternalGrant)
    (authorization : ExternalResourceAuthorization) (input : TargetTokenRequest)
    (signer : AgentAssertionSigner) : Request (Record × Option String) := do
  let clock ← currentTime
  let jti ← randomString
  let bindingClaim ← ofResult (toRealmrootAgentBindingClaim context.principal)
  let assertion := agentAssertion context.principal signer authorization.tokenEndpoint jti
    bindingClaim (toSeconds clock)
  let subject ← refreshConnectionToken grant.credential authorization
  let actorGrant ← postForm authorization.tokenEndpoint
    [("grant_type", jwtBearerGrantType), ("assertion", assertion)] authorization.clientId
    authorization.encryptedClientSecret false .basic
  let actorToken ←
    ofResult (requiredString actorGrant "access_token" "RFC 7523 JWT bearer grant response")
  postFormResponse authorization.tokenEndpoint
    ([("grant_type", tokenExchangeGrantType), ("subject_token", subject.accessToken),
        ("subject_token_type", accessTokenType), ("actor_token", actorToken),
        ("actor_token_type", accessTokenType), ("requested_token_type", accessTokenType),
        ("resource", context.resource.resourceUrl),
        ("scope", joinWithSpace context.request.scopes)] ++
      if context.request.authorizationDetails = [] then []
      else [("authorization_details",
        stringifyJson (.arr (context.request.authorizationDetails.map .obj)))])
    authorization.clientId authorization.encryptedClientSecret input.dpopProof

/-- The part of `issueTargetAccessToken` for external resources. -/
def issueExternalAccessToken (context : IssueContext) (input : TargetTokenRequest)
    (signer : AgentAssertionSigner) (now : Time) : Request TargetAccessToken := do
  let grant ← externalGrant context
  ensureClientScopes context.resource grant input.tokenRequestOrigin
  let found ←
    findExternalAuthorization context.request.resourceId (some grant.credential.clientGeneration)
  let authorization ← orThrow (forbidden "Active external authorization server is required.")
    (found.filter fun authorization => authorization.status = .active)
  ofResult (checkExternalGrant context grant)
  let confirmationJkt ← validateDpopTokenProof input.dpopProof authorization.tokenEndpoint
  let (token, dpopNonce) ← exchangeTargetToken context grant authorization input signer
  let (accessToken, expiresIn) ← ofResult (readTargetToken context token now)
  let expiresAt := now + expiresIn * 1000
  context.store (some grant.connection)
    { accessToken := accessToken, confirmationJkt := confirmationJkt, expiresAt := expiresAt } now
  pure
    { accessToken := accessToken, expiresIn := expiresIn, expiresAt := expiresAt
      scopes := context.request.scopes
      authorizationDetails := context.request.authorizationDetails
      resourceUrl := context.resource.resourceUrl, dpopNonce := dpopNonce }

/-! ## Issuing -/

/-- What a request is issued from, and the time that its lease says it was created. -/
def issueContext (input : TargetTokenRequest) (principal : AgentResourcePrincipal) :
    Request (IssueContext × Time) := do
  ofResult (requireActiveIdentityAndBinding principal)
  let found ← query (·.findAccessRequest input.requestId)
  let stored ← orThrow (forbidden "Approved Agent access request is required.")
    (found.filter fun stored =>
      stored.agentIdentityId = principal.identityId &&
        (stored.status = .approved || stored.status = .consumed))
  let now ← currentTime
  let entitlements ← query (Database.activeContextEntitlements stored principal.identityId now)
  throwIf (entitlements = [])
    (forbidden "The selected Resource Context has no active Permissions.")
  let request := servedRequest stored entitlements
  let foundResource ← query (·.findResource request.resourceId)
  let resource ← orThrow (forbidden "Enabled Resource Server is required.")
    (foundResource.filter fun resource => resource.enabled)
  ofResult (validateResourceRequestedScopes resource request.scopes)
  let organizationIds ← activeIdentityOrganizationIds principal.identity.ownerUserId
  throwIf (activeResourceVisibleToAgent resource organizationIds = false)
    (forbidden "Resource Server is not visible to this Agent.")
  pure
    ({ request := request, entitlements := entitlements, resource := resource
       principal := principal }, now)

/-- `issueTargetAccessToken`. -/
def issueTargetAccessToken (input : TargetTokenRequest) (principal : AgentResourcePrincipal)
    (signer : AgentAssertionSigner) : Request TargetAccessToken := do
  let (context, now) ← issueContext input principal
  if context.resource.authorizationModel ≠ .external then do
    let connection ← findConnectionWhen context.request.connectionId
    ofResult (assertAuthorizationDetailsSelection context.resource
      (connection.map (·.authorizationDetails)) context.request.authorizationDetails)
    issueNativeAccessToken context input signer
  else issueExternalAccessToken context input signer now

end Issuing

end Realmroot
