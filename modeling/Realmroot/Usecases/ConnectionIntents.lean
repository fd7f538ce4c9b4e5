import Realmroot.Usecases.AccessRequests
import Realmroot.Usecases.Connections
import Realmroot.Usecases.Connectors
import Realmroot.Usecases.TokenIssue

/-!
# Intents to connect an account

A user asks that an account at the provider of a resource be connected. The intent keeps what the
callback needs to exchange the code, and its user goes to the authorization server.
-/

namespace Realmroot

open AtomicProgram Error

/-! ## Requests and responses -/

/-- The owner of the connection: the user who asks, or an organization. -/
inductive ConnectionOwner where
  | user
  | organization (organizationId : String)
  deriving DecidableEq

structure CreateResourceConnectionIntent where
  owner : ConnectionOwner
  scopes : List String
  authorizationDetails : Option (List AuthorizationDetail) := none

/-- The address of the authorization server, and the parameters that are set in its query. -/
structure AuthorizationRedirect where
  endpoint : Url
  parameters : List (String × String)

structure CreatedConnectionIntent where
  id : String
  resourceId : String
  owner : ConnectionOwner
  authorizationUrl : AuthorizationRedirect
  authorizationDetails : List AuthorizationDetail
  expiresAt : Time
  createdAt : Time

/-! ## The driver -/

/-- `normalizeScopes` of the generic driver. -/
def IdentityProviderConnector.normalizeScopes (connector : IdentityProviderConnector)
    (scopes : List String) : List String :=
  let supportsProfile :=
    ((connector.metadataEntries "scopes_supported").getD []).contains (.str "profile")
  let identityScopes :=
    if supportsProfile then ["openid", "offline_access", "profile"]
    else ["openid", "offline_access"]
  sortStrings (unique (scopes ++ identityScopes))

/-- `metadataStringArray`. -/
def metadataStringArray (entries : Option (List Json)) : List String :=
  match (entries.getD []).mapM fun
    | .str value => some value
    | _ => none with
  | some values => unique values
  | none => []

/-- What the record of an authorization takes from the provider metadata for a new intent. -/
structure AuthorizationEndpoints where
  authorizationEndpoint : String
  pushedAuthorizationRequestEndpoint : Option String
  authorizationDetailsTypesSupported : List String

def IdentityProviderConnector.endpoints (connector : IdentityProviderConnector) :
    AuthorizationEndpoints :=
  { authorizationEndpoint := connector.resourceAuthorizationEndpoint.getD ""
    pushedAuthorizationRequestEndpoint :=
      connector.metadataString "pushed_authorization_request_endpoint"
    authorizationDetailsTypesSupported := metadataStringArray
      (connector.metadataEntries "authorization_details_types_supported") }

/-- `assertAuthorizationDetailsSupported`. -/
def assertAuthorizationDetailsSupported (authorizationDetails : List AuthorizationDetail)
    (endpoints : AuthorizationEndpoints) : Except Error Unit :=
  if authorizationDetails.any fun detail =>
      !endpoints.authorizationDetailsTypesSupported.contains (detailType detail) then
    .error (invalidAuthorizationDetails
      "The authorization server does not support every configured authorization detail type.")
  else .ok ()

/-- `validateRequestedScopes`. -/
def validateRequestedScopes (resource : ApiResource) (requestedScopes : List String) :
    Except Error Unit :=
  if requestedScopes.any fun scope => !resource.declaredScopes.contains scope then
    .error (badRequest "Requested scope is not declared by the Resource Server scope registry.")
  else .ok ()

section Programs

variable [Platform]

omit [Platform] in
/-- `requireConnectionOwnerControl`. -/
def requireConnectionOwnerControl (actorUserId : String) : ConnectionOwner → Request Unit
  | .user => .pure ()
  | .organization organizationId => do
    let allowed ← requestOrganizationScope organizationId actorUserId "agents:write"
    throwIf (allowed = false) (forbidden "Organization credential manager access is required.")

/-- `requireActiveConnectorAuthorization`, with the endpoints of the record. -/
def requireConnectorEndpoints (resourceId : String) (clientGeneration : ℕ) :
    Request (ExternalResourceAuthorization × AuthorizationEndpoints) := do
  let missing := notFound "Active external API resource authorization was not found."
  let found ← query (·.findResource resourceId)
  let resource ← orThrow missing found
  let connectorId ← orThrow missing
    (if resource.authorizationModel = .external then truthy resource.connectorId else none)
  let connector ← query (·.findConnector connectorId)
  let resolved ← ofResult
    (resolveExternalAuthorization resourceId connector (some clientGeneration))
  let authorization ← orThrow missing
    (resolved.filter fun authorization => authorization.status = .active)
  let connector ← orThrow missing connector
  .pure (authorization, connector.endpoints)

/-- The error of a pushed request that is not accepted. -/
def pushedRequestError (response : PeerResponse) : Error :=
  let value := ((response.body.map fieldsOf).getD [])
  let text := fun field standard =>
    match value.field field with
    | some (.str value) => value
    | _ => standard
  oauthError (text "error" "invalid_request")
    (text "error_description"
      "External authorization server rejected the pushed authorization request.")
    (if 400 ≤ response.status then response.status else 400)

/-- `postPushedAuthorizationRequest`. -/
def postPushedAuthorizationRequest (url : String) (form : List (String × String))
    (clientId clientSecret : String) : Request Record := do
  let reply ← fetchPeer
    { method := "POST", url := url, form := form
      authentication := .client .basic clientId clientSecret }
  let response ← orThrow (.internal "fetch failed") reply
  throwIf (response.status ≠ 201) (pushedRequestError response)
  ofResult (readObject response "Pushed authorization response is invalid.")

/-- Where the user goes: the parameters are pushed when the server takes pushed requests and
details are asked for. -/
def authorizationRedirect (authorization : ExternalResourceAuthorization)
    (endpoints : AuthorizationEndpoints) (parameters : List (String × String))
    (authorizationDetails : List AuthorizationDetail) : Request AuthorizationRedirect :=
  match truthy endpoints.pushedAuthorizationRequestEndpoint with
  | some pushedEndpoint =>
    if authorizationDetails = [] then do
      let endpoint ← ofResult (Connectors.parseUrl endpoints.authorizationEndpoint)
      .pure { endpoint := endpoint, parameters := parameters }
    else do
      let pushed ← postPushedAuthorizationRequest pushedEndpoint parameters authorization.clientId
        authorization.encryptedClientSecret
      let requestUri ← ofResult
        (requiredString pushed "request_uri" "Pushed authorization response")
      let _ ← ofResult
        (requiredPositiveInteger pushed "expires_in" "Pushed authorization response")
      let endpoint ← ofResult (Connectors.parseUrl endpoints.authorizationEndpoint)
      .pure
        { endpoint := endpoint
          parameters := [("client_id", authorization.clientId), ("request_uri", requestUri)] }
  | none => do
    let endpoint ← ofResult (Connectors.parseUrl endpoints.authorizationEndpoint)
    .pure { endpoint := endpoint, parameters := parameters }

/-- `authorizationParameters`. -/
def authorizationParameters (resource : ApiResource)
    (clientId callbackOrigin state verifier : String) (scopes : List String)
    (authorizationDetails : List AuthorizationDetail) : List (String × String) :=
  [("response_type", "code"), ("prompt", "consent"), ("client_id", clientId),
    ("redirect_uri", resourceConnectionCallbackUrl callbackOrigin),
    ("scope", joinWithSpace scopes), ("state", state),
    ("code_challenge", Platform.sha256 verifier), ("code_challenge_method", "S256"),
    ("resource", resource.resourceUrl)] ++
    if authorizationDetails = [] then []
    else [("authorization_details", stringifyJson (.arr (authorizationDetails.map .obj)))]

/-- The target of an intent, and the connector that leads to it. -/
structure ConnectionTarget where
  resource : ApiResource
  connector : IdentityProviderConnector
  /-- The scopes that are asked for. -/
  scopes : List String

/-- The checks of `createResourceConnectionIntent`. -/
def connectionTarget (resourceId : String) (input : CreateResourceConnectionIntent)
    (actorUserId : String) : Request ConnectionTarget := do
  let found ← query (·.findResource resourceId)
  let candidate ← orThrow (notFound "External API resource was not found.") found
  throwIf (candidate.enabled = false)
    (notFound "Enabled external API resource was not found.")
  let resource ← requireEnabledResource resourceId
  throwIf (requiresAccountConnection resource = false)
    (badRequest "Realmroot-issued access does not use account connections.")
  let connectorId ← orThrow (.internal "External authorization requires a Provider Connector.")
    (truthy resource.connectorId)
  requireConnectionOwnerControl actorUserId input.owner
  ofResult (validateRequestedScopes resource input.scopes)
  let currentAuthorization ← requireActiveConnectorAuthorization resourceId none
  let found ← query (·.findConnector connectorId)
  let connector ← orThrow
    (badRequest "Provider Connector does not support resource authorization.")
    (found.filter fun connector => (resourceOAuthDriver connector).isSome)
  .pure
    { resource := resource, connector := connector
      scopes := connector.normalizeScopes (input.scopes ++
        (truthy currentAuthorization.authorizationDetailsCatalogScope).toList) }

/-- `createResourceConnectionIntent`. -/
def createResourceConnectionIntent (resourceId : String) (input : CreateResourceConnectionIntent)
    (actorUserId callbackOrigin : String) : Request CreatedConnectionIntent := do
  let target ← connectionTarget resourceId input actorUserId
  let clientGeneration ← Connectors.ensureDynamicConnectorScopes target.connector.id target.scopes
    callbackOrigin
  let resolved ← requireConnectorEndpoints resourceId clientGeneration
  let authorizationDetails := input.authorizationDetails.getD target.resource.authorizationDetails
  ofResult (assertAuthorizationDetailsSupported authorizationDetails resolved.2)
  let id ← generateId
  let state ← randomString
  let verifier ← randomString
  let now ← currentTime
  let authorizationUrl ← authorizationRedirect resolved.1 resolved.2
    (authorizationParameters target.resource resolved.1.clientId callbackOrigin state verifier
      target.scopes authorizationDetails)
    authorizationDetails
  let encryptedPkceVerifier ← sealSecret verifier (connectionIntentContext id)
  let created ← execute (.createConnectionIntent
    { id := id, stateHash := Platform.sha256 state, resourceId := resourceId
      ownerUserId := match input.owner with
        | .user => some actorUserId
        | .organization _ => none
      ownerOrganizationId := match input.owner with
        | .user => none
        | .organization organizationId => some organizationId
      initiatedByUserId := actorUserId, scopes := target.scopes
      authorizationDetails := authorizationDetails
      encryptedPkceVerifier := encryptedPkceVerifier, clientGeneration := clientGeneration
      status := .pending, expiresAt := now + 10 * 60 * 1000, completedAt := none
      updatedAt := now })
  let _ ← orThrow (notFound "Enabled external API resource was not found.") created
  .pure
    { id := id, resourceId := resourceId, owner := input.owner
      authorizationUrl := authorizationUrl, authorizationDetails := authorizationDetails
      expiresAt := now + 10 * 60 * 1000, createdAt := now }

end Programs

end Realmroot
