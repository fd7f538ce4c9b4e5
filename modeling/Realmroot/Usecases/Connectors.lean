import Realmroot.Usecases.ExternalAuthorization

/-!
# Connectors

The client that a connector registers at its authorization server: it is read,
updated or replaced until it has the scopes that are required.
-/

namespace Realmroot.Connectors

open AtomicProgram Error

def oidcClientBaseScopes : List String := ["openid", "profile", "email", "offline_access"]

/-! ## Reading documents -/

/-- `requiredString` of the connector use cases. -/
def requiredString (value : Record) (field label : String) : Except Error String :=
  match readString (value.field field) with
  | some result => .ok result
  | none => .error (badRequest (label ++ " requires " ++ field ++ "."))

/-- The strings of a list, if it has nothing else. -/
def stringEntries (entries : List Json) : Option (List String) :=
  entries.mapM fun entry =>
    match entry with
    | .str value => some value
    | _ => none

/-- `optionalStringArray`. -/
def optionalStringArray (value : Record) (field label : String) : Except Error (List String) :=
  match value.field field with
  | none => .ok []
  | some (.arr entries) =>
    match (stringEntries entries).filter fun strings => !strings.contains "" with
    | some strings => .ok (unique strings)
    | none => .error (badRequest (label ++ " has invalid " ++ field ++ "."))
  | _ => .error (badRequest (label ++ " has invalid " ++ field ++ "."))

/-- `scopeString` of the connector use cases. -/
def scopeString (value : String) : Option (List String) :=
  match splitWhiteSpace value with
  | [] => none
  | scopes => some (sortStrings (unique scopes))

/-- `typeof body.scope === 'string' ? scopeString(body.scope) : null`. -/
def returnedScopes (body : Record) : Option (List String) :=
  match body.field "scope" with
  | some (.str scope) => scopeString scope
  | _ => none

/-- `Boolean(value)`. -/
def isTruthy : Option Json → Bool
  | none => false
  | some .null => false
  | some (.bool value) => value
  | some (.num value) => value ≠ 0
  | some (.str value) => value ≠ ""
  | some (.arr _) => true
  | some (.obj _) => true

section Urls

variable [Platform]

/-- `new URL(value)`. -/
def parseUrl (value : String) : Except Error Url :=
  match Platform.parseUrl value with
  | some url => .ok url
  | none => .error (.internal "Invalid URL")

/-- `requireNetworkUrl`. -/
def requireNetworkUrl (value label : String) : Except Error String := do
  let url ← parseUrl value
  let loopback := url.hostname = "localhost" ∨ url.hostname = "127.0.0.1" ∨ url.hostname = "::1"
  if (url.protocol ≠ "https:" ∧ ¬ (loopback ∧ url.protocol = "http:")) ∨ url.username ≠ "" ∨
      url.password ≠ "" then
    .error (badRequest
      (label ++ " must use HTTPS, except for loopback development URLs, and contain no userinfo."))
  else .ok (withoutTrailingSlash (Platform.printUrl url))

/-- The URL of a document that an issuer publishes. -/
def discoveryUrl (document issuer : String) : Except Error String := do
  let url ← parseUrl issuer
  .ok (Platform.printUrl { url with
    pathname := "/.well-known/" ++ document ++ withoutTrailingSlash url.pathname
    search := "", hash := "" })

/-- `oidcDiscoveryUrl`. -/
def oidcDiscoveryUrl (issuer : String) : Except Error String :=
  discoveryUrl "openid-configuration" issuer

/-- `oauthAuthorizationServerDiscoveryUrl`. -/
def oauthAuthorizationServerDiscoveryUrl (issuer : String) : Except Error String :=
  discoveryUrl "oauth-authorization-server" issuer

/-- The endpoint of `authorizationDetailsCatalogMetadata`. -/
def catalogEndpoint (metadata : Record) : Except Error (Option String) :=
  if metadata.field "authorization_details_catalog_endpoint" = none then .ok none
  else do
    let value ← requiredString metadata "authorization_details_catalog_endpoint"
      "OIDC discovery response"
    let endpoint ← requireNetworkUrl value "authorization details catalog endpoint"
    .ok (some endpoint)

/-- Its scope. -/
def catalogScope (metadata : Record) : Except Error (Option String) :=
  if metadata.field "authorization_details_catalog_scope" = none then .ok none
  else do
    let scope ← requiredString metadata "authorization_details_catalog_scope"
      "OIDC discovery response"
    .ok (some scope)

/-- `authorizationDetailsCatalogMetadata`, of which the scope is read. -/
def authorizationDetailsCatalogMetadata (metadata : Record) : Except Error (Option String) := do
  let endpoint ← catalogEndpoint metadata
  let scope ← catalogScope metadata
  let version := metadata.field "authorization_details_catalog_version"
  if (truthy endpoint).isSome ≠ (truthy scope).isSome ∨
      (truthy endpoint).isSome ≠ isTruthy version then
    .error (badRequest ("OIDC discovery response must advertise " ++
      "authorization_details_catalog_endpoint, authorization_details_catalog_scope, and " ++
      "authorization_details_catalog_version together."))
  else if version ≠ none ∧ version ≠ some .null ∧ version ≠ some (.num 1) then
    .error (badRequest ("OIDC discovery response advertises an unsupported " ++
      "authorization_details_catalog_version."))
  else if scope.any fun value => value.toList.any isWhiteSpace then
    .error (badRequest "OIDC discovery response has invalid authorization_details_catalog_scope.")
  else .ok scope

end Urls

/-- `registrationScopes`. -/
def registrationScopes (metadata : Record) (authorizationDetailsCatalogScope : Option String) :
    Except Error (List String) := do
  let supported ← optionalStringArray metadata "scopes_supported" "OIDC discovery response"
  .ok (sortStrings (unique
    (oidcClientBaseScopes ++ supported ++ (truthy authorizationDetailsCatalogScope).toList)))

/-! ## Registrations -/

inductive RegistrationPurpose where
  | authentication
  | resourceAuthorization
  deriving DecidableEq, Repr

structure RegistrationRequest where
  clientName : String
  redirectUris : List String
  grantTypes : List String
  responseTypes : List String
  tokenEndpointAuthMethod : String
  scope : String
  jwksUri : Option String
  authorizationDetailsTypes : Option (List String)
  deriving DecidableEq

/-- `registrationRequest`. -/
def registrationRequest (origin providerId displayName : String)
    (authorizationDetailsTypes scopes : List String) (purpose : RegistrationPurpose) :
    RegistrationRequest :=
  let resourceAuthorization := purpose = .resourceAuthorization
  { clientName := "Realmroot " ++ displayName
    redirectUris :=
      [if resourceAuthorization then origin ++ "/oauth/account-connection/callback"
        else origin ++ "/api/auth/callback/" ++ encodeURIComponent providerId]
    grantTypes :=
      if resourceAuthorization then
        ["authorization_code", "refresh_token", "urn:ietf:params:oauth:grant-type:jwt-bearer",
          "urn:ietf:params:oauth:grant-type:token-exchange"]
      else ["authorization_code", "refresh_token"]
    responseTypes := ["code"]
    tokenEndpointAuthMethod := "client_secret_basic"
    scope := joinWithSpace scopes
    jwksUri := if resourceAuthorization then some (origin ++ "/api/auth/jwks") else none
    authorizationDetailsTypes :=
      if resourceAuthorization ∧ authorizationDetailsTypes ≠ [] then
        some authorizationDetailsTypes
      else none }

/-- A list of strings as a JSON value. -/
def stringArray (values : List String) : Json := .arr (values.map .str)

/-- The JSON document of a request. -/
def RegistrationRequest.record (request : RegistrationRequest) : Record :=
  [("client_name", .str request.clientName), ("redirect_uris", stringArray request.redirectUris),
    ("grant_types", stringArray request.grantTypes),
    ("response_types", stringArray request.responseTypes),
    ("token_endpoint_auth_method", .str request.tokenEndpointAuthMethod),
    ("scope", .str request.scope)] ++
    (request.jwksUri.toList.map fun uri => ("jwks_uri", Json.str uri)) ++
    request.authorizationDetailsTypes.toList.map fun types =>
      ("authorization_details_types", stringArray types)

/-- `sameStringSet`. -/
def sameStringSet (actual : Option Json) : Option (List String) → Bool
  | none => actual = none
  | some expected =>
    match actual with
    | some (.arr entries) =>
      (stringEntries entries).any fun strings =>
        sortStrings (unique strings) = sortStrings (unique expected)
    | _ => false

/-- `registrationMetadataMatches`. -/
def registrationMetadataMatches (actual : Record) (expected : RegistrationRequest) : Bool :=
  actual.field "client_name" = some (.str expected.clientName) &&
    actual.field "token_endpoint_auth_method" = some (.str expected.tokenEndpointAuthMethod) &&
    actual.field "jwks_uri" = expected.jwksUri.map .str &&
    sameStringSet (actual.field "redirect_uris") (some expected.redirectUris) &&
    sameStringSet (actual.field "grant_types") (some expected.grantTypes) &&
    sameStringSet (actual.field "response_types") (some expected.responseTypes) &&
    sameStringSet (actual.field "authorization_details_types") expected.authorizationDetailsTypes

/-- What `registrationResponse` takes from the client that is updated. -/
structure PreviousRegistration where
  clientSecret : String
  registrationClientUri : String
  registrationAccessToken : String

structure Registration where
  clientId : String
  clientSecret : String
  registrationClientUri : Option String
  registrationAccessToken : Option String
  registeredScopes : List String
  deriving DecidableEq

def registrationLabel : String := "Dynamic OIDC client registration response"

/-- The client secret of a response, or that of the client that is updated. -/
def returnedSecret (body : Record) (previous : Option PreviousRegistration) :
    Except Error String :=
  match readString (body.field "client_secret"), previous with
  | some secret, _ => .ok secret
  | none, some previous => .ok previous.clientSecret
  | none, none => requiredString body "client_secret" registrationLabel

section Registrations

variable [Platform]

/-- The management URI of a response, or that of the client that is updated. -/
def returnedClientUri (body : Record) (previous : Option PreviousRegistration) :
    Except Error (Option String) :=
  match body.field "registration_client_uri" with
  | some (.str value) => do
    let uri ← requireNetworkUrl value "registration client URI"
    .ok (some uri)
  | _ => .ok (previous.map (·.registrationClientUri))

/-- `registrationResponse`. -/
def registrationResponse (body : Record) (requestedScopes : List String)
    (previous : Option PreviousRegistration) : Except Error Registration :=
  if (returnedScopes body).any fun returned =>
      requestedScopes.any fun scope => !returned.contains scope then
    .error (badRequest "Dynamic OIDC client registration omitted a requested scope.")
  else do
    let registrationClientUri ← returnedClientUri body previous
    let clientId ← requiredString body "client_id" registrationLabel
    let clientSecret ← returnedSecret body previous
    .ok
      { clientId := clientId
        clientSecret := clientSecret
        registrationClientUri := registrationClientUri
        registrationAccessToken :=
          match body.field "registration_access_token" with
          | some (.str token) => some token
          | _ => previous.map (·.registrationAccessToken)
        registeredScopes := (returnedScopes body).getD requestedScopes }

/-! ## Requests to the authorization server -/

/-- `externalHttp.fetch`, which throws when the peer cannot be reached. -/
def fetchOrThrow (request : PeerRequest) : Request PeerResponse := do
  let reply ← fetchPeer request
  orThrow (.internal "fetch failed") reply

/-- The document behind a URL that is computed first. -/
def fetchDocument (url : Except Error String) : Request PeerResponse := do
  let url ← ofResult url
  fetchOrThrow { method := "GET", url := url, authentication := .none }

/-- The second document of an issuer, when the first one was refused. -/
def fetchAlternative (issuer : String) (response : PeerResponse) : Request PeerResponse :=
  if response.ok then .pure response
  else fetchDocument (oauthAuthorizationServerDiscoveryUrl issuer)

/-- `fetchOidcMetadata`. -/
def fetchOidcMetadata (issuer : String) : Request Record := do
  let first ← fetchDocument (oidcDiscoveryUrl issuer)
  let response ← fetchAlternative issuer first
  throwIf (response.ok = false) (badRequest "OAuth authorization server discovery failed.")
  let metadata ← ofResult (readObject response "OIDC discovery response is invalid.")
  throwIf (metadata.field "issuer" ≠ some (.str issuer))
    (badRequest "OIDC discovery issuer does not match the configured issuer.")
  pure metadata

/-- `registerOidcClient`. -/
def registerOidcClient (endpoint : String) (request : RegistrationRequest)
    (scopes : List String) : Request Registration := do
  let response ← fetchOrThrow
    { method := "POST", url := endpoint, authentication := .none
      json := some (.obj request.record) }
  throwIf (response.ok = false) (badRequest "Dynamic OIDC client registration failed.")
  let body ← ofResult
    (readObject response "Dynamic OIDC client registration response is invalid.")
  ofResult (registrationResponse body scopes none)

/-! ## Ensuring scopes -/

def retiredResourceClientSecretContext (connectorId : String) (generation : ℕ) : String :=
  "connector:" ++ connectorId ++ ":resource-client-generation:" ++ toString generation ++
    ":client-secret"

/-- The client of a connector, with what a registration needs. -/
structure DynamicClient where
  issuer : String
  registrationEndpoint : String
  clientId : String
  clientSecret : String

def dynamicClient (connector : IdentityProviderConnector) : Option DynamicClient := do
  let issuer ← truthy connector.resourceIssuer
  let registrationEndpoint ← truthy connector.resourceRegistrationEndpoint
  let clientId ← truthy connector.resourceClientId
  let clientSecret ← truthy connector.resourceClientSecret
  some { issuer := issuer, registrationEndpoint := registrationEndpoint, clientId := clientId
         clientSecret := clientSecret }

/-- The management URI and token of a registered client. -/
structure Management where
  uri : String
  token : String

def management (connector : IdentityProviderConnector) : Option Management := do
  let uri ← truthy connector.resourceRegistrationClientUri
  let token ← truthy connector.resourceRegistrationAccessToken
  some { uri := uri, token := token }

/-- Every required scope is registered. -/
def hasRegistered (connector : IdentityProviderConnector) (requiredScopes : List String) : Bool :=
  requiredScopes.all fun scope =>
    connector.resourceRegisteredScopes.any fun scopes => scopes.contains scope

/-- The answers after which the client is replaced. -/
def unmanaged (status : ℕ) : Bool := [401, 404, 405, 501].contains status

/-- The registered client is read back: whether it is as it was registered. -/
def readRegistration (connector : IdentityProviderConnector) (client : DynamicClient)
    (management : Management) (requiredScopes : List String) (callbackOrigin : String) :
    Request Bool := do
  let types ← ofResult (optionalStringArray (connector.resourceProviderMetadata.getD [])
    "authorization_details_types_supported" "OIDC discovery response")
  let url ← ofResult (requireNetworkUrl management.uri "registration client URI")
  let response ← fetchOrThrow
    { method := "GET", url := url, authentication := .bearer management.token }
  if response.ok then do
    let body ← ofResult
      (readObject response "Dynamic OIDC client registration response is invalid.")
    let clientId ← ofResult (requiredString body "client_id" registrationLabel)
    throwIf (clientId ≠ client.clientId)
      (badRequest "Dynamic OIDC registration management changed the client identifier.")
    pure ((returnedScopes body).any (fun scopes => requiredScopes.all scopes.contains) &&
      registrationMetadataMatches body
        (registrationRequest (withoutTrailingSlash callbackOrigin) connector.providerId
          connector.displayName types
          (connector.resourceRegisteredScopes.getD requiredScopes) .resourceAuthorization))
  else do
    throwIf (unmanaged response.status = false)
      (badRequest "Dynamic OIDC client registration read failed.")
    pure false

/-- What an update of the registered client changes on the connector: the id stays. -/
def updatePatch (updated : Registration) (metadata : Record) (now : Time) : ConnectorPatch :=
  { resourceClientSecret := some (some updated.clientSecret)
    resourceRegistrationClientUri := some updated.registrationClientUri
    resourceRegistrationAccessToken := some updated.registrationAccessToken
    resourceRegisteredScopes := some (some updated.registeredScopes)
    resourceProviderMetadata := some (some metadata)
    updatedAt := now }

/-- The registered client is updated by PUT: whether the server did so. The connector is
written by its id alone. -/
def updateRegistration (connector : IdentityProviderConnector) (client : DynamicClient)
    (management : Management) (metadata : Record) (desiredScopes : List String)
    (requestBody : RegistrationRequest) : Request Bool := do
  let url ← ofResult (requireNetworkUrl management.uri "registration client URI")
  let response ← fetchOrThrow
    { method := "PUT", url := url, authentication := .bearer management.token
      json := some (.obj (("client_id", .str client.clientId) :: requestBody.record)) }
  if response.ok then do
    let body ← ofResult
      (readObject response "Dynamic OIDC client registration update response is invalid.")
    let updated ← ofResult (registrationResponse body desiredScopes
      (some { clientSecret := client.clientSecret, registrationClientUri := management.uri
              registrationAccessToken := management.token }))
    throwIf (updated.clientId ≠ client.clientId)
      (badRequest "Dynamic OIDC registration management changed the client identifier.")
    let now ← currentTime
    let _ ← executeConnector (.update connector.id (updatePatch updated metadata now))
    pure true
  else do
    throwIf (unmanaged response.status = false)
      (badRequest "Dynamic OIDC client registration update failed.")
    pure false

/-- What a rotation changes on the connector. -/
def rotationPatch (connector : IdentityProviderConnector) (replacement : Registration)
    (retired : RetiredOAuthClientGeneration) (metadata : Record) (now : Time) : ConnectorPatch :=
  { resourceClientId := some (some replacement.clientId)
    resourceClientSecret := some (some replacement.clientSecret)
    resourceRegistrationClientUri := some replacement.registrationClientUri
    resourceRegistrationAccessToken := some replacement.registrationAccessToken
    resourceRegisteredScopes := some (some replacement.registeredScopes)
    resourceClientGeneration := some (connector.resourceClientGeneration + 1)
    resourceRetiredClientGenerations :=
      some (some (connector.resourceRetiredClientGenerations.getD [] ++ [retired]))
    resourceProviderMetadata := some (some metadata)
    updatedAt := now }

/-- A new client takes the place of the registered one, which is retired. -/
def rotateClient (connector : IdentityProviderConnector) (client : DynamicClient)
    (metadata : Record) (requiredScopes desiredScopes : List String)
    (requestBody : RegistrationRequest) : Request ℕ := do
  let generation := connector.resourceClientGeneration
  let replacement ← registerOidcClient client.registrationEndpoint requestBody desiredScopes
  let context := retiredResourceClientSecretContext connector.id generation
  let encryptedClientSecret ← sealSecret client.clientSecret context
  let now ← currentTime
  let rotated ← executeConnector (.rotate connector.id generation
    (rotationPatch connector replacement
      { generation := generation, clientId := client.clientId
        encryptedClientSecret := encryptedClientSecret, clientSecretContext := context }
      metadata now))
  if rotated then pure (generation + 1)
  else do
    let found ← query (·.findConnector connector.id)
    match found.filter fun winner =>
        generation < winner.resourceClientGeneration && hasRegistered winner requiredScopes with
    | some winner => pure winner.resourceClientGeneration
    | none => throw (badRequest
        "Dynamic OIDC client registration changed concurrently; retry the authorization request.")

/-- The registered client is brought up to what is required. -/
def reviseRegistration (connector : IdentityProviderConnector) (client : DynamicClient)
    (requiredScopes : List String) (callbackOrigin : String) : Request ℕ := do
  let metadata ← fetchOidcMetadata client.issuer
  let catalogScope ← ofResult (authorizationDetailsCatalogMetadata metadata)
  let desiredScopes ← ofResult (registrationScopes metadata catalogScope)
  throwIf (requiredScopes.any fun scope => !desiredScopes.contains scope)
    (badRequest "The authorization server does not advertise every requested scope.")
  let types ← ofResult (optionalStringArray metadata "authorization_details_types_supported"
    "OIDC discovery response")
  let requestBody := registrationRequest (withoutTrailingSlash callbackOrigin)
    connector.providerId connector.displayName types desiredScopes .resourceAuthorization
  match management connector with
  | none => rotateClient connector client metadata requiredScopes desiredScopes requestBody
  | some management => do
    let updated ←
      updateRegistration connector client management metadata desiredScopes requestBody
    if updated then pure connector.resourceClientGeneration
    else rotateClient connector client metadata requiredScopes desiredScopes requestBody

/-- `ensureDynamicConnectorScopes`: the generation of the client that has the scopes. -/
def ensureDynamicConnectorScopes (connectorId : String) (requiredScopes : List String)
    (callbackOrigin : String) : Request ℕ := do
  let found ← query (·.findConnector connectorId)
  let connector ← orThrow (notFound "Connector not found.") found
  if connector.resourceRegistrationMode ≠ some .dynamic then
    pure connector.resourceClientGeneration
  else do
    let client ← orThrow (badRequest "Dynamic resource authorization client is incomplete.")
      (dynamicClient connector)
    if hasRegistered connector requiredScopes then
      match management connector with
      | none => pure connector.resourceClientGeneration
      | some management => do
        let current ←
          readRegistration connector client management requiredScopes callbackOrigin
        if current then pure connector.resourceClientGeneration
        else reviseRegistration connector client requiredScopes callbackOrigin
    else reviseRegistration connector client requiredScopes callbackOrigin

end Registrations

end Realmroot.Connectors
