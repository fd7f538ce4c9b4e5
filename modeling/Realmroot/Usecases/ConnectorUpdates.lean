import Realmroot.Usecases.Connections
import Realmroot.Usecases.Connectors

/-!
# Updates of connectors

An administrator changes a connector. When its resource authorization changes, the
client is set anew at generation 1, and then what was authorized with the old one is
revoked.
-/

namespace Realmroot.Connectors

open AtomicProgram Error

/-! ## Providers -/

def socialProviderIds : List String :=
  ["apple", "atlassian", "cognito", "discord", "dropbox", "facebook", "figma", "github", "gitlab",
    "google", "huggingface", "kick", "kakao", "linear", "linkedin", "line", "microsoft", "naver",
    "notion", "paybin", "paypal", "polar", "railway", "reddit", "roblox", "salesforce", "slack",
    "spotify", "tiktok", "twitch", "twitter", "vercel", "vk", "wechat", "zoom"]

/-- `isSupportedProvider`. -/
def isSupportedProvider (providerType providerId : String) : Bool :=
  providerType = "generic_oauth" || socialProviderIds.contains providerId

/-- `connectorCapabilities(…).resourceAuthorization`. -/
def supportsResourceAuthorization (providerType providerId : String) : Bool :=
  providerType = "generic_oauth" || providerId = "linear" || providerId = "github"

/-! ## Complete connectors -/

/-- A string of the provider metadata that is there and not empty. -/
def hasProviderMetadata (connector : IdentityProviderConnector) (field : String) : Bool :=
  (readString ((connector.providerMetadata.getD []).field field)).isSome

/-- `assertSocialProviderComplete`. -/
def assertSocialProviderComplete (connector : IdentityProviderConnector) : Except Error Unit :=
  if connector.providerId ≠ "cognito" then .ok ()
  else
    match ["domain", "region", "userPoolId"].find? fun field =>
        !hasProviderMetadata connector field with
    | some field => .error (badRequest
        ("Enabled Cognito connector requires providerMetadata." ++ field ++ "."))
    | none => .ok ()

/-- `assertGenericOAuthComplete`. -/
def assertGenericOAuthComplete (connector : IdentityProviderConnector) : Except Error Unit :=
  if truthy connector.issuer = none then
    .error (badRequest "Enabled OIDC connector requires issuer discovery.")
  else if truthy connector.authorizationEndpoint = none ∨ truthy connector.tokenEndpoint = none ∨
      truthy connector.userInfoEndpoint = none then
    .error (badRequest ("Enabled OIDC connector requires discovered authorization, token, " ++
      "and userinfo endpoints."))
  else .ok ()

/-- The checks of `assertComplete` on the client for signing in. -/
def assertAuthenticationComplete (connector : IdentityProviderConnector) : Except Error Unit :=
  if truthy connector.clientId = none then
    .error (badRequest "Enabled authentication requires clientId.")
  else if truthy connector.clientSecret = none then
    .error (badRequest "Enabled authentication requires clientSecret.")
  else if connector.providerType = "social" then assertSocialProviderComplete connector
  else if connector.providerType = "generic_oauth" then assertGenericOAuthComplete connector
  else .ok ()

/-- `assertResourceAuthorizationComplete`. -/
def assertResourceAuthorizationComplete (connector : IdentityProviderConnector) :
    Except Error Unit :=
  if [connector.resourceClientId, connector.resourceClientSecret, connector.resourceIssuer,
      connector.resourceAuthorizationEndpoint, connector.resourceTokenEndpoint,
      connector.resourceUserInfoEndpoint, connector.resourceJwksEndpoint,
      connector.resourceRevocationEndpoint].any fun value => (truthy value).isNone then
    .error (badRequest
      "Enabled resource authorization requires a complete external OAuth client.")
  else .ok ()

/-- `assertComplete`. -/
def assertComplete (connector : IdentityProviderConnector) : Except Error Unit :=
  if connector.enabled = false then .ok ()
  else if isSupportedProvider connector.providerType connector.providerId = false then
    .error (badRequest "Unsupported social provider.")
  else do
    if connector.authenticationEnabled then assertAuthenticationComplete connector else .ok ()
    if connector.resourceAuthorizationEnabled then assertResourceAuthorizationComplete connector
    else .ok ()

/-! ## Clients -/

structure OidcConnectorInput where
  issuer : Option String
  registrationMode : Option RegistrationMode
  clientId : Option String
  clientSecret : Option String
  providerId : String
  displayName : String

/-- What `prepareOidcConnector` reads of the metadata of an issuer. -/
structure OidcEndpoints where
  authorizationEndpoint : String
  tokenEndpoint : String
  userInfoEndpoint : String
  jwksEndpoint : String
  registrationEndpoint : Option String
  revocationEndpoint : Option String
  authorizationDetailsTypes : List String
  registeredScopes : List String

/-- What `prepareOidcConnector` returns. -/
structure OidcConnector where
  issuer : String
  endpoints : OidcEndpoints
  clientId : String
  clientSecret : String
  registrationAccessToken : Option String
  registrationClientUri : Option String
  registeredScopes : Option (List String)
  metadata : Record

structure ResourceAuthorizationInput where
  enabled : Bool
  registrationMode : RegistrationMode
  clientId : Option String
  clientSecret : Option String
  issuer : String

structure UpdateConnectorRequest where
  displayName : Option String := none
  enabled : Option Bool := none
  authenticationEnabled : Option Bool := none
  clientId : Option (Option String) := none
  clientSecret : Option (Option String) := none
  providerMetadata : Option Record := none
  /-- `null` removes the resource authorization. -/
  resourceAuthorization : Option (Option ResourceAuthorizationInput) := none

/-- `assertResourceAuthorizationCapability`. -/
def assertResourceAuthorizationCapability (providerType providerId : String)
    (input : Option ResourceAuthorizationInput) : Except Error Unit :=
  if input.any (·.enabled) && !supportsResourceAuthorization providerType providerId then
    .error (badRequest "Connector driver does not support resource authorization.")
  else .ok ()

section Programs

variable [Platform]

/-- `requiredMetadataUrl`. -/
def requiredMetadataUrl (metadata : Record) (field : String) : Except Error String := do
  let value ← requiredString metadata field "OIDC discovery response"
  requireNetworkUrl value field

/-- The URL of a field of the metadata, if it has a string there. -/
def optionalMetadataUrl (metadata : Record) (field label : String) :
    Except Error (Option String) :=
  match metadata.field field with
  | some (.str value) => do
    let url ← requireNetworkUrl value label
    .ok (some url)
  | _ => .ok none

def oidcEndpoints (metadata : Record) : Except Error OidcEndpoints := do
  let authorizationEndpoint ← requiredMetadataUrl metadata "authorization_endpoint"
  let tokenEndpoint ← requiredMetadataUrl metadata "token_endpoint"
  let userInfoEndpoint ← requiredMetadataUrl metadata "userinfo_endpoint"
  let jwksEndpoint ← requiredMetadataUrl metadata "jwks_uri"
  let registrationEndpoint ←
    optionalMetadataUrl metadata "registration_endpoint" "registration endpoint"
  let revocationEndpoint ← optionalMetadataUrl metadata "revocation_endpoint" "revocation endpoint"
  let authorizationDetailsTypes ← optionalStringArray metadata
    "authorization_details_types_supported" "OIDC discovery response"
  let catalogScope ← authorizationDetailsCatalogMetadata metadata
  let registeredScopes ← registrationScopes metadata catalogScope
  .ok
    { authorizationEndpoint := authorizationEndpoint, tokenEndpoint := tokenEndpoint
      userInfoEndpoint := userInfoEndpoint, jwksEndpoint := jwksEndpoint
      registrationEndpoint := registrationEndpoint, revocationEndpoint := revocationEndpoint
      authorizationDetailsTypes := authorizationDetailsTypes
      registeredScopes := registeredScopes }

/-- The issuer of a connector: a URL without a query or a fragment. -/
def oidcIssuer (input : Option String) : Except Error String :=
  match truthy input with
  | none => .error (badRequest "OIDC connectors require an issuer.")
  | some value => do
    let url ← requireNetworkUrl value "OIDC issuer"
    let issuer := withoutTrailingSlash url
    let issuerUrl ← parseUrl issuer
    if issuerUrl.search ≠ "" ∨ issuerUrl.hash ≠ "" then
      .error (badRequest "OIDC issuer cannot contain a query or fragment.")
    else .ok issuer

/-- The client of a manual registration: the one that is given. -/
def manualClient (input : OidcConnectorInput) (issuer : String) (endpoints : OidcEndpoints)
    (metadata : Record) : Except Error OidcConnector :=
  match truthy input.clientId, truthy input.clientSecret with
  | some clientId, some clientSecret => .ok
      { issuer := issuer, endpoints := endpoints, clientId := clientId
        clientSecret := clientSecret, registrationAccessToken := none
        registrationClientUri := none, registeredScopes := none, metadata := metadata }
  | _, _ => .error (badRequest "Manual OIDC registration requires client credentials.")

/-- The client of a dynamic registration: a new one. -/
def dynamicallyRegistered (input : OidcConnectorInput) (callbackOrigin : Option String)
    (purpose : RegistrationPurpose) (issuer : String) (endpoints : OidcEndpoints)
    (metadata : Record) : Request OidcConnector := do
  let registrationEndpoint ← orThrow
    (badRequest "OIDC provider does not support dynamic client registration.")
    (truthy endpoints.registrationEndpoint)
  let origin ← orThrow
    (.internal "Dynamic OIDC registration requires the configured base URL.")
    (truthy callbackOrigin)
  let registration ← registerOidcClient registrationEndpoint
    (registrationRequest (withoutTrailingSlash origin) input.providerId input.displayName
      endpoints.authorizationDetailsTypes endpoints.registeredScopes purpose)
    endpoints.registeredScopes
  pure
    { issuer := issuer, endpoints := endpoints, clientId := registration.clientId
      clientSecret := registration.clientSecret
      registrationAccessToken := registration.registrationAccessToken
      registrationClientUri := registration.registrationClientUri
      registeredScopes := some registration.registeredScopes, metadata := metadata }

/-- `prepareOidcConnector`. -/
def prepareOidcConnector (input : OidcConnectorInput) (callbackOrigin : Option String)
    (purpose : RegistrationPurpose) : Request OidcConnector := do
  let issuer ← ofResult (oidcIssuer input.issuer)
  let metadata ← fetchOidcMetadata issuer
  let endpoints ← ofResult (oidcEndpoints metadata)
  match input.registrationMode.getD .manual with
  | .manual => ofResult (manualClient input issuer endpoints metadata)
  | .dynamic => dynamicallyRegistered input callbackOrigin purpose issuer endpoints metadata

/-! ## Updating -/

/-- The client for the resource authorization of an update. -/
def prepareResourceOidc (current : IdentityProviderConnector) (input : UpdateConnectorRequest)
    (callbackOrigin : Option String) : Request (Option OidcConnector) :=
  match input.resourceAuthorization.join with
  | none => .pure none
  | some resource => do
    let prepared ← prepareOidcConnector
      { issuer := some resource.issuer, registrationMode := some resource.registrationMode
        clientId := resource.clientId.or current.resourceClientId
        clientSecret := resource.clientSecret.or current.resourceClientSecret
        providerId := current.providerId
        displayName := input.displayName.getD current.displayName }
      callbackOrigin .resourceAuthorization
    pure (some prepared)

/-- The columns that an update sets outside of the resource authorization. -/
def connectorInput (input : UpdateConnectorRequest) (now : Time) : ConnectorPatch :=
  { displayName := input.displayName, enabled := input.enabled
    authenticationEnabled := input.authenticationEnabled, clientId := input.clientId
    clientSecret := input.clientSecret, providerMetadata := input.providerMetadata
    updatedAt := now }

/-- `resourcePatch`: a resource authorization begins anew at generation 1. -/
def withResourcePatch (resource : Option ResourceAuthorizationInput)
    (resourceOidc : Option OidcConnector) (patch : ConnectorPatch) : ConnectorPatch :=
  { patch with
    resourceAuthorizationEnabled := some (resource.any (·.enabled))
    resourceClientId := some (resourceOidc.map (·.clientId))
    resourceClientSecret := some (resourceOidc.map (·.clientSecret))
    resourceIssuer := some (resourceOidc.map (·.issuer))
    resourceAuthorizationEndpoint := some (resourceOidc.map (·.endpoints.authorizationEndpoint))
    resourceTokenEndpoint := some (resourceOidc.map (·.endpoints.tokenEndpoint))
    resourceUserInfoEndpoint := some (resourceOidc.map (·.endpoints.userInfoEndpoint))
    resourceJwksEndpoint := some (resourceOidc.map (·.endpoints.jwksEndpoint))
    resourceRegistrationEndpoint := some (resourceOidc.bind (·.endpoints.registrationEndpoint))
    resourceRevocationEndpoint := some (resourceOidc.bind (·.endpoints.revocationEndpoint))
    resourceRegistrationMode := some (resource.map (·.registrationMode))
    resourceRegistrationClientUri := some (resourceOidc.bind (·.registrationClientUri))
    resourceRegistrationAccessToken := some (resourceOidc.bind (·.registrationAccessToken))
    resourceRegisteredScopes := some (resourceOidc.bind (·.registeredScopes))
    resourceClientGeneration := some 1
    resourceRetiredClientGenerations := some none
    resourceProviderMetadata := some (resourceOidc.map (·.metadata)) }

/-- What an update writes. -/
def connectorPatch (input : UpdateConnectorRequest) (resourceOidc : Option OidcConnector)
    (now : Time) : ConnectorPatch :=
  match input.resourceAuthorization with
  | none => connectorInput input now
  | some resource => withResourcePatch resource resourceOidc (connectorInput input now)

/-- What was authorized with the client before is revoked when the client is set anew. -/
def revokeReplaced (id : String) (input : UpdateConnectorRequest) (now : Time) : Request Unit :=
  match input.resourceAuthorization with
  | none => .pure ()
  | some _ => do
    let _ ← revokeResourceAuthorizationsByConnector id now
    pure ()

/-- `updateConnector`. -/
def updateConnector (id : String) (input : UpdateConnectorRequest)
    (callbackOrigin : Option String) : Request IdentityProviderConnector := do
  let found ← query (·.findConnector id)
  let current ← orThrow (notFound "Connector not found.") found
  ofResult (assertResourceAuthorizationCapability current.providerType current.providerId
    input.resourceAuthorization.join)
  let resourceOidc ← prepareResourceOidc current input callbackOrigin
  let now ← currentTime
  let patch := connectorPatch input resourceOidc now
  ofResult (assertComplete (patch.apply current))
  let updated ← executeConnector (.update id patch)
  let updated ← orThrow (notFound "Connector not found.") updated
  revokeReplaced id input now
  ofResult (assertComplete updated)
  pure updated

end Programs

end Realmroot.Connectors
