import Realmroot.Middleware.Authz
import Realmroot.Usecases.Consents
import Realmroot.Usecases.ResourceDiscovery
import Realmroot.Usecases.Resources

/-!
# Changing a resource

An administrator changes a resource and the grant modes of its scopes, and a refresh reads again
what the resource publishes. Both read the resource, talk to its server, and then replace the
scope registry with one that they made of what they had read.
-/

namespace Realmroot

open AtomicProgram Error Connectors

/-! ## The connector of a resource -/

section Boundary

variable [Platform]

/-- `requireNetworkUrl` of the resource connectors. -/
def requireResourceNetworkUrl (value label : String) : Except Error String := do
  let url ← parseUrl value
  let loopback := url.hostname = "localhost" ∨ url.hostname = "127.0.0.1" ∨ url.hostname = "::1"
  if (url.protocol ≠ "https:" ∧ ¬ (loopback ∧ url.protocol = "http:")) ∨ url.username ≠ "" ∨
      url.password ≠ "" then
    .error (badRequest
      (label ++ " must use HTTPS, except for loopback development URLs, and contain no userinfo."))
  else .ok (Platform.printUrl url)

/-- `refreshDynamicConnectorMetadata`, after the connector was read. -/
def refreshConnectorMetadata (connector : IdentityProviderConnector) (issuer : String) :
    Request Unit := do
  let metadata ← fetchOidcMetadata issuer
  let authorizationEndpoint ←
    ofResult (requiredMetadataUrl metadata "authorization_endpoint")
  let tokenEndpoint ← ofResult (requiredMetadataUrl metadata "token_endpoint")
  let userInfoEndpoint ← ofResult (requiredMetadataUrl metadata "userinfo_endpoint")
  let jwksEndpoint ← ofResult (requiredMetadataUrl metadata "jwks_uri")
  let registrationEndpoint ← ofResult
    (optionalMetadataUrl metadata "registration_endpoint" "registration endpoint")
  let revocationEndpoint ← ofResult
    (optionalMetadataUrl metadata "revocation_endpoint" "revocation endpoint")
  let now ← currentTime
  let _ ← executeConnector (.update connector.id
    { resourceAuthorizationEndpoint := some (some authorizationEndpoint)
      resourceTokenEndpoint := some (some tokenEndpoint)
      resourceUserInfoEndpoint := some (some userInfoEndpoint)
      resourceJwksEndpoint := some (some jwksEndpoint)
      resourceRegistrationEndpoint := some registrationEndpoint
      resourceRevocationEndpoint := some revocationEndpoint
      resourceProviderMetadata := some (some metadata), updatedAt := now })
  pure ()

/-- `refreshDynamicConnectorMetadata`. -/
def refreshDynamicConnectorMetadata (connectorId : String) : Request Unit := do
  let connector ← query (·.findConnector connectorId)
  let connector ← orThrow (notFound "Connector not found.") connector
  if connector.resourceRegistrationMode ≠ some .dynamic then .pure ()
  else do
    let issuer ← orThrow (badRequest "Dynamic resource authorization client is incomplete.")
      (truthy connector.resourceIssuer)
    refreshConnectorMetadata connector issuer

/-- The credentials of `validateExternalResourceConnector`: the issuer of the connector. -/
def completeConnectorIssuer (connector : IdentityProviderConnector) : Except Error String :=
  if !supportsResourceAuthorization connector.providerType connector.providerId then
    .error (badRequest "Connector driver does not support resource authorization.")
  else
    match truthy connector.resourceIssuer with
    | some issuer =>
      if connector.enabled && connector.resourceAuthorizationEnabled &&
          (truthy connector.resourceClientId).isSome &&
          (truthy connector.resourceClientSecret).isSome &&
          (truthy connector.resourceJwksEndpoint).isSome &&
          (resourceOAuthDriver connector).isSome then .ok issuer
      else .error (badRequest
        "Provider Connector must have complete resource authorization credentials.")
    | none => .error (badRequest
        "Provider Connector must have complete resource authorization credentials.")

/-- The authorization server that the metadata of the resource advertises. -/
def advertisedIssuer (metadata : ProtectedResourceMetadata) : Except Error String :=
  match metadata.authorizationServers with
  | [issuer] =>
    (requireResourceNetworkUrl issuer "authorization server issuer").map withoutTrailingSlash
  | _ => .error (badRequest
      "External API resource must advertise exactly one authorization server.")

/-- The grants that the provider of a connector has to support. -/
def requiredGrants : List String :=
  ["authorization_code", "refresh_token", "urn:ietf:params:oauth:grant-type:jwt-bearer",
    "urn:ietf:params:oauth:grant-type:token-exchange"]

/-- A pushed authorization request endpoint is a URL when it is advertised. -/
def validPushedEndpoint (value : Option Json) : Except Error Unit :=
  match value with
  | none => .ok ()
  | some (.str endpoint) =>
    (requireResourceNetworkUrl endpoint "pushed authorization request endpoint").map fun _ => ()
  | some _ => .error (badRequest
      "Pushed authorization request endpoint must be a URL when advertised.")

/-- The catalog of authorization details is advertised as a whole, or not at all. -/
def validCatalog (endpoint scope version : Option Json) : Except Error Unit :=
  if endpoint = none ∧ scope = none ∧ version = none then .ok ()
  else
    match endpoint, scope with
    | some (.str endpoint), some (.str scope) =>
      if scope = "" ∨ scope.toList.any isWhiteSpace ∨ version ≠ some (.num 1) then
        .error (badRequest ("Authorization detail catalog metadata must provide a valid " ++
          "endpoint, scope, and version 1 together."))
      else
        (requireResourceNetworkUrl endpoint "authorization detail catalog endpoint").map
          fun _ => ()
    | _, _ =>
      .error (badRequest ("Authorization detail catalog metadata must provide a valid " ++
        "endpoint, scope, and version 1 together."))

/-- The provider supports the type of an authorization detail. -/
def supportsDetail (supportedTypes : List String) (detail : AuthorizationDetail) : Bool :=
  match Record.field detail "type" with
  | some (.str type) => supportedTypes.contains type
  | _ => false

/-- The checks of `validateExternalResourceConnector` on the connector that was read. -/
def validateConnector (connector : IdentityProviderConnector) (resourceUrl : String)
    (authorizationDetails : List AuthorizationDetail) (metadata : ProtectedResourceMetadata) :
    Except Error Unit := do
  let connectorIssuer ← completeConnectorIssuer connector
  let _ ← requireResourceNetworkUrl resourceUrl "resource URL"
  let issuer ← advertisedIssuer metadata
  if issuer ≠ withoutTrailingSlash connectorIssuer then
    .error (badRequest ("External API resource authorization server does not match the " ++
      "selected Provider Connector."))
  else if ¬ requiredGrants.all
      (stringArrayOrEmpty (connector.metadata "grant_types_supported")).contains then
    .error (badRequest ("OIDC connector must support authorization_code, refresh_token, the " ++
      "RFC 7523 JWT bearer grant, and RFC 8693 token exchange."))
  else if stringArrayOrEmpty (connector.metadata "dpop_signing_alg_values_supported") = [] then
    .error (badRequest
      "OIDC connector must advertise RFC 9449 DPoP support for external API access.")
  else if authorizationDetails = [] then .ok ()
  else if ¬ authorizationDetails.all
      (supportsDetail
        (stringArrayOrEmpty (connector.metadata "authorization_details_types_supported"))) then
    .error (badRequest
      "OIDC connector does not support every configured authorization detail type.")
  else do
    validPushedEndpoint (connector.metadata "pushed_authorization_request_endpoint")
    validCatalog (connector.metadata "authorization_details_catalog_endpoint")
      (connector.metadata "authorization_details_catalog_scope")
      (connector.metadata "authorization_details_catalog_version")

/-- `validateExternalResourceConnector`, with the metadata that was read before it. -/
def validateExternalResourceConnector (resourceUrl connectorId : String)
    (authorizationDetails : List AuthorizationDetail) (metadata : ProtectedResourceMetadata) :
    Request Unit := do
  let connector ← query (·.findConnector connectorId)
  let connector ← orThrow (notFound "Provider Connector was not found.") connector
  ofResult (validateConnector connector resourceUrl authorizationDetails metadata)

/-- `validateResourceProviderBoundary`. -/
def validateResourceProviderBoundary (resourceUrl : String)
    (authorizationModel : AuthorizationModel) (connectorId : Option String)
    (authorizationDetails : List AuthorizationDetail) (metadata : ProtectedResourceMetadata) :
    Request Unit :=
  match authorizationModel, truthy connectorId with
  | .external, some connectorId =>
    validateExternalResourceConnector resourceUrl connectorId authorizationDetails metadata
  | .external, none =>
    .throw (badRequest "External authorization requires a Provider Connector.")
  | .native, some _ =>
    .throw (badRequest "Native authorization does not use a Provider Connector.")
  | .native, none => .pure ()

end Boundary

/-! ## Refreshing -/

/-- `realmrootRegistry`; the URL of the document is that of the server's own API. -/
def realmrootRegistry (sourceUrl : String) (now : Time) : ResourceScopeRegistry :=
  { discovery :=
      { sourceUrl := sourceUrl, etag := none, documentHash := "system-managed", syncedAt := now
        lastError := none }
    scopes := realmrootOrganizationScopes.map fun value =>
      { value := value, description := none
        grantMode := if value = "agents:write" then .automatic else .assigned } }

/-- `synchronizationError`. -/
def synchronizationError : Error → SynchronizationError
  | .api _ code message => { code := code, message := message }
  | .oauth _ _ message => { code := .internalError, message := message }
  | .internal message => { code := .internalError, message := message }
  | .constraint name => { code := .internalError, message := name }

section Programs

variable [Platform]

/-- The part of a refresh that only an external resource has. -/
def refreshConnector (resource : ApiResource) (metadata : ProtectedResourceMetadata) :
    Request Unit :=
  match truthy resource.connectorId with
  | some connectorId => do
    let _ ← refreshDynamicConnectorMetadata connectorId
    validateResourceProviderBoundary resource.resourceUrl resource.authorizationModel
      resource.connectorId resource.authorizationDetails metadata
  | none => .pure ()

/-- What a refresh does before its last read; the repository answers that the resource is
there, whether or not it is. -/
def synchronizeResource (resource : ApiResource) : Request Unit := do
  let metadata ← readProtectedResourceMetadata resource.resourceUrl
  let _ ← refreshConnector resource metadata
  let discovery ←
    synchronizeResourceDiscovery resource.resourceUrl resource.scopeRegistry metadata
  replaceResourceDiscovery resource.id discovery

/-- The error of a refresh is recorded in the registry that was read, and thrown again. -/
def recordSynchronizationError (resource : ApiResource) (error : Error) : Request Unit :=
  match resource.scopeRegistry with
  | some registry => do
    let _ ← replaceResourceDiscovery resource.id
      { name := resource.name, description := resource.description
        scopeRegistry := { registry with
          discovery := { registry.discovery with
            lastError := some (synchronizationError error) } } }
    .throw error
  | none => .throw error

/-- `realmrootResourceUrl(new URL(resourceUrl).origin)`, with the name of the document. -/
def realmrootDocumentUrl (resourceUrl : String) : Except Error String :=
  match Platform.resolveUrl "/api/openapi.json" resourceUrl with
  | some url => .ok url
  | none => .error (.internal "Invalid URL")

/-- The refresh of the Realmroot Resource Server, whose registry is in the source. -/
def refreshRealmroot (resource : ApiResource) : Request Unit := do
  let sourceUrl ← ofResult (realmrootDocumentUrl resource.resourceUrl)
  let now ← currentTime
  replaceResourceDiscovery resource.id
    { name := resource.name, description := resource.description
      scopeRegistry := realmrootRegistry sourceUrl now }

/-- The part of `refreshResourceScopeRegistry` between its two reads of the resource. -/
def refreshRegistry (resource : ApiResource) : Request Unit :=
  if resource.isRealmroot then refreshRealmroot resource
  else (synchronizeResource resource).tryCatch (recordSynchronizationError resource)

/-- `refreshResourceScopeRegistry`. -/
def refreshResourceScopeRegistry (id : String) : Request ApiResource := do
  let resource ← getResource id
  throwIf (resource.enabled = false)
    (badRequest "Resource Server must be active before synchronizing scopes.")
  let _ ← refreshRegistry resource
  getResource id

/-! ## Updating -/

structure ScopeGrantMode where
  scope : String
  grantMode : GrantMode
  deriving DecidableEq

structure UpdateApiResourceRequest where
  identifier : Option String := none
  resourceUrl : Option String := none
  connectorId : Option (Option String) := none
  authorizationDetails : Option (List AuthorizationDetail) := none
  enabled : Option Bool := none
  ownerOrganizationId : Option String := none
  visibility : Option Visibility := none
  scopeGrantModes : Option (List ScopeGrantMode) := none
  availableToAgents : Option Bool := none
  deriving DecidableEq

/-- `validateResourceUrl`. -/
def validateResourceUrl (resourceUrl : String) : Except Error Unit := do
  let url ← parseUrl resourceUrl
  let loopback := url.hostname = "localhost" ∨ url.hostname = "127.0.0.1" ∨
    url.hostname = "::1" ∨ url.hostname = "[::1]"
  if (url.protocol ≠ "https:" ∧ ¬ (loopback ∧ url.protocol = "http:")) ∨ url.username ≠ "" ∨
      url.password ≠ "" ∨ url.hash ≠ "" then
    .error (badRequest ("Resource URL must use HTTPS, except for loopback development URLs, " ++
      "and contain no userinfo or fragment."))
  else .ok ()

/-- The mode that an update asks for; of two entries the last one counts. -/
def requestedMode (updates : List ScopeGrantMode) (value : String) : Option GrantMode :=
  (updates.reverse.find? fun item => item.scope = value).map (·.grantMode)

/-- `updateScopeGrantModes`. -/
def updateScopeGrantModes (registry : Option ResourceScopeRegistry)
    (updates : List ScopeGrantMode) : Except Error ResourceScopeRegistry :=
  match registry with
  | none => .error (badRequest
      "Resource Server scopes must be synchronized before grant modes can be changed.")
  | some registry =>
    match updates.find? fun item =>
        !(registry.scopes.map (·.value)).contains item.scope with
    | some unknown => .error (badRequest
        ("Scope \"" ++ unknown.scope ++ "\" is not declared by the Resource Server."))
    | none => .ok { registry with
        scopes := registry.scopes.map fun scope => { scope with
          grantMode := (requestedMode updates scope.value).getD scope.grantMode } }

/-- The owner of an update has to be active, when it names one. -/
def requireActiveOwner (ownerOrganizationId : Option String) : Request Unit :=
  match truthy ownerOrganizationId with
  | some organizationId => do
    let organization ← getOrganization organizationId
    throwIf organization.disabled (badRequest "Organization must be active.")
  | none => .pure ()

/-- An external resource is owned by the platform. -/
def requirePlatformOwner (resource : ApiResource) (ownerOrganizationId : String) :
    Request Unit :=
  if resource.authorizationModel = .external then do
    let platform ← query requirePlatformOrganization
    let platform ← ofResult platform
    throwIf (ownerOrganizationId ≠ platform.id) (badRequest
      ("External Resource Servers must be owned by the built-in platform Organization."))
  else .pure ()

namespace UpdateApiResourceRequest

variable (input : UpdateApiResourceRequest) (resource : ApiResource)

def shouldReadBoundary : Bool :=
  input.resourceUrl.isSome || input.authorizationDetails.isSome || input.connectorId.isSome ||
    input.enabled = some true

def shouldSynchronize : Bool :=
  input.enabled.getD resource.enabled &&
    (input.enabled = some true || input.resourceUrl.isSome || input.connectorId.isSome)

/-- `resourcePatch`. -/
def resourcePatch (synchronized : Option ResourceDiscovery) : ResourcePatch :=
  { identifier := input.identifier
    name := synchronized.map (·.name)
    description := synchronized.map (·.description)
    resourceUrl := input.resourceUrl
    connectorId :=
      if synchronized.isSome then some (input.connectorId.getD resource.connectorId)
      else input.connectorId
    authorizationDetails := input.authorizationDetails
    enabled := input.enabled
    ownerOrganizationId := input.ownerOrganizationId
    visibility := input.visibility
    availableToAgents := input.availableToAgents }

end UpdateApiResourceRequest

/-- What an update reads of the resource, when its boundary changes or it is enabled. -/
def readBoundary (resource : ApiResource) (input : UpdateApiResourceRequest) :
    Request (Option ProtectedResourceMetadata) :=
  if input.shouldReadBoundary then do
    let resourceUrl := input.resourceUrl.getD resource.resourceUrl
    let metadata ← readProtectedResourceMetadata resourceUrl
    let _ ← validateResourceProviderBoundary resourceUrl resource.authorizationModel
      (input.connectorId.getD resource.connectorId)
      (input.authorizationDetails.getD resource.authorizationDetails) metadata
    pure (some metadata)
  else .pure none

/-- The discovery of an update; the registry of another URL counts for nothing. -/
def synchronizeUpdate (resource : ApiResource) (input : UpdateApiResourceRequest)
    (metadata : Option ProtectedResourceMetadata) : Request (Option ResourceDiscovery) :=
  match metadata with
  | some metadata =>
    if input.shouldSynchronize resource then do
      let resourceUrl := input.resourceUrl.getD resource.resourceUrl
      let discovery ← synchronizeResourceDiscovery resourceUrl
        (if resourceUrl ≠ resource.resourceUrl then none else resource.scopeRegistry) metadata
      pure (some discovery)
    else .pure none
  | none => .pure none

/-- The registry that an update writes, if it writes one. -/
def updatedRegistry (resource : ApiResource) (input : UpdateApiResourceRequest)
    (synchronized : Option ResourceDiscovery) : Except Error (Option ResourceScopeRegistry) :=
  let registry := synchronized.map (·.scopeRegistry)
  match input.scopeGrantModes with
  | some updates =>
    (updateScopeGrantModes (registry.orElse fun _ => resource.scopeRegistry) updates).map some
  | none => .ok registry

/-- `updateResource` of the repository for a patch that makes the resource private: what is
narrowed was read before the batch, table by table. -/
def storePrivateResource (id : String) (patch : ResourcePatch) (now : Time) : Request Bool := do
  let resource ← query fun db => db.apiResources.find? fun row => row.id = id
  match resource with
  | none => pure false
  | some resource => do
    let owner := patch.ownerOrganizationId.getD resource.ownerOrganizationId
    let members ← query (·.members)
    let applications ← query (·.applications)
    let entitlements ← query (·.resourceScopeEntitlements)
    let roles ← query (·.organizationRoles)
    let consents ← query (·.applicationConsents)
    let identities ← query (·.agentIdentities)
    let read : Database :=
      { members := members, applications := applications
        resourceScopeEntitlements := entitlements, organizationRoles := roles
        applicationConsents := consents, agentIdentities := identities }
    execute (.updateResource id patch (read.privateNarrowing id owner) now)

/-- `updateResource` of the repository. -/
def storeResource (id : String) (patch : ResourcePatch) : Request Bool := do
  let now ← currentTime
  if patch.visibility = some .private then storePrivateResource id patch now
  else execute (.updateResource id patch
    { applications := [], entitlementIds := [], roles := [], consents := [] } now)

/-- The registry of an update, written after its other columns. -/
def storeRegistry (resource : ApiResource) (synchronized : Option ResourceDiscovery)
    (registry : Option ResourceScopeRegistry) : Request Unit :=
  match registry with
  | some registry => replaceResourceDiscovery resource.id
      { name := (synchronized.map (·.name)).getD resource.name
        description := (synchronized.map (·.description)).getD resource.description
        scopeRegistry := registry }
  | none => .pure ()

/-- `updateResource`. -/
def updateResource (id : String) (input : UpdateApiResourceRequest) : Request ApiResource := do
  let resource ← getResource id
  throwIf resource.isRealmroot
    (badRequest "The Realmroot Resource Server is system-managed.")
  ofResult ((input.resourceUrl.map validateResourceUrl).getD (.ok ()))
  requireActiveOwner input.ownerOrganizationId
  requirePlatformOwner resource
    (input.ownerOrganizationId.getD resource.ownerOrganizationId)
  let metadata ← readBoundary resource input
  let synchronized ← synchronizeUpdate resource input metadata
  let registry ← ofResult (updatedRegistry resource input synchronized)
  let updated ← storeResource id (input.resourcePatch resource synchronized)
  throwIf (updated = false) (notFound "API resource was not found.")
  storeRegistry resource synchronized registry
  getResource id

end Programs
end Realmroot
