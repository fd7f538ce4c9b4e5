import Realmroot.Platform

/-!
# Connectors

The provider connectors, as far as resource authorization reads them, and the
driver that a connector gives. The stored client secret is kept decrypted.
-/

namespace Realmroot

structure RetiredOAuthClientGeneration where
  generation : ℕ
  clientId : String
  encryptedClientSecret : String
  clientSecretContext : String
  deriving DecidableEq

inductive RegistrationMode where
  | manual
  | dynamic
  deriving DecidableEq, Repr

/-- The columns without the prefix `resource` are those of the client for signing in. -/
structure IdentityProviderConnector where
  id : String
  providerType : String
  providerId : String
  displayName : String
  enabled : Bool
  authenticationEnabled : Bool
  clientId : Option String
  clientSecret : Option String
  issuer : Option String
  authorizationEndpoint : Option String
  tokenEndpoint : Option String
  userInfoEndpoint : Option String
  providerMetadata : Option Record
  resourceAuthorizationEnabled : Bool
  resourceClientId : Option String
  resourceClientSecret : Option String
  resourceIssuer : Option String
  resourceAuthorizationEndpoint : Option String
  resourceTokenEndpoint : Option String
  resourceUserInfoEndpoint : Option String
  resourceJwksEndpoint : Option String
  resourceRegistrationEndpoint : Option String
  resourceRevocationEndpoint : Option String
  resourceRegistrationMode : Option RegistrationMode
  resourceRegistrationClientUri : Option String
  resourceRegistrationAccessToken : Option String
  resourceRegisteredScopes : Option (List String)
  resourceClientGeneration : ℕ
  resourceRetiredClientGenerations : Option (List RetiredOAuthClientGeneration)
  resourceProviderMetadata : Option Record
  updatedAt : Time
  deriving DecidableEq

/-- A string that is there and not empty, as a condition of the source tests it. -/
def truthy (value : Option String) : Option String := value.filter (· ≠ "")

theorem truthy_eq_some {value : Option String} {s : String} (h : truthy value = some s) :
    value = some s ∧ s ≠ "" := by
  obtain ⟨hvalue, hne⟩ := Option.filter_eq_some_iff.mp h
  exact ⟨hvalue, by simpa using hne⟩

/-- `resourceProviderMetadata?.[key]`. -/
def IdentityProviderConnector.metadata (connector : IdentityProviderConnector) (key : String) :
    Option Json :=
  connector.resourceProviderMetadata.bind (·.field key)

/-- A string of the provider metadata. -/
def IdentityProviderConnector.metadataString (connector : IdentityProviderConnector)
    (key : String) : Option String :=
  match connector.metadata key with
  | some (.str value) => some value
  | _ => none

/-- How a client authenticates at the token endpoint. -/
inductive ClientAuthentication where
  | basic
  | post
  deriving DecidableEq, Repr

structure ResourceOAuthDriver where
  authorizationEndpoint : String
  tokenEndpoint : String
  userInfoEndpoint : String
  revocationEndpoint : String
  tokenEndpointAuthentication : ClientAuthentication
  revokeAccessToken : Bool
  deriving DecidableEq

/-- The entries of a list in the provider metadata. -/
def IdentityProviderConnector.metadataEntries (connector : IdentityProviderConnector)
    (key : String) : Option (List Json) :=
  match connector.metadata key with
  | some (.arr entries) => some entries
  | _ => none

/-- `genericTokenEndpointAuthentication`. -/
def genericTokenEndpointAuthentication (connector : IdentityProviderConnector) :
    ClientAuthentication :=
  match connector.metadataEntries "token_endpoint_auth_methods_supported" with
  | some methods =>
    if methods.contains (.str "client_secret_post") ∧
        ¬ methods.contains (.str "client_secret_basic") then .post
    else .basic
  | none => .basic

/-- `genericOidcDriver`. -/
def genericOidcDriver (connector : IdentityProviderConnector) : Option ResourceOAuthDriver := do
  let authorizationEndpoint ← truthy connector.resourceAuthorizationEndpoint
  let tokenEndpoint ← truthy connector.resourceTokenEndpoint
  let userInfoEndpoint ← truthy connector.resourceUserInfoEndpoint
  let revocationEndpoint ← truthy connector.resourceRevocationEndpoint
  some
    { authorizationEndpoint := authorizationEndpoint
      tokenEndpoint := tokenEndpoint
      userInfoEndpoint := userInfoEndpoint
      revocationEndpoint := revocationEndpoint
      tokenEndpointAuthentication := genericTokenEndpointAuthentication connector
      revokeAccessToken := true }

/-- `resourceOAuthDriver`. -/
def resourceOAuthDriver (connector : IdentityProviderConnector) : Option ResourceOAuthDriver :=
  if connector.resourceAuthorizationEnabled then genericOidcDriver connector else none

/-- A non-empty string of an object: `optionalNestedString` with one segment. -/
def optionalNestedString (value : Record) (key : String) : Option String :=
  readString (value.field key)

structure ResourceOAuthProfile where
  externalSubject : String
  displayName : String
  deriving DecidableEq

/-- `parseProfile` of the generic driver. -/
def parseProfile (profile : Record) : Except Error ResourceOAuthProfile :=
  match optionalNestedString profile "sub" with
  | none => .error (.internal "OIDC userinfo response is missing sub.")
  | some externalSubject =>
    .ok { externalSubject := externalSubject
          displayName := ((optionalNestedString profile "name").or
            (optionalNestedString profile "preferred_username")).getD externalSubject }

inductive ExternalAuthorizationStatus where
  | active
  | invalid
  deriving DecidableEq, Repr

structure ExternalResourceAuthorization where
  resourceId : String
  connectorId : String
  tokenEndpoint : String
  revocationEndpoint : String
  tokenEndpointAuthentication : ClientAuthentication
  revokeAccessToken : Bool
  authorizationDetailsCatalogEndpoint : Option String
  authorizationDetailsCatalogScope : Option String
  clientId : String
  clientGeneration : ℕ
  encryptedClientSecret : String
  status : ExternalAuthorizationStatus
  deriving DecidableEq

/-- The first half of `resolveExternalAuthorization`: a connector that is set up, with
its driver. -/
structure ConfiguredConnector where
  connector : IdentityProviderConnector
  driver : ResourceOAuthDriver
  clientId : String
  clientSecret : String

def configuredConnector (connector : IdentityProviderConnector) : Option ConfiguredConnector := do
  let driver ← resourceOAuthDriver connector
  let clientId ← truthy connector.resourceClientId
  let clientSecret ← truthy connector.resourceClientSecret
  let _ ← truthy connector.resourceIssuer
  let _ ← truthy connector.resourceJwksEndpoint
  some { connector := connector, driver := driver, clientId := clientId
         clientSecret := clientSecret }

def ConfiguredConnector.retired (configured : ConfiguredConnector) (generation : ℕ) :
    Option RetiredOAuthClientGeneration :=
  (configured.connector.resourceRetiredClientGenerations.getD []).find?
    fun candidate => candidate.generation = generation

/-- The authorization record of a connector with a client id and secret. -/
def ConfiguredConnector.authorization (configured : ConfiguredConnector) (resourceId : String)
    (generation : ℕ) (clientId clientSecret : String) : ExternalResourceAuthorization :=
  let connector := configured.connector
  { resourceId := resourceId
    connectorId := connector.id
    tokenEndpoint := configured.driver.tokenEndpoint
    revocationEndpoint := configured.driver.revocationEndpoint
    tokenEndpointAuthentication := configured.driver.tokenEndpointAuthentication
    revokeAccessToken := configured.driver.revokeAccessToken
    authorizationDetailsCatalogEndpoint :=
      connector.metadataString "authorization_details_catalog_endpoint"
    authorizationDetailsCatalogScope :=
      connector.metadataString "authorization_details_catalog_scope"
    clientId := clientId
    clientGeneration := generation
    encryptedClientSecret := clientSecret
    status :=
      if connector.enabled && connector.resourceAuthorizationEnabled then .active else .invalid }

/-- `resolveExternalAuthorization`. A retired client's secret that does not open is an
error. -/
def resolveExternalAuthorization [Platform] (resource : String)
    (connector : Option IdentityProviderConnector) (clientGeneration : Option ℕ) :
    Except Error (Option ExternalResourceAuthorization) :=
  match connector.bind configuredConnector with
  | none => .ok none
  | some configured =>
    let current := configured.connector.resourceClientGeneration
    let generation := clientGeneration.getD current
    match configured.retired generation with
    | some retired =>
      match Platform.openSecret retired.encryptedClientSecret retired.clientSecretContext with
      | some secret => .ok (some (configured.authorization resource generation retired.clientId secret))
      | none => .error (.internal "Encrypted secret envelope is invalid.")
    | none =>
      if generation = current then
        .ok (some (configured.authorization resource generation configured.clientId
          configured.clientSecret))
      else .ok none

end Realmroot
