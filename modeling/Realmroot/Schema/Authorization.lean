import Realmroot.Platform

/-!
# Tables of the authorization schema

Rows of the tables that the modelled functions read or write. A column that
holds JSON text is kept as the value it denotes; a nullable column is an
`Option`.
-/

namespace Realmroot

structure User where
  id : String
  banned : Bool
  deletedAt : Option Time
  /-- A deleted account has a random address, which is not kept here. -/
  email : Option String := none
  deriving DecidableEq

structure Organization where
  id : String
  slug : String
  disabled : Bool
  name : String := ""
  displayName : Option String := none
  deriving DecidableEq

/-- `document` is what the JSON functions of the database read in the value, if it is JSON. -/
structure Verification where
  id : String
  identifier : String
  value : String
  document : Option Json
  deriving DecidableEq

/-- `role` holds the role keys joined by commas. -/
structure Member where
  id : String
  organizationId : String
  userId : String
  role : String
  updatedAt : Time
  deriving DecidableEq

/-- `role` holds the role keys joined by commas; `status` is a free text column. -/
structure Invitation where
  id : String
  organizationId : String
  email : String
  role : String
  inviterId : Option String
  status : String
  expiresAt : Time
  acceptedAt : Option Time := none
  revokedAt : Option Time := none
  createdAt : Time
  deriving DecidableEq

structure Team where
  id : String
  organizationId : String
  name : String := ""
  deriving DecidableEq

structure TeamMember where
  teamId : String
  userId : String
  deriving DecidableEq

structure Session where
  id : String
  userId : String
  activeOrganizationId : Option String
  activeTeamId : Option String
  deriving DecidableEq

structure OAuthRefreshToken where
  id : String
  clientId : String
  userId : String
  revoked : Option Time
  deriving DecidableEq

/-- The external clean-up that the erasure of an account leaves to do. -/
structure AccountDeletionCleanup where
  userId : String
  organizationIds : List String
  assetKeys : List String := []
  attempts : ℕ := 0
  nextAttemptAt : Time
  claimId : Option String := none
  claimUntil : Option Time := none
  deriving DecidableEq

structure PasswordResetRequest where
  id : String
  userId : String
  status : String
  createdAt : Time
  deriving DecidableEq

structure UploadedAsset where
  id : String
  purpose : String
  storageKey : String
  createdByUserId : Option String
  deriving DecidableEq

/-- `permission` maps a statement to its values; the values under `scope` are
encoded role scopes. -/
structure OrganizationRole where
  id : String
  organizationId : String
  role : String
  permission : List (String × List String)
  updatedAt : Time
  deriving DecidableEq

inductive GrantMode where
  | automatic
  | assigned
  deriving DecidableEq, Repr

structure ResourceScope where
  value : String
  description : Option String
  grantMode : GrantMode
  deriving DecidableEq

structure SynchronizationError where
  code : ErrorCode
  message : String
  deriving DecidableEq

/-- Where and when a scope registry was read. -/
structure RegistryDiscovery where
  sourceUrl : String := ""
  etag : Option String := none
  documentHash : String := ""
  syncedAt : Time := 0
  lastError : Option SynchronizationError := none
  deriving DecidableEq

structure ResourceScopeRegistry where
  discovery : RegistryDiscovery := {}
  scopes : List ResourceScope
  deriving DecidableEq

inductive Visibility where
  | «private»
  | «public»
  deriving DecidableEq, Repr

inductive AuthorizationModel where
  | native
  | external
  deriving DecidableEq, Repr

/-- A typed JSON object with its string-valued `type`, as the provider defines it. -/
abbrev AuthorizationDetail := Record

structure ApiResource where
  id : String
  identifier : String
  name : String
  description : Option String
  resourceUrl : String
  authorizationModel : AuthorizationModel
  connectorId : Option String
  authorizationDetails : List AuthorizationDetail
  enabled : Bool
  ownerOrganizationId : String
  visibility : Visibility
  scopeRegistry : Option ResourceScopeRegistry
  availableToAgents : Bool
  deletedAt : Option Time
  updatedAt : Time
  deriving DecidableEq

namespace ApiResource

/-- `resource.scopeRegistry?.scopes ?? []`. -/
def scopes (resource : ApiResource) : List ResourceScope :=
  match resource.scopeRegistry with
  | some registry => registry.scopes
  | none => []

/-- The declared scope values. -/
def declaredScopes (resource : ApiResource) : List String := resource.scopes.map (·.value)

/-- The values of the scopes with the given grant mode. -/
def scopesWithMode (resource : ApiResource) (mode : GrantMode) : List String :=
  (resource.scopes.filter fun scope => scope.grantMode = mode).map (·.value)

end ApiResource

structure ApplicationResourceScopes where
  resourceServerId : String
  scopes : List String
  deriving DecidableEq

structure ScopeMapping where
  sourceScope : String
  targetScope : String
  deriving DecidableEq

/-- A policy names a target Resource Server with scope mappings, or a target
Application. -/
inductive TokenExchangePolicy where
  | resource (sourceResourceServerId targetResourceServerId : String)
      (scopeMappings : List ScopeMapping)
  | identity (sourceResourceServerId targetApplicationId : String)
  deriving DecidableEq

/-- The metadata column of an Application, apart from the token exchange policies, which the
same column holds. -/
structure ApplicationMetadata where
  iconUrl : Option String := none
  corsOrigins : Option (List String) := none
  customData : Option Record := none
  oidcClaims : Option Record := none
  deriving DecidableEq

structure Application where
  id : String
  oauthClientId : String
  slug : String := ""
  name : String := ""
  description : Option String := none
  homepageUrl : Option String := none
  ownerOrganizationId : String
  visibility : Visibility
  oidcScopes : List String
  resourceScopes : List ApplicationResourceScopes
  tokenExchangePolicies : List TokenExchangePolicy
  metadata : ApplicationMetadata := {}
  consentRequired : Bool := true
  disabled : Bool
  disabledReason : Option String := none
  updatedAt : Time
  deriving DecidableEq

inductive ClientType where
  | publicSpa
  | publicNative
  | confidentialWeb
  | machine
  deriving DecidableEq

structure OAuthClient where
  clientId : String
  clientSecret : Option String
  type : ClientType := .confidentialWeb
  name : String := ""
  uri : Option String := none
  icon : Option String := none
  disabled : Bool
  skipConsent : Bool := false
  redirectUris : List String := []
  postLogoutRedirectUris : List String := []
  grantTypes : List String
  scopes : List String := []
  clientCredentialsScopes : List String := []
  /-- The claims that the metadata column holds, beside the id of the Application. -/
  oidcClaims : Option Record := none
  deriving DecidableEq

inductive SecretStatus where
  | active
  | revoked
  deriving DecidableEq

structure ApplicationClientSecret where
  id : String
  applicationId : String
  version : ℕ
  secretHash : String
  secretPrefix : Option String
  status : SecretStatus
  materializedToOauthClientAt : Option Time
  createdByUserId : Option String
  revokedAt : Option Time := none
  deriving DecidableEq

/-- Who authorized an Application: the user, or the platform because the Application
asks for no consent. -/
inductive AuthorizationSource where
  | userConsent
  | platformPolicy
  deriving DecidableEq, Repr

structure ApplicationConsent where
  id : String
  applicationId : String
  userId : String
  resourceServerId : Option String
  scopes : List String
  authorizationSource : AuthorizationSource
  grantedAt : Time
  expiresAt : Option Time
  revokedAt : Option Time
  deriving DecidableEq

structure FederatedCredential where
  id : String
  applicationId : String
  issuer : String
  subject : String
  audienceResourceId : String
  jwksUrl : Option String
  publicKeys : Option (List Record)
  enabled : Bool
  updatedAt : Time
  deriving DecidableEq

structure TokenExchangeAccessToken where
  id : String
  tokenHash : String
  clientId : String
  credentialId : String
  subject : String
  subjectTokenIssuer : String
  audience : String
  scopes : List String
  claims : Record
  expiresAt : Time
  createdAt : Time
  revokedAt : Option Time
  deriving DecidableEq

structure TokenExchangeRefreshToken where
  id : String
  familyId : String
  parentId : Option String
  tokenHash : String
  clientId : String
  credentialId : String
  subject : String
  subjectTokenIssuer : String
  audience : String
  scopes : List String
  claims : Record
  expiresAt : Time
  consumedAt : Option Time
  revokedAt : Option Time
  createdAt : Time
  deriving DecidableEq

end Realmroot
