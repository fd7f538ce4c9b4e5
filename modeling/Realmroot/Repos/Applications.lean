import Realmroot.Repos.Configuration

/-!
# The application repository

An Application has a row of its own and one among the OAuth clients, in which some of its
columns are stored again. The batch of an update is prepared from the row that was read before
it: the metadata column is written as a whole, and so are the scopes of the client.
-/

namespace Realmroot

/-! ## New Applications -/

/-- What `create` of the application repository is given. -/
structure NewApplication where
  id : String
  clientId : String
  slug : String
  name : String
  description : Option String
  homepageUrl : Option String
  iconUrl : Option String
  clientType : ClientType
  visibility : Visibility
  consentRequired : Bool
  disabled : Bool
  disabledReason : Option String
  ownerOrganizationId : String
  redirectUris : List String
  postLogoutRedirectUris : List String
  corsOrigins : List String
  customData : Record
  oidcClaims : Record
  allowedGrantTypes : List String
  oidcScopes : List String
  resourceScopes : List ApplicationResourceScopes
  tokenExchangePolicies : List TokenExchangePolicy
  deriving DecidableEq

/-- `[...new Set(resourceScopes.flatMap((resource) => resource.scopes))]`. -/
def configuredScopeValues (resourceScopes : List ApplicationResourceScopes) : List String :=
  unique (resourceScopes.flatMap (·.scopes))

/-- What an update may change of the metadata column. -/
structure MetadataPatch where
  iconUrl : Option (Option String) := none
  corsOrigins : Option (List String) := none
  customData : Option Record := none
  oidcClaims : Option Record := none
  tokenExchangePolicies : Option (List TokenExchangePolicy) := none
  deriving DecidableEq

/-- `writeApplicationMetadata`; the policies of the column are kept beside it. -/
def writeApplicationMetadata (metadata : ApplicationMetadata) (policies : List TokenExchangePolicy)
    (patch : MetadataPatch) : ApplicationMetadata × List TokenExchangePolicy :=
  ({ iconUrl := (patch.iconUrl.map truthy).getD metadata.iconUrl
     corsOrigins := patch.corsOrigins.orElse fun _ => metadata.corsOrigins
     customData := patch.customData.orElse fun _ => metadata.customData
     oidcClaims := patch.oidcClaims.orElse fun _ => metadata.oidcClaims },
    patch.tokenExchangePolicies.getD policies)

/-- A client secret, as the use cases hand it to the repository. -/
structure NewClientSecret where
  id : String
  version : ℕ
  secretHash : String
  secretPrefix : Option String
  status : SecretStatus
  createdByUserId : Option String
  deriving DecidableEq

/-- The row of a secret that is set for the client at once. -/
def NewClientSecret.toRow (secret : NewClientSecret) (applicationId : String) (version : ℕ)
    (now : Time) : ApplicationClientSecret :=
  { id := secret.id, applicationId := applicationId, version := version
    secretHash := secret.secretHash, secretPrefix := secret.secretPrefix
    status := secret.status, materializedToOauthClientAt := some now
    createdByUserId := secret.createdByUserId }

namespace NewApplication

variable (input : NewApplication)

/-- What `create` writes to the metadata column. -/
def metadataPatch : MetadataPatch :=
  { iconUrl := some input.iconUrl
    corsOrigins := if input.corsOrigins = [] then none else some input.corsOrigins
    customData := if input.customData = [] then none else some input.customData
    oidcClaims := some input.oidcClaims
    tokenExchangePolicies :=
      if input.tokenExchangePolicies = [] then none else some input.tokenExchangePolicies }

/-- `toApplicationInsert`. -/
def toApplicationInsert (now : Time) : Application :=
  let written := writeApplicationMetadata {} [] input.metadataPatch
  { id := input.id, oauthClientId := input.clientId, slug := input.slug, name := input.name
    description := input.description, homepageUrl := input.homepageUrl
    ownerOrganizationId := input.ownerOrganizationId, visibility := input.visibility
    oidcScopes := input.oidcScopes, resourceScopes := input.resourceScopes
    tokenExchangePolicies := written.2, metadata := written.1
    consentRequired := input.consentRequired, disabled := input.disabled
    disabledReason := input.disabledReason, updatedAt := now }

/-- `toOAuthClientInsert`. -/
def toOAuthClientInsert (clientSecret : Option String) : OAuthClient :=
  { clientId := input.clientId, clientSecret := clientSecret, type := input.clientType
    name := input.name, uri := input.homepageUrl, icon := input.iconUrl
    disabled := input.disabled, skipConsent := !input.consentRequired
    redirectUris := input.redirectUris, postLogoutRedirectUris := input.postLogoutRedirectUris
    grantTypes := input.allowedGrantTypes
    scopes := input.oidcScopes ++ configuredScopeValues input.resourceScopes
    clientCredentialsScopes := configuredScopeValues input.resourceScopes
    oidcClaims := some input.oidcClaims }

end NewApplication

/-! ## Updates -/

/-- What `update` of the application repository may change. -/
structure ApplicationPatch where
  slug : Option String := none
  name : Option String := none
  description : Option (Option String) := none
  homepageUrl : Option (Option String) := none
  iconUrl : Option (Option String) := none
  visibility : Option Visibility := none
  consentRequired : Option Bool := none
  disabled : Option Bool := none
  disabledReason : Option (Option String) := none
  redirectUris : Option (List String) := none
  postLogoutRedirectUris : Option (List String) := none
  corsOrigins : Option (List String) := none
  customData : Option Record := none
  oidcClaims : Option Record := none
  allowedGrantTypes : Option (List String) := none
  oidcScopes : Option (List String) := none
  resourceScopes : Option (List ApplicationResourceScopes) := none
  tokenExchangePolicies : Option (List TokenExchangePolicy) := none
  deriving DecidableEq

namespace ApplicationPatch

variable (patch : ApplicationPatch) (current : Application)

def metadataPatch : MetadataPatch :=
  { iconUrl := patch.iconUrl, corsOrigins := patch.corsOrigins, customData := patch.customData
    oidcClaims := patch.oidcClaims, tokenExchangePolicies := patch.tokenExchangePolicies }

/-- The metadata column is written. -/
def writesMetadata : Bool := patch.metadataPatch ≠ {}

/-- The scopes of the client are written. -/
def writesScopes : Bool := patch.oidcScopes.isSome || patch.resourceScopes.isSome

/-- `applicationPatch`, from the row that was read before. -/
def apply (now : Time) (row : Application) : Application :=
  let written := writeApplicationMetadata current.metadata current.tokenExchangePolicies
    patch.metadataPatch
  { row with
    slug := patch.slug.getD row.slug
    name := patch.name.getD row.name
    description := patch.description.getD row.description
    homepageUrl := patch.homepageUrl.getD row.homepageUrl
    visibility := patch.visibility.getD row.visibility
    oidcScopes := patch.oidcScopes.getD row.oidcScopes
    resourceScopes := patch.resourceScopes.getD row.resourceScopes
    metadata := if patch.writesMetadata then written.1 else row.metadata
    tokenExchangePolicies :=
      if patch.writesMetadata then written.2 else row.tokenExchangePolicies
    consentRequired := patch.consentRequired.getD row.consentRequired
    disabled := patch.disabled.getD row.disabled
    disabledReason := patch.disabledReason.getD row.disabledReason
    updatedAt := now }

/-- `oauthPatch`, from the row of the Application that was read before. -/
def applyClient (row : OAuthClient) : OAuthClient :=
  let configured :=
    configuredScopeValues (patch.resourceScopes.getD current.resourceScopes)
  { row with
    name := patch.name.getD row.name
    uri := patch.homepageUrl.getD row.uri
    icon := patch.iconUrl.getD row.icon
    disabled := patch.disabled.getD row.disabled
    skipConsent := (patch.consentRequired.map (!·)).getD row.skipConsent
    redirectUris := patch.redirectUris.getD row.redirectUris
    postLogoutRedirectUris := patch.postLogoutRedirectUris.getD row.postLogoutRedirectUris
    grantTypes := patch.allowedGrantTypes.getD row.grantTypes
    clientCredentialsScopes :=
      if patch.writesScopes then configured else row.clientCredentialsScopes
    scopes :=
      if patch.writesScopes then patch.oidcScopes.getD current.oidcScopes ++ configured
      else row.scopes
    oidcClaims := patch.oidcClaims.orElse fun _ => row.oidcClaims }

end ApplicationPatch

namespace Database

/-- A row with the same id, or with the same version for the Application, is there already. -/
def secretTaken (row : ApplicationClientSecret) (db : Database) : Bool :=
  db.applicationClientSecrets.any fun old =>
    old.id = row.id || (old.applicationId = row.applicationId && old.version = row.version)

/-- The batch of `create`. -/
def insertApplication (input : NewApplication) (clientSecret : Option NewClientSecret)
    (now : Time) : Statement Unit := fun db =>
  let secrets := clientSecret.toList.map fun secret => secret.toRow input.id secret.version now
  if db.oauthClients.any fun old => old.clientId = input.clientId then
    .error (.constraint "oauth_client.client_id")
  else if db.applications.any fun old => old.id = input.id then
    .error (.constraint "application.id")
  else if db.applications.any fun old => old.slug = input.slug then
    .error (.constraint "application.slug")
  else if db.applications.any fun old => old.oauthClientId = input.clientId then
    .error (.constraint "application_oauthClientId_unique")
  else if secrets.any fun row => db.secretTaken row then
    .error (.constraint "application_client_secret.id")
  else
    .ok ((), { db with
      applications := db.applications ++ [input.toApplicationInsert now]
      oauthClients := db.oauthClients ++
        [input.toOAuthClientInsert (clientSecret.map (·.secretHash))]
      applicationClientSecrets := db.applicationClientSecrets ++ secrets })

/-- `activeResourceCondition`: every resource of the patch is there and enabled. -/
def resourcesActive (patch : ApplicationPatch) (db : Database) : Bool :=
  (patch.resourceScopes.getD []).all fun configuration =>
    db.apiResources.any fun row =>
      row.id = configuration.resourceServerId && row.enabled && row.deletedAt.isNone

/-- Another Application has the slug of the patch. -/
def slugTaken (id : String) (patch : ApplicationPatch) (db : Database) : Bool :=
  db.applications.any fun row => row.id ≠ id && some row.slug = patch.slug

/-- The batch of `update`, prepared from the row that was read before. The answer says whether
the Application was updated. -/
def updateApplication (current : Application) (patch : ApplicationPatch) (now : Time) :
    Statement Bool := fun db =>
  if resourcesActive patch db = false then .ok (false, db)
  else if db.applications.any (fun row => row.id = current.id) ∧ slugTaken current.id patch db then
    .error (.constraint "application.slug")
  else
    .ok (db.applications.any fun row => row.id = current.id, { db with
      applications :=
        Table.updateWhere (fun row => row.id = current.id) (patch.apply current now)
          db.applications
      oauthClients :=
        Table.updateWhere (fun row => row.clientId = current.oauthClientId)
          (patch.applyClient current) db.oauthClients })

end Database

/-! ## Secrets -/

namespace Database

/-- The secrets of an Application, in the order of their creation. -/
def clientSecrets (db : Database) (applicationId : String) : List ApplicationClientSecret :=
  db.applicationClientSecrets.filter fun row => row.applicationId = applicationId

/-- `versions[0]?.version ?? 0`. -/
def latestVersion (db : Database) (applicationId : String) : ℕ :=
  ((db.clientSecrets applicationId).map (·.version)).foldr max 0

end Database

/-- The batch of `rotateSecret`, prepared from what was read before. -/
structure SecretRotation where
  applicationId : String
  oauthClientId : String
  version : ℕ
  secret : NewClientSecret
  now : Time

namespace SecretRotation

variable (rotation : SecretRotation)

/-- The row of the new secret. -/
def row : ApplicationClientSecret :=
  rotation.secret.toRow rotation.applicationId rotation.version rotation.now

/-- The secrets that are active so far are revoked. -/
def revoke (row : ApplicationClientSecret) : ApplicationClientSecret :=
  { row with status := .revoked, revokedAt := some rotation.now }

def revokes (row : ApplicationClientSecret) : Bool :=
  row.applicationId = rotation.applicationId && row.status = .active

end SecretRotation

/-- The batch of `rotateSecret`: a clash of the new secret refuses it as a whole. -/
def Database.rotateSecret (rotation : SecretRotation) : Statement Unit := fun db =>
  if db.secretTaken rotation.row then .error (.constraint "application_client_secret.version")
  else
    .ok ((), { db with
      applicationClientSecrets :=
        Table.updateWhere rotation.revokes rotation.revoke db.applicationClientSecrets ++
          [rotation.row]
      oauthClients :=
        Table.updateWhere (fun row => row.clientId = rotation.oauthClientId)
          (fun row => { row with clientSecret := some rotation.secret.secretHash })
          db.oauthClients })

theorem Database.rotateSecret_after (rotation : SecretRotation) (db : Database) :
    ∃ clients secrets, (Database.rotateSecret rotation).after db =
      { db with oauthClients := clients, applicationClientSecrets := secrets } := by
  apply Statement.after_keeps (p := fun db' => ∃ clients secrets, db' =
    { db with oauthClients := clients, applicationClientSecrets := secrets }) ⟨_, _, rfl⟩
  intro answer db' hok
  unfold Database.rotateSecret at hok
  split_ifs at hok
  cases hok
  exact ⟨_, _, rfl⟩

/-! ## Commands -/

inductive ApplicationCommand where
  /-- The batch of `update`, prepared from the row that was read. -/
  | update (current : Application) (patch : ApplicationPatch) (now : Time)

namespace ApplicationCommand

def statement : ApplicationCommand → Statement Bool
  | update current patch now => Database.updateApplication current patch now

/-- The database after a command; a refused one changes nothing. -/
def after (command : ApplicationCommand) : Database → Database := command.statement.after

/-- The tables that a command may change. -/
theorem after_eq (command : ApplicationCommand) (db : Database) :
    ∃ applications clients, command.after db =
      { db with applications := applications, oauthClients := clients } := by
  unfold after
  apply Statement.after_keeps (p := fun db' => ∃ applications clients, db' =
    { db with applications := applications, oauthClients := clients }) ⟨_, _, rfl⟩
  intro answer db' hok
  cases command with
  | update current patch now =>
    change Database.updateApplication current patch now db = _ at hok
    unfold Database.updateApplication at hok
    split_ifs at hok
    · cases hok
      exact ⟨_, _, rfl⟩
    · cases hok
      exact ⟨_, _, rfl⟩

end ApplicationCommand
end Realmroot
