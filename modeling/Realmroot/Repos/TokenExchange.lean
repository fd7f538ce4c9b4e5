import Realmroot.Database

/-!
# The token exchange repository

Federated credentials, and the access and refresh tokens of exchanges. A
rotation is one batch: it inserts the child if its parent is active, consumes
the parent under the same condition, and inserts the access token if the child
is there.
-/

namespace Realmroot

structure ResolvedFederatedCredential where
  id : String
  applicationId : String
  applicationClientId : String
  ownerOrganizationId : String
  issuer : String
  subject : String
  audience : String
  jwksUrl : Option String
  publicKeys : Option (List Record)
  enabled : Bool
  deriving DecidableEq

/-- What `prepareRefreshToken` prepares for storage. -/
structure RefreshTokenInput where
  id : String
  familyId : String
  parentId : Option String
  tokenHash : String
  clientId : String
  credentialId : String
  subject : String
  subjectTokenIssuer : String
  audience : String
  scopes : List String
  claims : Record
  expiresAt : Time
  deriving DecidableEq

structure AccessTokenInput where
  id : String
  tokenHash : String
  clientId : String
  credentialId : String
  subject : String
  subjectTokenIssuer : String
  audience : String
  scopes : List String
  claims : Record
  expiresAt : Time
  deriving DecidableEq

structure RotateRefreshTokenInput where
  refreshToken : RefreshTokenInput
  accessToken : AccessTokenInput
  deriving DecidableEq

/-- What `updateFederatedCredential` may change. -/
structure FederatedCredentialPatch where
  subject : Option String := none
  audienceResourceId : Option String := none
  jwksUrl : Option (Option String) := none
  publicKeys : Option (Option (List Record)) := none
  enabled : Option Bool := none
  deriving DecidableEq

def FederatedCredentialPatch.apply (patch : FederatedCredentialPatch) (now : Time)
    (row : FederatedCredential) : FederatedCredential :=
  { row with
    subject := patch.subject.getD row.subject
    audienceResourceId := patch.audienceResourceId.getD row.audienceResourceId
    jwksUrl := patch.jwksUrl.getD row.jwksUrl
    publicKeys := patch.publicKeys.getD row.publicKeys
    enabled := patch.enabled.getD row.enabled
    updatedAt := now }

def RefreshTokenInput.toRow (input : RefreshTokenInput) (now : Time) : TokenExchangeRefreshToken :=
  { id := input.id, familyId := input.familyId, parentId := input.parentId
    tokenHash := input.tokenHash, clientId := input.clientId, credentialId := input.credentialId
    subject := input.subject, subjectTokenIssuer := input.subjectTokenIssuer
    audience := input.audience, scopes := input.scopes, claims := input.claims
    expiresAt := input.expiresAt, consumedAt := none, revokedAt := none, createdAt := now }

def AccessTokenInput.toRow (input : AccessTokenInput) (now : Time) : TokenExchangeAccessToken :=
  { id := input.id, tokenHash := input.tokenHash, clientId := input.clientId
    credentialId := input.credentialId, subject := input.subject
    subjectTokenIssuer := input.subjectTokenIssuer, audience := input.audience
    scopes := input.scopes, claims := input.claims, expiresAt := input.expiresAt
    createdAt := now, revokedAt := none }

namespace TokenExchangeRefreshToken

/-- Neither consumed nor revoked. -/
def isUnspent (row : TokenExchangeRefreshToken) : Bool :=
  row.consumedAt.isNone && row.revokedAt.isNone

def consume (now : Time) (row : TokenExchangeRefreshToken) : TokenExchangeRefreshToken :=
  { row with consumedAt := some now }

def revoke (now : Time) (row : TokenExchangeRefreshToken) : TokenExchangeRefreshToken :=
  { row with revokedAt := some now }

end TokenExchangeRefreshToken

namespace Database

/-! ## Queries -/

section Queries

variable (db : Database)

def findClient (clientId : String) : Option OAuthClient :=
  db.oauthClients.find? fun row => row.clientId = clientId

/-- `resolvedCredentialQuery`: credentials joined with their Application and with
the resource of their audience. -/
def resolvedCredentials : List ResolvedFederatedCredential :=
  db.federatedCredentials.flatMap fun credential =>
    (db.applications.filter fun app => app.id = credential.applicationId && !app.disabled).flatMap
      fun app =>
        (db.apiResources.filter fun resource =>
          resource.id = credential.audienceResourceId && resource.enabled).map fun resource =>
            { id := credential.id
              applicationId := credential.applicationId
              applicationClientId := app.oauthClientId
              ownerOrganizationId := app.ownerOrganizationId
              issuer := credential.issuer
              subject := credential.subject
              audience := resource.resourceUrl
              jwksUrl := credential.jwksUrl
              publicKeys := credential.publicKeys
              enabled := credential.enabled }

def findFederatedCredentials (applicationClientId issuer : String) :
    List ResolvedFederatedCredential :=
  db.resolvedCredentials.filter fun credential =>
    credential.applicationClientId = applicationClientId && credential.issuer = issuer &&
      credential.enabled

def findFederatedCredentialForClient (id clientId : String) : Option ResolvedFederatedCredential :=
  db.resolvedCredentials.find? fun credential =>
    credential.id = id && credential.applicationClientId = clientId && credential.enabled

def findRefreshTokenByHash (tokenHash : String) : Option TokenExchangeRefreshToken :=
  db.tokenExchangeRefreshTokens.find? fun row => row.tokenHash = tokenHash

def findAccessTokenByHash (tokenHash : String) : Option TokenExchangeAccessToken :=
  db.tokenExchangeAccessTokens.find? fun row => row.tokenHash = tokenHash

/-- Some token of the family has been revoked. -/
def familyRevoked (familyId : String) : Bool :=
  db.tokenExchangeRefreshTokens.any fun row => row.familyId = familyId && row.revokedAt.isSome

end Queries

/-! ## Statements -/

/-- The primary key and the unique indexes of the table; a null parent is not
compared. -/
def insertRefreshToken (row : TokenExchangeRefreshToken) : Statement Unit := fun db =>
  if db.tokenExchangeRefreshTokens.any fun old => old.id = row.id then
    .error (.constraint "token_exchange_refresh_token.id")
  else if db.tokenExchangeRefreshTokens.any fun old => old.tokenHash = row.tokenHash then
    .error (.constraint "token_exchange_refresh_token.token_hash")
  else if db.tokenExchangeRefreshTokens.any fun old =>
      old.parentId.isSome && old.parentId = row.parentId then
    .error (.constraint "tokenExchangeRefreshToken_parentId_uidx")
  else
    .ok ((), { db with
      tokenExchangeRefreshTokens := db.tokenExchangeRefreshTokens ++ [row] })

def insertAccessToken (row : TokenExchangeAccessToken) : Statement Unit := fun db =>
  if db.tokenExchangeAccessTokens.any fun old => old.id = row.id then
    .error (.constraint "token_exchange_access_token.id")
  else if db.tokenExchangeAccessTokens.any fun old => old.tokenHash = row.tokenHash then
    .error (.constraint "token_exchange_access_token.token_hash")
  else
    .ok ((), { db with tokenExchangeAccessTokens := db.tokenExchangeAccessTokens ++ [row] })

/-- The token that a rotation may replace: `parentIsActive`. -/
def parentIsActive (parentId : Option String) (row : TokenExchangeRefreshToken) : Bool :=
  parentId = some row.id && row.isUnspent

/-- The first statement of a rotation: the child, if its parent is active. -/
def insertChild (input : RefreshTokenInput) (now : Time) : Statement Bool := fun db =>
  if db.tokenExchangeRefreshTokens.any (parentIsActive input.parentId) then do
    let ((), db) ← insertRefreshToken (input.toRow now) db
    .ok (true, db)
  else .ok (false, db)

/-- The second one: the parent is consumed; the answer is the number of rows. -/
def consumeParent (parentId : Option String) (now : Time) (db : Database) : ℕ × Database :=
  ((db.tokenExchangeRefreshTokens.filter (parentIsActive parentId)).length,
    { db with
      tokenExchangeRefreshTokens :=
        Table.updateWhere (parentIsActive parentId) (·.consume now)
          db.tokenExchangeRefreshTokens })

/-- The third one: the access token, if the child is there. -/
def insertChildAccessToken (input : RotateRefreshTokenInput) (now : Time) : Statement Bool :=
  fun db =>
    if db.tokenExchangeRefreshTokens.any fun row => row.id = input.refreshToken.id then do
      let ((), db) ← insertAccessToken (input.accessToken.toRow now) db
      .ok (true, db)
    else .ok (false, db)

/-- `rotateRefreshToken`: the answer says whether each statement of the batch
touched exactly one row. -/
def rotateRefreshToken (input : RotateRefreshTokenInput) (now : Time) : Statement Bool := fun db => do
  let (children, db) ← insertChild input.refreshToken now db
  let (parents, db) := consumeParent input.refreshToken.parentId now db
  let (accessTokens, db) ← insertChildAccessToken input now db
  .ok (children && parents = 1 && accessTokens, db)

/-- `updateFederatedCredential`; the answer is what it reads back. -/
def updateFederatedCredential (applicationId id : String) (patch : FederatedCredentialPatch)
    (now : Time) : Statement (Option FederatedCredential) := fun db =>
  let selects := fun row : FederatedCredential =>
    row.id = id && row.applicationId = applicationId
  .ok ((db.federatedCredentials.find? selects).map (patch.apply now),
    { db with
      federatedCredentials :=
        Table.updateWhere selects (patch.apply now) db.federatedCredentials })

def revokeRefreshTokenFamily (familyId : String) (now : Time) : Statement Unit := fun db =>
  .ok ((), { db with
    tokenExchangeRefreshTokens :=
      Table.updateWhere (fun row => row.familyId = familyId && row.revokedAt.isNone) (·.revoke now)
        db.tokenExchangeRefreshTokens })

def revokeRefreshToken (id : String) (now : Time) : Statement Unit := fun db =>
  .ok ((), { db with
    tokenExchangeRefreshTokens :=
      Table.updateWhere (fun row => row.id = id) (·.revoke now) db.tokenExchangeRefreshTokens })

end Database
end Realmroot
