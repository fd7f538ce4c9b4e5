import Realmroot.Usecases.TokenLeases

/-!
# Connections to external accounts

The completion of a connection intent and the refresh of a provider credential:
between their statements both wait for the authorization server.
-/

namespace Realmroot

open AtomicProgram Error

/-! ## Sealed values -/

def connectionIntentContext (intentId : String) : String :=
  "resource-connection-intent:" ++ intentId ++ ":pkce-verifier"

def providerCredentialTokensContext (credentialId authorizationId : String) : String :=
  if credentialId = authorizationId then "resource-connection:" ++ authorizationId ++ ":tokens"
  else "provider-credential:" ++ credentialId ++ ":tokens"

def resourceConnectionCallbackUrl (origin : String) : String :=
  withoutTrailingSlash origin ++ "/oauth/account-connection/callback"

section Programs

variable [Platform]

/-- `JSON.stringify({ accessToken, refreshToken, scope })`. -/
def stringifyTokens (accessToken refreshToken scope : String) : String :=
  stringifyJson (.obj
    [("accessToken", .str accessToken), ("refreshToken", .str refreshToken), ("scope", .str scope)])

/-- The stored tokens of a credential: `JSON.parse(await secrets.open(…))`. -/
def openTokens (credential : ProviderCredential) : Except Error Record := do
  let text ← openSecret credential.encryptedTokens
    (providerCredentialTokensContext credential.id credential.providerResourceAuthorizationId)
  match Platform.parseJson text with
  | some value => .ok (fieldsOf value)
  | none => .error (.internal "JSON.parse failed.")

/-! ## Refreshing -/

structure ProviderAccessToken where
  accessToken : String
  expiresAt : Option Time
  scopes : List String
  deriving DecidableEq

/-- The first statement of `revokeProviderCredential`, and the second one for its answer. -/
def revokeProviderCredential (id : String) (now : Time) : Request Bool := do
  let revoked ← execute (.revokeActiveCredential id now)
  match revoked with
  | none => .pure false
  | some authorizationId => do
    execute (.revokeUncredentialedAuthorization authorizationId now)
    pure true

def temporarilyUnavailable (description : String) : Error :=
  oauthError "temporarily_unavailable" description 503

/-- The details of a refreshed token: those of the credential, unless the answer has some. -/
def refreshedDetails (credential : ProviderCredential) (token : Record) :
    Except Error (List AuthorizationDetail) :=
  match token.field "authorization_details" with
  | none => .ok credential.authorizationDetails
  | details => readAuthorizationDetails details (credential.authorizationDetails ≠ [])
      (credential.authorizationDetails.map detailType) "OAuth refresh response"

/-- What `refreshConnectionToken` tries once the refresh is claimed. -/
def requestRefresh (credential : ProviderCredential)
    (authorization : ExternalResourceAuthorization) (refreshToken claimId : String) :
    Request ProviderAccessToken := do
  let token ← postForm authorization.tokenEndpoint
    ([("grant_type", "refresh_token"), ("refresh_token", refreshToken)] ++
      if credential.authorizationDetails = [] then []
      else [("authorization_details",
        stringifyJson (.arr (credential.authorizationDetails.map .obj)))])
    authorization.clientId authorization.encryptedClientSecret true
    authorization.tokenEndpointAuthentication
  let accessToken ← ofResult (requiredString token "access_token" "OAuth refresh response")
  let nextRefreshToken := (readString (token.field "refresh_token")).getD refreshToken
  let scopes := (scopeString (token.field "scope")).getD credential.grantedScopes
  let authorizationDetails ← ofResult (refreshedDetails credential token)
  throwIf (exactAuthorizationDetails authorizationDetails credential.authorizationDetails = false)
    (unauthorized "Target authorization server changed authorization details during refresh.")
  let refreshedAt ← currentTime
  let encryptedTokens ←
    sealSecret (stringifyTokens accessToken nextRefreshToken (joinWithSpace scopes))
      (providerCredentialTokensContext credential.id credential.providerResourceAuthorizationId)
  let updated ← execute (.completeRefresh credential.id
    { expectedVersion := credential.credentialVersion, claimId := claimId
      encryptedTokens := encryptedTokens, credentialExpiresAt := tokenExpiry token refreshedAt
      updatedAt := refreshedAt })
  throwIf (updated = false)
    (temporarilyUnavailable "Provider credential refresh changed concurrently.")
  pure
    { accessToken := accessToken, expiresAt := tokenExpiry token refreshedAt, scopes := scopes }

/-- What it does when that fails: the credential is revoked, or the claim released. -/
def recoverRefresh (credential : ProviderCredential) (claimId : String) (error : Error) :
    Request ProviderAccessToken :=
  match error with
  | .oauth _ "invalid_grant" _ => do
    let now ← currentTime
    let _ ← revokeProviderCredential credential.id now
    throw error
  | _ => do
    let now ← currentTime
    let _ ← execute (.releaseRefresh credential.id credential.credentialVersion claimId now)
    throw error

/-- `refreshConnectionToken`. -/
def refreshConnectionToken (credential : ProviderCredential)
    (authorization : ExternalResourceAuthorization) : Request ProviderAccessToken := do
  let payload ← ofResult (openTokens credential)
  let start ← currentTime
  if credential.credentialExpiresAt.any fun expiresAt => start + 30000 < expiresAt then do
    let accessToken ←
      ofResult (requiredString payload "accessToken" "Stored resource connection")
    pure
      { accessToken := accessToken, expiresAt := credential.credentialExpiresAt
        scopes := credential.grantedScopes }
  else do
    let claimId ← generateId
    let now ← currentTime
    let claimed ← execute (.claimRefresh
      { id := credential.id, expectedVersion := credential.credentialVersion, claimId := claimId
        now := now, claimExpiresAt := now + 15000 })
    throwIf (claimed = false)
      (temporarilyUnavailable "Provider credential refresh is already in progress.")
    let refreshToken ←
      ofResult (requiredString payload "refreshToken" "Stored resource connection")
    (requestRefresh credential authorization refreshToken claimId).tryCatch
      (recoverRefresh credential claimId)

/-! ## Revoking -/

/-- The repository's `revokeConnection`: the authorization is read before the batch. -/
def revokeConnection (id : String) (now : Time) : Request Bool := do
  let active ← query (·.hasActiveAuthorization id)
  if active then do
    execute (.revokeConnection id now)
    pure true
  else .pure false

/-- The repository's `revokeResourceAuthorizationsByConnector`: the authorizations are read
before the batch. -/
def revokeResourceAuthorizationsByConnector (connectorId : String) (now : Time) : Request ℕ := do
  let authorizationIds ← query (Database.activeAuthorizationIdsByConnector connectorId)
  if authorizationIds = [] then .pure 0
  else do
    execute (.revokeAuthorizationsByConnector authorizationIds now)
    pure authorizationIds.length

/-! ## Connecting -/

/-- `existing?.id ?? deps.ids.generate()`. -/
def idOrNew (id : Option String) : Request String :=
  match id with
  | some id => .pure id
  | none => generateId

/-- `upsertProviderConnection`. -/
def upsertProviderConnection (input : ProviderConnection) : Request ProviderConnection := do
  let inserted ← execute (.insertProviderConnection input)
  match inserted with
  | some row => .pure row
  | none => do
    let updated ← execute (.updateProviderConnection input)
    orThrow (.internal "Provider Connection uniqueness invariant was violated.") updated

/-- `ensureProviderConnection`. -/
def ensureProviderConnection (resource : ApiResource) (intent : ResourceConnectionIntent)
    (externalSubject displayName : String) (now : Time) : Request ProviderConnection := do
  let missing := badRequest "API resource no longer has a Provider Connector."
  let connectorId ← orThrow missing (truthy resource.connectorId)
  let found ← query (·.findConnector connectorId)
  let connector ← orThrow missing found
  let claimedIdentity ← query
    (·.findActiveUserProviderConnectionByProviderSubject connector.providerId externalSubject)
  throwIf (claimedIdentity.any fun claimed => claimed.ownerUserId ≠ intent.ownerUserId)
    (conflict "This Provider account is already connected to another Realmroot account.")
  let existing ← query
    (·.findProviderConnectionByOwnerConnector connectorId intent.ownerUserId
      intent.ownerOrganizationId)
  throwIf (existing.any fun existing =>
      existing.status = .active && existing.externalSubject ≠ externalSubject)
    (conflict "Disconnect the current Provider account before connecting another account.")
  let id ← idOrNew (existing.map (·.id))
  upsertProviderConnection
    { id := id, connectorId := connectorId, ownerUserId := intent.ownerUserId
      ownerOrganizationId := intent.ownerOrganizationId
      authenticationAccountId := existing.bind (·.authenticationAccountId)
      externalSubject := externalSubject, displayName := displayName, status := .active
      createdAt := (existing.map (·.createdAt)).getD now, updatedAt := now }

/-- The repository's `upsertProviderCredential`: the authorization is read before the batch. -/
def upsertProviderCredential (authorizationId : String) (credential : ProviderCredential) :
    Request (Option ProviderResourceAuthorizationRecord) := do
  let found ← query (Database.hasAuthorizationOfActiveResource authorizationId)
  if found then do
    execute (.upsertProviderCredential authorizationId credential)
    findConnection authorizationId
  else .pure none

/-- The repository's `createResourceAuthorization`. -/
def createResourceAuthorization (row : ProviderResourceAuthorization)
    (credential : ProviderCredential) : Request (Option ProviderResourceAuthorizationRecord) := do
  execute (.createResourceAuthorization row credential)
  findConnection row.id

/-- What the authorization server grants for the code of an intent. -/
structure GrantedTokens where
  accessToken : String
  refreshToken : String
  scopes : List String
  authorizationDetails : List AuthorizationDetail
  expiresAt : Option Time
  profile : ResourceOAuthProfile

/-- The exchange of the code of an intent, and the profile behind it. -/
def exchangeCode (intent : ResourceConnectionIntent) (code callbackOrigin : String) (now : Time) :
    Request GrantedTokens := do
  let authorization ←
    requireActiveConnectorAuthorization intent.resourceId (some intent.clientGeneration)
  let connector ← query (·.findConnector authorization.connectorId)
  let driver ← orThrow (badRequest "Provider Connector no longer supports resource authorization.")
    (connector.bind resourceOAuthDriver)
  let verifier ← ofResult
    (openSecret intent.encryptedPkceVerifier (connectionIntentContext intent.id))
  let token ← postForm authorization.tokenEndpoint
    [("grant_type", "authorization_code"), ("code", code), ("code_verifier", verifier),
      ("redirect_uri", resourceConnectionCallbackUrl callbackOrigin)]
    authorization.clientId authorization.encryptedClientSecret false
    driver.tokenEndpointAuthentication
  let accessToken ← ofResult (requiredString token "access_token" "OAuth token response")
  let refreshToken ← ofResult (requiredString token "refresh_token" "OAuth token response")
  let reply ← fetchPeer
    { method := "GET", url := driver.userInfoEndpoint, authentication := .bearer accessToken }
  let response ← orThrow (.internal "fetch failed") reply
  throwIf (response.ok = false) (badRequest "Provider connection identity request failed.")
  let body ← ofResult (readObject response "Provider connection identity is invalid.")
  let profile ← ofResult (parseProfile body)
  let authorizationDetails ← ofResult (readAuthorizationDetails
    (token.field "authorization_details") (intent.authorizationDetails ≠ [])
    (intent.authorizationDetails.map detailType) "OAuth token response")
  pure
    { accessToken := accessToken, refreshToken := refreshToken
      scopes := (scopeString (token.field "scope")).getD intent.scopes
      authorizationDetails := authorizationDetails, expiresAt := tokenExpiry token now
      profile := profile }

/-- The credential that is stored for granted tokens. -/
def grantedCredential (intent : ResourceConnectionIntent) (granted : GrantedTokens)
    (existing : Option ProviderCredential) (id authorizationId encryptedTokens : String)
    (now : Time) : ProviderCredential :=
  { id := id
    providerResourceAuthorizationId := authorizationId
    encryptedTokens := encryptedTokens
    grantedScopes := granted.scopes
    authorizationDetails := granted.authorizationDetails
    clientGeneration := intent.clientGeneration
    credentialVersion := (existing.map (·.credentialVersion)).getD 0 + 1
    refreshClaimId := none
    refreshClaimExpiresAt := none
    status := .active
    credentialExpiresAt := granted.expiresAt
    revokedAt := none
    createdAt := (existing.map (·.createdAt)).getD now
    updatedAt := now }

/-- The second half of `completeResourceConnectionIntent`: the tokens are stored. -/
def storeConnection (intent : ResourceConnectionIntent) (granted : GrantedTokens)
    (provider : ProviderConnection) (now : Time) :
    Request ProviderResourceAuthorizationRecord := do
  let existing ← findConnectionByProviderResource provider.id intent.resourceId
  let connectionId := (existing.map (·.id)).getD intent.id
  let existingCredential := existing.bind (·.credentials.head?)
  let credentialId ← idOrNew (existingCredential.map (·.id))
  let encryptedTokens ←
    sealSecret (stringifyTokens granted.accessToken granted.refreshToken
        (joinWithSpace granted.scopes))
      (providerCredentialTokensContext credentialId connectionId)
  let credential := grantedCredential intent granted existingCredential credentialId connectionId
    encryptedTokens now
  let deleted := badRequest "The API resource was deleted while completing the connection."
  match existing with
  | some _ => do
    let stored ← upsertProviderCredential connectionId credential
    let connection ← orThrow deleted stored
    revokeUncoveredEntitlements connection (intent.authorizationDetails ≠ [])
      intent.initiatedByUserId now
    pure connection
  | none => do
    let stored ← createResourceAuthorization
      { id := connectionId, providerConnectionId := provider.id, resourceId := intent.resourceId
        status := .active, revokedAt := none, createdAt := now, updatedAt := now }
      credential
    orThrow deleted stored

structure ConnectionCallback where
  state : String
  code : String

/-- `completeResourceConnectionIntent`. -/
def completeResourceConnectionIntent (input : ConnectionCallback) (callbackOrigin : String) :
    Request ProviderResourceAuthorizationRecord := do
  let now ← currentTime
  let consumed ← execute (.consumeConnectionIntent (Platform.sha256 input.state) now)
  let intent ←
    orThrow (badRequest "Resource connection state is invalid, expired, or already used.") consumed
  let granted ← exchangeCode intent input.code callbackOrigin now
  let resource ← requireEnabledResource intent.resourceId
  ofResult (assertProviderConnectionAuthorizationDetails resource.authorizationDetails
    intent.authorizationDetails granted.authorizationDetails)
  let provider ← ensureProviderConnection resource intent granted.profile.externalSubject
    granted.profile.displayName now
  storeConnection intent granted provider now

end Programs

end Realmroot
