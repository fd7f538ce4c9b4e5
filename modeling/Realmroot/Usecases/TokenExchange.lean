import Realmroot.Usecases.ResourceScopes

/-!
# Token exchange

RFC 8693 exchanges of workload assertions and the refresh of the tokens they
issue, with what the delegated exchange shares: client authentication, the
scopes of an Application at a resource, and the signing of access tokens.
-/

namespace Realmroot

open AtomicProgram Error

def tokenExchangeGrantType : String := "urn:ietf:params:oauth:grant-type:token-exchange"

def refreshTokenGrantType : String := "refresh_token"

def accessTokenType : String := "urn:ietf:params:oauth:token-type:access_token"

def jwtTokenType : String := "urn:ietf:params:oauth:token-type:jwt"

def realmrootOrganizationClaim : String := "urn:realmroot:params:oauth:org"

def realmrootCliClientId : String := "realmroot-cli"

def defaultExpiresInSeconds : ℕ := 60 * 60

def delegatedUserExpiresInSeconds : ℕ := 5 * 60

def defaultRefreshExpiresInSeconds : ℕ := 30 * 24 * 60 * 60

def refreshTokenPrefix : String := "fatr_"

structure TokenExchangeJwtSigner where
  issuer : String
  /-- The token for a payload and a token type. -/
  sign : Record → String → String

structure TokenExchangeRequest where
  grantType : String
  subjectToken : String
  subjectTokenType : String
  audience : String
  scope : Option String
  requestedTokenType : Option String
  verifiedSubjectClaims : Option Record

structure TokenExchangeResponse where
  accessToken : String
  issuedTokenType : String
  expiresIn : ℕ
  scope : String
  refreshToken : Option String
  deriving DecidableEq

structure TokenRefreshRequest where
  grantType : String
  refreshToken : String
  scope : Option String

structure ClientCredentials where
  clientId : String
  clientSecret : Option String

/-! ## Clients and scopes -/

def invalidClient (description : String) : Error := oauthError "invalid_client" description 401

def authenticateApplicationClient [Platform] (credentials : ClientCredentials) :
    Request (OAuthClient × ApplicationAggregate) := do
  let secret ← orThrow (invalidClient "Client authentication is required.")
    (credentials.clientSecret.filter fun secret => credentials.clientId ≠ "" && secret ≠ "")
  let client ← query (·.findClient credentials.clientId)
  let application ← query (·.findApplicationByClientId credentials.clientId)
  let client ← orThrow (invalidClient "Invalid client credentials.")
    (client.filter fun client => !client.disabled)
  let application ← orThrow (invalidClient "Invalid client credentials.")
    (application.filter fun application => !application.disabled)
  let organization ← query (·.findOrganization application.ownerOrganizationId)
  let _ ← orThrow (invalidClient "Invalid client credentials.")
    (organization.filter fun organization => !organization.disabled)
  throwIf (client.clientSecret = none ∨ client.clientSecret = some "" ∨
      client.clientSecret ≠ some (Platform.hashProviderSecret secret))
    (invalidClient "Invalid client credentials.")
  pure (client, application)

def requireApplicationByClientId (clientId : String) : Request ApplicationAggregate := do
  let application ← query (·.findApplicationByClientId clientId)
  orThrow (oauthError "unauthorized_client" "Application is not active.")
    (application.filter fun application => !application.disabled)

/-- The words of a scope parameter, without repetitions. -/
def requestedScopes (scope : Option String) : List String :=
  unique (splitWhiteSpace (scope.getD ""))

theorem isScopeToken_of_mem_requestedScopes {scope : Option String} {item : String}
    (h : item ∈ requestedScopes scope) : IsScopeToken item :=
  isScopeToken_of_mem_splitWhiteSpace (mem_unique.mp h)

/-- `normalizeScopes`. -/
def normalizeScopes (scope : Option String) (allowedScopes : List String) :
    Except Error (List String) :=
  match (requestedScopes scope).find? fun item => !allowedScopes.contains item with
  | some item => .error (oauthError "invalid_scope" ("Scope is not allowed: " ++ item))
  | none => .ok (requestedScopes scope)

theorem normalizeScopes_eq_ok {scope : Option String} {allowedScopes requested : List String}
    (h : normalizeScopes scope allowedScopes = .ok requested) :
    requested = requestedScopes scope ∧ ∀ item ∈ requested, item ∈ allowedScopes := by
  unfold normalizeScopes at h
  split at h
  · cases h
  · rename_i hnone
    cases h
    refine ⟨rfl, fun item hitem => ?_⟩
    have hallowed := List.find?_eq_none.mp hnone item hitem
    simpa using hallowed

namespace ApplicationAggregate

/-- The scopes configured for a resource. -/
def configuredScopes (application : ApplicationAggregate) (resourceServerId : String) :
    List String :=
  match application.resourceScopes.find? fun configuration =>
      configuration.resourceServerId = resourceServerId with
  | some configuration => configuration.scopes
  | none => []

end ApplicationAggregate

/-- `resolveApplicationTokenScopesForResource`. -/
def resolveApplicationTokenScopesForResource (application : ApplicationAggregate)
    (resource : ApiResource) (requestedScope : Option String) : Request (List String) := do
  let allowedScopes := application.oidcScopes ++ application.configuredScopes resource.id
  match normalizeScopes requestedScope allowedScopes with
  | .error e => throw e
  | .ok requested =>
    let effective ← applicationEffectiveResourceScopes application resource
    pure (requested.filter fun scope =>
      application.oidcScopes.contains scope || effective.contains scope)

def resolveApplicationTokenScopes (application : ApplicationAggregate) (audience : String)
    (requestedScope : Option String) : Request (List String) := do
  let resource ← query (·.findResourceByResourceUrl audience)
  let resource ← orThrow
    (oauthError "invalid_target" "Requested audience is not visible to the Application tenant.")
    (resource.filter fun resource =>
      resource.activeVisibleToOrganization application.ownerOrganizationId)
  resolveApplicationTokenScopesForResource application resource requestedScope

def isEligibleAudience (audience organizationId : String) : Request Bool := do
  let resource ← query (·.findResourceByResourceUrl audience)
  pure (resource.any fun resource => resource.activeVisibleToOrganization organizationId)

/-! ## Signing -/

structure Actor where
  iss : String
  sub : String
  deriving DecidableEq

structure JwtAccessTokenInput where
  clientId : String
  subject : String
  audience : String
  scopes : List String
  claims : Record
  actor : Option Actor
  issuedAt : Time
  expiresAt : Time

/-- The payload that `issueJwtAccessToken` signs. -/
def accessTokenPayload (issuer : String) (input : JwtAccessTokenInput) (jti : String) : Record :=
  [("iss", .str issuer), ("sub", .str input.subject), ("aud", .str input.audience),
    ("client_id", .str input.clientId), ("scope", .str (joinWithSpace input.scopes))] ++
  (match input.claims.field realmrootOrganizationClaim with
    | some tenant => [(realmrootOrganizationClaim, tenant)]
    | none => []) ++
  (match input.actor with
    | some actor => [("act", .obj [("iss", .str actor.iss), ("sub", .str actor.sub)])]
    | none => []) ++
  [("iat", .num (toSeconds input.issuedAt)), ("exp", .num (toSeconds input.expiresAt)),
    ("jti", .str jti)]

/-- `issueJwtAccessToken`. -/
def issueJwtAccessToken (signer : TokenExchangeJwtSigner) (input : JwtAccessTokenInput) :
    Request String := do
  let jti ← randomString
  pure (signer.sign (accessTokenPayload signer.issuer input jti) "at+jwt")

/-! ## Workload assertions -/

structure Assertion where
  header : Record
  payload : Record
  deriving DecidableEq

/-- `parseJwt`. -/
def parseJwt [Platform] (token : String) : Except Error Assertion :=
  let invalid := oauthError "invalid_grant" "Invalid subject token."
  match (token.toList.splitOn '.').map String.ofList with
  | [header, payload, signature] =>
    match readRecord (Platform.readJsonPart header), readRecord (Platform.readJsonPart payload),
      Platform.base64UrlDecode signature with
    | some header, some payload, some _ => .ok { header := header, payload := payload }
    | _, _, _ => .error invalid
  | _ => .error invalid

/-- `subjectMatches`: a trailing `*` stands for any suffix. -/
def subjectMatches (pattern subject : String) : Bool :=
  if pattern.toList.getLast? = some '*' then
    pattern.toList.dropLast.isPrefixOf subject.toList
  else pattern = subject

def resolveCredential (applicationClientId issuer subject : String) :
    Request ResolvedFederatedCredential := do
  let candidates ← query (·.findFederatedCredentials applicationClientId issuer)
  orThrow (oauthError "invalid_grant" "No federated credential matches the subject token.")
    (candidates.find? fun item => item.enabled && subjectMatches item.subject subject)

/-- `audienceMatches`. -/
def audienceMatches (value : Option Json) (audience : String) : Bool :=
  match value with
  | some (.str value) => value = audience
  | some (.arr values) => values.contains (.str audience)
  | _ => false

/-- The keys under `keys` of a fetched key set. -/
def readKeys : Option Json → Option (List Json)
  | some (.obj fields) =>
    match fields.lookup "keys" with
    | some (.arr keys) => some keys
    | _ => none
  | _ => none

/-- `fetchJwksKeys`; a failed fetch is not an OAuth error. -/
def fetchJwksKeys : Request (Except Unit (List Json)) := .ask fun reply =>
  match reply.document with
  | none => .pure (.error ())
  | some body =>
    match readKeys (some body) with
    | some keys => .pure (.ok keys)
    | none => .throw (oauthError "invalid_grant" "Federated credential JWKS is invalid.")

/-- The candidate that `selectCredentialJwk` takes: the `kid` if there is one, and
no other algorithm. -/
def isSigningKey (kid : Option String) (alg : String) : Json → Bool
  | .obj key =>
    (kid.isNone || Record.field key "kid" = kid.map Json.str) &&
      match Record.field key "alg" with
      | none | some .null | some (.bool false) | some (.num 0) | some (.str "") => true
      | some value => value = .str alg
  | _ => false

/-- The keys of a credential: its own, or those at its URL. -/
def credentialKeys (credential : ResolvedFederatedCredential) :
    Request (Except Unit (List Json)) :=
  match credential.publicKeys with
  | some keys => pure (.ok (keys.map Json.obj))
  | none =>
    if credential.jwksUrl.any (· ≠ "") then fetchJwksKeys
    else throw (oauthError "invalid_grant" "Federated credential has no verification key.")

/-- `selectCredentialJwk`, followed by the verification of the signature. -/
def verifySignature (credential : ResolvedFederatedCredential) (kid : Option String)
    (alg : String) : Request Unit := do
  let unavailable := oauthError "invalid_grant" "Subject token verification key is unavailable."
  let fetched ← credentialKeys credential
  match fetched with
  | .error () => throw unavailable
  | .ok keys =>
    throwIf (kid = none ∧ keys.length ≠ 1)
      (oauthError "invalid_grant" "Subject token must identify one signing key.")
    let _ ← orThrow (oauthError "invalid_grant" "Subject token signing key was not found.")
      (keys.find? (isSigningKey kid alg))
    .ask fun reply =>
      match reply.verified with
      | some true => .pure ()
      | some false =>
        .throw (oauthError "invalid_grant" "Subject token signature is invalid.")
      | none => .throw unavailable

/-- `verifySubjectToken`. -/
def verifySubjectToken (assertion : Assertion) (credential : ResolvedFederatedCredential) :
    Request Unit := do
  let now ← currentTime
  let exp := readNumber (assertion.payload.field "exp")
  let nbf := readNumber (assertion.payload.field "nbf")
  throwIf (exp.all (· ≤ (toSeconds now : ℚ)))
    (oauthError "invalid_grant" "Subject token is expired or missing an exp claim.")
  throwIf (assertion.payload.field "nbf" ≠ none ∧ nbf = none)
    (oauthError "invalid_grant" "Subject token nbf claim is invalid.")
  throwIf (nbf.any (· > (toSeconds now : ℚ)))
    (oauthError "invalid_grant" "Subject token is not active yet.")
  throwIf (!audienceMatches (assertion.payload.field "aud") credential.audience)
    (oauthError "invalid_grant" "Subject token audience is invalid.")
  let alg ← orThrow (oauthError "invalid_grant" "Subject token algorithm is invalid.")
    ((readString (assertion.header.field "alg")).filter (· ≠ "none"))
  if alg = "RS256" ∨ alg = "ES256" then
    verifySignature credential (readString (assertion.header.field "kid")) alg
  else throw (oauthError "invalid_grant" ("Unsupported subject token algorithm: " ++ alg))

/-! ## Refresh tokens -/

/-- What a refresh token carries over to the next one. -/
structure RefreshTokenGrant where
  credentialId : String
  subject : String
  subjectTokenIssuer : String
  audience : String
  scopes : List String
  claims : Record

structure PreparedRefreshToken where
  token : String
  record : RefreshTokenInput

def prepareRefreshToken [Platform] (clientId familyId : String) (parentId : Option String)
    (grant : RefreshTokenGrant) : Request PreparedRefreshToken := do
  let random ← randomString
  let token := refreshTokenPrefix ++ random
  let now ← currentTime
  let id ← generateId
  pure
    { token := token
      record :=
        { id := id, familyId := familyId, parentId := parentId
          tokenHash := Platform.hashProviderSecret token, clientId := clientId
          credentialId := grant.credentialId, subject := grant.subject
          subjectTokenIssuer := grant.subjectTokenIssuer, audience := grant.audience
          scopes := grant.scopes, claims := grant.claims
          expiresAt := now + defaultRefreshExpiresInSeconds * 1000 } }

/-- `storeRefreshToken` of the repository: insert, then look for a revoked token
of the family, then revoke the new one if there is one. -/
def storeRefreshToken (input : RefreshTokenInput) : Request Bool := do
  let now ← currentTime
  let row := input.toRow now
  perform (.insertRefreshToken row) (Database.insertRefreshToken row)
  let revoked ← query (·.familyRevoked input.familyId)
  if !revoked then pure true
  else
    let now ← currentTime
    perform (.revokeRefreshToken input.id now) (Database.revokeRefreshToken input.id now)
    pure false

def issueRefreshToken [Platform] (clientId familyId : String) (grant : RefreshTokenGrant) :
    Request String := do
  let prepared ← prepareRefreshToken clientId familyId none grant
  let stored ← storeRefreshToken prepared.record
  throwIf (!stored) (oauthError "invalid_grant" "Refresh token family was revoked.")
  pure prepared.token

/-- `storeAccessToken` of the repository. -/
def storeAccessToken (input : AccessTokenInput) : Request Unit := do
  let now ← currentTime
  perform (.storeAccessToken (input.toRow now)) (Database.insertAccessToken (input.toRow now))

/-- `rotateRefreshToken` of the repository. -/
def rotateRefreshToken (input : RotateRefreshTokenInput) : Request Bool := do
  let now ← currentTime
  perform (.rotateRefreshToken input now) (Database.rotateRefreshToken input now)

/-- `revokeRefreshTokenFamily` of the repository. -/
def revokeRefreshTokenFamily (familyId : String) (now : Time) : Request Unit :=
  perform (.revokeRefreshTokenFamily familyId now)
    (Database.revokeRefreshTokenFamily familyId now)

/-! ## Exchange and refresh -/

/-- `exchangeToken` for a workload assertion. -/
def exchangeAssertion [Platform] (input : TokenExchangeRequest) (credentials : ClientCredentials)
    (signer : TokenExchangeJwtSigner) : Request TokenExchangeResponse := do
  throwIf (input.grantType ≠ tokenExchangeGrantType)
    (oauthError "unsupported_grant_type" "Unsupported grant_type.")
  let (oauthClient, application) ← authenticateApplicationClient credentials
  throwIf (!oauthClient.grantTypes.contains tokenExchangeGrantType)
    (oauthError "unauthorized_client" "Client is not allowed to use token exchange.")
  throwIf (input.requestedTokenType.any fun type => type ≠ "" ∧ type ≠ accessTokenType)
    (oauthError "invalid_request" "Unsupported requested_token_type.")
  throwIf (input.subjectTokenType ≠ jwtTokenType)
    (oauthError "invalid_request" "Unsupported subject_token_type.")
  match parseJwt input.subjectToken with
  | .error e => throw e
  | .ok assertion =>
    let missing := oauthError "invalid_grant" "Subject token is missing required claims."
    let issuer ← orThrow missing (readString (assertion.payload.field "iss"))
    let subject ← orThrow missing (readString (assertion.payload.field "sub"))
    let credential ← resolveCredential oauthClient.clientId issuer subject
    throwIf (credential.ownerOrganizationId ≠ application.ownerOrganizationId)
      (oauthError "invalid_grant"
        "Federated credential is outside the Application Organization.")
    throwIf (credential.audience ≠ input.audience)
      (oauthError "invalid_target"
        "Requested audience does not match the federated credential.")
    let eligible ← isEligibleAudience credential.audience credential.ownerOrganizationId
    throwIf (!eligible)
      (oauthError "invalid_target"
        "Requested audience is not eligible for the Application tenant.")
    let scopes ← resolveApplicationTokenScopes application input.audience input.scope
    throwIf (scopes.contains "offline_access" ∧
        ¬ oauthClient.grantTypes.contains refreshTokenGrantType)
      (oauthError "invalid_scope" "Client is not allowed to issue refresh tokens.")
    verifySubjectToken assertion credential
    let now ← currentTime
    let assertionExp := (readNumber (assertion.payload.field "exp")).getD 0
    let expiresAt : Time :=
      (min ((now + defaultExpiresInSeconds * 1000 : ℕ) : ℚ) (assertionExp * 1000)).floor.toNat
    let claims : Record := [(realmrootOrganizationClaim, .str credential.ownerOrganizationId)]
    let accessToken ← issueJwtAccessToken signer
      { clientId := oauthClient.clientId, subject := subject, audience := credential.audience
        scopes := scopes, claims := claims, actor := none, issuedAt := now
        expiresAt := expiresAt }
    let id ← generateId
    storeAccessToken
      { id := id, tokenHash := Platform.hashProviderSecret accessToken
        clientId := oauthClient.clientId, credentialId := credential.id, subject := subject
        subjectTokenIssuer := credential.issuer, audience := credential.audience
        scopes := scopes, claims := claims, expiresAt := expiresAt }
    let response : TokenExchangeResponse :=
      { accessToken := accessToken, issuedTokenType := accessTokenType
        expiresIn := (expiresAt - now) / 1000, scope := joinWithSpace scopes
        refreshToken := none }
    if scopes.contains "offline_access" then
      let familyId ← generateId
      let refreshToken ← issueRefreshToken oauthClient.clientId familyId
        { credentialId := credential.id, subject := subject
          subjectTokenIssuer := credential.issuer, audience := credential.audience
          scopes := scopes, claims := claims }
      pure { response with refreshToken := some refreshToken }
    else pure response

/-- The credential still has the tenant and the audience of the token, and the
audience is still eligible. -/
def isStillEligible (row : TokenExchangeRefreshToken) (credential : ResolvedFederatedCredential) :
    Request Bool :=
  if credential.audience = row.audience ∧
      row.claims.field realmrootOrganizationClaim = some (.str credential.ownerOrganizationId) then
    isEligibleAudience credential.audience credential.ownerOrganizationId
  else pure false

/-- What `refreshToken` requests: the parameter, or else what is stored. -/
def refreshScope (input : TokenRefreshRequest) (row : TokenExchangeRefreshToken) : String :=
  input.scope.getD (joinWithSpace row.scopes)

/-- `refreshToken`, once the row of the presented token is known to be usable. -/
def rotate [Platform] (signer : TokenExchangeJwtSigner) (clientId : String)
    (row : TokenExchangeRefreshToken) (now : Time) (scopes : List String) :
    Request TokenExchangeResponse := do
  let expiresAt := now + defaultExpiresInSeconds * 1000
  let accessToken ← issueJwtAccessToken signer
    { clientId := clientId, subject := row.subject, audience := row.audience, scopes := scopes
      claims := row.claims, actor := none, issuedAt := now, expiresAt := expiresAt }
  let rotated ← prepareRefreshToken clientId row.familyId (some row.id)
    { credentialId := row.credentialId, subject := row.subject
      subjectTokenIssuer := row.subjectTokenIssuer, audience := row.audience
      scopes := scopes, claims := row.claims }
  let id ← generateId
  let stored ← rotateRefreshToken
    { refreshToken := rotated.record
      accessToken :=
        { id := id, tokenHash := Platform.hashProviderSecret accessToken, clientId := clientId
          credentialId := row.credentialId, subject := row.subject
          subjectTokenIssuer := row.subjectTokenIssuer, audience := row.audience
          scopes := scopes, claims := row.claims, expiresAt := expiresAt } }
  if !stored then
    revokeRefreshTokenFamily row.familyId now
    throw (oauthError "invalid_grant" "Refresh token reuse was detected.")
  else
    pure { accessToken := accessToken, issuedTokenType := accessTokenType
           expiresIn := defaultExpiresInSeconds, scope := joinWithSpace scopes
           refreshToken := some rotated.token }

def refreshToken [Platform] (input : TokenRefreshRequest) (credentials : ClientCredentials)
    (signer : TokenExchangeJwtSigner) : Request TokenExchangeResponse := do
  throwIf (input.grantType ≠ refreshTokenGrantType)
    (oauthError "unsupported_grant_type" "Unsupported grant_type.")
  let (oauthClient, _) ← authenticateApplicationClient credentials
  let application ← requireApplicationByClientId oauthClient.clientId
  throwIf (!oauthClient.grantTypes.contains refreshTokenGrantType)
    (oauthError "unauthorized_client" "Client is not allowed to use refresh tokens.")
  let row ← query (·.findRefreshTokenByHash (Platform.hashProviderSecret input.refreshToken))
  let row ← orThrow (oauthError "invalid_grant" "Refresh token is invalid.")
    (row.filter fun row => row.clientId = oauthClient.clientId)
  let now ← currentTime
  if row.consumedAt.isSome then
    revokeRefreshTokenFamily row.familyId now
    throw (oauthError "invalid_grant" "Refresh token reuse was detected.")
  else
    throwIf (row.revokedAt.isSome ∨ row.expiresAt ≤ now)
      (oauthError "invalid_grant" "Refresh token is invalid or expired.")
    let credential ←
      query (·.findFederatedCredentialForClient row.credentialId oauthClient.clientId)
    let credential ← orThrow
      (oauthError "invalid_grant" "The federated credential is no longer active.")
      (credential.filter (·.enabled))
    let eligible ← isStillEligible row credential
    if !eligible then
      revokeRefreshTokenFamily row.familyId now
      throw (oauthError "invalid_grant"
        "The refresh token tenant or audience is no longer eligible.")
    else
      let scopes ← resolveApplicationTokenScopes application row.audience
        (some (refreshScope input row))
      rotate signer oauthClient.clientId row now scopes

end Realmroot
