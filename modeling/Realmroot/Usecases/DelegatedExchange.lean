import Realmroot.Usecases.TokenExchange

/-!
# Delegated exchange

The exchange of an access token that Realmroot issued for a token at another
resource, on behalf of the same user and, where the token names one, through
the same agent.
-/

namespace Realmroot

open AtomicProgram Error

structure TokenExchangeJwtVerifier where
  /-- The claims of a token that is valid for the issuer and the audience. -/
  verify : String → String → String → Option Record

/-- `requireActiveDelegatedUser`. -/
def requireActiveDelegatedUser (subject : String) : Request Unit := do
  let user ← query (·.findUser subject)
  let user ← orThrow
    (oauthError "invalid_grant" "Subject access token does not represent a User.") user
  throwIf user.banned
    (oauthError "invalid_grant" "Subject access token does not represent an active User.")

/-- The resource policy for a source and a target, or none. -/
def findResourcePolicy (application : ApplicationAggregate) (sourceId targetId : String) :
    Option (List ScopeMapping) :=
  application.tokenExchangePolicies.findSome? fun policy =>
    match policy with
    | .resource source target mappings =>
      if source = sourceId ∧ target = targetId then some mappings else none
    | .identity _ _ => none

/-- The target scopes that a policy gives for the scopes of the subject token. -/
def mappedTargetScopes (mappings : List ScopeMapping) (sourceResource : ApiResource)
    (subjectScopes : List String) : List String :=
  (mappings.filter fun mapping =>
    subjectScopes.contains mapping.sourceScope &&
      sourceResource.declaredScopes.contains mapping.sourceScope).map (·.targetScope)

/-- The scope mappings of the resource policies that lead to a resource. -/
def policiesTo (application : ApplicationAggregate) (targetId : String) :
    List (List ScopeMapping) :=
  application.tokenExchangePolicies.filterMap fun policy =>
    match policy with
    | .resource _ target mappings => if target = targetId then some mappings else none
    | .identity _ _ => none

/-- The binding that a native agent token was issued to, or the check that the
policies of the source Application still give a token exchanged before. -/
def requireSourceAuthority [Platform] (input : TokenExchangeRequest) (claims : Record)
    (sourceResource : ApiResource) (exchangeApplicationOwnerOrganizationId : String)
    (sourceClientId : String) (identity : Option AgentIdentity)
    (sourceApplication : Option ApplicationAggregate) : Request (Option String) := do
  if sourceClientId = realmrootCliClientId then
    let now ← currentTime
    let lease ←
      query (·.findActiveTokenLeaseByTokenHash (Platform.sha256 input.subjectToken) now)
    let lease ← orThrow
      (oauthError "invalid_grant" "Agent subject token is inactive or revoked.") lease
    let sourceRequest ← query (·.findAccessRequest lease.requestId)
    let _ ← orThrow
      (oauthError "invalid_grant" "Agent subject token authority does not match its claims.")
      (sourceRequest.filter fun request =>
        request.resourceId = sourceResource.id &&
          some request.agentIdentityId = identity.map (·.id))
    pure (some lease.bindingId)
  else
    let tokenScopes := parseSpaceSeparatedClaim (claims.field "scope")
    let _ ← orThrow
      (oauthError "invalid_grant" "Delegated Agent subject token authority is no longer active.")
      (sourceApplication.filter fun application =>
        !application.disabled &&
          application.ownerOrganizationId = exchangeApplicationOwnerOrganizationId &&
          (policiesTo application sourceResource.id).any fun mappings =>
            tokenScopes.all fun scope => (mappings.map (·.targetScope)).contains scope)
    pure none

/-- `requireActiveDelegatedAgent`. -/
def requireActiveDelegatedAgent [Platform] (input : TokenExchangeRequest) (claims : Record)
    (sourceResource : ApiResource) (exchangeApplicationOwnerOrganizationId : String)
    (controllerUserId : String) (organizationId : Option String) (actor : Record) :
    Request Actor := do
  let missing := oauthError "invalid_grant" "Agent subject token is missing required claims."
  let actorIssuer ← orThrow missing (readString (actor.field "iss"))
  let actorSubject ← orThrow missing (readString (actor.field "sub"))
  let _ ← orThrow missing (readString (claims.field "jti"))
  let sourceClientId ← orThrow missing (readString (claims.field "client_id"))
  let identity ← query (·.findAgentIdentityByIssuerSubject actorIssuer actorSubject)
  let sourceApplication ←
    queryWhen (if sourceClientId = realmrootCliClientId then none else some sourceClientId)
      fun id db => db.findApplicationByClientId id
  let organization ← queryWhen organizationId fun id db => db.findOrganization id
  let membership ← queryWhen organizationId fun id db =>
    db.findMemberByOrganizationUser id controllerUserId
  let requiredBindingId ← requireSourceAuthority input claims sourceResource
    exchangeApplicationOwnerOrganizationId sourceClientId identity sourceApplication
  let aggregate ← queryWhen identity fun identity db =>
    (db.findAgentIdentity identity.id).map fun found =>
      (found, db.listAgentIdentityBindings found.id)
  let _ ← orThrow (oauthError "invalid_grant" "Agent identity or binding is inactive.")
    (aggregate.filter fun (found, bindings) =>
      found.status = .active && found.deletedAt.isNone &&
        found.ownerUserId = controllerUserId &&
        bindings.any fun binding =>
          (requiredBindingId.all (binding.id = ·)) && binding.status = "active" &&
            binding.revokedAt.isNone)
  throwIf (organizationId.isSome ∧
      (organization.all (·.disabled) ∨ membership.isNone))
    (oauthError "invalid_grant" "Controller Organization membership is inactive.")
  pure { iss := actorIssuer, sub := actorSubject }

/-- The organization claim of a token: absent, or an organization. -/
def readOrganizationClaim (claims : Record) : Except Error (Option String) :=
  match claims.field realmrootOrganizationClaim with
  | none => .ok none
  | some value =>
    match readString (some value) with
    | some id => .ok (some id)
    | none =>
      .error (oauthError "invalid_grant" "Subject access token Organization claim is invalid.")

/-- The actor claim of a token: absent, or an object. -/
def readActorClaim (claims : Record) : Except Error (Option Record) :=
  match claims.field "act" with
  | none => .ok none
  | some (.obj actor) => .ok (some actor)
  | some _ => .error (oauthError "invalid_grant" "Agent actor claim is invalid.")

/-- The actor of the issued token: none, or the agent of the subject token. -/
def requireDelegatedActor [Platform] (input : TokenExchangeRequest) (claims : Record)
    (sourceResource : ApiResource) (exchangeApplicationOwnerOrganizationId : String)
    (controllerUserId : String) (organizationId : Option String) :
    Option Record → Request (Option Actor)
  | none => pure none
  | some actor => do
    let delegated ← requireActiveDelegatedAgent input claims sourceResource
      exchangeApplicationOwnerOrganizationId controllerUserId organizationId actor
    pure (some delegated)

/-- `null` is the personal context. -/
def tenantOf : Option String → TenantContext
  | some id => .organization id
  | none => .personal

/-- The claims that every subject token must have. -/
structure SubjectClaims where
  subject : String
  sourceAudience : String
  expiresAt : ℚ

def readSubjectClaims (claims : Record) (issuer : String) : Option SubjectClaims :=
  match readString (claims.field "sub"), readSingleAudience (claims.field "aud"),
    readNumber (claims.field "exp") with
  | some subject, some sourceAudience, some expiresAt =>
    if readString (claims.field "iss") = some issuer ∧ expiresAt ≠ 0 then
      some { subject := subject, sourceAudience := sourceAudience, expiresAt := expiresAt }
    else none
  | _, _, _ => none

/-- When the issued token expires: after five minutes, or with its subject token. -/
def delegatedExpiresAt (now : Time) (expiresAtClaim : ℚ) : Time :=
  (min ((now + delegatedUserExpiresInSeconds * 1000 : ℕ) : ℚ)
    (expiresAtClaim * 1000)).floor.toNat

/-- `exchangeDelegatedUserToken`. -/
def exchangeDelegatedUserToken [Platform] (input : TokenExchangeRequest) (clientId : String)
    (application : ApplicationAggregate) (signer : TokenExchangeJwtSigner) :
    Request TokenExchangeResponse := do
  let claims ← orThrow (oauthError "invalid_grant" "Subject access token is invalid.")
    input.verifiedSubjectClaims
  let subjectClaims ← orThrow
    (oauthError "invalid_grant" "Subject access token is missing required claims.")
    (readSubjectClaims claims signer.issuer)
  let start ← currentTime
  throwIf (subjectClaims.expiresAt ≤ (toSeconds start : ℚ))
    (oauthError "invalid_grant" "Subject access token is expired.")
  requireActiveDelegatedUser subjectClaims.subject
  let sourceResource ← query (·.findResourceByResourceUrl subjectClaims.sourceAudience)
  let targetResource ← query (·.findResourceByResourceUrl input.audience)
  let sourceResource ← orThrow
    (oauthError "invalid_grant"
      "Subject access token audience is not eligible for this Application.")
    (sourceResource.filter fun resource =>
      resource.activeVisibleToOrganization application.ownerOrganizationId)
  let targetResource ← orThrow
    (oauthError "invalid_target" "Requested audience is not visible to the Application tenant.")
    (targetResource.filter fun resource =>
      resource.activeVisibleToOrganization application.ownerOrganizationId)
  let mappings ← orThrow
    (oauthError "invalid_target"
      "No token exchange policy allows the requested source and target.")
    (findResourcePolicy application sourceResource.id targetResource.id)
  let mapped := mappedTargetScopes mappings sourceResource
    (parseSpaceSeparatedClaim (claims.field "scope"))
  let applicationScopes ←
    resolveApplicationTokenScopesForResource application targetResource input.scope
  match readOrganizationClaim claims, readActorClaim claims with
  | .error e, _ => throw e
  | .ok _, .error e => throw e
  | .ok organizationId, .ok actor =>
    throwIf (actor.isSome ∧ !sourceResource.availableToAgents)
      (oauthError "invalid_grant" "Subject access token audience is not available to Agents.")
    throwIf (actor.isSome ∧ !targetResource.availableToAgents)
      (oauthError "invalid_target" "Requested audience is not available to Agents.")
    throwIf (actor.isSome ∧ targetResource.authorizationModel ≠ .native)
      (oauthError "invalid_target" "Agent delegation requires a native target Resource Server.")
    let delegatedActor ← requireDelegatedActor input claims sourceResource
      application.ownerOrganizationId subjectClaims.subject organizationId actor
    let checkedAt ← currentTime
    let userScopes ← userEffectiveResourceScopes subjectClaims.subject targetResource checkedAt
      (tenantOf organizationId)
    let scopes := applicationScopes.filter fun scope =>
      mapped.contains scope && userScopes.contains scope
    throwIf (scopes = [] ∨ scopes.contains "offline_access")
      (oauthError "invalid_scope"
        "Requested delegated scope is unavailable for the target Resource Server.")
    let now ← currentTime
    let expiresAt := delegatedExpiresAt now subjectClaims.expiresAt
    let accessToken ← issueJwtAccessToken signer
      { clientId := clientId, subject := subjectClaims.subject, audience := input.audience
        scopes := scopes
        claims := match organizationId with
          | some id => [(realmrootOrganizationClaim, .str id)]
          | none => []
        actor := delegatedActor, issuedAt := now, expiresAt := expiresAt }
    pure { accessToken := accessToken, issuedTokenType := accessTokenType
           expiresIn := (expiresAt - now) / 1000, scope := joinWithSpace scopes
           refreshToken := none }

end Realmroot
