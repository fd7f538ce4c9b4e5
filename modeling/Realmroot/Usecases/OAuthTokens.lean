import Realmroot.Repos.Configuration
import Realmroot.Usecases.Consents
import Realmroot.Usecases.DelegatedExchange

/-!
# OAuth access tokens

Which of the requested scopes an access token carries, and the claims that are added to it.
Both resolve the organization in whose context the principal acts, each for itself.
-/

namespace Realmroot

open AtomicProgram Error

/-- The user for whom a token is issued, as the OAuth provider has read it: a stored user,
whose id is not empty. -/
structure OAuthUser where
  id : String
  id_ne_empty : id ≠ ""
  deriving DecidableEq

/-- What the OAuth provider passes to both hooks. -/
structure OAuthTokenInput where
  user : Option OAuthUser
  scopes : List String
  resource : Option String
  referenceId : Option String
  metadata : Option Record
  grantType : Option String
  deriving DecidableEq

/-- `readString(input.metadata, 'applicationId')`, where it is not empty. -/
def OAuthTokenInput.applicationId (input : OAuthTokenInput) : Option String :=
  readString (input.metadata.bind (·.field "applicationId"))

/-- `findById` for the Application that the metadata name. -/
def OAuthTokenInput.findApplication (input : OAuthTokenInput) :
    Request (Option ApplicationAggregate) :=
  queryWhen input.applicationId fun id db =>
    (db.findApplication id).map fun (app, client) => toAggregate app client

/-- The Application that the metadata name. -/
def Database.applicationOf (db : Database) (input : OAuthTokenInput) :
    Option ApplicationAggregate :=
  input.applicationId.bind fun id =>
    (db.findApplication id).map fun (app, client) => toAggregate app client

/-- The scopes of OpenID Connect, which are not scopes of a resource. -/
def userConfigurableApplicationScopes : List String :=
  ["openid", "profile", "email", "groups", "offline_access"]

/-- `oauthProviderError`. -/
def oauthProviderError (error description : String) : Error := oauthError error description

/-! ## Contexts -/

/-- The rest of a value that starts with the prefix. -/
def afterPrefix (start value : String) : Option String :=
  if start.toList.isPrefixOf value.toList then
    some (String.ofList (value.toList.drop start.length))
  else none

/-- The organization that a reference names, with or without `organization:` before its id. -/
def selectedOrganizationId (referenceId : Option String) : Option String :=
  truthy (referenceId.map fun reference => (afterPrefix "organization:" reference).getD reference)

/-- `application?.visibility === 'private'`. -/
def isPrivateApplication (application : Option ApplicationAggregate) : Bool :=
  application.any fun application => application.visibility = .private

/-- The organization is there and not disabled, and the user is a member. -/
def requireContext (organizationId userId : String) (refusal : Error) : Request String := do
  let organization ← query (·.findOrganization organizationId)
  let membership ← query (·.findMemberByOrganizationUser organizationId userId)
  let _ ← throwIf (organization.all (·.disabled) = true ∨ membership = none) refusal
  pure organizationId

/-- The context that follows from the resource, when neither the reference nor the Application
decides. -/
def resourceContext (resource : Option String) (userId code : String) : Request (Option String) := do
  let resource ← queryWhen (truthy resource) fun url db => db.findResourceByResourceUrl url
  match resource.filter (fun resource => resource.visibility = .private) with
  | none => pure none
  | some resource =>
    let organizationId ← requireContext resource.ownerOrganizationId userId (oauthProviderError code
      "The Resource Server authorization Context is no longer available.")
    pure (some organizationId)

/-- The context that a reference selects. -/
def selectedContext (organizationId userId code : String)
    (application : Option ApplicationAggregate) : Request (Option String) := do
  let _ ← throwIf (∃ app ∈ application, app.visibility = .private ∧
      organizationId ≠ app.ownerOrganizationId)
    (oauthProviderError code "The selected authorization Context is unavailable.")
  let organizationId ← requireContext organizationId userId
    (oauthProviderError code "The selected authorization Context is no longer available.")
  pure (some organizationId)

/-- The context of a user who selects none. -/
def defaultContext (input : OAuthTokenInput) (userId code : String)
    (application : Option ApplicationAggregate) : Request (Option String) :=
  match application.filter (fun app => app.visibility = .private) with
  | some app => do
    let organizationId ← requireContext app.ownerOrganizationId userId (oauthProviderError code
      "The Application authorization Context is no longer available.")
    pure (some organizationId)
  | none => resourceContext input.resource userId code

/-- The branches of `resolveOAuthOrganizationId` for a user. -/
def userContext (input : OAuthTokenInput) (userId code : String)
    (application : Option ApplicationAggregate) : Request (Option String) :=
  if (input.referenceId.bind (afterPrefix "user:")).isSome then
    if input.referenceId ≠ some ("user:" ++ userId) ∨ isPrivateApplication application then
      throw (oauthProviderError code "The selected authorization Context is invalid.")
    else pure none
  else
    match selectedOrganizationId input.referenceId with
    | some organizationId => selectedContext organizationId userId code application
    | none => defaultContext input userId code application

/-- `resolveOAuthOrganizationId`. -/
def resolveOAuthOrganizationId (input : OAuthTokenInput)
    (application : Option ApplicationAggregate) (code : String) : Request (Option String) :=
  match input.user with
  | none => pure none
  | some user => userContext input user.id code application

/-- `applicationUserHasAccess`. -/
def applicationUserHasAccess (application : ApplicationAggregate) (userId : String) :
    Request Bool := do
  let organization ← query (·.findOrganization application.ownerOrganizationId)
  if organization.all (·.disabled) = true then pure false
  else if application.visibility = .public then pure true
  else do
    let membership ←
      query (·.findMemberByOrganizationUser application.ownerOrganizationId userId)
    pure membership.isSome

/-- `requireApplicationUserAccess`, for a token that stands for a user. -/
def requireApplicationUserAccess (application : ApplicationAggregate) (user : Option OAuthUser)
    (code : String) : Request Unit :=
  match user with
  | none => pure ()
  | some user => do
    let access ← applicationUserHasAccess application user.id
    throwIf (access = false)
      (oauthProviderError code "The Application is unavailable to this user.")

/-! ## Scopes -/

/-- The scopes that an access token carries, and whether the Application asked for consent
when it was read. -/
structure AuthorizedScopes where
  scopes : List String
  consentRequired : Bool
  deriving DecidableEq

/-- The code of a refusal: it depends on the kind of grant. -/
def OAuthTokenInput.refusalCode (input : OAuthTokenInput) : String :=
  if input.grantType = some "refresh_token" then "invalid_grant" else "access_denied"

def isOidcScope (scope : String) : Bool := userConfigurableApplicationScopes.contains scope

def OAuthTokenInput.oidcScopes (input : OAuthTokenInput) : List String :=
  input.scopes.filter isOidcScope

/-- `requestedResourceScopes`. -/
def OAuthTokenInput.resourceScopes (input : OAuthTokenInput) : List String :=
  input.scopes.filter fun scope => !isOidcScope scope

/-- `recordPolicyAuthorization`, for an Application that asks for no consent. -/
def recordPolicy [Platform] (application : ApplicationAggregate) (userId : String)
    (resourceServerId : Option String) (scopes : List String) : Request Unit :=
  if application.consentRequired then pure ()
  else do
    let _ ← recordPolicyAuthorization
      { applicationId := application.id, userId := userId, resourceServerId := resourceServerId }
      scopes
    pure ()

/-- Without a target, a token carries scopes of OpenID Connect only. -/
def untargetedScopes [Platform] (input : OAuthTokenInput) (application : ApplicationAggregate) :
    Request AuthorizedScopes := do
  let _ ← throwIf (input.resourceScopes ≠ [])
    (oauthProviderError "invalid_scope"
      "Resource scopes require one registered Resource Server target.")
  match input.user with
  | none => pure { scopes := [], consentRequired := application.consentRequired }
  | some user =>
    let _ ← recordPolicy application user.id none input.oidcScopes
    pure { scopes := input.oidcScopes, consentRequired := application.consentRequired }

/-- The principal may see the resource in the context. -/
def visibleInContext (input : OAuthTokenInput) (application : ApplicationAggregate)
    (resource : ApiResource) (organizationId : Option String) : Bool :=
  if input.user.isSome then
    resource.visibility = .public || organizationId = some resource.ownerOrganizationId
  else resource.visibleToOrganization application.ownerOrganizationId

/-- `targetResourceScopes`: what is requested, configured and declared. -/
def targetResourceScopes (input : OAuthTokenInput) (application : ApplicationAggregate)
    (resource : ApiResource) : List String :=
  input.resourceScopes.filter fun scope =>
    (application.configuredScopes resource.id).contains scope &&
      resource.declaredScopes.contains scope

/-- The scopes that the user has consented to, or all when no consent is asked for. -/
def consentedScopes (application : ApplicationAggregate) (userId resourceId : String)
    (targetScopes : List String) : Request (List String) :=
  if application.consentRequired then do
    let consent ← query (·.findConsent
      { applicationId := application.id, userId := userId, resourceServerId := some resourceId })
    pure ((consent.map (·.scopes)).getD [])
  else pure targetScopes

/-- The scopes of a user at the target. -/
def userTokenScopes [Platform] (input : OAuthTokenInput) (application : ApplicationAggregate)
    (resource : ApiResource) (organizationId : Option String) (userId : String) :
    Request AuthorizedScopes := do
  let targetScopes := targetResourceScopes input application resource
  let now ← currentTime
  let effective ← userEffectiveResourceScopes userId resource now (tenantOf organizationId)
  let consented ← consentedScopes application userId resource.id targetScopes
  let authorizedScopes := input.oidcScopes ++ targetScopes.filter fun scope =>
    effective.contains scope && consented.contains scope
  let _ ← recordPolicy application userId (some resource.id) authorizedScopes
  pure { scopes := authorizedScopes, consentRequired := application.consentRequired }

/-- The scopes of an Application that acts for itself. -/
def applicationTokenScopes (input : OAuthTokenInput) (application : ApplicationAggregate)
    (resource : ApiResource) : Request AuthorizedScopes := do
  let effective ← applicationEffectiveResourceScopes application resource
  pure
    { scopes := (targetResourceScopes input application resource).filter effective.contains
      consentRequired := application.consentRequired }

/-- A grant that is not bound to an earlier authorization gets all target scopes it asks for,
or none. -/
def rejectsMissingScopes (input : OAuthTokenInput) (application : ApplicationAggregate)
    (resource : ApiResource) : Prop :=
  input.grantType ≠ some "authorization_code" ∧ input.grantType ≠ some "refresh_token" ∧
    (targetResourceScopes input application resource).length ≠ input.resourceScopes.length

instance (input : OAuthTokenInput) (application : ApplicationAggregate) (resource : ApiResource) :
    Decidable (rejectsMissingScopes input application resource) :=
  inferInstanceAs (Decidable (_ ∧ _ ∧ _))

def principalTokenScopes [Platform] (input : OAuthTokenInput)
    (application : ApplicationAggregate) (resource : ApiResource)
    (organizationId : Option String) : Request AuthorizedScopes :=
  match input.user with
  | none => applicationTokenScopes input application resource
  | some user => userTokenScopes input application resource organizationId user.id

/-- With a target, a token carries scopes of that resource as well. -/
def targetedScopes [Platform] (input : OAuthTokenInput) (application : ApplicationAggregate)
    (resourceUrl : String) : Request AuthorizedScopes := do
  let resource ← query (·.findResourceByResourceUrl resourceUrl)
  let resource ← orThrow
    (oauthProviderError "invalid_target" "Requested Resource Server is not active.")
    (resource.filter fun resource => resource.enabled && resource.scopeRegistry.isSome)
  let organizationId ← resolveOAuthOrganizationId input (some application) input.refusalCode
  let _ ← throwIf (visibleInContext input application resource organizationId = false)
    (oauthProviderError "invalid_target"
      "Requested Resource Server is not visible to this principal.")
  let _ ← throwIf (rejectsMissingScopes input application resource)
    (oauthProviderError "invalid_scope"
      "Requested Resource Server scope is not allowed for this client.")
  principalTokenScopes input application resource organizationId

/-- The rest of `filterOAuthAccessTokenScopes`, once the Application is known. -/
def applicationScopes [Platform] (input : OAuthTokenInput) (application : ApplicationAggregate) :
    Request AuthorizedScopes := do
  let _ ← requireApplicationUserAccess application input.user input.refusalCode
  let _ ← throwIf (∃ scope ∈ input.oidcScopes, scope ∉ application.oidcScopes)
    (oauthProviderError "invalid_scope" "Requested OIDC scope is not allowed for this client.")
  match truthy input.resource with
  | none => untargetedScopes input application
  | some resourceUrl => targetedScopes input application resourceUrl

/-- `filterOAuthAccessTokenScopes`, with what the Application asks for. -/
def authorizeAccessTokenScopes [Platform] (input : OAuthTokenInput) :
    Request AuthorizedScopes := do
  let application ← input.findApplication
  match application.filter (fun application => !application.disabled) with
  | none => pure { scopes := [], consentRequired := true }
  | some application => applicationScopes input application

def filterOAuthAccessTokenScopes [Platform] (input : OAuthTokenInput) : Request (List String) := do
  let authorized ← authorizeAccessTokenScopes input
  pure authorized.scopes

/-! ## Claims -/

structure AuthorizationTokenClaimInput where
  userId : Option String
  applicationId : Option String
  organizationId : Option String
  resource : Option String
  scopes : List String
  authorizedScopes : Option (List String)
  groups : List String := []

structure RoleAuthorization where
  roles : List String
  scopes : List String

/-- The claim `authorization`. -/
structure AuthorizationClaim where
  scopes : List String
  groups : List String
  roles : List String
  organizationId : Option String
  resource : Option String
  audience : Option String
  deriving DecidableEq

structure TokenClaims where
  authorization : AuthorizationClaim
  groups : List String
  roles : List String
  deriving DecidableEq

def toTokenClaims (input : AuthorizationTokenClaimInput)
    (roleAuthorization : Option RoleAuthorization) (resource : Option ApiResource) : TokenClaims :=
  let roles := unique ((roleAuthorization.map (·.roles)).getD [])
  let groups := unique input.groups
  let scopes :=
    match roleAuthorization with
    | some assigned => input.scopes.filter assigned.scopes.contains
    | none => input.scopes
  { authorization :=
      { scopes := scopes, groups := groups, roles := roles
        organizationId := truthy input.organizationId
        resource := resource.map (·.identifier), audience := resource.map (·.resourceUrl) }
    groups := groups
    roles := roles }

/-- `input.authorizedScopes ?? resolveOrganizationMembershipScopes(…)`. -/
def membershipTokenScopes (input : AuthorizationTokenClaimInput) (organizationId : String)
    (membership : MemberRecord) (resource : Option ApiResource) : Request (List String) :=
  match resource, input.authorizedScopes with
  | none, _ => pure []
  | some _, some scopes => pure scopes
  | some resource, none =>
    resolveOrganizationMembershipScopes organizationId membership.roles resource.id

/-- What a membership adds to the claims: its roles with their scopes, and the teams. -/
def membershipClaims (input : AuthorizationTokenClaimInput) (resource : Option ApiResource) :
    Request (Option RoleAuthorization × List String) :=
  match truthy input.userId, truthy input.organizationId with
  | some userId, some organizationId => do
    let membership ← query (·.findMemberByOrganizationUser organizationId userId)
    let membership ← orThrow
      (forbidden "User is not a member of the active Organization context.") membership
    let scopes ← membershipTokenScopes input organizationId membership resource
    let groups ← query (·.listTeamNamesForUser organizationId userId)
    pure (some { roles := membership.roles, scopes := scopes }, groups)
  | _, _ => pure (none, [])

/-- The resource is not for the organization of the claims. -/
def isForeignResource (organizationId : Option String) (resource : Option ApiResource) : Bool :=
  match truthy organizationId, resource with
  | some organizationId, some resource => !resource.activeVisibleToOrganization organizationId
  | _, _ => false

def buildTokenClaims (input : AuthorizationTokenClaimInput) : Request TokenClaims := do
  let resource ← queryWhen (truthy input.resource) fun url db => db.findResourceByResourceUrl url
  if (truthy input.resource).isSome ∧ resource = none then
    pure (toTokenClaims input (some { roles := [], scopes := [] }) none)
  else do
    let (roleAuthorization, groups) ← membershipClaims input resource
    if isForeignResource input.organizationId resource then
      pure (toTokenClaims { input with scopes := [], groups := groups } roleAuthorization resource)
    else pure (toTokenClaims { input with groups := groups } roleAuthorization resource)

/-- The organization whose claims are built. -/
def OAuthTokenInput.claimOrganization (input : OAuthTokenInput)
    (application : Option ApplicationAggregate) (tenantOrganizationId : Option String) :
    Option String :=
  tenantOrganizationId.or
    (if input.user = none then application.map (·.ownerOrganizationId) else none)

/-- `buildOAuthAccessTokenClaims`: the claim `authorization` is not passed on. -/
def buildOAuthAccessTokenClaims (input : OAuthTokenInput) : Request Record := do
  let application ← input.findApplication
  let tenantOrganizationId ← resolveOAuthOrganizationId input application "access_denied"
  let organizationId := input.claimOrganization application tenantOrganizationId
  let claims ← buildTokenClaims
    { userId := input.user.map (·.id), applicationId := input.applicationId
      organizationId := organizationId, resource := input.resource, scopes := input.scopes
      authorizedScopes := some input.resourceScopes }
  let groups : Record :=
    if (truthy tenantOrganizationId).isSome ∧ input.user ≠ none then
      [("groups", .arr (claims.groups.map .str))]
    else []
  let organization : Record :=
    match truthy organizationId with
    | some organizationId => [(realmrootOrganizationClaim, .str organizationId)]
    | none => []
  pure ([("roles", .arr (claims.roles.map .str))] ++ groups ++ organization)

end Realmroot
