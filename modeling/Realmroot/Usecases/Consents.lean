import Realmroot.Repos.Configuration
import Realmroot.Usecases.TokenExchange

/-!
# Consents

A user consents to scopes of an Application, the platform authorizes Applications that ask
for no consent, and both are withdrawn together.
-/

namespace Realmroot

open AtomicProgram Error

/-- `toConsent`. -/
structure ConsentRecord where
  id : String
  resourceServerId : Option String
  scopes : List String
  authorizationSource : AuthorizationSource
  grantedAt : Time
  deriving DecidableEq

def ApplicationConsent.toConsent (row : ApplicationConsent) : ConsentRecord :=
  { id := row.id, resourceServerId := row.resourceServerId, scopes := row.scopes
    authorizationSource := row.authorizationSource, grantedAt := row.grantedAt }

/-! ## The application repository -/

/-- The active row for the key, read again after it was written. -/
def persistedConsent (key : ConsentKey) (what : String) : Request ConsentRecord := do
  let row ← query (·.activeConsent key)
  let row ← orThrow (.internal ("Persisted application " ++ what ++ " was not found.")) row
  pure row.toConsent

def newConsent (id : String) (key : ConsentKey) (scopes : List String)
    (authorizationSource : AuthorizationSource) (now : Time) : ApplicationConsent :=
  { id := id, applicationId := key.applicationId, userId := key.userId
    resourceServerId := key.resourceServerId, scopes := scopes
    authorizationSource := authorizationSource, grantedAt := now, expiresAt := none
    revokedAt := none }

/-- The statement of `createConsent`: an active row becomes the consent, or one is inserted. -/
def writeConsent [Platform] (key : ConsentKey) (scopes : List String) (now : Time) :
    Option ApplicationConsent → Request Unit
  | some existing => executeConsent (.update existing.id scopes now)
  | none => do
    let id ← generateId
    executeConsent (.insert (newConsent id key scopes .userConsent now))

/-- `createConsent` of the repository. -/
def storeConsent [Platform] (key : ConsentKey) (scopes : List String) : Request ConsentRecord := do
  let now ← currentTime
  let existing ← query (·.activeConsent key)
  let _ ← writeConsent key scopes now existing
  persistedConsent key "consent"

/-- The statement of `recordPolicyAuthorization`: its scopes are added to an active row, or a
row is inserted. -/
def writePolicyAuthorization [Platform] (key : ConsentKey) (scopes : List String) (now : Time) :
    Option ApplicationConsent → Request Unit
  | some existing =>
    executeConsent (.updatePolicy existing.id
      (sortStrings (unique (existing.scopes ++ scopes))) now)
  | none => do
    let id ← generateId
    executeConsent (.insert (newConsent id key (sortStrings (unique scopes)) .platformPolicy now))

def recordPolicyAuthorization [Platform] (key : ConsentKey) (scopes : List String) :
    Request ConsentRecord := do
  let now ← currentTime
  let existing ← query (·.activeConsent key)
  let _ ← writePolicyAuthorization key scopes now existing
  persistedConsent key "authorization"

/-- `revokeConsent` and `revokeAuthorization` of the repository. -/
def revokeGrant (selector : GrantSelector) : Request Bool := do
  let grant ← query (·.findAuthorizationGrant selector)
  match grant with
  | none => pure false
  | some grant =>
    let now ← currentTime
    let _ ← executeConsent (.revokeGrant grant now)
    pure true

/-! ## Use cases -/

structure CreateConsentRequest where
  clientId : String
  resourceServerId : Option String
  scopes : List String

structure CreatedConsent where
  id : String
  scopes : List String
  grantedAt : Time
  deriving DecidableEq

/-- `requireResourceVisibleToUser`. -/
def requireResourceVisibleToUser (resourceId userId : String) : Request ApiResource := do
  let resource ← query (·.findResource resourceId)
  let resource ← orThrow (badRequest "Requested Resource Server is not active.")
    (resource.filter (·.enabled))
  if resource.visibility = .public then pure resource
  else do
    let membership ← query (·.findMemberByOrganizationUser resource.ownerOrganizationId userId)
    let _ ← orThrow (badRequest "Requested Resource Server is not visible to the current user.")
      membership
    pure resource

/-- The resource of the request, when it names one. -/
def requestedResource (resourceServerId : Option String) (userId : String) :
    Request (Option ApiResource) :=
  match truthy resourceServerId with
  | none => pure none
  | some resourceId => do
    let resource ← requireResourceVisibleToUser resourceId userId
    pure (some resource)

/-- The words of a scope parameter; `openid` stands in for an empty one. -/
def scopeWords (scope : String) : List String :=
  unique (splitWhiteSpace (if scope = "" then "openid" else scope))

/-- `normalizeRequestedScopes`. -/
def normalizeRequestedScopes (scope : String) (allowedScopes : List String) :
    Except Error (List String) :=
  match (scopeWords scope).find? fun requestedScope => !allowedScopes.contains requestedScope with
  | some requestedScope =>
    .error (badRequest ("Scope is not allowed for this client: " ++ requestedScope))
  | none => .ok (scopeWords scope)

/-- What the user agrees to: the words of the scopes of the request. -/
def CreateConsentRequest.words (input : CreateConsentRequest) : List String :=
  scopeWords (joinWithSpace input.scopes)

def createConsent [Platform] (input : CreateConsentRequest) (userId : String) :
    Request CreatedConsent := do
  let application ← query (·.findApplicationByClientId input.clientId)
  let application ← orThrow (notFound "OAuth client was not found.")
    (application.filter fun application => !application.disabled)
  let resource ← requestedResource input.resourceServerId userId
  let allowedScopes := application.oidcScopes ++
    (resource.map fun resource => application.configuredScopes resource.id).getD []
  let requestedScopes ← ofResult
    (normalizeRequestedScopes (joinWithSpace input.scopes) allowedScopes)
  let key : ConsentKey :=
    { applicationId := application.id, userId := userId
      resourceServerId := resource.map (·.id) }
  let existingConsent ← query (·.findConsent key)
  let scopes := sortStrings (unique
    ((existingConsent.map (·.scopes)).getD [] ++ requestedScopes))
  let consent ← storeConsent key scopes
  pure { id := consent.id, scopes := consent.scopes, grantedAt := consent.grantedAt }

def revokeConsent (consentId userId : String) : Request Unit := do
  let revoked ← revokeGrant (.ofUser consentId userId)
  throwIf (revoked = false) (notFound "Application consent was not found.")

def getApplicationAuthorization (authorizationId : String) : Request ApplicationConsent := do
  let authorization ← query (·.findAuthorization authorizationId)
  orThrow (notFound "Application authorization was not found.") authorization

/-- The branch of `putApplicationAuthorizationRevocation` for what is not revoked yet. -/
def revokeApplicationAuthorization (authorizationId : String) : Request Time := do
  let revoked ← revokeGrant (.any authorizationId)
  let _ ← throwIf (revoked = false) (notFound "Application authorization was not found.")
  let revoked ← getApplicationAuthorization authorizationId
  orThrow (.internal ("Application authorization " ++ authorizationId ++ " was not revoked."))
    revoked.revokedAt

/-- `putApplicationAuthorizationRevocation`: the answer is when the authorization was revoked. -/
def putApplicationAuthorizationRevocation (authorizationId : String) : Request Time := do
  let authorization ← getApplicationAuthorization authorizationId
  match authorization.revokedAt with
  | some revokedAt => pure revokedAt
  | none => revokeApplicationAuthorization authorizationId

/-! ## Scope registries -/

/-- `replaceResourceDiscovery` of the repository: what is narrowed was read before the batch. -/
def replaceResourceDiscovery (id : String) (discovery : ResourceDiscovery) : Request Unit := do
  let now ← currentTime
  let registry := discovery.scopeRegistry
  let applications ← query fun db => (db.discoveryNarrowing id registry).applications
  let entitlementIds ← query fun db => (db.discoveryNarrowing id registry).entitlementIds
  let roles ← query fun db => (db.discoveryNarrowing id registry).roles
  let consents ← query fun db => (db.discoveryNarrowing id registry).consents
  execute (.replaceResourceDiscovery id discovery
    { applications := applications, entitlementIds := entitlementIds, roles := roles
      consents := consents } now)

end Realmroot
