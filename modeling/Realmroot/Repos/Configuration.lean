import Realmroot.Repos.Memberships
import Realmroot.Repos.Resources

/-!
# The repositories: resources and roles as they are set up

The statements that create a resource or a role and change a role, and what the repository
reads before a batch that changes a resource.
-/

namespace Realmroot

namespace Database

/-! ## Queries -/

section Queries

variable (db : Database)

def findResources (ids : List String) : List ApiResource :=
  db.apiResources.filter fun row => ids.contains row.id && row.deletedAt.isNone

/-- `findById`: the Application with its OAuth client. -/
def findApplication (id : String) : Option (Application × OAuthClient) := do
  let app ← db.applications.find? fun row => row.id = id
  let client ← db.oauthClients.find? fun row => row.clientId = app.oauthClientId
  some (app, client)

def findOrganizationRole (organizationId roleKey : String) : Option OrganizationRole :=
  db.organizationRoles.find? fun row => row.organizationId = organizationId && row.role = roleKey

/-- The users of an organization. -/
def usersOf (organizationId : String) : List String :=
  (db.members.filter fun row => row.organizationId = organizationId).map (·.userId)

/-- Who owns the Application. -/
def applicationOwner (id : String) : Option String :=
  (db.applications.find? fun row => row.id = id).map (·.ownerOrganizationId)

/-- Who owns the agent identity. -/
def identityOwner (id : String) : Option String :=
  (db.agentIdentities.find? fun row => row.id = id).map (·.ownerUserId)

/-- `remainsVisible`: what `updateResource` keeps of the entitlements to a private resource. -/
def remainsVisible (ownerOrganizationId : String) (row : ResourceScopeEntitlement) : Bool :=
  match truthy row.userId, truthy row.applicationId with
  | some userId, _ => (db.usersOf ownerOrganizationId).contains userId
  | none, some applicationId => db.applicationOwner applicationId = some ownerOrganizationId
  | none, none =>
    (db.usersOf ownerOrganizationId).contains ((row.agentIdentityId.bind db.identityOwner).getD "")

end Queries

/-- `role.permission.scope ?? []`. -/
def roleScopesOf (row : OrganizationRole) : List String := (row.permission.lookup "scope").getD []

theorem lookup_withRoleScopes (permission : List (String × List String)) (scopes : List String) :
    (withRoleScopes permission scopes).lookup "scope" =
      (permission.lookup "scope").map fun _ => scopes := by
  induction permission with
  | nil => rfl
  | cons entry rest ih =>
    obtain ⟨key, values⟩ := entry
    by_cases hkey : key = "scope"
    · simp [withRoleScopes, hkey]
    · have hne : ("scope" == key) = false := by simpa using Ne.symm hkey
      have hcons : withRoleScopes ((key, values) :: rest) scopes =
          (key, values) :: withRoleScopes rest scopes := by
        simp [withRoleScopes, hkey]
      rw [hcons, List.lookup_cons, List.lookup_cons, hne]
      exact ih

/-- The scopes that are written to a role with scopes are the ones it has. -/
theorem roleScopesOf_withRoleScopes {row : OrganizationRole} {scopes : List String} {now : Time}
    (h : roleScopesOf row ≠ []) :
    roleScopesOf { row with
      permission := withRoleScopes row.permission scopes, updatedAt := now } = scopes := by
  unfold roleScopesOf at *
  dsimp only
  rw [lookup_withRoleScopes]
  cases hlookup : row.permission.lookup "scope" with
  | none => simp [hlookup] at h
  | some values => rfl

/-! ## Narrowing -/

/-- The scopes of a role of another organization that stay when a resource becomes private. -/
def roleScopesElsewhere (id : String) (scopes : List String) : List String :=
  scopes.filter fun value => (decodeRoleScope value).map (·.resourceId) ≠ some id

/-- What the reads of `updateResource` select when the patch makes the resource private. -/
def privateNarrowing (db : Database) (id ownerOrganizationId : String) : ResourceNarrowing :=
  { applications := db.applications.filterMap fun app =>
      let resourceScopes := app.resourceScopes.filter fun configuration =>
        configuration.resourceServerId ≠ id
      if app.ownerOrganizationId = ownerOrganizationId ∨
          resourceScopes.length = app.resourceScopes.length then none
      else some (app.id, resourceScopes)
    entitlementIds := (db.resourceScopeEntitlements.filter fun row =>
      row.resourceServerId = id && !db.remainsVisible ownerOrganizationId row &&
        row.endedAt.isNone).map (·.id)
    roles := db.organizationRoles.filterMap fun role =>
      let scopes := roleScopesElsewhere id (roleScopesOf role)
      if role.organizationId = ownerOrganizationId ∨
          scopes.length = (roleScopesOf role).length then none
      else some (role.id, scopes)
    consents := db.applicationConsents.filterMap fun consent =>
      if consent.resourceServerId = some id ∧
          ¬ (db.usersOf ownerOrganizationId).contains consent.userId ∧ consent.revokedAt = none then
        some (consent.id, .revoked)
      else none }

/-- What an Application keeps of its scopes when the registry of a resource is replaced. -/
def declaredResourceScopes (id : String) (declared : List String)
    (resourceScopes : List ApplicationResourceScopes) : List ApplicationResourceScopes :=
  (resourceScopes.map fun configuration =>
    if configuration.resourceServerId = id then
      { configuration with scopes := configuration.scopes.filter declared.contains }
    else configuration).filter fun configuration =>
      configuration.resourceServerId ≠ id || configuration.scopes ≠ []

/-- What a role keeps of its scopes when the registry of a resource is replaced. -/
def assignedRoleScopes (id : String) (assigned scopes : List String) : List String :=
  scopes.flatMap fun value =>
    match decodeRoleScope value with
    | some decoded =>
      if decoded.resourceId ≠ id then [value]
      else if assigned.contains decoded.scope then [encodeRoleScope id decoded.scope] else []
    | none => [value]

/-- The scopes of OpenID Connect that a consent keeps. -/
def oidcConsentScopes : List String := ["openid", "profile", "email", "offline_access"]

/-- What the reads of `replaceResourceDiscovery` select. -/
def discoveryNarrowing (db : Database) (id : String) (registry : ResourceScopeRegistry) :
    ResourceNarrowing :=
  let declared := registry.scopes.map (·.value)
  let assigned := (registry.scopes.filter fun scope => scope.grantMode = .assigned).map (·.value)
  { applications := db.applications.filterMap fun app =>
      let resourceScopes := declaredResourceScopes id declared app.resourceScopes
      if resourceScopes = app.resourceScopes then none else some (app.id, resourceScopes)
    entitlementIds := (db.resourceScopeEntitlements.filter fun row =>
      row.resourceServerId = id && !assigned.contains row.scope && row.endedAt.isNone).map (·.id)
    roles := db.organizationRoles.filterMap fun role =>
      let scopes := assignedRoleScopes id assigned (roleScopesOf role)
      if scopes.length = (roleScopesOf role).length then none else some (role.id, scopes)
    consents := db.applicationConsents.filterMap fun consent =>
      let scopes := consent.scopes.filter fun scope =>
        oidcConsentScopes.contains scope || declared.contains scope
      if consent.resourceServerId = some id then
        some (consent.id, if scopes = [] then .revoked else .scopes scopes)
      else none }

/-! ## Statements -/

/-- `createResource`: an identifier and a URL belong to one resource that is not deleted. -/
def insertResource (row : ApiResource) : Statement Unit := fun db =>
  if db.apiResources.any fun old =>
      old.id = row.id || (old.deletedAt.isNone &&
        (old.identifier = row.identifier || old.resourceUrl = row.resourceUrl)) then
    .error resourceKeyConflict
  else .ok ((), { db with apiResources := db.apiResources ++ [row] })

def createOrganizationRole (row : OrganizationRole) (audit : AgentAuditEvent) : Statement Unit :=
  fun db =>
    if db.organizationRoles.any fun old =>
        old.id = row.id || (old.organizationId = row.organizationId && old.role = row.role) then
      .error (Error.conflict ("Role key \"" ++ row.role ++ "\" is already in use."))
    else
      .ok ((), { db with
        organizationRoles := db.organizationRoles ++ [row]
        agentAuditEvents := db.agentAuditEvents ++ [audit] })

/-- The role as it was read. -/
def isRole (organizationId roleKey : String) (expectedUpdatedAt : Time) (row : OrganizationRole) :
    Bool :=
  row.organizationId = organizationId && row.role = roleKey && row.updatedAt = expectedUpdatedAt

def updateOrganizationRole (organizationId roleKey : String)
    (permission : Option (List (String × List String))) (expectedUpdatedAt : Time)
    (audit : AgentAuditEvent) : Statement Bool := fun db =>
  let condition := isRole organizationId roleKey expectedUpdatedAt
  let extra : Record := [("organizationId", .str organizationId), ("roleKey", .str roleKey)]
  let recorded := recordAudit { audit with metadata := audit.metadata.map (·.spread extra) }
    (fun db => db.organizationRoles.any condition) db
  .ok (db.organizationRoles.any condition, { recorded with
    organizationRoles :=
      Table.updateWhere condition
        (fun row => { row with
          permission := permission.getD row.permission, updatedAt := audit.occurredAt })
        recorded.organizationRoles })

end Database
end Realmroot
