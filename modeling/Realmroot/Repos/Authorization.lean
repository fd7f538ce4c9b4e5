import Realmroot.Database
import Realmroot.UriComponent

/-!
# The authorization repository: queries

What the statements of the authorization, user and application repositories
select. A query that takes the first row of a table with unique keys is a
`find?`.
-/

namespace Realmroot

/-! ## Rows as the use cases see them -/

/-- `toMember`: a member with its roles as a list. -/
structure MemberRecord where
  id : String
  organizationId : String
  userId : String
  roles : List String
  updatedAt : Time
  deriving DecidableEq

/-- `deserializeRoles`. -/
def deserializeRoles (value : String) : List String :=
  sortStrings (unique ((((value.toList.splitOn ',').map String.ofList).map trim).filter
    fun role => role ≠ ""))

def Member.toMember (row : Member) : MemberRecord :=
  { id := row.id, organizationId := row.organizationId, userId := row.userId
    roles := deserializeRoles row.role, updatedAt := row.updatedAt }

/-- A scope of a resource, as an organization role names it. -/
structure RoleScope where
  resourceId : String
  scope : String
  deriving DecidableEq

def decodeRoleScope (value : String) : Option RoleScope :=
  let before := value.toList.takeWhile (· ≠ '/')
  let after := (value.toList.dropWhile (· ≠ '/')).drop 1
  if before = [] ∨ after = [] then none
  else
    match decodeURIComponent (String.ofList before), decodeURIComponent (String.ofList after) with
    | some resourceId, some scope => some { resourceId := resourceId, scope := scope }
    | _, _ => none

def encodeRoleScope (resourceId scope : String) : String :=
  encodeURIComponent resourceId ++ "/" ++ encodeURIComponent scope

/-- The body of `decodePermissionScopes`, for one value. -/
def decodePermissionScope (value : String) : List RoleScope :=
  match value.toList.findIdx? (· = '/') with
  | none => []
  | some separator =>
    if separator < 1 ∨ separator = value.toList.length - 1 then []
    else
      match decodeURIComponent (String.ofList (value.toList.take separator)),
        decodeURIComponent (String.ofList (value.toList.drop (separator + 1))) with
      | some resourceId, some scope => [{ resourceId := resourceId, scope := scope }]
      | _, _ => []

def decodePermissionScopes (permission : List (String × List String)) : List RoleScope :=
  ((permission.lookup "scope").getD []).flatMap decodePermissionScope

/-- `toAggregate`: an Application with what its OAuth client adds. -/
structure ApplicationAggregate where
  id : String
  clientId : String
  disabled : Bool
  ownerOrganizationId : String
  visibility : Visibility
  oidcScopes : List String
  resourceScopes : List ApplicationResourceScopes
  tokenExchangePolicies : List TokenExchangePolicy
  consentRequired : Bool := true
  deriving DecidableEq

def toAggregate (app : Application) (client : OAuthClient) : ApplicationAggregate :=
  { id := app.id
    clientId := client.clientId
    disabled := app.disabled || client.disabled
    ownerOrganizationId := app.ownerOrganizationId
    visibility := app.visibility
    oidcScopes := app.oidcScopes
    resourceScopes := app.resourceScopes
    tokenExchangePolicies := app.tokenExchangePolicies
    consentRequired := app.consentRequired }

namespace ResourceScopeEntitlement

/-- Not ended, and not expired at the given time. -/
def isActive (entitlement : ResourceScopeEntitlement) (now : Time) : Bool :=
  entitlement.endedAt.isNone && entitlement.expiresAt.all (now < ·)

end ResourceScopeEntitlement

namespace Database

variable (db : Database)

/-! ## Queries -/

def findUser (userId : String) : Option User :=
  db.users.find? fun row => row.id = userId && row.deletedAt.isNone

def findOrganization (id : String) : Option Organization :=
  db.organizations.find? fun row => row.id = id

def findOrganizationBySlug (slug : String) : Option Organization :=
  db.organizations.find? fun row => row.slug = slug

def findMemberByOrganizationUser (organizationId userId : String) : Option MemberRecord :=
  (db.members.find? fun row => row.organizationId = organizationId && row.userId = userId).map
    Member.toMember

def listUserMemberships (userId : String) : List MemberRecord :=
  (db.members.filter fun row => row.userId = userId).map Member.toMember

def findResource (id : String) : Option ApiResource :=
  db.apiResources.find? fun row => row.id = id && row.deletedAt.isNone

def findResourceByIdentifier (identifier : String) : Option ApiResource :=
  db.apiResources.find? fun row => row.identifier = identifier && row.deletedAt.isNone

def findResourceByResourceUrl (resourceUrl : String) : Option ApiResource :=
  db.apiResources.find? fun row =>
    row.resourceUrl = resourceUrl && row.enabled && row.deletedAt.isNone

def listActiveUserScopeEntitlements (userId resourceServerId : String) (now : Time) :
    List ResourceScopeEntitlement :=
  db.resourceScopeEntitlements.filter fun row =>
    row.userId = some userId && row.resourceServerId = resourceServerId && row.isActive now

def listActiveApplicationScopeEntitlements (applicationId resourceServerId : String) (now : Time) :
    List ResourceScopeEntitlement :=
  db.resourceScopeEntitlements.filter fun row =>
    row.applicationId = some applicationId && row.resourceServerId = resourceServerId &&
      row.isActive now

/-- The scopes of the dynamic roles of an organization, by role key. -/
def listOrganizationRoleScopes (organizationId : String) : List (String × List RoleScope) :=
  (db.organizationRoles.filter fun row => row.organizationId = organizationId).map fun row =>
    (row.role, decodePermissionScopes row.permission)

/-- `listTeamNamesForUser`: the names of the teams of the organization that the user is in. -/
def listTeamNamesForUser (organizationId userId : String) : List String :=
  sortStrings (((db.teams.filter fun team => team.organizationId = organizationId).filter
    fun team => db.teamMembers.any fun row => row.teamId = team.id && row.userId = userId).map
      (·.name))

/-- The Application of an OAuth client. -/
def findApplicationByClientId (clientId : String) : Option ApplicationAggregate :=
  db.oauthClients.findSome? fun client =>
    if client.clientId = clientId then
      (db.applications.find? fun app => app.oauthClientId = client.clientId).map
        fun app => toAggregate app client
    else none

def findAgentIdentityByIssuerSubject (issuer subject : String) : Option AgentIdentity :=
  db.agentIdentities.find? fun row =>
    row.issuer = issuer && row.subject = subject && row.deletedAt.isNone

def findAgentIdentity (id : String) : Option AgentIdentity :=
  db.agentIdentities.find? fun row => row.id = id && row.deletedAt.isNone

def listAgentIdentityBindings (agentIdentityId : String) : List AgentIdentityBinding :=
  db.agentIdentityBindings.filter fun row => row.agentIdentityId = agentIdentityId

end Database
end Realmroot
