import Realmroot.Middleware.Authn
import Realmroot.Usecases.ResourceScopes

/-!
# The authorization middleware

Which tenant and which scopes a principal acts with, when a target tenant is
given, and which tenants a principal may list. Both are computed from the
memberships and roles as they are in the database.
-/

namespace Realmroot

variable (db : Database)

/-- `requirePlatformOrganization`. -/
def requirePlatformOrganization : Except Error Organization :=
  match db.findOrganizationBySlug "realmroot" with
  | some organization => .ok organization
  | none => .error (.internal "The built-in platform Organization is unavailable.")

/-- `findRealmrootResourceServer`. -/
def findRealmrootResourceServer : Option ApiResource := db.findResourceByIdentifier "realmroot"

/-- The scopes in the context of `resolveOrganizationUserAuthorizationContext`. -/
def organizationUserScopes (organizationId userId : String) : Except Error (List String) :=
  match db.findMemberByOrganizationUser organizationId userId, findRealmrootResourceServer db with
  | some member, some realmroot =>
    membershipScopesForResource (db.listOrganizationRoleScopes organizationId) organizationId
      member.roles (some realmroot)
  | _, _ => .ok []

def resolveOrganizationUserAuthorizationContext (organizationId userId : String) :
    Except Error AuthorizationContext :=
  (organizationUserScopes db organizationId userId).map fun scopes =>
    { subject := .user userId, tenant := .organization organizationId, scopes := scopes }

/-- `organizationUserHasScope`. -/
def organizationUserHasScope (organizationId userId requiredScope : String) : Except Error Bool :=
  (resolveOrganizationUserAuthorizationContext db organizationId userId).map fun context =>
    canAuthorize context (.organization organizationId) requiredScope

variable (principal : PrincipalContext)

def restrictUserContextToApplicationScopes (context : AuthorizationContext) :
    AuthorizationContext :=
  match principal.application with
  | none => context
  | some application =>
    { context with scopes := context.scopes.filter fun scope => application.scopes.contains scope }

def resolvePlatformOrganizationContext (platformId : String) : Except Error AuthorizationContext :=
  match principal.user, principal.application, principal.agent with
  | some user, _, _ =>
    (resolveOrganizationUserAuthorizationContext db platformId user.id).map
      (restrictUserContextToApplicationScopes principal)
  | none, some application, _ =>
    .ok
      { subject := .application application.id
        tenant := .organization application.ownerOrganizationId
        scopes := if application.ownerOrganizationId = platformId then application.scopes else [] }
  | none, none, some agent =>
    .ok
      { subject := .agent agent.identityId
        tenant := .organization platformId
        scopes := if agent.authority = some (.organization platformId) then agent.scopes else [] }
  | none, none, none => .error (.unauthorized "Authentication is required.")

/-- The scopes that every user has for the own account. -/
def selfScopes : List String :=
  ["self:read", "self:write", "agents:read", "agents:write", "audit-events:read"]

/-- The context of a user, once the one in the platform organization is known. -/
def userAuthorizationContext (user : AuthUser) (platformContext : AuthorizationContext) :
    AuthorizationTenant → Except Error AuthorizationContext
  | .user id =>
    .ok (restrictUserContextToApplicationScopes principal
      { subject := .user user.id
        tenant := if platformContext.scopes = [] then .user user.id else .user id
        scopes :=
          if user.id = id then unique (platformContext.scopes ++ selfScopes)
          else platformContext.scopes })
  | .organization id =>
    if platformContext.scopes ≠ [] then .ok { platformContext with tenant := .organization id }
    else
      (resolveOrganizationUserAuthorizationContext db id user.id).map
        (restrictUserContextToApplicationScopes principal)

/-- The tenant that an agent acts in. -/
def AgentAuthority.tenant : Option AgentAuthority → AuthorizationTenant
  | some (.organization id) => .organization id
  | some (.user id) => .user id
  | none => .user ""

def resolveAuthorizationContext (targetTenant : AuthorizationTenant) :
    Except Error AuthorizationContext :=
  match principal.user, principal.application, principal.agent with
  | some user, _, _ => do
    let platform ← requirePlatformOrganization db
    let platformContext ← resolvePlatformOrganizationContext db principal platform.id
    userAuthorizationContext db principal user platformContext targetTenant
  | none, some application, _ =>
    .ok
      { subject := .application application.id
        tenant := .organization application.ownerOrganizationId
        scopes := application.scopes }
  | none, none, some agent => do
    let platform ← requirePlatformOrganization db
    .ok
      { subject := .agent agent.identityId
        tenant :=
          if agent.authority = some (.organization platform.id) then targetTenant
          else AgentAuthority.tenant agent.authority
        scopes := agent.scopes }
  | none, none, none => .error (.unauthorized "Authentication is required.")

/-- `authorizeOrganization` and `authorizeUser`, for any tenant. -/
def authorizeTenant (target : AuthorizationTenant) (requiredScope : String) : Except Error Unit := do
  let context ← resolveAuthorizationContext db principal target
  authorize context target requiredScope

def authorizeOrganization (organizationId requiredScope : String) : Except Error Unit :=
  authorizeTenant db principal (.organization organizationId) requiredScope

def authorizeUser (userId requiredScope : String) : Except Error Unit :=
  authorizeTenant db principal (.user userId) requiredScope

def hasPlatformOrganizationAccess (requiredScope : String) : Except Error Bool := do
  let platform ← requirePlatformOrganization db
  let context ← resolvePlatformOrganizationContext db principal platform.id
  .ok (canAuthorize context (.organization platform.id) requiredScope)

def authorizePlatformOrganization (requiredScope : String) : Except Error Unit := do
  let platform ← requirePlatformOrganization db
  authorizeOrganization db principal platform.id requiredScope

/-- The tenants of the memberships in which the principal holds the scope. -/
def membershipTenants (requiredScope : String) :
    List MemberRecord → Except Error (List AuthorizationTenant)
  | [] => .ok []
  | membership :: memberships => do
    let target := AuthorizationTenant.organization membership.organizationId
    let context ← resolveAuthorizationContext db principal target
    let tenants ← membershipTenants requiredScope memberships
    .ok (if context.scopes.contains requiredScope then target :: tenants else tenants)

/-- `undefined`, here `none`, stands for all tenants. -/
def authorizedTenantInventory (requiredScope : String) :
    Except Error (Option (List AuthorizationTenant)) := do
  let platform ← requirePlatformOrganization db
  let platformContext ← resolvePlatformOrganizationContext db principal platform.id
  if canAuthorize platformContext (.organization platform.id) requiredScope then .ok none
  else
    match principal.user, principal.application, principal.agent with
    | some user, _, _ => do
      let userTenant := AuthorizationTenant.user user.id
      let userContext ← resolveAuthorizationContext db principal userTenant
      let tenants ← membershipTenants db principal requiredScope (db.listUserMemberships user.id)
      .ok (some (if userContext.scopes.contains requiredScope then userTenant :: tenants
        else tenants))
    | none, some application, _ =>
      if ¬ application.scopes.contains requiredScope then
        .error (.forbidden ("OAuth scope \"" ++ requiredScope ++ "\" is required."))
      else .ok (some [.organization application.ownerOrganizationId])
    | none, none, agent =>
      if ¬ agent.any (fun agent => agent.scopes.contains requiredScope) then
        .error (.forbidden ("OAuth scope \"" ++ requiredScope ++ "\" is required."))
      else
        .ok (some (match agent.bind (·.authority) with
          | some (.organization id) => [.organization id]
          | some (.user id) => [.user id]
          | none => []))

/-- `authorizedOrganizationIds`. -/
def authorizedOrganizationIds (requiredScope : String) : Except Error (Option (List String)) :=
  (authorizedTenantInventory db principal requiredScope).map fun tenants => tenants.map fun tenants =>
    sortStrings (unique (tenants.filterMap fun
      | .organization id => some id
      | .user _ => none))

end Realmroot
