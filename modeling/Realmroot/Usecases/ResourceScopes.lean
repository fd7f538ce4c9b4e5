import Realmroot.World

/-!
# Effective resource scopes

Which scopes of a resource a user or an Application holds: the automatic ones,
the active entitlements, and for users what their organization roles give. The
result is cut down to what the registry of the resource declares.
-/

namespace Realmroot

open AtomicProgram

/-! ## Visibility -/

namespace ApiResource

def visibleToOrganization (resource : ApiResource) (organizationId : String) : Bool :=
  resource.visibility = .public || resource.ownerOrganizationId = organizationId

/-- `activeResourceVisibleToOrganization`. -/
def activeVisibleToOrganization (resource : ApiResource) (organizationId : String) : Bool :=
  resource.enabled && resource.visibleToOrganization organizationId

/-- `activePublicResource`. -/
def activePublic (resource : ApiResource) : Bool :=
  resource.enabled && resource.visibility = .public

/-- `isRealmrootResourceServer`. -/
def isRealmroot (resource : ApiResource) : Bool := resource.identifier = "realmroot"

end ApiResource

/-! ## Organization memberships -/

/-- The keys of `realmrootScopeRegistry`; every one of them is an organization scope. -/
def realmrootOrganizationScopes : List String :=
  ["applications:read", "applications:write", "users:read", "users:write", "organizations:read",
    "organizations:write", "organizations:delete", "roles:read", "roles:write",
    "role-assignments:read", "role-assignments:write", "resource-servers:read",
    "resource-servers:write", "connectors:read", "connectors:write", "settings:read",
    "settings:write", "security:read", "security:write", "readiness:read", "webhooks:read",
    "webhooks:write", "agents:read", "agents:write", "permissions:read", "permissions:write",
    "audit-events:read"]

def predefinedOrganizationRoleScopes : List (String × List String) :=
  [("owner", realmrootOrganizationScopes),
    ("admin", realmrootOrganizationScopes.filter fun scope =>
      scope ≠ "organizations:delete" && scope ≠ "roles:write"),
    ("developer", ["applications:read", "applications:write", "users:read", "organizations:read",
      "roles:read", "role-assignments:read", "resource-servers:read", "resource-servers:write",
      "connectors:read", "webhooks:read", "webhooks:write", "agents:read", "audit-events:read"]),
    ("member", ["organizations:read", "users:read"])]

/-- The keys that every object inherits and that `in` finds. -/
def objectPrototypeKeys : List String :=
  ["constructor", "__defineGetter__", "__defineSetter__", "hasOwnProperty", "__lookupGetter__",
    "__lookupSetter__", "isPrototypeOf", "propertyIsEnumerable", "toString", "valueOf",
    "__proto__", "toLocaleString"]

/-- `scope in realmrootScopeRegistry`. -/
def inScopeRegistry (scope : String) : Bool :=
  realmrootOrganizationScopes.contains scope || objectPrototypeKeys.contains scope

/-- The predefined scopes of the roles. Iterating over an inherited member of the
table is a `TypeError`. -/
def predefinedScopes : List String → Except Error (List String)
  | [] => .ok []
  | role :: roles =>
    match predefinedOrganizationRoleScopes.lookup role with
    | some scopes => (predefinedScopes roles).map (scopes ++ ·)
    | none =>
      if objectPrototypeKeys.contains role then .error (.internal "object is not iterable")
      else predefinedScopes roles

/-- `filterCurrentResourceScopes`. -/
def filterCurrentResourceScopes (resource : ApiResource) (organizationId : String)
    (candidates : List String) : List String :=
  if candidates = [] then []
  else if !resource.activeVisibleToOrganization organizationId then []
  else if resource.isRealmroot then sortStrings (candidates.filter inScopeRegistry)
  else sortStrings (candidates.filter fun scope =>
    (resource.scopesWithMode .assigned).contains scope)

/-- The scopes that dynamic roles give for a resource. -/
def dynamicScopes (dynamicRoles : List (String × List RoleScope)) (roles : List String)
    (resource : Option ApiResource) : List String :=
  roles.flatMap fun role =>
    (((dynamicRoles.lookup role).getD []).filter fun item =>
      some item.resourceId = resource.map (·.id)).map (·.scope)

/-- `resolveOrganizationMembershipScopesForResource`, once the dynamic roles are read. -/
def membershipScopesForResource (dynamicRoles : List (String × List RoleScope))
    (organizationId : String) (roles : List String) (resource : Option ApiResource) :
    Except Error (List String) := do
  let realmroot := resource.any ApiResource.isRealmroot
  let predefined ← if realmroot then predefinedScopes roles else .ok []
  let scopes := unique (predefined ++ dynamicScopes dynamicRoles roles resource)
  if realmroot then .ok (sortStrings (scopes.filter inScopeRegistry))
  else if scopes = [] ∧ ¬ roles.contains "owner" then .ok []
  else
    match resource with
    | none => .ok []
    | some resource =>
      if resource.ownerOrganizationId = organizationId ∧ roles.contains "owner" then
        .ok (filterCurrentResourceScopes resource organizationId
          (unique (scopes ++ resource.scopesWithMode .assigned)))
      else .ok (filterCurrentResourceScopes resource organizationId scopes)

/-- `resolveOrganizationMembershipScopes`. -/
def resolveOrganizationMembershipScopes (organizationId : String) (roles : List String)
    (resourceId : String) : Request (List String) := do
  let resource ← query (·.findResource resourceId)
  let dynamicRoles ← query (·.listOrganizationRoleScopes organizationId)
  match membershipScopesForResource dynamicRoles organizationId roles resource with
  | .ok scopes => pure scopes
  | .error e => throw e

/-! ## Users and Applications -/

/-- The organization a user acts in: not restricted, none at all, or one. -/
inductive TenantContext where
  | unrestricted
  | personal
  | organization (id : String)
  deriving DecidableEq

/-- `userEntitlementMatchesOrganization`. -/
def userEntitlementMatchesOrganization (entitlement : ResourceScopeEntitlement) :
    TenantContext → Bool
  | .unrestricted => true
  | .personal => entitlement.organizationId = none
  | .organization id => entitlement.organizationId = some id

/-- `automaticScopes`. -/
def automaticScopes (resource : ApiResource) : List String := resource.scopesWithMode .automatic

/-- `currentRegistryScopes`. -/
def currentRegistryScopes (resource : ApiResource) (scopes : List String) : List String :=
  sortStrings ((unique scopes).filter fun scope => resource.declaredScopes.contains scope)

/-- The memberships that count in the context. -/
def tenantMemberships (memberships : List MemberRecord) : TenantContext → List MemberRecord
  | .unrestricted => memberships
  | .personal => []
  | .organization id => memberships.filter fun membership => membership.organizationId = id

/-- `userEffectiveResourceScopes`. -/
def userEffectiveResourceScopes (userId : String) (resource : ApiResource) (now : Time)
    (tenant : TenantContext) : Request (List String) := do
  let memberships ← query (·.listUserMemberships userId)
  let privateOnly := tenant = .unrestricted ∧ resource.visibility = .private
  let visible :=
    if privateOnly then
      (tenantMemberships memberships tenant).filter fun membership =>
        membership.organizationId = resource.ownerOrganizationId
    else tenantMemberships memberships tenant
  if privateOnly ∧ visible = [] then pure []
  else
    let entitlements ← query (·.listActiveUserScopeEntitlements userId resource.id now)
    let entitled := (entitlements.filter fun entitlement =>
      userEntitlementMatchesOrganization entitlement tenant).map (·.scope)
    let memberScopes ← Program.mapEach visible fun membership =>
      resolveOrganizationMembershipScopes membership.organizationId membership.roles resource.id
    pure (currentRegistryScopes resource
      (automaticScopes resource ++ entitled ++ memberScopes.flatten))

/-- `applicationEffectiveResourceScopes`. -/
def applicationEffectiveResourceScopes (application : ApplicationAggregate)
    (resource : ApiResource) : Request (List String) := do
  let now ← currentTime
  if !resource.activeVisibleToOrganization application.ownerOrganizationId then pure []
  else
    let entitlements ←
      query (·.listActiveApplicationScopeEntitlements application.id resource.id now)
    pure (currentRegistryScopes resource
      (automaticScopes resource ++ entitlements.map (·.scope)))

end Realmroot
