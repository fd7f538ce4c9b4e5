import Realmroot.AuthorizationDetails
import Realmroot.Middleware.Authz

/-!
# Native authority

What an agent may do at a native resource when it acts for a user, or for an
organization of that user.
-/

namespace Realmroot

open AtomicProgram

/-- `agentBootstrapScopes`. -/
def agentBootstrapScopes : List String :=
  ["agent:read", "resource-servers:read", "authorization-details:read", "access-requests:read",
    "access-requests:write"]

/-- `realmrootOAuthScopes`. -/
def realmrootOAuthScopes : List String :=
  unique (agentBootstrapScopes ++ realmrootOrganizationScopes)

/-- The values that `discoverAgentResourceScopes` finds. -/
def discoverAgentResourceScopes (resource : ApiResource) : Option (List String) :=
  if resource.isRealmroot then some realmrootOAuthScopes
  else resource.scopeRegistry.map fun registry => registry.scopes.map (·.value)

/-- `current`: the scopes that the resource declares for agents. -/
def currentAgentScopes (resource : ApiResource) (scopes : List String) : List String :=
  let declared := (discoverAgentResourceScopes resource).getD []
  sortStrings ((unique scopes).filter declared.contains)

/-- `detail.authority === 'organization' && typeof detail.id === 'string'`. -/
def organizationAuthority (detail : AuthorizationDetail) : Option String :=
  match detail.field "authority", detail.field "id" with
  | some (.str "organization"), some (.str id) => some id
  | _, _ => none

/-- `detail.authority === 'user' && detail.id === userId`. -/
def isUserAuthority (detail : AuthorizationDetail) (userId : String) : Bool :=
  detail.field "authority" = some (.str "user") && detail.field "id" = some (.str userId)

/-- The effective scopes of a user in a context, at the time of the call. -/
def currentUserScopes (resource : ApiResource) (userId : String) (tenant : TenantContext) :
    Request (List String) := do
  let now ← currentTime
  userEffectiveResourceScopes userId resource now tenant

/-- The branch of `nativeAuthorityEffectiveScopes` for other resources than Realmroot's own. -/
def resourceAuthorityScopes (controllerUserId : Option String) (resource : ApiResource)
    (detail : AuthorizationDetail) : Request (List String) :=
  match truthy controllerUserId, organizationAuthority detail with
  | none, _ =>
    if detail.field "authority" = some (.str "organization") then
      pure (currentAgentScopes resource ((discoverAgentResourceScopes resource).getD []))
    else pure []
  | some userId, some organizationId => do
    let scopes ← currentUserScopes resource userId (.organization organizationId)
    pure (currentAgentScopes resource scopes)
  | some userId, none =>
    if isUserAuthority detail userId then do
      let scopes ← currentUserScopes resource userId .personal
      pure (currentAgentScopes resource scopes)
    else pure []

/-- Its branch for the Realmroot Resource Server. -/
def realmrootAuthorityScopes (controllerUserId : Option String) (resource : ApiResource)
    (detail : AuthorizationDetail) : Request (List String) :=
  match truthy controllerUserId, organizationAuthority detail with
  | none, some _ => pure (currentAgentScopes resource realmrootOrganizationScopes)
  | some userId, some organizationId => do
    let memberships ← query (·.listUserMemberships userId)
    if memberships.any fun membership => membership.organizationId = organizationId then do
      let scopes ← currentUserScopes resource userId (.organization organizationId)
      pure (currentAgentScopes resource scopes)
    else pure []
  | some userId, none =>
    if isUserAuthority detail userId then do
      let scopes ← currentUserScopes resource userId .personal
      pure (currentAgentScopes resource
        (["agents:read", "agents:write", "audit-events:read"] ++ scopes))
    else pure []
  | none, none => pure []

/-- `nativeAuthorityEffectiveScopes`. -/
def nativeAuthorityEffectiveScopes (controllerUserId : Option String) (resource : ApiResource)
    (detail : AuthorizationDetail) : Request (List String) :=
  if !resource.isRealmroot then resourceAuthorityScopes controllerUserId resource detail
  else realmrootAuthorityScopes controllerUserId resource detail

end Realmroot
