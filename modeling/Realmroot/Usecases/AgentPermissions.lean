import Mathlib.Data.String.Basic
import Realmroot.Library.Pages
import Realmroot.Usecases.AgentEnrollments

/-!
# Permissions of agents

The list of the entitlements of agents, newest first and in pages, and the permission that is
fetched by its identifier through that list.
-/

namespace Realmroot

open AtomicProgram Error

/-! ## The repository -/

inductive PermissionListStatus where
  | active
  | inactive
  deriving DecidableEq

structure AgentPermissionQuery where
  agentId : Option String
  resourceServerId : Option String
  status : Option PermissionListStatus
  limit : ℕ
  offset : ℕ

structure ResourceSummary where
  id : String
  identifier : String
  name : String
  deriving DecidableEq

/-- `scopeEntitlementStatusCondition`. -/
def scopeEntitlementStatusCondition (status : Option PermissionListStatus) (now : Time)
    (row : ResourceScopeEntitlement) : Bool :=
  if status = some .inactive then row.endedAt.isSome || row.expiresAt.any (· ≤ now)
  else row.endedAt.isNone && row.expiresAt.all (now < ·)

/-- `desc(createdAt), desc(id)`. -/
def newerEntitlement (a b : ResourceScopeEntitlement) : Bool :=
  b.createdAt < a.createdAt || (a.createdAt = b.createdAt && b.id < a.id)

namespace Database

variable (db : Database)

/-- The row of the join with the agent identity and the resource of an entitlement, where both are
not deleted. -/
def permissionRow (row : ResourceScopeEntitlement) :
    Option (ResourceScopeEntitlement × ResourceSummary) := do
  let _ ← row.agentIdentityId.bind db.findIdentity
  let resource ← db.findResource row.resourceServerId
  some (row, { id := resource.id, identifier := resource.identifier, name := resource.name })

/-- The rows that a query of permissions selects. -/
def selectsPermission (query : AgentPermissionQuery) (now : Time)
    (row : ResourceScopeEntitlement) : Bool :=
  (truthy query.agentId).all (fun agentId => row.agentIdentityId = some agentId) &&
    (truthy query.resourceServerId).all (fun id => row.resourceServerId = id) &&
    (db.permissionRow row).isSome && scopeEntitlementStatusCondition query.status now row

/-- `listAgentPermissions`, for all owners: the items of the page and the total. -/
def listAgentPermissions (query : AgentPermissionQuery) (now : Time) :
    List (ResourceScopeEntitlement × ResourceSummary) × ℕ :=
  let rows := db.resourceScopeEntitlements.filter (db.selectsPermission query now)
  let sorted := rows.insertionSort fun a b => !newerEntitlement b a
  ((Pages.page query.limit query.offset sorted).filterMap db.permissionRow, rows.length)

end Database

/-! ## The use cases -/

/-- `resourceScopeEntitlementLifecycle`: whether the entitlement is ended, and why. -/
def resourceScopeEntitlementLifecycle (entitlement : ResourceScopeEntitlement) (now : Time) :
    PermissionListStatus × Option EndReason :=
  if entitlement.endedAt.isSome then (.inactive, entitlement.endReason)
  else if entitlement.expiresAt.any (· ≤ now) then (.inactive, some .expired)
  else (.active, none)

/-- An item of `listManagementAgentPermissions`. -/
structure AgentPermission where
  id : String
  agentId : Option String
  accountConnectionId : Option String
  resource : ResourceSummary
  scope : String
  authorizationDetails : List AuthorizationDetail
  mode : EntitlementMode
  status : PermissionListStatus
  endReason : Option EndReason
  sourceAccessRequestId : Option String
  expiresAt : Option Time
  endedAt : Option Time
  createdAt : Time
  updatedAt : Time
  self : String
  deriving DecidableEq

def toAgentPermission (entitlement : ResourceScopeEntitlement) (resource : ResourceSummary)
    (now : Time) : AgentPermission :=
  let lifecycle := resourceScopeEntitlementLifecycle entitlement now
  { id := entitlement.id, agentId := entitlement.agentIdentityId
    accountConnectionId := truthy entitlement.connectionId, resource := resource
    scope := entitlement.scope, authorizationDetails := entitlement.authorizationDetails
    mode := entitlement.mode, status := lifecycle.1, endReason := lifecycle.2
    sourceAccessRequestId := entitlement.sourceAccessRequestId
    expiresAt := entitlement.expiresAt, endedAt := entitlement.endedAt
    createdAt := entitlement.createdAt, updatedAt := entitlement.updatedAt
    self := "/api/agents/" ++ encodeURIComponent (entitlement.agentIdentityId.getD "") ++
      "/permissions/" ++ encodeURIComponent entitlement.id }

structure AgentPermissionPage where
  items : List AgentPermission
  page : ℕ
  pageSize : ℕ
  totalItems : ℕ
  totalPages : ℕ

/-- `listManagementAgentPermissions`, for all owners. -/
def listManagementAgentPermissions (agentId : String) (resourceServerId : Option String)
    (status : Option PermissionListStatus) (page pageSize : ℕ) : Request AgentPermissionPage := do
  let selection : AgentPermissionQuery :=
    { agentId := some agentId, resourceServerId := resourceServerId, status := status
      limit := pageSize, offset := (page - 1) * pageSize }
  let selectedAt ← currentTime
  let result ← query (·.listAgentPermissions selection selectedAt)
  let now ← currentTime
  .pure
    { items := result.1.map fun item => toAgentPermission item.1 item.2 now
      page := selection.offset / selection.limit + 1, pageSize := selection.limit
      totalItems := result.2
      totalPages := (result.2 + selection.limit - 1) / selection.limit }

/-- `getManagementAgentPermission`. -/
def getManagementAgentPermission (entitlementId : String) : Request AgentPermission := do
  let found ← query (·.findEntitlement entitlementId)
  let entitlement ← orThrow (notFound "Agent Permission was not found.") found
  let agentId ← orThrow (notFound "Agent Permission was not found.")
    (truthy entitlement.agentIdentityId)
  let _ ← requireIdentity agentId
  let now ← currentTime
  let lifecycle := resourceScopeEntitlementLifecycle entitlement now
  let result ← listManagementAgentPermissions agentId (some entitlement.resourceServerId)
    (if lifecycle.1 = .inactive then some .inactive else none) 1 100
  orThrow (notFound "Agent Permission was not found.")
    (result.items.find? fun item => item.id = entitlement.id)

end Realmroot
