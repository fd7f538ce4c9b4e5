import Realmroot.Usecases.Permissions
import Realmroot.Usecases.Resources

/-!
# Permissions of users

The use case that grants a scope of a resource to a user. A grant in an organization checks
that the user is a member of it, and then writes.
-/

namespace Realmroot

open AtomicProgram Error

/-- The modes that a direct grant may ask for. -/
inductive DirectMode where
  | persistent
  | until
  deriving DecidableEq

def DirectMode.toMode : DirectMode → EntitlementMode
  | persistent => .persistent
  | «until» => .until

structure CreateUserPermissionRequest where
  organizationId : Option String
  resourceServerId : String
  scope : String
  mode : DirectMode
  expiresAt : Option Time
  nonEmpty : organizationId ≠ some ""

/-- The digest of `[]`, as `authorizationContextHash` writes it. -/
def emptyContextHash : String :=
  "4f53cda18c2baa0c0354bb5f9a3ecbe5ed12ab4d8e11ba873c2f11161202b945"

/-- `entitlementGrantor`: the user or the agent that grants. -/
def entitlementGrantor (actor : MutationActor) : Except Error (Option String × Option String) :=
  match truthy actor.controllerUserId, actor.agent with
  | some userId, _ => .ok (some userId, none)
  | none, some agent => .ok (none, some agent.identityId)
  | none, none =>
    .error (.internal "Permission administration requires an authenticated mutation actor.")

/-- `validateAssignedScope`. -/
def validateAssignedScope (resource : ApiResource) (scope : String) : Request Unit :=
  throwIf (scope ∉ resource.scopesWithMode .assigned) (badRequest
    "Direct grants may reference only assigned scopes in the current Resource Server registry.")

/-- A private resource is only granted to the members of its owner. -/
def requireOwnerMember (resource : ApiResource) (userId : String) : Request Unit :=
  if resource.visibility = .private then do
    let membership ← query (·.findMemberByOrganizationUser resource.ownerOrganizationId userId)
    throwIf (membership = none)
      (badRequest "Private Resource Server grants require an owner Organization member.")
  else .pure ()

/-- A grant in an organization is only given to its members. -/
def requireGrantMember (resource : ApiResource) (userId : String) :
    Option String → Request Unit
  | none => .pure ()
  | some organizationId => do
    let membership ← query (·.findMemberByOrganizationUser organizationId userId)
    throwIf (membership = none)
      (badRequest "User Permission Organization must contain the target user.")
    throwIf (resource.activeVisibleToOrganization organizationId = false)
      (badRequest "Resource Server is not visible to the grant Organization.")

/-- `createUserPermission`. -/
def createUserPermission [Platform] (userId : String) (input : CreateUserPermissionRequest)
    (actor : MutationActor) : Request ResourceScopeEntitlement := do
  let user ← query (·.findUser userId)
  let _ ← orThrow (notFound "User not found.") user
  let resource ← getResource input.resourceServerId
  throwIf (resource.enabled = false) (badRequest "Resource Server must be active.")
  validateAssignedScope resource input.scope
  requireOwnerMember resource userId
  requireGrantMember resource userId input.organizationId
  let now ← currentTime
  let expiresAt := if input.mode = .until then input.expiresAt else none
  throwIf (input.mode = .until ∧ expiresAt = none)
    (badRequest "Until Permissions require an expiry.")
  throwIf (input.mode = .persistent ∧ input.expiresAt.isSome)
    (badRequest "Persistent Permissions cannot expire.")
  throwIf (expiresAt.any (· ≤ now)) (badRequest "Permission expiry must be in the future.")
  let id ← generateId
  let (grantedByUserId, grantedByAgentIdentityId) ← ofResult (entitlementGrantor actor)
  createScopeEntitlement
    { id := id, userId := some userId, applicationId := none, agentIdentityId := none
      organizationId := input.organizationId, resourceServerId := resource.id
      connectionId := none, authorizationDetails := []
      authorizationContextHash := emptyContextHash, scope := input.scope
      mode := input.mode.toMode, grantedByUserId := grantedByUserId
      grantedByAgentIdentityId := grantedByAgentIdentityId, sourceAccessRequestId := none
      expiresAt := expiresAt, endedAt := none, endReason := none, createdAt := now
      updatedAt := now }
    now

end Realmroot
