import Realmroot.Middleware.Authz
import Realmroot.RoleTexts
import Realmroot.Usecases.Resources

/-!
# Roles and invitations

The use cases that create and delete a role of an organization, and that invite somebody to it.
-/

namespace Realmroot

open AtomicProgram Error

/-! ## Requests -/

structure CreateRoleRequest where
  key : String
  scopes : List RoleScope := []
  validKey : isRoleKey key = true

structure CreateInvitationRequest where
  email : String
  roles : RequestedRoles
  expiresAt : Option Time := none

/-- What `getRole` returns of a role. -/
structure RoleRepresentation where
  key : String
  predefined : Bool
  scopes : List RoleScope
  updatedAt : Option Time
  deriving DecidableEq

/-- What `deleteOrganizationRole` answers. -/
inductive RoleDeletion where
  | deleted
  | assigned
  | notFound
  deriving DecidableEq

section Scopes

variable [Platform]

/-- The key of a scope in the map of `normalizeRoleScopes`. -/
def RoleScope.text (scope : RoleScope) : String := scope.resourceId ++ "\x00" ++ scope.scope

/-- `left.resourceId.localeCompare(right.resourceId) || left.scope.localeCompare(right.scope)` is
at most zero. -/
def RoleScope.le (left right : RoleScope) : Bool :=
  if Platform.localeLe left.resourceId right.resourceId &&
      Platform.localeLe right.resourceId left.resourceId then
    Platform.localeLe left.scope right.scope
  else Platform.localeLe left.resourceId right.resourceId

/-- `normalizeRoleScopes`: the last scope under each key. -/
def normalizeRoleScopes (scopes : List RoleScope) : List RoleScope :=
  ((unique (scopes.map RoleScope.text)).filterMap fun text =>
    scopes.reverse.find? fun scope => scope.text = text).insertionSort fun a b => a.le b

/-- `toBetterAuthPermission`. -/
def toBetterAuthPermission (scopes : List RoleScope) : List (String × List String) :=
  [("scope", scopes.map fun item => encodeRoleScope item.resourceId item.scope)]

end Scopes

/-- What `validateRoleScopes` says of the scopes of one resource. -/
def validateScopesAt (organizationId : String) (requestedScopes : List String)
    (resource : ApiResource) : Except Error Unit :=
  if !resource.activeVisibleToOrganization organizationId then
    .error (badRequest "Resource Server is not visible to this Organization.")
  else if resource.isRealmroot then
    if requestedScopes.all inScopeRegistry then .ok ()
    else .error (badRequest "Requested scope is not declared by the Realmroot Scope Registry.")
  else if requestedScopes.any fun scope => !resource.declaredScopes.contains scope then
    .error (badRequest "Requested scope is not declared by the Resource Server scope registry.")
  else if requestedScopes.all (resource.scopesWithMode .assigned).contains then .ok ()
  else .error (badRequest "Organization Roles may reference only assigned scopes.")

/-- `validateRoleScopes`. -/
def validateRoleScopes (organizationId : String) (scopes : List RoleScope) : Request Unit :=
  Program.forEach (unique (scopes.map (·.resourceId))) fun resourceId => do
    let resource ← getResource resourceId
    ofResult (validateScopesAt organizationId
      ((scopes.filter fun item => item.resourceId = resourceId).map (·.scope)) resource)

/-! ## Roles -/

variable [Platform]

/-- `createRole`. -/
def createRole (organizationId : String) (input : CreateRoleRequest) (actor : MutationActor) :
    Request Unit := do
  let _ ← getOrganization organizationId
  throwIf (predefinedOrganizationRoleKeys.contains input.key = true)
    (conflict ("Role key \"" ++ input.key ++ "\" is reserved for a predefined Role."))
  let scopes := normalizeRoleScopes input.scopes
  validateRoleScopes organizationId scopes
  let now ← currentTime
  let auditId ← generateId
  let id ← generateId
  executeRole (.createRole
    { id := id, organizationId := organizationId, role := input.key
      permission := toBetterAuthPermission scopes, updatedAt := now }
    (authorizationAudit auditId "organization.role.created" organizationId actor now
      [("organizationId", .str organizationId), ("roleKey", .str input.key)]))

omit [Platform] in
/-- `predefinedRoleRepresentations`, the one of a key. -/
def findPredefinedRole (roleKey : String) : Request (Option RoleRepresentation) := do
  let realmroot ← query findRealmrootResourceServer
  let resource ← orThrow (.internal "The Realmroot Resource Server is unavailable.") realmroot
  .pure ((predefinedOrganizationRoleScopes.find? fun entry => entry.1 = roleKey).map fun entry =>
    { key := entry.1, predefined := true
      scopes := entry.2.map fun scope => { resourceId := resource.id, scope := scope }
      updatedAt := none })

omit [Platform] in
/-- `getRole`, for a role that is not predefined. -/
def getDynamicRole (organizationId roleKey : String) : Request RoleRepresentation := do
  let found ← query (·.findOrganizationRole organizationId roleKey)
  let role ← orThrow (notFound "Organization Role was not found.") found
  let scopes ← query (·.listOrganizationRoleScopes organizationId)
  .pure
    { key := role.role, predefined := false, scopes := (scopes.lookup roleKey).getD []
      updatedAt := some role.updatedAt }

omit [Platform] in
/-- `getRole`. -/
def getRole (organizationId roleKey : String) : Request RoleRepresentation := do
  let predefined ← findPredefinedRole roleKey
  match predefined with
  | some role => .pure role
  | none => getDynamicRole organizationId roleKey

omit [Platform] in
/-- What `deleteOrganizationRole` looks up when its batch deletes nothing. -/
def explainKeptRole (organizationId roleKey : String) : Request RoleDeletion := do
  let existing ← query (·.findOrganizationRole organizationId roleKey)
  match existing with
  | none => .pure .notFound
  | some _ => do
    let assignment ← query (Database.assignedMember organizationId roleKey)
    if assignment then .pure .assigned
    else do
      let pendingInvitation ← query (Database.assignedInvitation organizationId roleKey)
      .pure (if pendingInvitation then .assigned else .notFound)

omit [Platform] in
/-- `deleteOrganizationRole` of the repository. -/
def deleteOrganizationRole (organizationId roleKey : String) (expectedUpdatedAt : Time)
    (audit : AgentAuditEvent) : Request RoleDeletion := do
  let deleted ← executeRole (.deleteRole organizationId roleKey expectedUpdatedAt audit)
  if deleted then .pure .deleted else explainKeptRole organizationId roleKey

/-- `deleteRole`. -/
def deleteRole (organizationId roleKey : String) (actor : MutationActor) : Request Unit := do
  let role ← getRole organizationId roleKey
  throwIf (role.predefined = true)
    (conflict "Predefined Organization Roles cannot be deleted.")
  let now ← currentTime
  let auditId ← generateId
  let result ← deleteOrganizationRole organizationId roleKey (role.updatedAt.getD 0)
    (authorizationAudit auditId "organization.role.deleted" organizationId actor now
      [("organizationId", .str organizationId), ("roleKey", .str roleKey)])
  throwIf (result = .assigned) (conflict "Assigned Organization Roles cannot be deleted.")
  throwIf (result = .notFound)
    (.api 412 .preconditionFailed "The Organization Role changed after it was read.")

/-! ## Invitations -/

/-- `createInvitation`; an invitation is open for two days unless the request says otherwise. -/
def createInvitation (organizationId : String) (input : CreateInvitationRequest)
    (actor : MutationActor) : Request Unit := do
  let _ ← getOrganization organizationId
  validateOrganizationRoleKeys organizationId input.roles.roles
  let id ← generateId
  let now ← currentTime
  let createdAt ← currentTime
  executeRole (.createInvitation
    { id := id, organizationId := organizationId, email := input.email
      role := serializeRoles input.roles.roles, inviterId := actor.controllerUserId
      status := "pending", expiresAt := input.expiresAt.getD (now + 1000 * 60 * 60 * 48)
      createdAt := createdAt })

end Realmroot
