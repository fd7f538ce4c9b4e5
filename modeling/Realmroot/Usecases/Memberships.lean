import Realmroot.World
import Realmroot.Usecases.ResourceScopes

/-!
# Organizations and members

The use cases that create an organization, add, change and remove its members, and
delete an account.
-/

namespace Realmroot

open AtomicProgram

/-! ## Actors -/

structure MutationAgent where
  issuer : String
  subject : String
  identityId : String
  hostId : String
  deriving DecidableEq

structure MutationActor where
  controllerUserId : Option String
  agent : Option MutationAgent
  deriving DecidableEq

/-- `authorizationAudit`, with the identifier it generates. -/
def authorizationAudit (id action ownerOrganizationId : String) (actor : MutationActor)
    (occurredAt : Time) (metadata : Record) : AgentAuditEvent :=
  { id := id
    action := action
    result := "allowed"
    realmOwned := false
    ownerUserId := none
    ownerOrganizationId := some ownerOrganizationId
    controllerUserId := actor.controllerUserId
    subjectIssuer := actor.agent.map (·.issuer)
    subject := (actor.agent.map (·.subject)).orElse fun _ => actor.controllerUserId
    agentIdentityId := actor.agent.map (·.identityId)
    hostId := actor.agent.map (·.hostId)
    resourceId := none
    resourceConnectionId := none
    accessRequestId := none
    scopes := none
    reasonCode := none
    metadata := some metadata
    occurredAt := occurredAt }

/-- The keys of the predefined roles. -/
def predefinedOrganizationRoleKeys : List String := predefinedOrganizationRoleScopes.map (·.1)

/-- `rolesSchema`: the roles that a request names. -/
structure RequestedRoles where
  roles : List String
  someRole : roles ≠ []
  nonEmpty : ∀ role ∈ roles, role ≠ ""

/-! ## Requests -/

variable [Platform]

/-- `createOrganization`. -/
def createOrganization (slug ownerUserId : String) : Request Unit := do
  let organizationId ← generateId
  let memberId ← generateId
  let now ← currentTime
  executeMembership (.createOrganization
    { id := organizationId, slug := slug, disabled := false }
    { id := memberId, organizationId := organizationId, userId := ownerUserId
      role := serializeRoles ["owner"], updatedAt := now })

/-- `getOrganization`. -/
def getOrganization (id : String) : Request Organization := do
  let organization ← query (·.findOrganization id)
  orThrow (.notFound "Organization was not found.") organization

/-- `validateOrganizationRoleKeys`. -/
def validateOrganizationRoleKeys (organizationId : String) (roles : List String) :
    Request Unit := do
  let dynamic ← query (·.listOrganizationRoleKeys organizationId)
  match roles.find? fun role =>
      !predefinedOrganizationRoleKeys.contains role && !dynamic.contains role with
  | some unknown =>
    .throw (.badRequest ("Organization Role \"" ++ unknown ++ "\" was not found."))
  | none => .pure ()

/-- `addMember`. -/
def addMember (organizationId userId : String) (input : RequestedRoles) : Request Unit := do
  let _ ← getOrganization organizationId
  validateOrganizationRoleKeys organizationId input.roles
  let id ← generateId
  let now ← currentTime
  executeMembership (.addMember
    { id := id, organizationId := organizationId, userId := userId
      role := serializeRoles input.roles, updatedAt := now })

/-- `requireMemberForOrganization`. -/
def requireMemberForOrganization (id organizationId : String) : Request MemberRecord := do
  let found ← query (·.findMember id)
  let member ← orThrow (.notFound "Organization member was not found.") found
  throwIf (member.organizationId ≠ organizationId)
    (.notFound "Organization member was not found.")
  pure member

/-- `rejectLastOwnerMutation`, for a member that loses the owner role. -/
def rejectLastOwnerMutation (member : MemberRecord) (roles : List String) : Request Unit :=
  if member.roles.contains "owner" ∧ ¬ roles.contains "owner" then do
    let ownerCount ← query (·.countMembersByRole member.organizationId "owner")
    throwIf (ownerCount ≤ 1) (.badRequest
      "Transfer Organization ownership before changing or removing the last Owner.")
  else .pure ()

/-- `replaceMemberRoles`. -/
def replaceMemberRoles (organizationId memberId : String) (input : RequestedRoles)
    (actor : MutationActor) : Request Unit := do
  let roles := input.roles
  let target ← requireMemberForOrganization memberId organizationId
  validateOrganizationRoleKeys organizationId roles
  rejectLastOwnerMutation target roles
  let now ← currentTime
  let auditId ← generateId
  let updated ← executeMembership (.replaceMemberRoles organizationId memberId roles
    target.updatedAt
    (authorizationAudit auditId "organization.member.roles-replaced" organizationId actor now
      [("organizationId", .str organizationId), ("memberId", .str memberId),
        ("previousRoles", .arr (target.roles.map .str)), ("roles", .arr (roles.map .str))]))
  throwIf (updated = false)
    (.api 412 .preconditionFailed "The Organization member changed after it was read.")

/-- `removeMember`. -/
def removeMember (organizationId memberId : String) (actor : MutationActor) : Request Unit := do
  let member ← requireMemberForOrganization memberId organizationId
  let auditId ← generateId
  let occurredAt ← currentTime
  let now ← currentTime
  let removed ← executeMembership (.removeMember organizationId memberId member.updatedAt
    (authorizationAudit auditId "organization.member.removed" organizationId actor occurredAt
      [("organizationId", .str organizationId), ("memberId", .str memberId)]) now)
  throwIf (removed = false)
    (.api 412 .preconditionFailed "The Organization member changed or is the last Owner.")

/-- What `erase` makes of a refusal of its batch. -/
def recoverErasure (userId : String) (error : Error) : Request Unit :=
  if error = .constraint "account_last_owner" then
    .throw (.conflict ("Transfer ownership or delete organizations where you are the last owner " ++
      "before deleting this account."))
  else if error = .constraint "account_deleted" then do
    let deleted ← query (·.isDeletedUser userId)
    throwIf (deleted = false) error
  else .throw error

/-- `deleteAccount` and `erase`. -/
def deleteAccount (userId : String) : Request Unit := do
  let now ← currentTime
  let found ← query fun db => db.users.find? fun row => row.id = userId
  let existing ← orThrow (.notFound "User not found.") found
  if existing.deletedAt.isSome then .pure ()
  else (executeMembership (.eraseAccount userId now)).tryCatch (recoverErasure userId)

end Realmroot
