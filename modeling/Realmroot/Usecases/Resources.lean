import Realmroot.Usecases.Memberships

/-!
# Resources

The use cases on resources. The Realmroot Resource Server itself is not managed
through them.
-/

namespace Realmroot

open AtomicProgram Error

/-- `getResource`. -/
def getResource (id : String) : Request ApiResource := do
  let resource ← query (·.findResource id)
  orThrow (notFound "API resource was not found.") resource

/-! ## Deleting -/

/-- `resourceMutationAudit`, with the identifier it generates. -/
def resourceMutationAudit (id resourceId ownerOrganizationId : String) (occurredAt : Time)
    (actor : MutationActor) : AgentAuditEvent :=
  { id := id
    action := "api_resource.deleted"
    result := "allowed"
    realmOwned := false
    ownerUserId := none
    ownerOrganizationId := some ownerOrganizationId
    controllerUserId := actor.controllerUserId
    subjectIssuer := actor.agent.map (·.issuer)
    subject := actor.agent.map (·.subject)
    agentIdentityId := actor.agent.map (·.identityId)
    hostId := actor.agent.map (·.hostId)
    resourceId := some resourceId
    resourceConnectionId := none
    accessRequestId := none
    scopes := none
    reasonCode := none
    metadata := some [("authorizationRecordsRevoked", .bool true)]
    occurredAt := occurredAt }

/-- The repository's `deleteResource`: the resource is read before the batch. -/
def deleteActiveResource (id : String) (now : Time) (audit : AgentAuditEvent) : Request Bool := do
  let active ← query fun db => db.apiResources.any (Database.isUndeleted id)
  if active then do
    execute (.deleteResource id now audit)
    pure true
  else .pure false

/-- `deleteResource`. -/
def deleteResource [Platform] (id : String) (actor : MutationActor) : Request Unit := do
  let resource ← getResource id
  throwIf resource.isRealmroot
    (badRequest "The Realmroot Resource Server is system-managed.")
  let now ← currentTime
  let auditId ← generateId
  let deleted ← deleteActiveResource id now
    (resourceMutationAudit auditId id resource.ownerOrganizationId now actor)
  throwIf (deleted = false) (notFound "API resource was not found.")

end Realmroot
