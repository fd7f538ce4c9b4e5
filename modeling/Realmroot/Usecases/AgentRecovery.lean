import Realmroot.Usecases.AgentEnrollments
import Realmroot.Usecases.TokenLeases

/-!
# Recovery of agents

The user who controls an identity revokes one of its hosts, recovers the identity from all of
them, or makes it inactive and active again. A host is revoked in one batch, and afterwards its
leases are, one by one, at the authorization servers that issued them.
-/

namespace Realmroot

open AtomicProgram Error

/-! ## The repository -/

section Repository

/-- `revokeBinding`. -/
def revokeBinding (identityId protocolAgentId : String) (now : Time) : Request Bool := do
  let binding ← query fun db => db.agentIdentityBindings.find? fun row =>
    row.agentIdentityId = identityId && row.protocolAgentId = protocolAgentId &&
      row.status = "active"
  match binding with
  | none => .pure false
  | some _ => do
    executeIdentity (.revokeProtocolAgents identityId [protocolAgentId] now)
    .pure true

/-- The agents that a recovery revokes. -/
def recoveredAgents (identityId : String) (revokeBindings : Bool) :
    Request (Option (List String)) := do
  let protocolAgentIds ← query (·.activeProtocolAgentIds identityId)
  .pure (if revokeBindings then some protocolAgentIds else none)

/-- `deactivateIdentity`. -/
def deactivateIdentity (identityId : String) (now : Time) (revokeBindings : Bool) :
    Request Bool := do
  let identity ← query (·.findIdentity identityId)
  match identity with
  | none => .pure false
  | some identity =>
    if identity.status = .inactive ∧ revokeBindings = false then .pure true
    else do
      let revoked ← recoveredAgents identityId revokeBindings
      executeIdentity (.deactivateIdentity identityId revoked now)
      .pure true

/-- `activateIdentity`. -/
def activateIdentity (identityId : String) (now : Time) : Request Bool := do
  let protocolAgentIds ← query (·.activeProtocolAgentIds identityId)
  if protocolAgentIds.length = 0 then .pure false
  else executeIdentity (.activateIdentity identityId now)

/-- `deleteIdentity`. -/
def deleteIdentity (identityId : String) (now : Time) : Request Bool := do
  let active ← query (·.findIdentity identityId)
  match active with
  | none => .pure false
  | some _ => do
    let protocolAgentIds ← query (·.activeProtocolAgentIds identityId)
    executeIdentity (.deleteIdentity identityId protocolAgentIds now)
    .pure true

end Repository

/-! ## Leases -/

section Leases

variable [Platform]

/-- `revokeAgentResourceLeasesForBinding`. -/
def revokeAgentResourceLeasesForBinding (bindingId : String) : Request Unit := do
  let now ← currentTime
  let leases ← query (·.listActiveTokenLeasesByBinding bindingId now)
  Program.forEach leases fun lease => revokeTokenLeaseAtTarget lease now true

/-- `revokeAgentResourceAccess`. -/
def revokeAgentResourceAccess (agentIdentityId : String) : Request Unit := do
  let now ← currentTime
  let entitlements ← query (·.listActiveEntitlementsByAgent agentIdentityId now)
  Program.forEach entitlements fun entitlement => do
    revokeEntitlementTokenLeases entitlement.id now
    (execute (.endEntitlement entitlement.id .revoked now)).discard

end Leases

/-! ## Use cases -/

section Usecases

/-- `requireControlledIdentity`. -/
def requireControlledIdentity (identityId actorUserId : String) :
    Request AgentIdentityAggregate := do
  let found ← requireIdentity identityId
  assertController found.identity.ownerUserId actorUserId
  .pure found

/-- A change that is refused when it finds nothing to change. -/
def changed (error : Error) (change : Time → Request Bool) : Request Unit := do
  let now ← currentTime
  let done ← change now
  throwIf (done = false) error

variable [Platform]

/-- The leases of a binding, when the identity has had it. -/
def revokeLeasesOf : Option AgentIdentityBinding → Request Unit
  | some binding => revokeAgentResourceLeasesForBinding binding.id
  | none => .pure ()

def revokeAgentIdentityHost (identityId protocolAgentId actorUserId : String) : Request Unit := do
  let found ← requireControlledIdentity identityId actorUserId
  changed (notFound "Active Agent host binding was not found.") fun now =>
    revokeBinding identityId protocolAgentId now
  let binding := found.bindings.find? fun candidate => candidate.protocolAgentId = protocolAgentId
  revokeLeasesOf binding
  appendIdentityAudit "agent.host_revoked" found (some actorUserId)
    (some [("protocolAgentId", .str protocolAgentId),
      ("hostId", nullableString (binding.map (·.hostId)))])

def recoverAgentIdentity (identityId actorUserId : String) : Request Unit := do
  let found ← requireControlledIdentity identityId actorUserId
  throwIf (found.identity.status ≠ .active)
    (badRequest "Only an active Agent identity can be recovered.")
  changed (badRequest "Only an active Agent identity can be recovered.") fun now =>
    deactivateIdentity identityId now true
  revokeAgentResourceAccess identityId
  appendIdentityAudit "agent.identity_recovered" found (some actorUserId)

def deactivateAgentIdentity (identityId actorUserId : String) : Request Unit := do
  let found ← requireControlledIdentity identityId actorUserId
  changed (notFound "Agent identity was not found.") fun now =>
    deactivateIdentity identityId now false
  appendIdentityAudit "agent.identity_deactivated" found (some actorUserId)

def activateAgentIdentity (identityId actorUserId : String) : Request Unit := do
  let found ← requireControlledIdentity identityId actorUserId
  if found.identity.status = .active then .pure ()
  else do
    changed (badRequest "Agent identity requires a new installation before it can be activated.")
      fun now => activateIdentity identityId now
    appendIdentityAudit "agent.identity_activated" found (some actorUserId)

def deleteAgentIdentity (identityId actorUserId : String) : Request Unit := do
  let found ← requireControlledIdentity identityId actorUserId
  changed (notFound "Agent identity was not found.") fun now => deleteIdentity identityId now
  revokeAgentResourceAccess identityId
  appendIdentityAudit "agent.identity_deleted" found (some actorUserId)

end Usecases

end Realmroot
