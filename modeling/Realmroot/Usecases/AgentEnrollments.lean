import Realmroot.Usecases.AgentIdentities

/-!
# Enrollments of agents

An agent of the protocol asks for an identity, or to be bound to one that is there. Its user
approves the intent, which binds the agent. An identity may also be created at once, when the
agent logs in.
-/

namespace Realmroot

open AtomicProgram Error

/-! ## Inputs -/

/-- The profile that an agent asks for. -/
structure AgentProfile where
  username : String
  nickname : Option String := none
  runtime : String

/-- The name of the identity. -/
def AgentProfile.name (input : AgentProfile) : String := input.nickname.getD input.runtime

/-- What `createIntentIdempotently` answers. -/
structure EnrollmentReservation where
  intent : AgentEnrollmentIntent
  created : Bool

/-- `enrollmentLifetimeMs`. -/
def enrollmentLifetime : Time := 10 * 60 * 1000

/-! ## Queries -/

namespace Database

def findIntentByIdempotencyKey (db : Database) (protocolAgentId idempotencyKey : String) :
    Option AgentEnrollmentIntent :=
  db.agentEnrollmentIntents.find? fun row =>
    row.protocolAgentId = protocolAgentId && row.idempotencyKey = some idempotencyKey

/-- The order of `findLatestApprovedIdentityIntent`. -/
def approvedBefore (row other : AgentEnrollmentIntent) : Bool :=
  row.approvedAt.any fun time => other.approvedAt.all fun otherTime =>
    decide (otherTime < time) || (otherTime = time && decide (other.createdAt ≤ row.createdAt))

def findLatestApprovedIdentityIntent (db : Database) (protocolAgentId : String) :
    Option AgentEnrollmentIntent :=
  ((db.agentEnrollmentIntents.filter fun row =>
    row.protocolAgentId = protocolAgentId && row.status = "approved" &&
      row.agentIdentityId.isNone).insertionSort fun row other => approvedBefore row other).head?

end Database

/-! ## Checks -/

/-- `assertController`; `assertSameHomeSpace` is the same check with another message. -/
def assertController (ownerUserId actorUserId : String) : Request Unit :=
  throwIf (ownerUserId ≠ actorUserId) (forbidden "Agent identity controller access is required.")

def assertSameHomeSpace (left right : String) : Request Unit :=
  throwIf (left ≠ right)
    (forbidden "Enrollment intent does not belong to the Agent identity home space.")

def requireIdentity (identityId : String) : Request AgentIdentityAggregate := do
  let identity ← findIdentityAggregate identityId
  orThrow (notFound "Agent identity was not found.") identity

def assertProtocolAgentCanEnroll (protocolAgentId actorUserId : String) : Request Unit := do
  let protocolAgent ← query (·.findProtocolAgent protocolAgentId)
  let _ ← orThrow (notFound "Active Agent protocol registration was not found.")
    (protocolAgent.filter fun agent => agent.status = "active" && agent.userId = some actorUserId)
  let binding ← query (·.findBindingByProtocolAgent protocolAgentId)
  throwIf (binding.isSome = true) (badRequest "Agent protocol registration is already bound.")

/-- `requireMatchingIdentityEnrollment`. -/
def requireMatchingIdentityEnrollment (intent : AgentEnrollmentIntent)
    (username nickname runtime ownerUserId actorUserId : String) : Request Unit := do
  throwIf (intent.createdByUserId ≠ actorUserId)
    (forbidden "This Agent cannot replay the enrollment request.")
  throwIf (intent.agentIdentityId.isSome = true ∨ intent.requestedName ≠ some nickname ∨
      intent.requestedUsername ≠ some username ∨ intent.requestedRuntime ≠ some runtime ∨
      intent.ownerUserId ≠ ownerUserId)
    (conflict "Idempotency-Key was already used for a different Agent identity enrollment.")

/-- `requireMatchingInstallationEnrollment`. -/
def requireMatchingInstallationEnrollment (intent : AgentEnrollmentIntent)
    (identityId actorUserId : String) : Request Unit := do
  throwIf (intent.createdByUserId ≠ actorUserId)
    (forbidden "This Agent cannot replay the enrollment request.")
  throwIf (intent.agentIdentityId ≠ some identityId)
    (conflict "Idempotency-Key was already used for a different Agent installation enrollment.")

/-! ## Writes -/

section Writes

variable [Platform]

/-- `appendIdentityAudit`. -/
def appendIdentityAudit (action : String) (found : AgentIdentityAggregate)
    (controllerUserId : Option String) (metadata : Option Record := none) : Request Unit := do
  let id ← generateId
  let occurredAt ← currentTime
  executeIdentity (.appendAudit (agentGovernanceAuditRecord id action found.identity.ownerUserId
    controllerUserId found.identity (found.bindings.getLast?.map (·.hostId)) metadata occurredAt))

omit [Platform] in
/-- `identityKeyWrite`, around one batch. -/
def identityKeyWrite (command : IdentityCommand) : Request command.Answer :=
  (executeIdentity command).tryCatch fun error => .throw (identityKeyConflict error)

omit [Platform] in
/-- `requireOrClaimIdentityProfile`. -/
def requireOrClaimIdentityProfile (found : AgentIdentityAggregate) (input : AgentProfile) :
    Request AgentIdentityAggregate :=
  match truthy found.identity.username with
  | some username => do
    throwIf (username ≠ input.username) (conflict "Agent username is immutable.")
    .pure found
  | none => do
    requireAvailableAgentUsername .read input.username
    let now ← currentTime
    let claimed ← identityKeyWrite (.claimIdentityProfile found.identity.id
      { username := input.username, name := input.name, runtime := input.runtime
        updatedAt := now })
    let identity ← if claimed then findIdentityAggregate found.identity.id else .pure none
    orThrow (conflict "Agent username has already been assigned.") identity

omit [Platform] in
/-- `createIntentIdempotently`. -/
def createIntentIdempotently (row : AgentEnrollmentIntent) (idempotencyKey : String) :
    Request EnrollmentReservation := do
  let created ← executeIdentity (.createIntent row)
  match created with
  | some intent => .pure { intent := intent, created := true }
  | none => do
    let existing ← query (·.findIntentByIdempotencyKey row.protocolAgentId idempotencyKey)
    let intent ← orThrow (.internal
      "Agent installation enrollment reservation did not return its durable resource.") existing
    .pure { intent := intent, created := false }

end Writes

/-! ## Login identities -/

section Usecases

variable [Platform]

def createAgentLoginIdentity (protocolAgentId : String) (input : AgentProfile)
    (issuer controllerUserId : String) : Request AgentIdentity := do
  let existing ← findActiveByProtocolAgent protocolAgentId
  match existing with
  | some existing => do
    let found ← requireOrClaimIdentityProfile existing input
    .pure found.identity
  | none => do
    assertProtocolAgentCanEnroll protocolAgentId controllerUserId
    let now ← currentTime
    requireAvailableAgentUsername .read input.username
    let identityId ← generateId
    let subject ← generateId
    let bindingId ← generateId
    let _ ← identityKeyWrite (.createIdentity
      (newAgentIdentityRecord identityId subject issuer input.username input.name input.runtime
        controllerUserId now)
      (newAgentIdentityBinding bindingId identityId protocolAgentId now))
    let persisted ← findIdentityAggregate identityId
    let found ← orThrow (.internal "Agent identity was not persisted.") persisted
    appendIdentityAudit "agent.identity_enrolled" found (some controllerUserId)
    .pure found.identity

/-! ## Intents -/

omit [Platform] in
/-- An intent that is found under the key of a request for an identity. -/
def replayIdentityEnrollment (existing : AgentEnrollmentIntent) (protocolAgentId : String)
    (input : AgentProfile) (actorUserId : String) : Request AgentEnrollmentIntent :=
  match truthy existing.requestedUsername with
  | some _ => do
    requireMatchingIdentityEnrollment existing input.username input.name input.runtime actorUserId
      actorUserId
    .pure existing
  | none => do
    let profiledIntent : AgentEnrollmentIntent :=
      { existing with
        requestedName := some input.name, requestedUsername := some input.username
        requestedRuntime := some input.runtime }
    requireMatchingIdentityEnrollment profiledIntent input.username input.name input.runtime
      actorUserId actorUserId
    let bound ← findActiveByProtocolAgent protocolAgentId
    let bound ← orThrow
      (conflict "The existing Agent enrollment cannot claim a username without its identity.") bound
    let _ ← requireOrClaimIdentityProfile bound input
    .pure profiledIntent

omit [Platform] in
/-- The intent that was approved for an agent that is bound. -/
def replayApprovedEnrollment (approved : AgentEnrollmentIntent) (input : AgentProfile)
    (ownerUserId actorUserId : String) : Request Unit :=
  match truthy approved.requestedUsername with
  | some username =>
    requireMatchingIdentityEnrollment approved username (approved.requestedName.getD "")
      (approved.requestedRuntime.getD "") ownerUserId actorUserId
  | none =>
    requireMatchingIdentityEnrollment approved input.username input.name input.runtime ownerUserId
      actorUserId

/-- The intent of an agent that is bound to an identity. -/
def enrollBoundAgent (bound : AgentIdentityAggregate) (protocolAgentId : String)
    (input : AgentProfile) (actorUserId idempotencyKey : String) :
    Request AgentEnrollmentIntent := do
  let profiledIdentity ← requireOrClaimIdentityProfile bound input
  assertController bound.identity.ownerUserId actorUserId
  let approved ← query (·.findLatestApprovedIdentityIntent protocolAgentId)
  match approved with
  | some approved => do
    replayApprovedEnrollment approved input bound.identity.ownerUserId actorUserId
    .pure approved
  | none => do
    let now ← currentTime
    let id ← generateId
    let migrated ← createIntentIdempotently
      { id := id, agentIdentityId := none, requestedName := some profiledIdentity.identity.name
        requestedUsername := profiledIdentity.identity.username
        requestedRuntime := profiledIdentity.identity.runtime
        ownerUserId := bound.identity.ownerUserId, protocolAgentId := protocolAgentId
        idempotencyKey := some idempotencyKey, status := "approved"
        createdByUserId := actorUserId, approvedByUserId := some actorUserId
        expiresAt := now + enrollmentLifetime, approvedAt := some now, createdAt := now
        updatedAt := now }
      idempotencyKey
    requireMatchingIdentityEnrollment migrated.intent input.username input.name input.runtime
      bound.identity.ownerUserId actorUserId
    .pure migrated.intent

/-- The pending intent that a new enrollment stores. -/
def pendingIntent (id : String) (agentIdentityId : Option String) (profile : Option AgentProfile)
    (ownerUserId protocolAgentId idempotencyKey actorUserId : String) (now : Time) :
    AgentEnrollmentIntent :=
  { id := id, agentIdentityId := agentIdentityId, requestedName := profile.map (·.name)
    requestedUsername := profile.map (·.username), requestedRuntime := profile.map (·.runtime)
    ownerUserId := ownerUserId, protocolAgentId := protocolAgentId
    idempotencyKey := some idempotencyKey, status := "pending", createdByUserId := actorUserId
    approvedByUserId := none, expiresAt := now + enrollmentLifetime, approvedAt := none
    createdAt := now, updatedAt := now }

def createAgentEnrollmentIntent (protocolAgentId : String) (input : AgentProfile)
    (actorUserId idempotencyKey : String) : Request (AgentEnrollmentIntent × Bool) := do
  let existing ← query (·.findIntentByIdempotencyKey protocolAgentId idempotencyKey)
  match existing with
  | some existing => do
    let intent ← replayIdentityEnrollment existing protocolAgentId input actorUserId
    .pure (intent, true)
  | none => do
    let boundIdentity ← findActiveByProtocolAgent protocolAgentId
    match boundIdentity with
    | some bound => do
      let intent ← enrollBoundAgent bound protocolAgentId input actorUserId idempotencyKey
      .pure (intent, true)
    | none => do
      assertController actorUserId actorUserId
      assertProtocolAgentCanEnroll protocolAgentId actorUserId
      requireAvailableAgentUsername .read input.username
      let now ← currentTime
      let id ← generateId
      let reserved ← createIntentIdempotently
        (pendingIntent id none (some input) actorUserId protocolAgentId idempotencyKey actorUserId
          now)
        idempotencyKey
      requireMatchingIdentityEnrollment reserved.intent input.username input.name input.runtime
        actorUserId actorUserId
      .pure (reserved.intent, !reserved.created)

def createAdditionalAgentEnrollmentIntent (identityId protocolAgentId actorUserId
    idempotencyKey : String) : Request (AgentEnrollmentIntent × Bool) := do
  let existing ← query (·.findIntentByIdempotencyKey protocolAgentId idempotencyKey)
  match existing with
  | some existing => do
    requireMatchingInstallationEnrollment existing identityId actorUserId
    .pure (existing, true)
  | none => do
    let found ← requireIdentity identityId
    assertController found.identity.ownerUserId actorUserId
    assertProtocolAgentCanEnroll protocolAgentId actorUserId
    let now ← currentTime
    let id ← generateId
    let reserved ← createIntentIdempotently
      (pendingIntent id (some identityId) none found.identity.ownerUserId protocolAgentId
        idempotencyKey actorUserId now)
      idempotencyKey
    requireMatchingInstallationEnrollment reserved.intent identityId actorUserId
    .pure (reserved.intent, !reserved.created)

/-! ## Approval -/

/-- The identity of an approval, and the record of it when it is new. -/
def enrolledIdentity (intent : AgentEnrollmentIntent) (issuer : String) (now : Time) :
    Request (String × Option AgentIdentity) :=
  match truthy intent.agentIdentityId with
  | some identityId => do
    let existing ← requireIdentity identityId
    assertSameHomeSpace intent.ownerUserId existing.identity.ownerUserId
    .pure (identityId, none)
  | none => do
    let identityId ← generateId
    let subject ← generateId
    .pure (identityId, some (newAgentIdentityRecord identityId subject issuer
      (intent.requestedUsername.getD "") (intent.requestedName.getD "")
      (intent.requestedRuntime.getD "") intent.ownerUserId now))

def approveAgentEnrollment (intentId issuer actorUserId : String) : Request AgentIdentity := do
  let found ← query (·.findIntent intentId)
  let intent ← orThrow (notFound "Agent enrollment intent was not found.") found
  throwIf (intent.status ≠ "pending") (badRequest "Agent enrollment intent is no longer pending.")
  let checkedAt ← currentTime
  throwIf (intent.expiresAt ≤ checkedAt) (badRequest "Agent enrollment intent has expired.")
  assertController intent.ownerUserId actorUserId
  assertProtocolAgentCanEnroll intent.protocolAgentId actorUserId
  let now ← currentTime
  let enrolled ← enrolledIdentity intent issuer now
  let bindingId ← generateId
  let _ ← identityKeyWrite (.approveIntent
    { intentId := intentId, identity := enrolled.2
      binding := newAgentIdentityBinding bindingId enrolled.1 intent.protocolAgentId now
      approvedByUserId := actorUserId, approvedAt := now })
  let persisted ← findIdentityAggregate enrolled.1
  let result ← orThrow (.internal "Approved Agent identity was not persisted.") persisted
  appendIdentityAudit "agent.identity_enrolled" result (some actorUserId)
  .pure result.identity

end Usecases

end Realmroot
