import Realmroot.AuthorizationDetails
import Realmroot.World

/-!
# Agents

The use cases that create an agent for an Application, enroll an agent of the protocol under an
identity, and delete an identity.
-/

namespace Realmroot

open AtomicProgram Error

/-! ## Requests and responses -/

/-- The installation of a new agent; the public key is a JSON object. -/
structure InstallationRequest where
  agentId : String
  hostId : String
  name : String
  kid : String
  publicKey : Record
  deriving DecidableEq

structure CreateAgent where
  username : String
  name : String
  runtime : String
  installation : InstallationRequest
  deriving DecidableEq

/-- Which Application creates an agent, for whom, and under which key. -/
structure CreationContext where
  applicationId : String
  actorUserId : String
  issuer : String
  idempotencyKey : String

/-- An agent as its API shows it. -/
structure Agent where
  id : String
  issuer : String
  subject : String
  username : Option String
  name : String
  runtime : Option String
  userId : String
  status : AgentStatus
  createdAt : Time
  updatedAt : Time
  deriving DecidableEq

/-- `toAgent`, of the identity of an aggregate. -/
def toAgent (identity : AgentIdentity) : Agent :=
  { id := identity.id, issuer := identity.issuer, subject := identity.subject
    username := identity.username, name := identity.name, runtime := identity.runtime
    userId := identity.ownerUserId, status := identity.status, createdAt := identity.createdAt
    updatedAt := identity.updatedAt }

/-- The reservation of a creation, with its identity. -/
structure ApplicationCreation where
  reservation : AgentApplicationCreation
  identity : AgentIdentityAggregate

/-! ## Fingerprints and records -/

/-- The JSON value of the request. -/
def CreateAgent.toJson (input : CreateAgent) : Json :=
  .obj [("username", .str input.username), ("name", .str input.name),
    ("runtime", .str input.runtime),
    ("installation", .obj [("agentId", .str input.installation.agentId),
      ("hostId", .str input.installation.hostId), ("name", .str input.installation.name),
      ("kid", .str input.installation.kid), ("publicKey", .obj input.installation.publicKey)])]

section Records

variable [Platform]

/-- `applicationAgentCreationFingerprint`. -/
def applicationAgentCreationFingerprint (input : CreateAgent) (context : CreationContext) :
    String :=
  Platform.sha256Hex (canonicalJson (.obj
    [("applicationId", .str context.applicationId), ("actorUserId", .str context.actorUserId),
      ("issuer", .str context.issuer), ("agent", input.toJson)]))

/-- `agentGovernanceAuditRecord`, for a tenant that is a user. -/
def agentGovernanceAuditRecord (id action userId : String) (controllerUserId : Option String)
    (identity : AgentIdentity) (hostId : Option String) (metadata : Option Record)
    (occurredAt : Time) : AgentAuditEvent :=
  { id := id, action := action, result := "allowed", realmOwned := false
    ownerUserId := some userId, ownerOrganizationId := none, controllerUserId := controllerUserId
    subjectIssuer := some identity.issuer, subject := some identity.subject
    agentIdentityId := some identity.id, hostId := hostId, resourceId := none
    resourceConnectionId := none, accessRequestId := none, scopes := none, reasonCode := none
    metadata := metadata, occurredAt := occurredAt }

/-- `newAgentIdentityRecord`, for a personal home space. -/
def newAgentIdentityRecord (id subject issuer username name runtime userId : String)
    (now : Time) : AgentIdentity :=
  { id := id, issuer := issuer, subject := subject, username := some username, name := name
    runtime := some runtime, ownerUserId := userId, status := .active, deletedAt := none
    createdAt := now, updatedAt := now }

/-- `newAgentIdentityBinding`. -/
def newAgentIdentityBinding (id identityId protocolAgentId : String) (now : Time) :
    AgentIdentityBinding :=
  { id := id, agentIdentityId := identityId, protocolAgentId := protocolAgentId
    status := "active", boundAt := now, revokedAt := none, createdAt := now, updatedAt := now }

end Records

/-! ## Queries -/

/-- `aggregate`. -/
def aggregate (identity : AgentIdentity) : Request AgentIdentityAggregate := do
  let bindings ← query (·.bindingsOf identity.id)
  .pure { identity := identity, bindings := bindings }

/-- `findIdentity` of the repository. -/
def findIdentityAggregate (id : String) : Request (Option AgentIdentityAggregate) := do
  let identity ← query (·.findIdentity id)
  match identity with
  | some identity => (aggregate identity).bind fun found => .pure (some found)
  | none => .pure none

/-- `findActiveByProtocolAgent`. -/
def findActiveByProtocolAgent (id : String) : Request (Option AgentIdentityAggregate) := do
  let identity ← query (·.findActiveIdentity id)
  match identity with
  | some identity => (aggregate identity).bind fun found => .pure (some found)
  | none => .pure none

/-- `findApplicationCreation`. -/
def findApplicationCreation (context : CreationContext) :
    Request (Option ApplicationCreation) := do
  let reservation ← query
    (·.findCreation context.applicationId context.actorUserId context.idempotencyKey)
  match reservation with
  | none => .pure none
  | some reservation => do
    let found ← query (·.findIdentityRow reservation.agentIdentityId)
    let identity ← orThrow
      (.internal "Agent application creation reservation has no identity.") found
    let identity ← aggregate identity
    .pure (some { reservation := reservation, identity := identity })

/-- `requireAvailableAgentUsername`, where the query is executed as the given command. -/
def requireAvailableAgentUsername (command : Command) (username : String) : Request Unit := do
  let found ← queryAs command (·.findByUsername username)
  throwIf (found.isSome = true) (conflict ("Agent username \"" ++ username ++ "\" is unavailable."))

/-- `requireAvailableAgentInstallation`. -/
def requireAvailableAgentInstallation (input : CreateAgent) : Request Unit := do
  let existingProtocolAgent ← queryAs (.identity .checkInstallation)
    (·.findProtocolAgent input.installation.agentId)
  let existingHosts ← queryAs (.identity .checkInstallation)
    (·.listHostsForAgents [input.installation.hostId])
  throwIf (existingProtocolAgent.isSome = true ∨ existingHosts ≠ [])
    (conflict "The Agent installation identifiers are already in use.")

/-- `requireMatchingApplicationAgentCreation`. -/
def requireMatchingApplicationAgentCreation (actualFingerprint requestFingerprint : String) :
    Request Unit :=
  throwIf (actualFingerprint ≠ requestFingerprint)
    (conflict "Idempotency-Key was already used for a different Agent.")

/-- `requireLiveApplicationAgent`. -/
def requireLiveApplicationAgent (identity : AgentIdentityAggregate) : Request Unit :=
  throwIf (identity.identity.deletedAt.isSome = true)
    (conflict "The Agent identity remains reserved after deletion and cannot be recreated.")

/-! ## The repository -/

/-- What follows when the insert of a reservation is refused: somebody else may have made it. -/
def recoverApplicationCreation (context : CreationContext) (error : Error) :
    Request (Option ApplicationCreation) := do
  let raced ← (findApplicationCreation context).tryCatch fun _ => .throw error
  match raced with
  | some creation => .pure (some creation)
  | none => .throw (identityKeyConflict error)

/-- The inserts of a creation: the creation of somebody else, or nothing when they succeed. -/
def insertCreation (context : CreationContext) (command : IdentityCommand) :
    Request (Option ApplicationCreation) :=
  ((executeIdentity command).bind fun _ => .pure none).tryCatch
    (recoverApplicationCreation context)

/-- `reserveApplicationCreation`. -/
def reserveApplicationCreation (context : CreationContext)
    (reservation : AgentApplicationCreation) : Request (ApplicationCreation × Bool) := do
  let existing ← findApplicationCreation context
  match existing with
  | some creation => .pure (creation, false)
  | none => do
    let raced ← insertCreation context (.reserveApplicationCreation reservation)
    match raced with
    | some creation => .pure (creation, false)
    | none => do
      let persisted ← findApplicationCreation context
      let creation ← orThrow
        (.internal "Agent application creation reservation was not persisted.") persisted
      .pure (creation, true)

/-- `createAgentWithInstallation` of the repository. -/
def insertAgentWithInstallation (context : CreationContext) (input : AgentInstallation) :
    Request (ApplicationCreation × Bool) := do
  let existing ← findApplicationCreation context
  match existing with
  | some creation => .pure (creation, false)
  | none => do
    let raced ← insertCreation context (.createAgentWithInstallation input)
    match raced with
    | some creation => .pure (creation, false)
    | none => do
      let found ← findIdentityAggregate input.identity.id
      let identity ← orThrow
        (.internal "Agent identity and installation were not persisted.") found
      .pure ({ reservation := input.reservation, identity := identity }, true)

/-! ## Agents of earlier versions -/

structure LegacyIds where
  identityId : String
  subject : String
  bindingId : String
  auditId : String

section Legacy

variable [Platform]

/-- `legacyApplicationAgentLookupIds`. -/
def legacyApplicationAgentLookupIds (context : CreationContext) : LegacyIds :=
  let hash := Platform.sha256Hex (context.applicationId ++ "\x00" ++ context.actorUserId ++
    "\x00" ++ context.idempotencyKey)
  { identityId := "agi_" ++ hash, subject := "agt_" ++ hash, bindingId := "agb_" ++ hash
    auditId := "aga_" ++ hash }

/-- A nullable string. -/
def nullableString : Option String → Json
  | some value => .str value
  | none => .null

/-- A nullable date; the keys of a date are none. -/
def nullableDate : Option Time → Json
  | some _ => .obj []
  | none => .null

/-- A nullable object. -/
def nullable {α : Type} (toJson : α → Json) : Option α → Json
  | some value => toJson value
  | none => .null

def AgentStatus.text : AgentStatus → String
  | .active => "active"
  | .inactive => "inactive"

/-- The identity, its binding, the agent, its host and the audit event as one object. -/
def legacyObject (identity binding protocolAgent host audit : Json) : Json :=
  .obj [("identity", identity), ("binding", binding), ("protocolAgent", protocolAgent),
    ("host", host), ("audit", audit)]

/-- What was stored of an agent of an earlier version. -/
def actualLegacyAgent (found : AgentIdentityAggregate) (protocolAgent : Option AgentRecord)
    (host : Option AgentHostRecord) (audit : Option AgentAuditEvent) (ids : LegacyIds) : Json :=
  let identity := found.identity
  legacyObject
    (.obj [("id", .str identity.id), ("issuer", .str identity.issuer),
      ("subject", .str identity.subject), ("username", nullableString identity.username),
      ("name", .str identity.name), ("runtime", nullableString identity.runtime),
      ("ownerUserId", .str identity.ownerUserId), ("status", .str identity.status.text),
      ("deletedAt", nullableDate identity.deletedAt)])
    (nullable (fun row : AgentIdentityBinding =>
      .obj [("id", .str row.id), ("agentIdentityId", .str row.agentIdentityId),
        ("protocolAgentId", .str row.protocolAgentId), ("hostId", .str row.hostId),
        ("status", .str row.status), ("revokedAt", nullableDate row.revokedAt)])
      (found.bindings.find? fun row => row.id = ids.bindingId))
    (nullable (fun row : AgentRecord =>
      .obj [("id", .str row.id), ("name", .str row.name), ("userId", nullableString row.userId),
        ("hostId", .str row.hostId), ("status", .str row.status), ("mode", .str row.mode),
        ("kid", nullableString row.kid), ("publicKey", .str row.publicKey)])
      protocolAgent)
    (nullable (fun row : AgentHostRecord =>
      .obj [("id", .str row.id), ("name", nullableString row.name),
        ("userId", nullableString row.userId), ("status", .str row.status),
        ("kid", nullableString row.kid), ("publicKey", nullableString row.publicKey)])
      host)
    (nullable (fun row : AgentAuditEvent =>
      .obj [("id", .str row.id), ("action", .str row.action), ("result", .str row.result),
        ("realmOwned", .bool row.realmOwned), ("ownerUserId", nullableString row.ownerUserId),
        ("ownerOrganizationId", nullableString row.ownerOrganizationId),
        ("controllerUserId", nullableString row.controllerUserId),
        ("subjectIssuer", nullableString row.subjectIssuer),
        ("subject", nullableString row.subject),
        ("agentIdentityId", nullableString row.agentIdentityId),
        ("hostId", nullableString row.hostId), ("metadata", nullable .obj row.metadata)])
      audit)

/-- What the request says of it. -/
def expectedLegacyAgent (input : CreateAgent) (ids : LegacyIds) (context : CreationContext) :
    Json :=
  let publicKey := canonicalJson (.obj input.installation.publicKey)
  legacyObject
    (.obj [("id", .str ids.identityId), ("issuer", .str context.issuer),
      ("subject", .str ids.subject), ("username", .str input.username),
      ("name", .str input.name), ("runtime", .str input.runtime),
      ("ownerUserId", .str context.actorUserId), ("status", .str "active"),
      ("deletedAt", .null)])
    (.obj [("id", .str ids.bindingId), ("agentIdentityId", .str ids.identityId),
      ("protocolAgentId", .str input.installation.agentId),
      ("hostId", .str input.installation.hostId), ("status", .str "active"),
      ("revokedAt", .null)])
    (.obj [("id", .str input.installation.agentId), ("name", .str input.name),
      ("userId", .str context.actorUserId), ("hostId", .str input.installation.hostId),
      ("status", .str "active"), ("mode", .str "delegated"),
      ("kid", .str input.installation.kid), ("publicKey", .str publicKey)])
    (.obj [("id", .str input.installation.hostId), ("name", .str input.installation.name),
      ("userId", .str context.actorUserId), ("status", .str "active"),
      ("kid", .str input.installation.kid), ("publicKey", .str publicKey)])
    (.obj [("id", .str ids.auditId), ("action", .str "agent.identity_enrolled"),
      ("result", .str "allowed"), ("realmOwned", .bool false),
      ("ownerUserId", .str context.actorUserId), ("ownerOrganizationId", .null),
      ("controllerUserId", .str context.actorUserId), ("subjectIssuer", .str context.issuer),
      ("subject", .str ids.subject), ("agentIdentityId", .str ids.identityId),
      ("hostId", .str input.installation.hostId),
      ("metadata", .obj [("source", .str "application"),
        ("applicationId", .str context.applicationId)])])

/-- `requireMatchingLegacyApplicationAgent`. -/
def requireMatchingLegacyApplicationAgent (found : AgentIdentityAggregate)
    (protocolAgent : Option AgentRecord) (host : Option AgentHostRecord)
    (audit : Option AgentAuditEvent) (input : CreateAgent) (context : CreationContext) :
    Request Unit :=
  let ids := legacyApplicationAgentLookupIds context
  throwIf (canonicalJson (actualLegacyAgent found protocolAgent host audit ids) ≠
      canonicalJson (expectedLegacyAgent input ids context))
    (conflict "Idempotency-Key was already used for a different Agent.")

/-- What is left of `replayLegacyApplicationAgent` when the identity is there. -/
def reserveLegacyApplicationAgent (input : CreateAgent) (context : CreationContext)
    (identity : AgentIdentityAggregate) : Request (Agent × Bool) := do
  let protocolAgent ← query (·.findProtocolAgent input.installation.agentId)
  let hosts ← query (·.listHostsForAgents [input.installation.hostId])
  let audit ← query (·.findAuditEvent (legacyApplicationAgentLookupIds context).auditId)
  requireMatchingLegacyApplicationAgent identity protocolAgent hosts.head? audit input context
  let id ← generateId
  let now ← currentTime
  let reserved ← reserveApplicationCreation context
    { id := id, applicationId := context.applicationId, actorUserId := context.actorUserId
      idempotencyKey := context.idempotencyKey
      requestFingerprint := applicationAgentCreationFingerprint input context
      agentIdentityId := identity.identity.id, createdAt := now }
  requireMatchingApplicationAgentCreation reserved.1.reservation.requestFingerprint
    (applicationAgentCreationFingerprint input context)
  requireLiveApplicationAgent reserved.1.identity
  .pure (toAgent reserved.1.identity.identity, true)

/-- `replayLegacyApplicationAgent`. -/
def replayLegacyApplicationAgent (input : CreateAgent) (context : CreationContext) :
    Request (Option (Agent × Bool)) := do
  let found ← findIdentityAggregate (legacyApplicationAgentLookupIds context).identityId
  match found with
  | none => .pure none
  | some identity =>
    (reserveLegacyApplicationAgent input context identity).bind fun result => .pure (some result)

/-- `error instanceof ApiError`. -/
def isApiError : Error → Bool
  | .api .. => true
  | _ => false

/-- `recoverLegacyApplicationAgentAfterFailure`, and what its caller makes of the result. -/
def recoverLegacyApplicationAgent (input : CreateAgent) (context : CreationContext)
    (originalError : Error) : Request (Agent × Bool) := do
  let recovered ← (replayLegacyApplicationAgent input context).tryCatch fun recoveryError =>
    .throw (if isApiError recoveryError then recoveryError else originalError)
  orThrow originalError recovered

/-! ## Creation for an Application -/

/-- What `createUuidV7ApplicationAgent` stores. -/
def newInstallation (input : CreateAgent) (context : CreationContext)
    (identityId subject bindingId auditId reservationId : String) (now occurredAt : Time) :
    AgentInstallation :=
  let publicKey := canonicalJson (.obj input.installation.publicKey)
  let identity := newAgentIdentityRecord identityId subject context.issuer input.username
    input.name input.runtime context.actorUserId now
  { host :=
      { id := input.installation.hostId, name := some input.installation.name
        userId := some context.actorUserId, defaultCapabilities := some "[]"
        publicKey := some publicKey, kid := some input.installation.kid, status := "active"
        activatedAt := some now, createdAt := now, updatedAt := now }
    protocolAgent :=
      { id := input.installation.agentId, name := input.name
        userId := some context.actorUserId, hostId := input.installation.hostId
        status := "active", mode := "delegated", publicKey := publicKey
        kid := some input.installation.kid, activatedAt := some now, createdAt := now
        updatedAt := now }
    identity := identity
    binding := newAgentIdentityBinding bindingId identityId input.installation.agentId now
    audit := agentGovernanceAuditRecord auditId "agent.identity_enrolled" context.actorUserId
      (some context.actorUserId) identity (some input.installation.hostId)
      (some [("source", .str "application"), ("applicationId", .str context.applicationId)])
      occurredAt
    reservation :=
      { id := reservationId, applicationId := context.applicationId
        actorUserId := context.actorUserId, idempotencyKey := context.idempotencyKey
        requestFingerprint := applicationAgentCreationFingerprint input context
        agentIdentityId := identityId, createdAt := now } }

/-- `createUuidV7ApplicationAgent`, and what its caller makes of the result. -/
def createUuidV7ApplicationAgent (input : CreateAgent) (context : CreationContext) :
    Request (ApplicationCreation × Bool) := do
  requireAvailableAgentInstallation input
  requireAvailableAgentUsername (.identity .checkInstallation) input.username
  let now ← currentTime
  let identityId ← generateId
  let subject ← generateId
  let bindingId ← generateId
  let auditId ← generateId
  let reservationId ← generateId
  let occurredAt ← currentTime
  insertAgentWithInstallation context
    (newInstallation input context identityId subject bindingId auditId reservationId now occurredAt)

/-- `requireMatchingApplicationAgentCreation` and `requireLiveApplicationAgent`, and the answer. -/
def replayCreation (input : CreateAgent) (context : CreationContext)
    (creation : ApplicationCreation) (replayed : Bool) : Request (Agent × Bool) := do
  requireMatchingApplicationAgentCreation creation.reservation.requestFingerprint
    (applicationAgentCreationFingerprint input context)
  requireLiveApplicationAgent creation.identity
  .pure (toAgent creation.identity.identity, replayed)

/-- What a creation came to: the agent of an earlier version, or a reservation. -/
inductive CreationOutcome where
  | recovered (result : Agent × Bool)
  | reserved (creation : ApplicationCreation) (created : Bool)

/-- The creation under a key that nothing is found under. -/
def createOrRecover (input : CreateAgent) (context : CreationContext) :
    Request CreationOutcome :=
  ((createUuidV7ApplicationAgent input context).bind fun result =>
      .pure (.reserved result.1 result.2)).tryCatch fun error =>
    (recoverLegacyApplicationAgent input context error).bind fun result =>
      .pure (.recovered result)

/-- The creation under a key that no reservation is found under. -/
def createUnreserved (input : CreateAgent) (context : CreationContext) :
    Request (Agent × Bool) := do
  let legacyReplay ← replayLegacyApplicationAgent input context
  match legacyReplay with
  | some result => .pure result
  | none => do
    let outcome ← createOrRecover input context
    match outcome with
    | .recovered result => .pure result
    | .reserved creation created => replayCreation input context creation (!created)

/-- The checks on the key of an installation. -/
def checkPublicKey (input : InstallationRequest) : Except Error Unit :=
  match input.publicKey.field "kid" with
  | some kid =>
    if kid ≠ .str input.kid then
      .error (badRequest "The installation kid must match the public JWK kid.")
    else if Platform.importsJwk input.publicKey then .ok ()
    else .error
      (badRequest "The installation publicKey must be a valid Ed25519 verification JWK.")
  | none =>
    if Platform.importsJwk input.publicKey then .ok ()
    else .error
      (badRequest "The installation publicKey must be a valid Ed25519 verification JWK.")

/-- `createAgentWithInstallation`. -/
def createAgentWithInstallation (input : CreateAgent) (context : CreationContext) :
    Request (Agent × Bool) := do
  ofResult (checkPublicKey input.installation)
  let existing ← findApplicationCreation context
  match existing with
  | some creation => replayCreation input context creation true
  | none => createUnreserved input context

end Legacy

end Realmroot
