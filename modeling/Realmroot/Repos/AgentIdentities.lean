import Realmroot.Repos.AccountDeletion

/-!
# The agent identity repository

Identities of agents, the agents of the protocol that are bound to them, and the enrollments that
ask for either. A batch inserts rows that refer to each other; an index, a reference or a trigger
that stands against one of them refuses the whole batch.
-/

namespace Realmroot

/-! ## Inputs -/

/-- What `createAgentWithInstallation` is given. -/
structure AgentInstallation where
  host : AgentHostRecord
  protocolAgent : AgentRecord
  identity : AgentIdentity
  binding : AgentIdentityBinding
  audit : AgentAuditEvent
  reservation : AgentApplicationCreation

/-- What `approveIntent` is given. -/
structure EnrollmentApproval where
  intentId : String
  identity : Option AgentIdentity
  binding : AgentIdentityBinding
  approvedByUserId : String
  approvedAt : Time

/-- What `claimIdentityProfile` writes. -/
structure IdentityProfile where
  username : String
  name : String
  runtime : String
  updatedAt : Time

/-- An identity with its bindings. -/
structure AgentIdentityAggregate where
  identity : AgentIdentity
  bindings : List AgentIdentityBinding

/-! ## Constraints -/

/-- The indexes of the tables; all of them are unique. -/
def identityIndexes : List String :=
  ["agent_host.id", "agent.id", "agent_identity.id", "agentIdentity_issuer_subject_unique",
    "agentIdentity_username_unique", "agent_identity_binding.id",
    "agentIdentityBinding_protocolAgentId_unique", "agent_application_creation.id",
    "agentApplicationCreation_applicationActorKey_unique",
    "agentApplicationCreation_agentIdentityId_unique"]

/-- `isUniqueConstraint`. -/
def isUniqueConstraint : Error → Bool
  | .constraint name => identityIndexes.contains name
  | _ => false

/-- `identityKeyConflict`. -/
def identityKeyConflict (error : Error) : Error :=
  if isUniqueConstraint error then
    .conflict ("Agent identity and installation identifiers remain reserved after revocation " ++
      "or deletion and cannot be reused.")
  else error

/-- The constraint stands against a statement. -/
def refuseIf (name : String) (condition : Bool) : Except Error Unit :=
  if condition then .error (.constraint name) else .ok ()

theorem refuseIf_ok {name : String} {condition : Bool} {u : Unit} :
    refuseIf name condition = .ok u ↔ condition = false := by
  cases condition <;> simp [refuseIf]

theorem refuseIf_error {name : String} {condition : Bool} {e : Error} :
    refuseIf name condition = .error e ↔ condition = true ∧ e = .constraint name := by
  cases condition <;> simp [refuseIf, eq_comm]

namespace Database

/-! ## Queries -/

section Queries

variable (db : Database)

/-- The account exists, deleted or not. -/
def isUser (userId : String) : Bool := db.users.any fun row => row.id = userId

def findIdentity (id : String) : Option AgentIdentity :=
  db.agentIdentities.find? fun row => row.id = id && row.deletedAt.isNone

/-- The identity, also when it is deleted. -/
def findIdentityRow (id : String) : Option AgentIdentity :=
  db.agentIdentities.find? fun row => row.id = id

/-- `bindingRows` of an identity. -/
def bindingsOf (identityId : String) : List AgentIdentityBinding :=
  db.agentIdentityBindings.filter fun row => row.agentIdentityId = identityId

def findByUsername (username : String) : Option AgentIdentity :=
  db.agentIdentities.find? fun row => row.username = some username && row.deletedAt.isNone

def findIntent (id : String) : Option AgentEnrollmentIntent :=
  db.agentEnrollmentIntents.find? fun row => row.id = id

def findProtocolAgent (id : String) : Option AgentRecord :=
  db.agents.find? fun row => row.id = id

def findBindingByProtocolAgent (id : String) : Option AgentIdentityBinding :=
  db.agentIdentityBindings.find? fun row => row.protocolAgentId = id

/-- The identity of `findActiveByProtocolAgent`. -/
def findActiveIdentity (protocolAgentId : String) : Option AgentIdentity :=
  (db.agentIdentityBindings.filter fun row =>
    row.protocolAgentId = protocolAgentId && row.status = "active").findSome? fun binding =>
      db.agentIdentities.find? fun row =>
        row.id = binding.agentIdentityId && row.status = .active && row.deletedAt.isNone

def listHostsForAgents (hostIds : List String) : List AgentHostRecord :=
  db.agentHosts.filter fun row => hostIds.contains row.id

/-- The row that `findApplicationCreation` looks for. -/
def findCreation (applicationId actorUserId idempotencyKey : String) :
    Option AgentApplicationCreation :=
  db.agentApplicationCreations.find? fun row =>
    row.applicationId = applicationId && row.actorUserId = actorUserId &&
      row.idempotencyKey = idempotencyKey

def activeProtocolAgentIds (identityId : String) : List String :=
  (db.agentIdentityBindings.filter fun row =>
    row.agentIdentityId = identityId && row.status = "active").map (·.protocolAgentId)

def findAuditEvent (id : String) : Option AgentAuditEvent :=
  db.agentAuditEvents.find? fun row => row.id = id

end Queries

/-! ## Inserts -/

def insertAgentHost (row : AgentHostRecord) : Statement Unit := fun db => do
  refuseIf "account_deleted" (row.userId.any db.isDeletedUser)
  refuseIf "agent_host.id" (db.agentHosts.any fun old => old.id = row.id)
  refuseIf "agent_host.user_id" (!row.userId.all db.isUser)
  .ok ((), { db with agentHosts := db.agentHosts ++ [row] })

def insertAgent (row : AgentRecord) : Statement Unit := fun db => do
  refuseIf "account_deleted" (row.userId.any db.isDeletedUser)
  refuseIf "agent.id" (db.agents.any fun old => old.id = row.id)
  refuseIf "agent.user_id" (!row.userId.all db.isUser)
  refuseIf "agent.host_id" (!db.agentHosts.any fun host => host.id = row.hostId)
  .ok ((), { db with agents := db.agents ++ [row] })

def insertAgentIdentity (row : AgentIdentity) : Statement Unit := fun db => do
  refuseIf "account_deleted" (db.isDeletedUser row.ownerUserId)
  refuseIf "agent_identity.id" (db.agentIdentities.any fun old => old.id = row.id)
  refuseIf "agentIdentity_issuer_subject_unique"
    (db.agentIdentities.any fun old => old.issuer = row.issuer && old.subject = row.subject)
  refuseIf "agentIdentity_username_unique"
    (row.username.isSome && db.agentIdentities.any fun old => old.username = row.username)
  refuseIf "agent_identity.owner_user_id" (!db.isUser row.ownerUserId)
  .ok ((), { db with agentIdentities := db.agentIdentities ++ [row] })

/-- The identity is deleted. -/
def isDeletedIdentity (id : String) (db : Database) : Bool :=
  db.agentIdentities.any fun row => row.id = id && row.deletedAt.isSome

/-- A binding gets the host of its agent. The trigger
`account_deleted_agent_identity_binding_insert` refuses an active one of a deleted identity. -/
def insertBinding (row : AgentIdentityBinding) : Statement Unit := fun db => do
  refuseIf "account_deleted" (row.status = "active" && db.isDeletedIdentity row.agentIdentityId)
  refuseIf "agent_identity_binding.id" (db.agentIdentityBindings.any fun old => old.id = row.id)
  refuseIf "agentIdentityBinding_protocolAgentId_unique"
    (db.agentIdentityBindings.any fun old => old.protocolAgentId = row.protocolAgentId)
  refuseIf "agent_identity_binding.agent_identity_id"
    (!db.agentIdentities.any fun identity => identity.id = row.agentIdentityId)
  refuseIf "agent_identity_binding.protocol_agent_id"
    (!db.agents.any fun agent => agent.id = row.protocolAgentId)
  let hostId := ((db.findProtocolAgent row.protocolAgentId).map (·.hostId)).getD row.hostId
  .ok ((), { db with
    agentIdentityBindings := db.agentIdentityBindings ++ [{ row with hostId := hostId }] })

def insertAuditEvent (row : AgentAuditEvent) : Statement Unit := fun db =>
  .ok ((), { db with agentAuditEvents := db.agentAuditEvents ++ [row] })

def insertApplicationCreation (row : AgentApplicationCreation) : Statement Unit := fun db => do
  refuseIf "agent_application_creation.id"
    (db.agentApplicationCreations.any fun old => old.id = row.id)
  refuseIf "agentApplicationCreation_applicationActorKey_unique"
    (db.findCreation row.applicationId row.actorUserId row.idempotencyKey).isSome
  refuseIf "agentApplicationCreation_agentIdentityId_unique"
    (db.agentApplicationCreations.any fun old => old.agentIdentityId = row.agentIdentityId)
  refuseIf "agent_application_creation.actor_user_id" (!db.isUser row.actorUserId)
  refuseIf "agent_application_creation.agent_identity_id"
    (!db.agentIdentities.any fun identity => identity.id = row.agentIdentityId)
  .ok ((), { db with agentApplicationCreations := db.agentApplicationCreations ++ [row] })

/-! ## Batches -/

/-- The batch of `createIdentity`. -/
def createIdentity (identity : AgentIdentity) (binding : AgentIdentityBinding) : Statement Unit :=
  fun db => do
    let ((), db) ← insertAgentIdentity identity db
    insertBinding binding db

/-- The batch of `createAgentWithInstallation`. -/
def createAgentWithInstallation (input : AgentInstallation) : Statement Unit := fun db => do
  let ((), db) ← insertAgentHost input.host db
  let ((), db) ← insertAgent input.protocolAgent db
  let ((), db) ← insertAgentIdentity input.identity db
  let ((), db) ← insertBinding input.binding db
  let ((), db) ← insertAuditEvent input.audit db
  insertApplicationCreation input.reservation db

/-- The identity has no profile yet. -/
def isUnclaimed (id : String) (row : AgentIdentity) : Bool :=
  row.id = id && row.username.isNone && row.deletedAt.isNone

def claimIdentityProfile (id : String) (input : IdentityProfile) : Statement Bool := fun db => do
  refuseIf "account_deleted" (db.agentIdentities.any fun row =>
    isUnclaimed id row && db.isDeletedUser row.ownerUserId)
  refuseIf "agentIdentity_username_unique" (db.agentIdentities.any (isUnclaimed id) &&
    db.agentIdentities.any fun row => row.username = some input.username)
  .ok (db.agentIdentities.any (isUnclaimed id), { db with
    agentIdentities :=
      Table.updateWhere (isUnclaimed id)
        (fun row => { row with
          username := some input.username, name := input.name, runtime := some input.runtime
          updatedAt := input.updatedAt })
        db.agentIdentities })

/-- A conflict is ignored, as `createIntentIdempotently` asks for. -/
def insertEnrollmentIntent (row : AgentEnrollmentIntent) :
    Statement (Option AgentEnrollmentIntent) := fun db =>
  if db.agentEnrollmentIntents.any fun old =>
      old.id = row.id || (old.protocolAgentId = row.protocolAgentId &&
        old.idempotencyKey.isSome && old.idempotencyKey = row.idempotencyKey) then
    .ok (none, db)
  else if !db.isUser row.ownerUserId || !db.isUser row.createdByUserId then
    .error (.constraint "agent_enrollment_intent.owner_user_id")
  else .ok (some row, { db with agentEnrollmentIntents := db.agentEnrollmentIntents ++ [row] })

/-- The identity of an approval, when it is a new one. -/
def insertNewIdentity : Option AgentIdentity → Statement Unit
  | some identity => insertAgentIdentity identity
  | none => fun db => .ok ((), db)

/-- The intent of an approval is marked, when it is pending. -/
def markApproved (input : EnrollmentApproval) : Statement Unit := fun db => do
  let pending := fun row : AgentEnrollmentIntent =>
    row.id = input.intentId && row.status = "pending"
  refuseIf "agent_enrollment_intent.approved_by_user_id"
    (db.agentEnrollmentIntents.any pending && !db.isUser input.approvedByUserId)
  .ok ((), { db with
    agentEnrollmentIntents :=
      Table.updateWhere pending
        (fun row => { row with
          status := "approved", approvedByUserId := some input.approvedByUserId
          approvedAt := some input.approvedAt, updatedAt := input.approvedAt })
        db.agentEnrollmentIntents })

/-- The batch of `approveIntent`. -/
def approveIntent (input : EnrollmentApproval) : Statement Unit := fun db => do
  let ((), db) ← insertNewIdentity input.identity db
  let ((), db) ← insertBinding input.binding db
  markApproved input db

/-! ## Revocations -/

/-- Agents are revoked. The trigger `account_deleted_agent_update` protects those of deleted
accounts. -/
def revokeAgentsWhere (p : AgentRecord → Bool) (now : Time) : Statement Unit := fun db => do
  refuseIf "account_deleted" (db.agents.any fun row => p row && row.userId.any db.isDeletedUser)
  .ok ((), { db with
    agents :=
      Table.updateWhere p (fun row => { row with status := "revoked", updatedAt := now })
        db.agents })

def revokeCapabilityGrantsWhere (p : AgentCapabilityGrant → Bool) (now : Time) :
    Statement Unit := fun db =>
  .ok ((), { db with
    agentCapabilityGrants :=
      Table.updateWhere p (fun row => { row with status := "revoked", updatedAt := now })
        db.agentCapabilityGrants })

def revokeApprovalRequestsWhere (p : ApprovalRequest → Bool) (now : Time) :
    Statement Unit := fun db =>
  .ok ((), { db with
    approvalRequests :=
      Table.updateWhere p (fun row => { row with status := "revoked", updatedAt := now })
        db.approvalRequests })

/-- The active bindings of an identity are revoked, whichever agents they bind. -/
def revokeBindings (identityId : String) (now : Time) : Statement Unit := fun db =>
  .ok ((), { db with
    agentIdentityBindings :=
      Table.updateWhere (fun row => row.agentIdentityId = identityId && row.status = "active")
        (fun row => { row with status := "revoked", revokedAt := some now, updatedAt := now })
        db.agentIdentityBindings })

/-- `revokeProtocolAgentStatements`. -/
def revokeProtocolAgents (identityId : String) (protocolAgentIds : List String) (now : Time) :
    Statement Unit := fun db => do
  let ((), db) ← revokeBindings identityId now db
  let ((), db) ← revokeAgentsWhere (fun row => protocolAgentIds.contains row.id) now db
  let ((), db) ← revokeCapabilityGrantsWhere
    (fun row => protocolAgentIds.contains row.agentId) now db
  revokeApprovalRequestsWhere (fun row => row.agentId.any protocolAgentIds.contains) now db

/-- An identity changes. The trigger `account_deleted_agent_identity_update` protects those of
deleted accounts. -/
def updateIdentitiesWhere (p : AgentIdentity → Bool) (f : AgentIdentity → AgentIdentity) :
    Statement Bool := fun db => do
  refuseIf "account_deleted"
    (db.agentIdentities.any fun row => p row && db.isDeletedUser row.ownerUserId)
  .ok (db.agentIdentities.any p,
    { db with agentIdentities := Table.updateWhere p f db.agentIdentities })

/-- The batch of `deactivateIdentity`; a recovery also revokes the bindings and the agents. -/
def deactivateIdentity (id : String) (revoked : Option (List String)) (now : Time) :
    Statement Unit := fun db => do
  let (_, db) ← updateIdentitiesWhere (fun row => row.id = id)
    (fun row => { row with status := .inactive, updatedAt := now }) db
  match revoked with
  | some protocolAgentIds => revokeProtocolAgents id protocolAgentIds now db
  | none => .ok ((), db)

/-- The statement of `activateIdentity`. -/
def activateIdentity (id : String) (now : Time) : Statement Bool :=
  updateIdentitiesWhere (fun row => row.id = id && row.status = .inactive && row.deletedAt.isNone)
    fun row => { row with status := .active, updatedAt := now }

/-- The batch of `deleteIdentity`: the identity is deleted, and its agents are revoked. -/
def deleteIdentity (id : String) (protocolAgentIds : List String) (now : Time) : Statement Unit :=
  fun db => do
    let (_, db) ← updateIdentitiesWhere (fun row => row.id = id && row.deletedAt.isNone)
      (fun row => { row with status := .inactive, deletedAt := some now, updatedAt := now }) db
    revokeProtocolAgents id protocolAgentIds now db

end Database

/-! ## Commands -/

inductive IdentityCommand where
  /-- A query that finds out whether an identifier or the username of a new agent is taken. -/
  | checkInstallation
  | createIdentity (identity : AgentIdentity) (binding : AgentIdentityBinding)
  | createAgentWithInstallation (input : AgentInstallation)
  | reserveApplicationCreation (reservation : AgentApplicationCreation)
  | claimIdentityProfile (id : String) (input : IdentityProfile)
  /-- `createIntent` and `createIntentIdempotently`. -/
  | createIntent (row : AgentEnrollmentIntent)
  | approveIntent (input : EnrollmentApproval)
  /-- The batch of `revokeBinding`. -/
  | revokeProtocolAgents (identityId : String) (protocolAgentIds : List String) (now : Time)
  | deactivateIdentity (id : String) (revoked : Option (List String)) (now : Time)
  | activateIdentity (id : String) (now : Time)
  | deleteIdentity (id : String) (protocolAgentIds : List String) (now : Time)
  | appendAudit (event : AgentAuditEvent)

namespace IdentityCommand

/-- What a command answers. -/
@[reducible] def Answer : IdentityCommand → Type
  | claimIdentityProfile .. => Bool
  | activateIdentity .. => Bool
  | createIntent _ => Option AgentEnrollmentIntent
  | _ => Unit

def statement : (command : IdentityCommand) → Statement command.Answer
  | checkInstallation => fun db => .ok ((), db)
  | createIdentity identity binding => Database.createIdentity identity binding
  | createAgentWithInstallation input => Database.createAgentWithInstallation input
  | reserveApplicationCreation reservation => Database.insertApplicationCreation reservation
  | claimIdentityProfile id input => Database.claimIdentityProfile id input
  | createIntent row => Database.insertEnrollmentIntent row
  | approveIntent input => Database.approveIntent input
  | revokeProtocolAgents identityId protocolAgentIds now =>
    Database.revokeProtocolAgents identityId protocolAgentIds now
  | deactivateIdentity id revoked now => Database.deactivateIdentity id revoked now
  | activateIdentity id now => Database.activateIdentity id now
  | deleteIdentity id protocolAgentIds now => Database.deleteIdentity id protocolAgentIds now
  | appendAudit event => Database.insertAuditEvent event

/-- The database after a command; a refused one changes nothing. -/
def after (command : IdentityCommand) : Database → Database := command.statement.after

end IdentityCommand

end Realmroot
