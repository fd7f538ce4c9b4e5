import Realmroot.Repos.Memberships

/-!
# The account deletion repository

The erasure of an account is one batch. It is refused for the last owner of an
organization, and it leaves a tombstone.
-/

namespace Realmroot
namespace Database

variable (userId : String) (now : Time)

/-- The trigger `account_deletion_last_owner`: in some organization the user is an owner
and no other member with a live account is. -/
def isLastOwner (db : Database) : Bool :=
  db.members.any fun row =>
    row.userId = userId && likeRole "owner" row.role &&
      !db.members.any fun other =>
        other.organizationId = row.organizationId && other.userId ≠ userId &&
          likeRole "owner" other.role &&
            db.users.any fun user => user.id = other.userId && user.deletedAt.isNone

/-- The account exists and is not deleted. -/
def isLiveUser (db : Database) : Bool :=
  db.users.any fun row => row.id = userId && row.deletedAt.isNone

/-- The clean-up job of a live account. -/
def enqueueCleanup : Statement Unit := fun db =>
  if ¬ db.isLiveUser userId then .ok ((), db)
  else if db.isLastOwner userId then .error (.constraint "account_last_owner")
  else if db.accountDeletionCleanups.any fun row => row.userId = userId then .ok ((), db)
  else
    .ok ((), { db with
      accountDeletionCleanups := db.accountDeletionCleanups ++
        [{ userId := userId
           organizationIds :=
            (db.members.filter fun row => row.userId = userId).map (·.organizationId)
           assetKeys :=
            (db.uploadedAssets.filter fun row =>
              row.createdByUserId = some userId && row.purpose = "avatar").map (·.storageKey)
           nextAttemptAt := now }] })

/-- The identities of the user's agents. -/
def ownedIdentities (db : Database) : List String :=
  (db.agentIdentities.filter fun row => row.ownerUserId = userId).map (·.id)

/-- The agents of the user, and those that are bound to the user's identities. -/
def ownedAgents (db : Database) : List String :=
  ((db.agentIdentityBindings.filter fun row =>
    (db.ownedIdentities userId).contains row.agentIdentityId).map (·.protocolAgentId)) ++
    (db.agents.filter fun row => row.userId = some userId).map (·.id)

/-- The address of the account. -/
def emailOf (db : Database) : Option String :=
  (db.users.find? fun row => row.id = userId).bind (·.email)

/-- What stands before an address in the identifier of a code for it. -/
def otpPrefixes : List String :=
  ["", "sign-in-otp-", "email-verification-otp-", "forget-password-otp-"]

/-- What stands before the new address in the identifier of a code for a change. -/
def changeEmailPrefix (email : String) : String := "change-email-otp-" ++ email ++ "-"

/-- The condition under which the batch deletes a verification. -/
def deletesVerification (email : Option String) (row : Verification) : Bool :=
  row.identifier = userId || row.value = userId ||
    (email.any fun email => otpPrefixes.any fun start => row.identifier = start ++ email) ||
    (email.any fun email =>
      (changeEmailPrefix email).toList.isPrefixOf row.identifier.toList) ||
    row.document.any fun document =>
      document.texts.any fun text => text = userId || some text = email

/-- The body of a webhook request says what happened to the user. -/
def namesUser (body : Json) : Bool :=
  (body.at? ["data", "user", "id"] == some (.str userId)) ||
    body.at? ["data", "session", "userId"] == some (.str userId)

/-- The rows that only make sense for a live account. -/
def deletePersonalRows (db : Database) : Database :=
  { db with
    sessions := db.sessions.filter fun row => row.userId ≠ userId
    oauthRefreshTokens := db.oauthRefreshTokens.filter fun row => row.userId ≠ userId
    applicationConsents := db.applicationConsents.filter fun row => row.userId ≠ userId
    teamMembers := db.teamMembers.filter fun row => row.userId ≠ userId
    members := db.members.filter fun row => row.userId ≠ userId
    resourceConnectionIntents := db.resourceConnectionIntents.filter fun row =>
      !(row.ownerUserId = some userId || row.initiatedByUserId = userId)
    agentEnrollmentIntents := db.agentEnrollmentIntents.filter fun row =>
      !(row.ownerUserId = userId || row.createdByUserId = userId ||
        row.approvedByUserId = some userId)
    agentApplicationCreations := db.agentApplicationCreations.filter fun row =>
      row.actorUserId ≠ userId
    passwordResetRequests := db.passwordResetRequests.filter fun row => row.userId ≠ userId
    verifications := db.verifications.filter fun row =>
      !deletesVerification userId (db.emailOf userId) row
    approvalRequests := db.approvalRequests.filter fun row =>
      !(row.userId = some userId || row.agentId.any (db.ownedAgents userId).contains)
    agentCapabilityGrants := db.agentCapabilityGrants.filter fun row =>
      !((db.ownedAgents userId).contains row.agentId || row.grantedBy = some userId ||
        row.deniedBy = some userId) }

/-- The connections of the user. -/
def ownedConnections (db : Database) : List String :=
  (db.providerResourceAuthorizations.filter fun row =>
    db.providerConnections.any fun connection =>
      connection.id = row.providerConnectionId && connection.ownerUserId = some userId).map (·.id)

/-- The access requests of the agents of the user, or through a connection of the user. -/
def ownedRequests (db : Database) : List String :=
  (db.agentAccessRequests.filter fun row =>
    (db.ownedIdentities userId).contains row.agentIdentityId ||
      row.connectionId.any (db.ownedConnections userId).contains).map (·.id)

/-- A protected row belongs to a deleted account: the triggers `account_deleted_*_update`
refuse to retire it. -/
def retiresProtected (db : Database) : Bool :=
  (db.agents.any fun row =>
      (db.ownedAgents userId).contains row.id && row.userId.any db.isDeletedUser) ||
    (db.agentHosts.any fun row => row.userId = some userId && db.isDeletedUser userId) ||
      (db.ownedIdentities userId ≠ [] && db.isDeletedUser userId)

/-- The agents of the user are retired, with their hosts and identities. -/
def retireIdentities : Statement Unit := fun db =>
  let bindings :=
    Table.updateWhere (fun row => (db.ownedIdentities userId).contains row.agentIdentityId)
      (fun row => { row with status := "revoked", revokedAt := some now, updatedAt := now })
      db.agentIdentityBindings
  if db.retiresProtected userId then .error (.constraint "account_deleted")
  else
    .ok ((), { db with
      agentIdentityBindings := bindings
      agents :=
        Table.updateWhere (fun row => (db.ownedAgents userId).contains row.id)
          (fun row => { row with
            status := "revoked", name := "Deleted agent", publicKey := "", kid := none
            updatedAt := now })
          db.agents
      agentHosts :=
        Table.updateWhere (fun row => row.userId = some userId)
          (fun row => { row with
            status := "revoked", name := none, publicKey := none, kid := none
            defaultCapabilities := none, updatedAt := now })
          db.agentHosts
      agentIdentities :=
        Table.updateWhere (fun row => row.ownerUserId = userId)
          (fun row => { row with
            status := .inactive, deletedAt := row.deletedAt.orElse fun _ => some now
            name := "Deleted agent", runtime := none, updatedAt := now })
          db.agentIdentities })

/-- What was granted to the agents of the user or through the user's connections ends. -/
def endOwnedGrants (db : Database) : Database :=
  let identities := db.ownedIdentities userId
  let connections := db.ownedConnections userId
  let requests := db.ownedRequests userId
  { db with
    resourceScopeEntitlements :=
      Table.updateWhere
        (fun row => row.userId = some userId || row.agentIdentityId.any identities.contains ||
          row.connectionId.any connections.contains)
        (fun row => { row with
          endedAt := row.endedAt.orElse fun _ => some now
          endReason := row.endReason.orElse fun _ => some .revoked
          authorizationDetails := [], updatedAt := now })
        db.resourceScopeEntitlements
    externalTokenLeases :=
      Table.updateWhere (fun row => requests.contains row.requestId)
        (fun row => { row with
          revokedAt := row.revokedAt.orElse fun _ => some now, authorizationDetails := []
          scopes := [] })
        db.externalTokenLeases
    agentAccessRequests :=
      Table.updateWhere (fun row => requests.contains row.id)
        (fun row => { row with
          status := .revoked, authorizationDetails := [], approvedEntitlements := [], scopes := []
          decidedAt := row.decidedAt.orElse fun _ => some now })
        db.agentAccessRequests
    providerCredentials :=
      Table.updateWhere (fun row => connections.contains row.providerResourceAuthorizationId)
        (fun row => { row with
          status := .revoked, revokedAt := row.revokedAt.orElse fun _ => some now
          refreshClaimId := none, refreshClaimExpiresAt := none, grantedScopes := []
          authorizationDetails := [] })
        db.providerCredentials
    providerResourceAuthorizations :=
      Table.updateWhere (fun row => connections.contains row.id)
        (fun row => { row with
          status := .revoked, revokedAt := row.revokedAt.orElse fun _ => some now })
        db.providerResourceAuthorizations }

/-- The provider accounts of the user lose their names. The trigger
`account_deleted_provider_connection_update` refuses this for a deleted account. -/
def retireConnections : Statement Unit := fun db =>
  if (db.providerConnections.any fun row => row.ownerUserId = some userId) ∧
      db.isDeletedUser userId then
    .error (.constraint "account_deleted")
  else
    .ok ((), { db with
      providerConnections :=
        Table.updateWhere (fun row => row.ownerUserId = some userId)
          (fun row => { row with
            status := .revoked, externalSubject := "", displayName := "Deleted account"
            updatedAt := now })
          db.providerConnections })

/-- The audit trail forgets what it says of the user. -/
def scrubAudit (db : Database) : Database :=
  { db with
    agentAuditEvents :=
      Table.updateWhere
        (fun row => row.ownerUserId = some userId || row.controllerUserId = some userId ||
          row.agentIdentityId.any (db.ownedIdentities userId).contains)
        (fun row => { row with
          metadata := none, scopes := none, reasonCode := none, subject := none
          subjectIssuer := none, hostId := none })
        db.agentAuditEvents }

/-- Webhook requests about the user are deleted with their attempts, and so are the user's
avatars; other assets and client secrets lose their creator. -/
def purgeTraces (db : Database) : Database :=
  let purged := (db.webhookDeliveryRequests.filter fun row =>
    row.requestBody.any (namesUser userId)).map (·.id)
  { db with
    webhookDeliveryRequests := db.webhookDeliveryRequests.filter fun row =>
      !row.requestBody.any (namesUser userId)
    webhookDeliveryAttempts := db.webhookDeliveryAttempts.filter fun row =>
      !purged.contains row.requestId
    uploadedAssets :=
      Table.updateWhere (fun row => row.createdByUserId = some userId)
        (fun row => { row with createdByUserId := none })
        (db.uploadedAssets.filter fun row =>
          !(row.createdByUserId = some userId && row.purpose = "avatar"))
    applicationClientSecrets :=
      Table.updateWhere (fun row => row.createdByUserId = some userId)
        (fun row => { row with createdByUserId := none }) db.applicationClientSecrets }

/-- The tombstone of the account. -/
def buryUser (db : Database) : Database :=
  { db with
    users :=
      Table.updateWhere (fun row => row.id = userId && row.deletedAt.isNone)
        (fun row => { row with deletedAt := some now, banned := true, email := none }) db.users }

/-- The batch of `erase`. -/
def eraseAccount : Statement Unit := fun db => do
  let ((), db) ← enqueueCleanup userId now db
  let ((), db) ← retireIdentities userId now (deletePersonalRows userId db)
  let ((), db) ← retireConnections userId now (endOwnedGrants userId now db)
  .ok ((), buryUser userId now (purgeTraces userId (scrubAudit userId db)))

/-! ## Clean-up jobs -/

/-- `enqueueAssetCleanup`: a deleted account gets a job, or its job one more key; a claim on the
job ends. -/
def enqueueAssetCleanup (key : String) : Statement Bool := fun db =>
  if ¬ db.isDeletedUser userId then .ok (false, db)
  else if db.isLastOwner userId then .error (.constraint "account_last_owner")
  else if db.accountDeletionCleanups.any fun row => row.userId = userId then
    .ok (true, { db with
      accountDeletionCleanups :=
        Table.updateWhere (fun row => row.userId = userId)
          (fun row => { row with
            assetKeys := row.assetKeys ++ [key], claimId := none, claimUntil := none
            nextAttemptAt := 0 })
          db.accountDeletionCleanups })
  else
    .ok (true, { db with
      accountDeletionCleanups := db.accountDeletionCleanups ++
        [{ userId := userId, organizationIds := [], assetKeys := [key], nextAttemptAt := 0 }] })

/-- The job is due, and nobody holds it. -/
def isClaimable (row : AccountDeletionCleanup) : Bool :=
  decide (row.nextAttemptAt ≤ now) && row.claimUntil.all fun claimUntil => decide (claimUntil ≤ now)

/-- The first of the jobs that are due earliest. -/
def earliest : List AccountDeletionCleanup → Option AccountDeletionCleanup
  | [] => none
  | row :: rows =>
    match earliest rows with
    | none => some row
    | some other => if row.nextAttemptAt ≤ other.nextAttemptAt then some row else some other

/-- What a worker knows of the job that it has claimed. -/
structure CleanupJob where
  userId : String
  assetKeys : List String
  organizationIds : List String
  attempts : ℕ
  claimId : String
  deriving DecidableEq

/-- `claim`. -/
def claimCleanup (claimId : String) : Statement (Option CleanupJob) := fun db =>
  match earliest (db.accountDeletionCleanups.filter (isClaimable now)) with
  | none => .ok (none, db)
  | some job =>
    .ok (some
        { userId := job.userId, assetKeys := job.assetKeys
          organizationIds := job.organizationIds, attempts := job.attempts, claimId := claimId },
      { db with
        accountDeletionCleanups :=
          Table.updateWhere (fun row => row.userId = job.userId)
            (fun row => { row with claimId := some claimId, claimUntil := some (now + 300000) })
            db.accountDeletionCleanups })

/-- The worker holds the job. -/
def holds (job : CleanupJob) (row : AccountDeletionCleanup) : Bool :=
  row.userId = job.userId && row.claimId = some job.claimId

/-- `finish`. -/
def finishCleanup (job : CleanupJob) : Statement Unit := fun db =>
  .ok ((), { db with
    accountDeletionCleanups := db.accountDeletionCleanups.filter fun row => !holds job row })

/-- `retry`. -/
def retryCleanup (job : CleanupJob) : Statement Unit := fun db =>
  .ok ((), { db with
    accountDeletionCleanups :=
      Table.updateWhere (holds job)
        (fun row => { row with
          attempts := row.attempts + 1
          nextAttemptAt := now + min 3600000 (60000 * 2 ^ min job.attempts 6)
          claimId := none, claimUntil := none })
        db.accountDeletionCleanups })

/-- `pendingLeases`. -/
def pendingLeases (db : Database) : List String :=
  (db.externalTokenLeases.filter fun row =>
    row.encryptedAccessToken ≠ "" && (db.ownedRequests userId).contains row.requestId).map (·.id)

/-- `pendingConnections`. -/
def pendingConnections (db : Database) : List String :=
  unique ((db.providerCredentials.filter fun row =>
    row.encryptedTokens ≠ "" &&
      (db.ownedConnections userId).contains row.providerResourceAuthorizationId).map
        (·.providerResourceAuthorizationId))

def clearConnection (id : String) : Statement Unit := fun db =>
  .ok ((), { db with
    providerCredentials :=
      Table.updateWhere (fun row => row.providerResourceAuthorizationId = id)
        (fun row => { row with encryptedTokens := "" }) db.providerCredentials })

def clearLease (id : String) : Statement Unit := fun db =>
  .ok ((), { db with
    externalTokenLeases :=
      Table.updateWhere (fun row => row.id = id)
        (fun row => { row with encryptedAccessToken := "" }) db.externalTokenLeases })

end Database

/-! ## Commands -/

inductive CleanupCommand where
  | enqueueAsset (userId key : String)
  | claim (now : Time) (claimId : String)
  | finish (job : Database.CleanupJob)
  | retry (job : Database.CleanupJob) (now : Time)
  | clearConnection (id : String)
  | clearLease (id : String)

namespace CleanupCommand

/-- What a command answers. -/
@[reducible] def Answer : CleanupCommand → Type
  | enqueueAsset .. => Bool
  | claim .. => Option Database.CleanupJob
  | _ => Unit

def statement : (command : CleanupCommand) → Statement command.Answer
  | enqueueAsset userId key => Database.enqueueAssetCleanup userId key
  | claim now claimId => Database.claimCleanup now claimId
  | finish job => Database.finishCleanup job
  | retry job now => Database.retryCleanup now job
  | clearConnection id => Database.clearConnection id
  | clearLease id => Database.clearLease id

def after (command : CleanupCommand) : Database → Database := command.statement.after

/-- The tables that a command may change. -/
theorem after_eq (command : CleanupCommand) (db : Database) :
    ∃ cleanups credentials leases, command.after db = { db with
      accountDeletionCleanups := cleanups, providerCredentials := credentials
      externalTokenLeases := leases } := by
  unfold after
  apply Statement.after_keeps (p := fun db' => ∃ cleanups credentials leases, db' = { db with
    accountDeletionCleanups := cleanups, providerCredentials := credentials
    externalTokenLeases := leases }) ⟨_, _, _, rfl⟩
  intro answer db' hok
  cases command with
  | enqueueAsset userId key =>
    simp only [statement, Database.enqueueAssetCleanup] at hok
    split_ifs at hok
    · cases hok
      exact ⟨_, _, _, rfl⟩
    · cases hok
      exact ⟨_, _, _, rfl⟩
    · cases hok
      exact ⟨_, _, _, rfl⟩
  | claim now claimId =>
    simp only [statement, Database.claimCleanup] at hok
    split at hok
    · cases hok
      exact ⟨_, _, _, rfl⟩
    · cases hok
      exact ⟨_, _, _, rfl⟩
  | finish job =>
    cases hok
    exact ⟨_, _, _, rfl⟩
  | retry job now =>
    cases hok
    exact ⟨_, _, _, rfl⟩
  | clearConnection id =>
    cases hok
    exact ⟨_, _, _, rfl⟩
  | clearLease id =>
    cases hok
    exact ⟨_, _, _, rfl⟩

end CleanupCommand

end Realmroot
