import Realmroot.Usecases.Connections
import Realmroot.Usecases.Webhooks

/-!
# Clean-up after the deletion of accounts

Workers claim the jobs that erasures leave behind: assets are deleted, tokens are revoked at their
authorization servers, and the deletion is published.
-/

namespace Realmroot

open AtomicProgram Error

/-! ## Attempts -/

/-- `attempt`: what an operation throws is collected. -/
def attempt (operation : Request Unit) : Request (Option Error) :=
  (operation.bind fun _ => .pure none).tryCatch fun cause => .pure (some cause)

/-- The asset store deletes an object, or it throws. -/
def deleteStoredAsset (key : String) : Request Unit :=
  .ask fun reply =>
    if reply.ok then .call (.deleteAsset key) fun _ => .pure ()
    else .throw (.internal reply.random)

/-- `enqueueAssetCleanup`. -/
def enqueueAssetCleanup (userId key : String) : Request Bool :=
  executeCleanup (.enqueueAsset userId key)

section Revocations

variable [Platform]

/-! ## Revocations -/

/-- `connectorOAuthAuthorization`. -/
def connectorOAuthAuthorization (resource : ApiResource) (clientGeneration : Option ℕ) :
    Request (Option ExternalResourceAuthorization) :=
  if (truthy resource.connectorId).isNone ∨ resource.authorizationModel ≠ .external then .pure none
  else
    (requireActiveConnectorAuthorization resource.id clientGeneration).bind fun authorization =>
      .pure (some authorization)

/-- The tokens of a credential are revoked. The driver revokes with the authentication of its
token endpoint. -/
def revokeCredentialTokens (resource : ApiResource) (credential : ProviderCredential) :
    Request Unit := do
  let found ← connectorOAuthAuthorization resource (some credential.clientGeneration)
  let authorization ←
    orThrow (badGateway "Provider authorization configuration is unavailable.") found
  let payload ← ofResult (openTokens credential)
  let refreshToken ←
    ofResult (requiredString payload "refreshToken" "Stored resource connection")
  postEmptyForm authorization.revocationEndpoint
    [("token", refreshToken), ("token_type_hint", "refresh_token")] authorization.clientId
    authorization.encryptedClientSecret authorization.tokenEndpointAuthentication
  if authorization.revokeAccessToken then do
    let accessToken ←
      ofResult (requiredString payload "accessToken" "Stored resource connection")
    postEmptyForm authorization.revocationEndpoint
      [("token", accessToken), ("token_type_hint", "access_token")] authorization.clientId
      authorization.encryptedClientSecret authorization.tokenEndpointAuthentication
  else .pure ()

/-- `revokeRealmrootCustodiedProviderAuthorization`. -/
def revokeRealmrootCustodiedProviderAuthorization
    (connection : ProviderResourceAuthorizationRecord) : Request Unit :=
  let credentials := connection.credentials.filter fun credential => credential.status = .active
  if credentials = [] then .pure ()
  else do
    let found ← query (·.findResource connection.resourceId)
    let resource ← orThrow (notFound "Resource Server was not found.") found
    Program.forEach credentials (revokeCredentialTokens resource)

/-- The connection as it is revoked: what is still stored counts as active. -/
def asStored (connection : ProviderResourceAuthorizationRecord) :
    ProviderResourceAuthorizationRecord :=
  { connection with
    credentials :=
      (connection.credentials.filter fun item => item.encryptedTokens ≠ "").map fun item =>
        { item with status := .active } }

/-- `revokeDeletedAccountConnection`. -/
def revokeDeletedAccountConnection (connectionId : String) : Request Unit := do
  let found ← findConnection connectionId
  let connection ← orThrow (notFound "Deletion cleanup connection was not found.") found
  revokeRealmrootCustodiedProviderAuthorization (asStored connection)

/-- `revokeDeletedAccountLease`. -/
def revokeDeletedAccountLease (leaseId : String) : Request Unit := do
  let found ← query fun db => db.externalTokenLeases.find? fun row => row.id = leaseId
  let lease ← orThrow (notFound "Deletion cleanup lease was not found.") found
  let now ← currentTime
  if now < lease.expiresAt then do
    let revokedAt ← currentTime
    revokeTokenLeaseAtTarget lease revokedAt false
  else .pure ()

/-! ## Workers -/

/-- What a worker does for a job until it has nothing left to do. -/
def cleanUpJob (job : Database.CleanupJob) : Request Unit := do
  let assetErrors ← Program.mapEach job.assetKeys fun key => attempt (deleteStoredAsset key)
  let leases ← query (Database.pendingLeases job.userId)
  let leaseErrors ← Program.mapEach leases fun id => attempt do
    revokeDeletedAccountLease id
    executeCleanup (.clearLease id)
  let connections ← query (Database.pendingConnections job.userId)
  let connectionErrors ← Program.mapEach connections fun id => attempt do
    revokeDeletedAccountConnection id
    executeCleanup (.clearConnection id)
  throwIf ((assetErrors ++ leaseErrors ++ connectionErrors).filterMap id ≠ [])
    (.internal "External account cleanup is incomplete.")
  let _ ← publishWebhookEvent "user.deleted" (.obj [("user", .obj [("id", .str job.userId)])])
    (some job.organizationIds) (some job.userId)
  executeCleanup (.finish job)

/-- A job that fails is retried later. -/
def cleanUpOrRetry (job : Database.CleanupJob) : Request (Option Error) :=
  ((cleanUpJob job).bind fun _ => .pure none).tryCatch fun cause => do
    let now ← currentTime
    executeCleanup (.retry job now)
    .pure (some cause)

/-- The failures of at most as many jobs. -/
def cleanUpJobs : ℕ → Request (List Error)
  | 0 => .pure []
  | count + 1 => do
    let now ← currentTime
    let claimId ← generateId
    let job ← executeCleanup (.claim now claimId)
    match job with
    | none => .pure []
    | some job => do
      let failure ← cleanUpOrRetry job
      let failures ← cleanUpJobs count
      .pure (failure.toList ++ failures)

/-- `processAccountDeletionCleanup`. -/
def processAccountDeletionCleanup : Request Unit := do
  let failures ← cleanUpJobs 10
  throwIf (failures ≠ []) (.internal ("Account deletion cleanup failed for " ++
    Nat.repr failures.length ++ " job(s); durable retries are scheduled."))

end Revocations

end Realmroot
