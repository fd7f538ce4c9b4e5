import Realmroot.Database

/-!
# The webhook repository

The endpoints, the requests, and the attempts at their delivery. Every update overwrites the
columns that it is given, whatever the row holds.
-/

namespace Realmroot

/-! ## Inputs -/

/-- The columns of an endpoint that an update sets. -/
structure WebhookEndpointPatch where
  url : Option String := none
  events : Option (List String) := none
  enabled : Option Bool := none
  organizationId : Option (Option String) := none
  signingSecret : Option String := none
  secretPrefix : Option String := none
  updatedAt : Time

/-- The columns of a request that an update sets. -/
structure WebhookRequestPatch where
  status : String
  attemptCount : Option ℕ := none
  httpStatus : Option ℕ
  error : Option String
  responseBody : Option String
  nextAttemptAt : Option (Option Time) := none
  updatedAt : Time

/-- The columns of an attempt that an update sets. -/
structure WebhookAttemptPatch where
  status : String
  httpStatus : Option ℕ
  error : Option String
  responseBody : Option String
  completedAt : Option Time

def WebhookEndpointPatch.apply (patch : WebhookEndpointPatch) (row : WebhookEndpoint) :
    WebhookEndpoint :=
  { row with
    url := patch.url.getD row.url
    events := patch.events.getD row.events
    enabled := patch.enabled.getD row.enabled
    organizationId := patch.organizationId.getD row.organizationId
    signingSecret := patch.signingSecret.getD row.signingSecret
    secretPrefix := patch.secretPrefix.getD row.secretPrefix
    updatedAt := patch.updatedAt }

def WebhookRequestPatch.apply (patch : WebhookRequestPatch) (row : WebhookDeliveryRequest) :
    WebhookDeliveryRequest :=
  { row with
    status := patch.status
    attemptCount := patch.attemptCount.getD row.attemptCount
    httpStatus := patch.httpStatus
    error := patch.error
    responseBody := patch.responseBody
    nextAttemptAt := patch.nextAttemptAt.getD row.nextAttemptAt
    updatedAt := patch.updatedAt }

def WebhookAttemptPatch.apply (patch : WebhookAttemptPatch) (row : WebhookDeliveryAttempt) :
    WebhookDeliveryAttempt :=
  { row with
    status := patch.status
    httpStatus := patch.httpStatus
    error := patch.error
    responseBody := patch.responseBody
    completedAt := patch.completedAt }

namespace Database

/-! ## Queries -/

section Queries

variable (db : Database)

def findWebhookEndpoint (id : String) : Option WebhookEndpoint :=
  db.webhookEndpoints.find? fun row => row.id = id

/-- The request, joined with its endpoint. -/
def findWebhookRequest (id : String) : Option (WebhookDeliveryRequest × WebhookEndpoint) :=
  (db.webhookDeliveryRequests.find? fun row => row.id = id).bind fun request =>
    (db.findWebhookEndpoint request.endpointId).map fun endpoint => (request, endpoint)

def findAttemptByIdempotencyKey (requestId idempotencyKey : String) :
    Option WebhookDeliveryAttempt :=
  db.webhookDeliveryAttempts.find? fun row =>
    row.requestId = requestId && row.idempotencyKey = idempotencyKey

/-- The endpoints that `listSubscribedEndpoints` finds. -/
def listSubscribedEndpoints (event : String) (organizationIds : List String) :
    List WebhookEndpoint :=
  (db.webhookEndpoints.filter fun row =>
    row.enabled && row.events.contains event &&
      row.organizationId.all organizationIds.contains).mergeSort fun a b => a.id ≤ b.id

/-- `max(coalesce(max(sequence), 0), previousAttemptCount) + 1` over the attempts of a request. -/
def nextSequence (requestId : String) (previousAttemptCount : ℕ) : ℕ :=
  ((db.webhookDeliveryAttempts.filter fun row => row.requestId = requestId).map
    (·.sequence)).foldl max previousAttemptCount + 1

end Queries

/-! ## Statements -/

def updateWebhookEndpoint (id : String) (patch : WebhookEndpointPatch) :
    Statement (Option WebhookEndpoint) := fun db =>
  .ok ((db.findWebhookEndpoint id).map patch.apply, { db with
    webhookEndpoints :=
      Table.updateWhere (fun row => row.id = id) patch.apply db.webhookEndpoints })

/-- An endpoint is deleted with its requests, and a request with its attempts. -/
def deleteWebhookEndpoint (id : String) : Statement Unit := fun db =>
  let requests := (db.webhookDeliveryRequests.filter fun row => row.endpointId = id).map (·.id)
  .ok ((), { db with
    webhookEndpoints := db.webhookEndpoints.filter fun row => row.id ≠ id
    webhookDeliveryRequests := db.webhookDeliveryRequests.filter fun row => row.endpointId ≠ id
    webhookDeliveryAttempts := db.webhookDeliveryAttempts.filter fun row =>
      !requests.contains row.requestId })

def insertWebhookRequest (row : WebhookDeliveryRequest) : Statement Unit := fun db =>
  if db.webhookDeliveryRequests.any fun old => old.id = row.id then
    .error (.constraint "webhook_delivery_request.id")
  else if !db.webhookEndpoints.any fun endpoint => endpoint.id = row.endpointId then
    .error (.constraint "webhook_delivery_request.endpoint_id")
  else .ok ((), { db with webhookDeliveryRequests := db.webhookDeliveryRequests ++ [row] })

def updateWebhookRequest (id : String) (patch : WebhookRequestPatch) :
    Statement (Option WebhookDeliveryRequest) := fun db =>
  .ok ((db.webhookDeliveryRequests.find? fun row => row.id = id).map patch.apply, { db with
    webhookDeliveryRequests :=
      Table.updateWhere (fun row => row.id = id) patch.apply db.webhookDeliveryRequests })

/-- The insert of `reserveAttempt`; nothing is inserted when the key of the request is taken. -/
def insertWebhookAttempt (previousAttemptCount : ℕ) (row : WebhookDeliveryAttempt) :
    Statement (Option WebhookDeliveryAttempt) := fun db =>
  let row := { row with sequence := db.nextSequence row.requestId previousAttemptCount }
  if (db.findAttemptByIdempotencyKey row.requestId row.idempotencyKey).isSome then .ok (none, db)
  else if db.webhookDeliveryAttempts.any fun old => old.id = row.id then
    .error (.constraint "webhook_delivery_attempt.id")
  else if !db.webhookDeliveryRequests.any fun request => request.id = row.requestId then
    .error (.constraint "webhook_delivery_attempt.request_id")
  else
    .ok (some row, { db with webhookDeliveryAttempts := db.webhookDeliveryAttempts ++ [row] })

def updateWebhookAttempt (id : String) (patch : WebhookAttemptPatch) :
    Statement (Option WebhookDeliveryAttempt) := fun db =>
  .ok ((db.webhookDeliveryAttempts.find? fun row => row.id = id).map patch.apply, { db with
    webhookDeliveryAttempts :=
      Table.updateWhere (fun row => row.id = id) patch.apply db.webhookDeliveryAttempts })

end Database

/-! ## Commands -/

inductive WebhookCommand where
  /-- The query in which a delivery reads its endpoint. -/
  | readEndpoint (id : String)
  | updateEndpoint (id : String) (patch : WebhookEndpointPatch)
  | deleteEndpoint (id : String)
  | createRequest (row : WebhookDeliveryRequest)
  | updateRequest (id : String) (patch : WebhookRequestPatch)
  | reserveAttempt (previousAttemptCount : ℕ) (row : WebhookDeliveryAttempt)
  | updateAttempt (id : String) (patch : WebhookAttemptPatch)

namespace WebhookCommand

/-- What a command answers. -/
@[reducible] def Answer : WebhookCommand → Type
  | readEndpoint _ => Unit
  | updateEndpoint .. => Option WebhookEndpoint
  | deleteEndpoint _ => Unit
  | createRequest _ => Unit
  | updateRequest .. => Option WebhookDeliveryRequest
  | reserveAttempt .. => Option WebhookDeliveryAttempt
  | updateAttempt .. => Option WebhookDeliveryAttempt

def statement : (command : WebhookCommand) → Statement command.Answer
  | readEndpoint _ => fun db => .ok ((), db)
  | updateEndpoint id patch => Database.updateWebhookEndpoint id patch
  | deleteEndpoint id => Database.deleteWebhookEndpoint id
  | createRequest row => Database.insertWebhookRequest row
  | updateRequest id patch => Database.updateWebhookRequest id patch
  | reserveAttempt previousAttemptCount row =>
    Database.insertWebhookAttempt previousAttemptCount row
  | updateAttempt id patch => Database.updateWebhookAttempt id patch

def after (command : WebhookCommand) : Database → Database := command.statement.after

/-- The tables that a command may change. -/
theorem after_eq (command : WebhookCommand) (db : Database) :
    ∃ endpoints requests attempts, command.after db = { db with
      webhookEndpoints := endpoints, webhookDeliveryRequests := requests
      webhookDeliveryAttempts := attempts } := by
  unfold after
  apply Statement.after_keeps (p := fun db' => ∃ endpoints requests attempts, db' = { db with
    webhookEndpoints := endpoints, webhookDeliveryRequests := requests
    webhookDeliveryAttempts := attempts }) ⟨_, _, _, rfl⟩
  intro answer db' hok
  cases command with
  | readEndpoint id =>
    cases hok
    exact ⟨_, _, _, rfl⟩
  | updateEndpoint id patch =>
    cases hok
    exact ⟨_, _, _, rfl⟩
  | deleteEndpoint id =>
    cases hok
    exact ⟨_, _, _, rfl⟩
  | createRequest row =>
    simp only [statement, Database.insertWebhookRequest] at hok
    split_ifs at hok
    cases hok
    exact ⟨_, _, _, rfl⟩
  | updateRequest id patch =>
    cases hok
    exact ⟨_, _, _, rfl⟩
  | reserveAttempt previousAttemptCount row =>
    simp only [statement, Database.insertWebhookAttempt] at hok
    split_ifs at hok
    · cases hok
      exact ⟨_, _, _, rfl⟩
    · cases hok
      exact ⟨_, _, _, rfl⟩
  | updateAttempt id patch =>
    cases hok
    exact ⟨_, _, _, rfl⟩

end WebhookCommand

end Realmroot
