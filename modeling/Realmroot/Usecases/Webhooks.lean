import Realmroot.AuthorizationDetails
import Realmroot.World

/-!
# Webhooks

The secrets with which deliveries are signed, and the delivery of a request: an attempt is
reserved, the request is marked, the endpoint is asked, and the outcome is written to the attempt
and to the request.
-/

namespace Realmroot

open AtomicProgram Error

/-! ## Responses -/

structure WebhookEndpointResponse where
  id : String
  url : String
  events : List String
  enabled : Bool
  organizationId : Option String
  secretPrefix : String
  createdAt : Time
  updatedAt : Time
  deriving DecidableEq

/-- `toEndpointResponse`. -/
def toEndpointResponse (row : WebhookEndpoint) : WebhookEndpointResponse :=
  { id := row.id, url := row.url, events := row.events, enabled := row.enabled
    organizationId := row.organizationId, secretPrefix := row.secretPrefix
    createdAt := row.createdAt, updatedAt := row.updatedAt }

/-- A request as its API shows it: the row, and what it shows of its endpoint. -/
structure WebhookRequestResponse where
  request : WebhookDeliveryRequest
  endpointUrl : String
  organizationId : Option String
  deriving DecidableEq

/-- `toRequestResponse`. -/
def toRequestResponse (row : WebhookDeliveryRequest × WebhookEndpoint) : WebhookRequestResponse :=
  { request := row.1, endpointUrl := row.2.url, organizationId := row.2.organizationId }

/-! ## Signing secrets -/

/-- `webhookSecretContext`. -/
def webhookSecretContext (endpointId : String) : String :=
  "webhook:" ++ endpointId ++ ":signing-secret"

/-- `secretPrefix`. -/
def secretPrefix (secret : String) : String := String.ofList (secret.toList.take 14)

/-- `secrets.isSealed`. -/
def isSealed (value : String) : Bool := "v1.".toList.isPrefixOf value.toList

/-- `createSigningSecret`. -/
def createSigningSecret : Request String := do
  let bytes ← randomString
  .pure ("whsec_" ++ bytes)

section Secrets

variable [Platform]

/-- `rotateWebhookSecret`. -/
def rotateWebhookSecret (id : String) : Request (WebhookEndpointResponse × String) := do
  let current ← query (·.findWebhookEndpoint id)
  let _ ← orThrow (notFound "Webhook endpoint not found.") current
  let signingSecret ← createSigningSecret
  let sealed ← sealSecret signingSecret (webhookSecretContext id)
  let now ← currentTime
  let updated ← executeWebhook (.updateEndpoint id
    { signingSecret := some sealed, secretPrefix := some (secretPrefix signingSecret)
      updatedAt := now })
  let endpoint ← orThrow (notFound "Webhook endpoint not found.") updated
  .pure (toEndpointResponse endpoint, signingSecret)

/-- A secret that was stored before secrets were sealed is sealed and written back. -/
def migrateSigningSecret (endpoint : WebhookEndpoint) : Request String := do
  let sealed ← sealSecret endpoint.signingSecret (webhookSecretContext endpoint.id)
  let now ← currentTime
  let migrated ← executeWebhook
    (.updateEndpoint endpoint.id { signingSecret := some sealed, updatedAt := now })
  let _ ← orThrow (notFound "Webhook endpoint not found.") migrated
  .pure endpoint.signingSecret

/-- `readSigningSecret`. -/
def readSigningSecret (endpoint : WebhookEndpoint) : Request String :=
  if isSealed endpoint.signingSecret then
    orThrow (.internal "Encrypted secret envelope is invalid.")
      (Platform.openSecret endpoint.signingSecret (webhookSecretContext endpoint.id))
  else migrateSigningSecret endpoint

end Secrets

/-! ## Endpoints -/

/-- `assertEvents`. -/
def assertEvents (events : List String) : Except Error Unit :=
  if (unique events).length ≠ events.length then
    .error (badRequest "Webhook events must be unique.")
  else .ok ()

/-- The fields that a request to update an endpoint sets. -/
structure UpdateWebhookEndpointRequest where
  url : Option String := none
  events : Option (List String) := none
  enabled : Option Bool := none
  organizationId : Option (Option String) := none
  deriving DecidableEq

/-- `updateWebhookEndpoint`. -/
def updateWebhookEndpoint (id : String) (input : UpdateWebhookEndpointRequest) :
    Request WebhookEndpointResponse := do
  let current ← query (·.findWebhookEndpoint id)
  let _ ← orThrow (notFound "Webhook endpoint not found.") current
  ofResult (input.events.elim (.ok ()) assertEvents)
  let now ← currentTime
  let updated ← executeWebhook (.updateEndpoint id
    { url := input.url, events := input.events, enabled := input.enabled
      organizationId := input.organizationId, updatedAt := now })
  let endpoint ← orThrow (notFound "Webhook endpoint not found.") updated
  .pure (toEndpointResponse endpoint)

/-- `deleteWebhookEndpoint`. -/
def deleteWebhookEndpoint (id : String) : Request Unit := do
  let current ← query (·.findWebhookEndpoint id)
  let _ ← orThrow (notFound "Webhook endpoint not found.") current
  executeWebhook (.deleteEndpoint id)

/-! ## Attempts -/

/-- What an attempt came to. -/
structure AttemptOutcome where
  status : String
  httpStatus : Option ℕ
  error : Option String
  responseBody : Option String

/-- `error.message`. -/
def errorMessage : Error → String
  | .api _ _ message => message
  | .oauth _ _ errorDescription => errorDescription
  | .internal message => message
  | .constraint name => name

/-- The outcome of an attempt that throws. -/
def failedOutcome (error : Error) : AttemptOutcome :=
  { status := "failed", httpStatus := none
    error := some (String.ofList ((errorMessage error).toList.take 1000)), responseBody := none }

def isHex (c : Char) : Bool := c.isDigit || ('a' ≤ c && c ≤ 'f')

/-- The characters that `uuidV7Pattern` asks for, one after the other. -/
def uuidV7Characters : List (Char → Bool) :=
  List.replicate 8 isHex ++ [(· == '-')] ++ List.replicate 4 isHex ++ [(· == '-'), (· == '7')] ++
    List.replicate 3 isHex ++ [(· == '-'), ("89ab".toList.contains ·)] ++ List.replicate 3 isHex ++
      [(· == '-')] ++ List.replicate 12 isHex

def isUuidV7 (value : String) : Bool :=
  value.toList.length = uuidV7Characters.length &&
    (value.toList.zip uuidV7Characters).all fun entry => entry.2 entry.1

/-- `readEventId`. -/
def readEventId (body : Json) : Except Error String :=
  match body.at? ["id"] with
  | some (.str id) =>
    if "evt_".toList.isPrefixOf id.toList || isUuidV7 id then .ok id
    else .error (badRequest "Webhook request contains an invalid event payload.")
  | _ => .error (badRequest "Webhook request contains an invalid event payload.")

def webhookResponseLimit : ℕ := 8 * 1024

section Delivery

variable [Platform]

/-- `signWebhookPayload`. -/
def signWebhookPayload (secret timestamp : String) (body : Json) : String :=
  "v1=" ++ Platform.hmacSha256Hex secret (timestamp ++ "." ++ stringifyJson body)

/-- What the loop of `readBoundedResponse` makes of the chunks: the bytes, and whether they are
truncated; `none` when a read fails. -/
def readChunks (fails : Bool) : List UInt8 → List (List UInt8) → Option (List UInt8 × Bool)
  | bytes, [] => if fails then none else some (bytes, false)
  | bytes, value :: values =>
    let remaining := webhookResponseLimit - bytes.length
    if remaining = 0 then some (bytes, true)
    else if remaining < value.length then some (bytes ++ value.take remaining, true)
    else readChunks fails (bytes ++ value) values

/-- What `readBoundedResponse` records of the bytes it has read. -/
def boundedText (bytes : List UInt8) (truncated : Bool) : Option String :=
  let body := Platform.decodeText bytes
  if body = "" ∧ truncated = false then none
  else if truncated then some (body ++ "\n[response truncated]")
  else some body

/-- `readBoundedResponse`; `none` when a read fails. -/
def readBoundedResponse : Option PeerBody → Option (Option String)
  | none => some none
  | some body =>
    (readChunks body.fails [] body.chunks).map fun read => boundedText read.1 read.2

/-- The request that a delivery sends. -/
def deliveryRequest (endpoint : WebhookEndpoint) (event eventId timestamp signingSecret : String)
    (body : Json) : PeerRequest :=
  { method := "POST", url := endpoint.url, authentication := .none, json := some body
    headers := [("content-type", "application/json"), ("user-agent", "Realmroot-Webhooks/1.0"),
      ("x-realmroot-event-id", eventId), ("x-realmroot-event", event),
      ("x-realmroot-timestamp", timestamp),
      ("x-realmroot-signature", signWebhookPayload signingSecret timestamp body)] }

/-- A remote peer that does not answer; the message comes from the runtime. -/
def requirePeer {α : Type} (reply : Option α) : Request α := do
  let message ← randomString
  orThrow (.internal message) reply

/-- The outcome of an answer. -/
def answeredOutcome (response : PeerResponse) (responseBody : Option String) : AttemptOutcome :=
  { status := if response.ok then "delivered" else "failed"
    httpStatus := some response.status
    error := if response.ok then none
      else some ("Endpoint returned HTTP " ++ Nat.repr response.status ++ ".")
    responseBody := responseBody }

/-- The part of a delivery that may throw. -/
def attemptDelivery (endpoint : WebhookEndpoint) (event : String) (body : Json)
    (attemptedAt : Time) : Request AttemptOutcome := do
  let timestamp := Nat.repr (toSeconds attemptedAt)
  let signingSecret ← readSigningSecret endpoint
  let eventId ← ofResult (readEventId body)
  let reply ← fetchPeer (deliveryRequest endpoint event eventId timestamp signingSecret body)
  let response ← requirePeer reply
  let responseBody ← requirePeer (readBoundedResponse response.stream)
  .pure (answeredOutcome response responseBody)

/-- `reserveAttempt`. -/
def reserveAttempt (previousAttemptCount : ℕ) (row : WebhookDeliveryAttempt) :
    Request (WebhookDeliveryAttempt × Bool) := do
  let created ← executeWebhook (.reserveAttempt previousAttemptCount row)
  match created with
  | some attempt => .pure (attempt, true)
  | none => do
    let found ← query (·.findAttemptByIdempotencyKey row.requestId row.idempotencyKey)
    let existing ← orThrow
      (.internal "Webhook delivery attempt reservation did not return its durable resource.") found
    .pure (existing, false)

/-- `updateDelivery`, with the lookup of the endpoint. -/
def updateDelivery (id : String) (patch : WebhookRequestPatch) :
    Request (WebhookDeliveryRequest × WebhookEndpoint) := do
  let updated ← executeWebhook (.updateRequest id patch)
  let row ← orThrow (notFound "Webhook request not found.") updated
  let found ← query (·.findWebhookEndpoint row.endpointId)
  let endpoint ← orThrow (notFound "Webhook request not found.") found
  .pure (row, endpoint)

/-- `updateDeliveryAttempt`. -/
def updateDeliveryAttempt (id : String) (patch : WebhookAttemptPatch) :
    Request WebhookDeliveryAttempt := do
  let updated ← executeWebhook (.updateAttempt id patch)
  orThrow (notFound "Webhook delivery attempt not found.") updated

structure DeliveryResult where
  request : WebhookRequestResponse
  attempt : WebhookDeliveryAttempt
  created : Bool

/-- The attempt that a delivery reserves. -/
def newAttempt (id requestId idempotencyKey : String) (attemptedAt : Time) :
    WebhookDeliveryAttempt :=
  { id := id, requestId := requestId, idempotencyKey := idempotencyKey, sequence := 0
    status := "pending", httpStatus := none, error := none, responseBody := none
    createdAt := attemptedAt, completedAt := none }

/-- The request when an attempt starts. -/
def startedPatch (sequence : ℕ) (attemptedAt : Time) : WebhookRequestPatch :=
  { status := "pending", attemptCount := some sequence, httpStatus := none, error := none
    responseBody := none, nextAttemptAt := some none, updatedAt := attemptedAt }

/-- The attempt and the request when an attempt has ended. -/
def completedAttemptPatch (outcome : AttemptOutcome) (completedAt : Time) : WebhookAttemptPatch :=
  { status := outcome.status, httpStatus := outcome.httpStatus, error := outcome.error
    responseBody := outcome.responseBody, completedAt := some completedAt }

def completedPatch (outcome : AttemptOutcome) (completedAt : Time) : WebhookRequestPatch :=
  { status := outcome.status, httpStatus := outcome.httpStatus, error := outcome.error
    responseBody := outcome.responseBody, updatedAt := completedAt }

/-- What follows the reservation of an attempt. -/
def deliverAttempt (endpoint : WebhookEndpoint) (current : WebhookDeliveryRequest) (body : Json)
    (attempt : WebhookDeliveryAttempt) (attemptedAt : Time) : Request DeliveryResult := do
  let _ ← updateDelivery current.id (startedPatch attempt.sequence attemptedAt)
  let outcome ← (attemptDelivery endpoint current.event body attemptedAt).tryCatch fun error =>
    .pure (failedOutcome error)
  let completedAt ← currentTime
  let updatedAttempt ← updateDeliveryAttempt attempt.id (completedAttemptPatch outcome completedAt)
  let updated ← updateDelivery current.id (completedPatch outcome completedAt)
  .pure { request := toRequestResponse updated, attempt := updatedAttempt, created := true }

/-- `deliverWebhookRequestWithAttempt`. -/
def deliverWebhookRequestWithAttempt (id idempotencyKey : String) : Request DeliveryResult := do
  let found ← query (·.findWebhookRequest id)
  let current ← orThrow (notFound "Webhook request not found.") found
  let foundEndpoint ← queryAs (.webhook (.readEndpoint current.1.endpointId))
    (·.findWebhookEndpoint current.1.endpointId)
  let endpoint ← orThrow (notFound "Webhook endpoint not found.") foundEndpoint
  let body ← orThrow (badRequest "Webhook request has no event payload.") current.1.requestBody
  let attemptedAt ← currentTime
  let attemptId ← generateId
  let reservation ← reserveAttempt current.1.attemptCount
    (newAttempt attemptId id idempotencyKey attemptedAt)
  if reservation.2 then deliverAttempt endpoint current.1 body reservation.1 attemptedAt
  else
    .pure
      { request := toRequestResponse current, attempt := reservation.1, created := false }

/-- `deliverWebhookRequest`. -/
def deliverWebhookRequest (id idempotencyKey : String) : Request WebhookRequestResponse :=
  (deliverWebhookRequestWithAttempt id idempotencyKey).bind fun result => .pure result.request

/-- `createWebhookDeliveryAttempt`: the attempt, and whether it was there before. -/
def createWebhookDeliveryAttempt (id idempotencyKey : String) :
    Request (WebhookDeliveryAttempt × Bool) := do
  let found ← query (·.findWebhookRequest id)
  let current ← orThrow (notFound "Webhook request not found.") found
  let existing ← query (·.findAttemptByIdempotencyKey id idempotencyKey)
  match existing with
  | some attempt => .pure (attempt, true)
  | none => do
    throwIf (current.1.status = "delivered")
      (conflict "Delivered webhook requests cannot create another attempt.")
    let result ← deliverWebhookRequestWithAttempt id idempotencyKey
    .pure (result.attempt, !result.created)

/-! ## Events -/

/-- A non-empty string field of an object. -/
def eventString (data : Json) (path : List String) : Option String :=
  match data.at? path with
  | some (.str value) => if value = "" then none else some value
  | _ => none

/-- `resolveEventOrganizationIds`. -/
def resolveEventOrganizationIds (event : String) (data : Json) : Request (List String) :=
  match eventString data ["application", "ownerOrganizationId"],
      (eventString data ["user", "id"]).or (eventString data ["session", "userId"]) with
  | some organizationId, some userId =>
    if "application.".toList.isPrefixOf event.toList then .pure [organizationId]
    else
      (query (·.listUserMemberships userId)).bind fun memberships =>
        .pure (sortStrings (unique (memberships.map (·.organizationId))))
  | some organizationId, none =>
    if "application.".toList.isPrefixOf event.toList then .pure [organizationId] else .pure []
  | none, some userId =>
    (query (·.listUserMemberships userId)).bind fun memberships =>
      .pure (sortStrings (unique (memberships.map (·.organizationId))))
  | none, none => .pure []

/-- The request that an event makes for an endpoint. -/
def newWebhookRequest (id : String) (endpoint : WebhookEndpoint) (event : String) (body : Json)
    (now : Time) : WebhookDeliveryRequest :=
  { id := id, endpointId := endpoint.id, event := event, status := "pending", attemptCount := 0
    httpStatus := none, error := none, requestBody := some body, responseBody := none
    nextAttemptAt := some now, createdAt := now, updatedAt := now }

/-- `createRequest`: the identifier of a new request. -/
def createWebhookRequest (event : String) (body : Json) (now : Time)
    (endpoint : WebhookEndpoint) : Request String := do
  let id ← generateId
  executeWebhook (.createRequest (newWebhookRequest id endpoint event body now))
  let found ← query (·.findWebhookEndpoint endpoint.id)
  let _ ← orThrow
    (.internal "Webhook endpoint disappeared while recording a delivery.") found
  .pure id

/-- The requests of an event are created, and each is delivered. -/
def deliverEvent (event : String) (body : Json) (now : Time) (endpoints : List WebhookEndpoint) :
    Request (List WebhookRequestResponse) := do
  let ids ← Program.mapEach endpoints (createWebhookRequest event body now)
  Program.mapEach ids fun id => deliverWebhookRequest id ("initial:" ++ id)

/-- Two digits, or as many as asked for. -/
def padded (width value : ℕ) : String :=
  let digits := Nat.repr value
  String.ofList (List.replicate (width - digits.length) '0') ++ digits

/-- The year, the month and the day of a number of days since 1970: years begin in March, so that
a leap day is the last one. -/
def civilDate (days : ℕ) : ℕ × ℕ × ℕ :=
  let z := days + 719468
  let era := z / 146097
  let dayOfEra := z % 146097
  let yearOfEra := (dayOfEra - dayOfEra / 1460 + dayOfEra / 36524 - dayOfEra / 146096) / 365
  let dayOfYear := dayOfEra - (365 * yearOfEra + yearOfEra / 4 - yearOfEra / 100)
  let marchMonth := (5 * dayOfYear + 2) / 153
  let day := dayOfYear - (153 * marchMonth + 2) / 5 + 1
  let month := if marchMonth < 10 then marchMonth + 3 else marchMonth - 9
  (yearOfEra + era * 400 + if month ≤ 2 then 1 else 0, month, day)

/-- `toISOString`. -/
def toISOString (time : Time) : String :=
  let date := civilDate (time / 86400000)
  let rest := time % 86400000
  padded 4 date.1 ++ "-" ++ padded 2 date.2.1 ++ "-" ++ padded 2 date.2.2 ++ "T" ++
    padded 2 (rest / 3600000) ++ ":" ++ padded 2 (rest / 60000 % 60) ++ ":" ++
    padded 2 (rest / 1000 % 60) ++ "." ++ padded 3 (rest % 1000) ++ "Z"

/-- The body of the requests of an event. -/
def eventEnvelope (id event : String) (now : Time) (data : Json) : Json :=
  .obj [("id", .str id), ("type", .str event), ("createdAt", .str (toISOString now)), ("data", data)]

/-- The organizations that the caller names, or those of the event. -/
def eventOrganizationIds (event : String) (data : Json) :
    Option (List String) → Request (List String)
  | some organizationIds => .pure organizationIds
  | none => resolveEventOrganizationIds event data

/-- `eventId ?? deps.ids.generate()`. -/
def eventIdOrNew : Option String → Request String
  | some id => .pure id
  | none => generateId

/-- `publishWebhookEvent`. -/
def publishWebhookEvent (event : String) (data : Json) (organizationIds : Option (List String))
    (eventId : Option String) : Request (List WebhookRequestResponse) := do
  let organizationIds ← eventOrganizationIds event data organizationIds
  let endpoints ← query (·.listSubscribedEndpoints event organizationIds)
  if endpoints = [] then .pure []
  else do
    let now ← currentTime
    let id ← eventIdOrNew eventId
    deliverEvent event (eventEnvelope id event now data) now endpoints

end Delivery

end Realmroot
