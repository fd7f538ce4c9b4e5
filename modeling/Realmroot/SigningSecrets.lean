import Realmroot.Library.Followed
import Realmroot.Library.Promises
import Realmroot.Rules
import Realmroot.Usecases.Webhooks

/-!
# Signing secrets in interleavings

Any number of rotations, updates, deletions and deliveries are in progress. As long as a secret
that was stored before secrets were sealed is only written back over itself, the secret that a
rotation returns is the one that signs until the next rotation.
-/

namespace Realmroot

open AtomicProgram Program Pool

/-! ## The system -/

inductive SigningRequest where
  | rotate (id : String)
  | update (id : String) (input : UpdateWebhookEndpointRequest)
  | delete (id : String)
  | deliver (id idempotencyKey : String)
  | createAttempt (id idempotencyKey : String)
  deriving DecidableEq

inductive SigningEvent where
  | elapse (milliseconds : ℕ)
  /-- Whatever else the server does leaves the endpoints alone. -/
  | configure (db : Database)

section System

variable [Platform]

/-- The program of a request, with the secret that a rotation returns. -/
def SigningRequest.program : SigningRequest → Request (Option String)
  | rotate id => (rotateWebhookSecret id).bind fun result => .pure (some result.2)
  | update id input => (updateWebhookEndpoint id input).bind fun _ => .pure none
  | delete id => (deleteWebhookEndpoint id).bind fun _ => .pure none
  | deliver id idempotencyKey =>
    (deliverWebhookRequest id idempotencyKey).bind fun _ => .pure none
  | createAttempt id idempotencyKey =>
    (createWebhookDeliveryAttempt id idempotencyKey).bind fun _ => .pure none

def signingSystem :
    System Command World Reply Error (Option String) SigningRequest SigningEvent where
  program := SigningRequest.program
  environment
    | .elapse milliseconds, w => { w with clock := w.clock + milliseconds }
    | .configure db, w => { w with db := { db with webhookEndpoints := w.db.webhookEndpoints } }

end System

abbrev SigningAction := Action Reply SigningRequest SigningEvent

/-! ## The secret of an endpoint -/

section Secrets

variable [Platform]

/-- `secrets.seal` marks what it seals, and what it seals can be opened. -/
def Reply.Seals (reply : Reply) : Prop :=
  ∀ plaintext context, isSealed (reply.sealing plaintext context) = true ∧
    Platform.openSecret (reply.sealing plaintext context) context = some plaintext

/-- The secret with which a delivery signs that has read the row. -/
def WebhookEndpoint.signs (row : WebhookEndpoint) : Option String :=
  if isSealed row.signingSecret then
    Platform.openSecret row.signingSecret (webhookSecretContext row.id)
  else some row.signingSecret

/-- The row signs with the secret, and shows its prefix. -/
structure WebhookEndpoint.Holds (row : WebhookEndpoint) (secret : String) : Prop where
  signs : row.signs = some secret
  shows : row.secretPrefix = Realmroot.secretPrefix secret

/-- The request carries the signature of its body and its timestamp. -/
def PeerRequest.SignedWith (request : PeerRequest) (secret : String) : Prop :=
  ∃ timestamp body, request.json = some body ∧
    ("x-realmroot-timestamp", timestamp) ∈ request.headers ∧
    ("x-realmroot-signature", signWebhookPayload secret timestamp body) ∈ request.headers

/-- The endpoint and the sealed secret of an update that leaves the prefix as it is. -/
def Command.migrates? : Command → Option (String × String)
  | .webhook (.updateEndpoint id patch) =>
    if patch.secretPrefix = none then patch.signingSecret.map fun sealed => (id, sealed) else none
  | _ => none

/-- A sealed secret is written back over the secret that it seals. -/
def MigratesInTime (command : Command) (w : World) : Prop :=
  ∀ migration ∈ command.migrates?, ∀ row ∈ w.db.findWebhookEndpoint migration.1,
    row.signs = Platform.openSecret migration.2 (webhookSecretContext migration.1)

instance (command : Command) (w : World) : Decidable (MigratesInTime command w) :=
  inferInstanceAs (Decidable (∀ migration ∈ command.migrates?, _))

/-- What an update does to the secret of an endpoint: nothing, or it writes a sealed one, and
only a rotation also writes its prefix. -/
def WritesSecret (request : SigningRequest) (id : String) (patch : WebhookEndpointPatch) : Prop :=
  (patch.signingSecret = none ∧ patch.secretPrefix = none) ∨
    ∃ sealed secret, patch.signingSecret = some sealed ∧ isSealed sealed = true ∧
      Platform.openSecret sealed (webhookSecretContext id) = some secret ∧
      (patch.secretPrefix = none ∨
        request = .rotate id ∧ patch.secretPrefix = some (secretPrefix secret))

/-- The endpoint that a command updates. -/
def Command.updatedEndpoint? : Command → Option String
  | .webhook (.updateEndpoint id _) => some id
  | _ => none

/-- The step in which a rotation of the endpoint writes. -/
def Rotates (id : String) (entry : SigningRequest × Command × World) : Prop :=
  entry.1 = .rotate id ∧ entry.2.1.updatedEndpoint? = some id

instance (id : String) (entry : SigningRequest × Command × World) : Decidable (Rotates id entry) :=
  inferInstanceAs (Decidable (_ ∧ _))

end Secrets

theorem findWebhookEndpoint_id {db : Database} {id : String} {row : WebhookEndpoint}
    (h : db.findWebhookEndpoint id = some row) : row.id = id := by
  simpa using List.find?_some h

/-- The endpoint after an update. -/
theorem findWebhookEndpoint_update {db db' : Database} {id other : String}
    {patch : WebhookEndpointPatch} {updated : Option WebhookEndpoint}
    (h : Database.updateWebhookEndpoint id patch db = .ok (updated, db')) :
    updated = (db.findWebhookEndpoint id).map patch.apply ∧
      db'.findWebhookEndpoint other = (db.findWebhookEndpoint other).map fun row =>
        if row.id = id then patch.apply row else row := by
  cases h
  refine ⟨rfl, ?_⟩
  have hfind := @Table.find?_updateWhere _ (fun row => row.id = id) patch.apply db.webhookEndpoints
    (fun row => row.id = other) fun row => rfl
  simpa [Database.findWebhookEndpoint] using hfind

theorem findWebhookEndpoint_delete {db db' : Database} {id other : String} {u : Unit}
    {row : WebhookEndpoint} (h : Database.deleteWebhookEndpoint id db = .ok (u, db'))
    (hfound : db'.findWebhookEndpoint other = some row) :
    db.findWebhookEndpoint other = some row := by
  cases h
  simp only [Database.findWebhookEndpoint, List.find?_filter] at hfound ⊢
  by_cases hid : other = id
  · have hselected := List.find?_some hfound
    simp [hid] at hselected
  · rw [← hfound]
    congr 1
    funext row
    by_cases hrow : row.id = other
    · simp [hrow, hid]
    · simp [hrow]

/-! ## What a command does to the secret -/

section Commands

variable [Platform] {request : SigningRequest} {id secret : String} {w : World}

/-- A secret that is written with its prefix is held. -/
theorem holds_rotated {row : WebhookEndpoint} {patch : WebhookEndpointPatch} {sealed : String}
    (hsealed : patch.signingSecret = some sealed) (hmarked : isSealed sealed = true)
    (hopens : Platform.openSecret sealed (webhookSecretContext row.id) = some secret)
    (hstart : patch.secretPrefix = some (secretPrefix secret)) :
    (patch.apply row).Holds secret := by
  constructor
  · simp [WebhookEndpoint.signs, WebhookEndpointPatch.apply, hsealed, hmarked, hopens]
  · simp [WebhookEndpointPatch.apply, hstart]

/-- Nothing but a rotation changes the secret of a row, when it is migrated in time. -/
theorem WritesSecret.holds {patch : WebhookEndpointPatch} {row : WebhookEndpoint}
    (hwrites : WritesSecret request row.id patch) (hother : request ≠ .rotate row.id)
    (hintime : patch.secretPrefix = none → ∀ sealed ∈ patch.signingSecret,
      row.signs = Platform.openSecret sealed (webhookSecretContext row.id))
    (h : row.Holds secret) : (patch.apply row).Holds secret := by
  rcases hwrites with ⟨hsecret, hstart⟩ | ⟨sealed, plain, hsealed, hmarked, hopens, hstart⟩
  · constructor
    · simpa [WebhookEndpoint.signs, WebhookEndpointPatch.apply, hsecret] using h.signs
    · simpa [WebhookEndpointPatch.apply, hstart] using h.shows
  · rcases hstart with hstart | ⟨hrotates, -⟩
    · have hsame := hintime hstart sealed hsealed
      rw [h.signs] at hsame
      constructor
      · simp [WebhookEndpoint.signs, WebhookEndpointPatch.apply, hsealed, hmarked, ← hsame]
      · simpa [WebhookEndpointPatch.apply, hstart] using h.shows
    · exact absurd hrotates hother

/-- The endpoint, if it is there, holds the secret. -/
def SecretIs (id secret : String) (w : World) : Prop :=
  ∀ row, w.db.findWebhookEndpoint id = some row → row.Holds secret

/-- What a request promises of its commands. -/
def KeepsSecrets (request : SigningRequest) : Command → Prop
  | .read => True
  | .generateId => True
  | .send _ => True
  | .webhook (.updateEndpoint id patch) => WritesSecret request id patch
  | .webhook _ => True
  | _ => False

theorem SecretIs.exec {command : Command} (h : SecretIs id secret w)
    (hkeeps : KeepsSecrets request command) (hintime : MigratesInTime command w)
    (hother : ¬ Rotates id (request, command, w)) : SecretIs id secret (exec command w) := by
  cases command with
  | read => exact h
  | generateId => exact h
  | send sent => exact h
  | webhook command =>
    change SecretIs id secret { w with db := command.statement.after w.db }
    apply Statement.after_keeps (p := fun db => SecretIs id secret { w with db := db }) h
    intro answer db' hok row hrow
    cases command with
    | readEndpoint other =>
      cases hok
      exact h row hrow
    | updateEndpoint other patch =>
      rw [(findWebhookEndpoint_update hok).2] at hrow
      obtain ⟨old, hold, rfl⟩ := Option.map_eq_some_iff.mp hrow
      split_ifs with hid
      · subst hid
        have hsame := findWebhookEndpoint_id hold
        subst hsame
        apply WritesSecret.holds hkeeps
        · intro hrotate
          exact hother ⟨hrotate, rfl⟩
        · intro hstart sealed hsealed
          apply hintime (old.id, sealed) _ old hold
          simpa [Command.migrates?, hstart] using hsealed
        · exact h old hold
      · exact h old hold
    | deleteEndpoint other => exact h row (findWebhookEndpoint_delete hok hrow)
    | createRequest request =>
      simp only [WebhookCommand.statement, Database.insertWebhookRequest] at hok
      split_ifs at hok
      cases hok
      exact h row hrow
    | updateRequest other patch =>
      cases hok
      exact h row hrow
    | reserveAttempt previousAttemptCount attempt =>
      simp only [WebhookCommand.statement, Database.insertWebhookAttempt] at hok
      split_ifs at hok
      · cases hok
        exact h row hrow
      · cases hok
        exact h row hrow
    | updateAttempt other patch =>
      cases hok
      exact h row hrow
  | _ => exact hkeeps.elim

end Commands

/-! ## The commands of the requests -/

section Programs

variable [Platform] {request : SigningRequest}

/-- The programs of a request, as long as `secrets.seal` does its work. -/
abbrev KeepsAll {α : Type} (request : SigningRequest) (p : Request α) : Prop :=
  p.Issues (fun _ => True) Reply.Seals (KeepsSecrets request)

theorem migrateSigningSecret_keeps (endpoint : WebhookEndpoint) :
    KeepsAll request (migrateSigningSecret endpoint) := by
  intro reply hreply
  obtain ⟨hmarked, hopens⟩ := hreply endpoint.signingSecret (webhookSecretContext endpoint.id)
  refine ⟨trivial, fun s _ => ⟨?_, fun t _ => ?_⟩⟩
  · exact .inr ⟨_, _, rfl, hmarked, hopens, .inl rfl⟩
  · exact Uses.issues (uses_bind trivial fun _ => uses_bind uses_orThrow fun _ => trivial)

theorem readSigningSecret_keeps (endpoint : WebhookEndpoint) :
    KeepsAll request (readSigningSecret endpoint) := by
  unfold readSigningSecret
  split_ifs
  · exact uses_orThrow.issues
  · exact migrateSigningSecret_keeps endpoint

theorem attemptDelivery_keeps (endpoint : WebhookEndpoint) (event : String) (body : Json)
    (attemptedAt : Time) : KeepsAll request (attemptDelivery endpoint event body attemptedAt) := by
  apply Issues.bind (readSigningSecret_keeps endpoint)
  intro signingSecret
  apply Uses.issues
  apply uses_bind uses_ofResult
  intro eventId
  apply uses_bind (uses_fetchPeer.mpr trivial)
  intro reply
  apply uses_bind (uses_bind uses_randomString fun _ => uses_orThrow)
  intro response
  apply uses_bind (uses_bind uses_randomString fun _ => uses_orThrow)
  intro bytes
  trivial

omit [Platform] in
theorem updateDelivery_uses {P : Command → Prop} (hread : P .read) (id : String)
    (patch : WebhookRequestPatch) (hupdate : P (.webhook (.updateRequest id patch))) :
    (updateDelivery id patch).Uses P := by
  apply uses_bind (uses_perform.mpr hupdate)
  intro updated
  apply uses_bind uses_orThrow
  intro row
  apply uses_bind (uses_query.mpr hread)
  intro found
  exact uses_bind uses_orThrow fun _ => trivial

omit [Platform] in
theorem updateDeliveryAttempt_uses {P : Command → Prop} (id : String)
    (patch : WebhookAttemptPatch) (hupdate : P (.webhook (.updateAttempt id patch))) :
    (updateDeliveryAttempt id patch).Uses P :=
  uses_bind (uses_perform.mpr hupdate) fun _ => uses_orThrow

omit [Platform] in
theorem reserveAttempt_uses {P : Command → Prop} (hread : P .read) (previousAttemptCount : ℕ)
    (row : WebhookDeliveryAttempt)
    (hreserve : P (.webhook (.reserveAttempt previousAttemptCount row))) :
    (reserveAttempt previousAttemptCount row).Uses P := by
  apply uses_bind (uses_perform.mpr hreserve)
  intro created
  split
  · trivial
  · apply uses_bind (uses_query.mpr hread)
    intro found
    exact uses_bind uses_orThrow fun _ => trivial

theorem deliverAttempt_keeps (endpoint : WebhookEndpoint) (current : WebhookDeliveryRequest)
    (body : Json) (attempt : WebhookDeliveryAttempt) (attemptedAt : Time) :
    KeepsAll request (deliverAttempt endpoint current body attempt attemptedAt) := by
  apply Issues.bind (updateDelivery_uses trivial _ _ trivial).issues
  intro started
  apply Issues.bind
  · exact (attemptDelivery_keeps endpoint _ body attemptedAt).tryCatch fun error => trivial
  intro outcome
  apply Uses.issues
  apply uses_bind (uses_currentTime.mpr trivial)
  intro completedAt
  apply uses_bind (updateDeliveryAttempt_uses _ _ trivial)
  intro updatedAttempt
  exact uses_bind (updateDelivery_uses trivial _ _ trivial) fun _ => trivial

theorem deliverWebhookRequestWithAttempt_keeps (id idempotencyKey : String) :
    KeepsAll request (deliverWebhookRequestWithAttempt id idempotencyKey) := by
  unfold deliverWebhookRequestWithAttempt
  apply Issues.bind (uses_query.mpr trivial).issues
  intro found
  apply Issues.bind uses_orThrow.issues
  intro current
  refine ⟨trivial, fun s _ => ?_⟩
  apply Issues.bind uses_orThrow.issues
  intro endpoint
  apply Issues.bind uses_orThrow.issues
  intro body
  apply Issues.bind (uses_currentTime.mpr trivial).issues
  intro attemptedAt
  apply Issues.bind (uses_generateId.mpr trivial).issues
  intro attemptId
  apply Issues.bind (reserveAttempt_uses trivial _ _ trivial).issues
  intro reservation
  split_ifs
  · exact deliverAttempt_keeps endpoint _ body _ attemptedAt
  · trivial

theorem createWebhookDeliveryAttempt_keeps (id idempotencyKey : String) :
    KeepsAll request (createWebhookDeliveryAttempt id idempotencyKey) := by
  unfold createWebhookDeliveryAttempt
  apply Issues.bind (uses_query.mpr trivial).issues
  intro found
  apply Issues.bind uses_orThrow.issues
  intro current
  apply Issues.bind (uses_query.mpr trivial).issues
  intro existing
  split
  · trivial
  · apply Issues.bind uses_throwIf.issues
    intro _
    exact (deliverWebhookRequestWithAttempt_keeps id idempotencyKey).bind fun _ => trivial

/-- What is promised of the commands of a request, and of the end of a rotation. -/
def signingPromises :
    Promises Command World Reply Error (Option String) SigningRequest where
  inv _ := True
  moves _ _ := True
  answers := Reply.Seals
  cond _ command w := MigratesInTime command w
  promise request command _ := KeepsSecrets request command
  post _ _ _ := True
  ends
    | .rotate id, .ok (some secret), w => SecretIs id secret w
    | _, _, _ => True

theorem rotateWebhookSecret_meets (id : String) (w : World) :
    (SigningRequest.program (.rotate id)).Meets (signingPromises.contract (.rotate id))
      (signingPromises.ends (.rotate id)) w := by
  unfold SigningRequest.program
  rw [meets_bind]
  apply meets_query
  intro s _ _
  refine ⟨trivial, meets_orThrow (fun _ => trivial) fun current _ => ?_⟩
  intro bytes t _ _ sealing u hsealing _
  obtain ⟨hmarked, hopens⟩ := hsealing ("whsec_" ++ bytes.random) (webhookSecretContext id)
  apply meets_currentTime
  intro v _ _
  refine ⟨trivial, ?_⟩
  apply meets_perform
  intro z _ _
  refine ⟨.inr ⟨_, _, rfl, hmarked, hopens, .inr ⟨rfl, rfl⟩⟩, ?_⟩
  apply meets_orThrow (fun _ => trivial)
  intro endpoint _ row hrow
  have hafter := (@findWebhookEndpoint_update z.db _ _ id _ _ rfl).2.symm.trans hrow
  obtain ⟨old, hold, rfl⟩ := Option.map_eq_some_iff.mp hafter
  have hid := findWebhookEndpoint_id hold
  rw [if_pos hid]
  exact holds_rotated rfl hmarked (hid ▸ hopens) rfl

theorem signingPromises_sound : signingPromises.Sound signingSystem where
  refl _ := trivial
  trans _ _ := trivial
  stable _ _ _ _ _ _ := trivial
  remains _ _ _ _ := trivial
  program request w _ := by
    have hmeets : ∀ {p : Request (Option String)}, KeepsAll request p →
        (∀ r s, signingPromises.ends request r s) →
          p.Meets (signingPromises.contract request) (signingPromises.ends request) w := by
      intro p hp hends
      exact hp.meets (fun _ hc _ _ => hc) hends w
    cases request with
    | rotate id => exact rotateWebhookSecret_meets id w
    | update id input =>
      apply hmeets _ fun _ _ => trivial
      refine Issues.bind (Uses.issues ?_) fun _ => trivial
      apply uses_bind (uses_query.mpr trivial)
      intro current
      apply uses_bind uses_orThrow
      intro _
      apply uses_bind uses_ofResult
      intro _
      apply uses_bind (uses_currentTime.mpr trivial)
      intro now
      apply uses_bind (uses_perform.mpr (.inl ⟨rfl, rfl⟩))
      intro updated
      exact uses_bind uses_orThrow fun _ => trivial
    | delete id =>
      apply hmeets _ fun _ _ => trivial
      refine Issues.bind (Uses.issues ?_) fun _ => trivial
      apply uses_bind (uses_query.mpr trivial)
      intro current
      exact uses_bind uses_orThrow fun _ => uses_perform.mpr trivial
    | deliver id idempotencyKey =>
      apply hmeets _ fun _ _ => trivial
      refine Issues.bind ?_ fun _ => trivial
      exact (deliverWebhookRequestWithAttempt_keeps id idempotencyKey).bind fun _ => trivial
    | createAttempt id idempotencyKey =>
      apply hmeets _ fun _ _ => trivial
      exact (createWebhookDeliveryAttempt_keeps id idempotencyKey).bind fun _ => trivial
  exec _ _ _ _ _ _ := ⟨trivial, trivial⟩
  environment _ _ _ := ⟨trivial, trivial⟩

/-! ## The signatures of a delivery -/

/-- A delivery signs as the endpoint does that it has read. -/
def SignsAs (endpoint : WebhookEndpoint) (command : Command) : Prop :=
  (∀ id, command ≠ .webhook (.readEndpoint id)) ∧
    ∀ sent, command = .send sent → ∃ secret, endpoint.signs = some secret ∧ sent.SignedWith secret

theorem readSigningSecret_returns (endpoint : WebhookEndpoint) :
    (readSigningSecret endpoint).Returns fun secret => endpoint.signs = some secret := by
  unfold readSigningSecret
  split_ifs with hsealed
  · apply returns_orThrow
    intro secret hopens
    rw [WebhookEndpoint.signs, if_pos hsealed, hopens]
  · have hsigns : endpoint.signs = some endpoint.signingSecret := by
      rw [WebhookEndpoint.signs, if_neg hsealed]
    intro reply s t
    exact (returns_true _).bind fun _ _ => (returns_true _).bind fun _ _ => hsigns

theorem attemptDelivery_signs (endpoint : WebhookEndpoint) (event : String) (body : Json)
    (attemptedAt : Time) :
    (attemptDelivery endpoint event body attemptedAt).Uses (SignsAs endpoint) := by
  apply Uses.bind_returns (Q := fun secret => endpoint.signs = some secret)
  · unfold readSigningSecret
    split_ifs
    · exact uses_orThrow
    · apply uses_bind uses_sealSecret
      intro sealed
      apply uses_bind (uses_currentTime.mpr (by simp [SignsAs]))
      intro now
      apply uses_bind (uses_perform.mpr (by simp [SignsAs]))
      intro migrated
      exact uses_bind uses_orThrow fun _ => trivial
  · exact readSigningSecret_returns endpoint
  intro secret hsigns
  apply uses_bind uses_ofResult
  intro eventId
  apply uses_bind
  · rw [uses_fetchPeer]
    refine ⟨fun _ => Command.noConfusion, ?_⟩
    rintro sent ⟨⟩
    refine ⟨secret, hsigns, Nat.repr (toSeconds attemptedAt), body, rfl, ?_, ?_⟩ <;>
      simp [deliveryRequest]
  intro reply
  apply uses_bind (uses_bind uses_randomString fun _ => uses_orThrow)
  intro response
  apply uses_bind (uses_bind uses_randomString fun _ => uses_orThrow)
  intro bytes
  trivial

theorem deliverAttempt_signs (endpoint : WebhookEndpoint) (current : WebhookDeliveryRequest)
    (body : Json) (attempt : WebhookDeliveryAttempt) (attemptedAt : Time) :
    (deliverAttempt endpoint current body attempt attemptedAt).Uses (SignsAs endpoint) := by
  have hread : SignsAs endpoint .read := by simp [SignsAs]
  have hupdate : ∀ id patch, SignsAs endpoint (.webhook (.updateRequest id patch)) := by
    simp [SignsAs]
  apply uses_bind (updateDelivery_uses hread _ _ (hupdate _ _))
  intro started
  apply uses_bind
  · exact (attemptDelivery_signs endpoint _ body attemptedAt).tryCatch fun error => trivial
  intro outcome
  apply uses_bind (uses_currentTime.mpr hread)
  intro completedAt
  apply uses_bind (updateDeliveryAttempt_uses _ _ (by simp [SignsAs]))
  intro updatedAttempt
  exact uses_bind (updateDelivery_uses hread _ _ (hupdate _ _)) fun _ => trivial

/-- The endpoint that a delivery reads decides the signatures that follow. -/
def DecidesSignature (command : Command) (w : World) (later : Command) : Prop :=
  ∀ id sent, command = .webhook (.readEndpoint id) → later = .send sent →
    ∃ endpoint secret, w.db.findWebhookEndpoint id = some endpoint ∧
      endpoint.signs = some secret ∧ sent.SignedWith secret

/-- Not the read of an endpoint. -/
def ReadsNoEndpoint (command : Command) : Prop := ∀ id, command ≠ .webhook (.readEndpoint id)

theorem readsNoEndpoint_decides (command : Command) (h : ReadsNoEndpoint command) (w : World)
    (later : Command) : DecidesSignature command w later :=
  fun id _ hread => absurd hread (h id)

theorem deliverWebhookRequestWithAttempt_follows (id idempotencyKey : String) :
    (deliverWebhookRequestWithAttempt id idempotencyKey).Follows DecidesSignature := by
  unfold deliverWebhookRequestWithAttempt
  apply Follows.bind readsNoEndpoint_decides (uses_query.mpr (by simp [ReadsNoEndpoint]))
  intro found
  apply Follows.bind readsNoEndpoint_decides uses_orThrow
  intro current s
  have hlater : ∀ p : Request DeliveryResult,
      (p.Uses fun c => ∃ endpoint,
        s.db.findWebhookEndpoint current.1.endpointId = some endpoint ∧ SignsAs endpoint c) →
      p.Uses (DecidesSignature (.webhook (.readEndpoint current.1.endpointId)) s) ∧
        p.Follows DecidesSignature := by
    intro p hp
    constructor
    · apply hp.mono
      rintro c ⟨endpoint, hfound, hsigns⟩ id sent ⟨⟩ hsent
      obtain ⟨secret, hsecret, hsigned⟩ := hsigns.2 sent hsent
      exact ⟨endpoint, secret, hfound, hsecret, hsigned⟩
    · apply Uses.follows readsNoEndpoint_decides
      exact hp.mono fun c ⟨_, _, hsigns⟩ => hsigns.1
  apply hlater
  refine Uses.bind_returns (p := .pure (s.db.findWebhookEndpoint current.1.endpointId))
    (Q := (· = s.db.findWebhookEndpoint current.1.endpointId)) trivial rfl ?_
  intro foundEndpoint hfound
  apply Uses.bind_returns uses_orThrow (returns_orThrow fun endpoint h => h)
  intro endpoint hendpoint
  have hsigned : ∀ {p : Request DeliveryResult}, p.Uses (SignsAs endpoint) →
      p.Uses fun c => ∃ endpoint,
        s.db.findWebhookEndpoint current.1.endpointId = some endpoint ∧ SignsAs endpoint c :=
    fun hp => hp.mono fun c hc => ⟨endpoint, hfound ▸ hendpoint, hc⟩
  apply hsigned
  have hread : SignsAs endpoint .read := by simp [SignsAs]
  apply uses_bind uses_orThrow
  intro body
  apply uses_bind (uses_currentTime.mpr hread)
  intro attemptedAt
  apply uses_bind (uses_generateId.mpr (by simp [SignsAs]))
  intro attemptId
  apply uses_bind (reserveAttempt_uses hread _ _ (by simp [SignsAs]))
  intro reservation
  split_ifs
  · exact deliverAttempt_signs endpoint _ body _ attemptedAt
  · trivial

theorem signingSystem_follows (request : SigningRequest) :
    (signingSystem.program request).Follows DecidesSignature := by
  have hread : ReadsNoEndpoint .read := by simp [ReadsNoEndpoint]
  cases request with
  | rotate id =>
    apply Uses.follows readsNoEndpoint_decides
    refine Uses.bind ?_ fun _ => trivial
    apply uses_bind (uses_query.mpr hread)
    intro current
    apply uses_bind uses_orThrow
    intro _
    apply uses_bind
    · exact uses_bind uses_randomString fun _ => trivial
    intro signingSecret
    apply uses_bind uses_sealSecret
    intro sealed
    apply uses_bind (uses_currentTime.mpr hread)
    intro now
    apply uses_bind (uses_perform.mpr (by simp [ReadsNoEndpoint]))
    intro updated
    exact uses_bind uses_orThrow fun _ => trivial
  | update id input =>
    apply Uses.follows readsNoEndpoint_decides
    refine Uses.bind ?_ fun _ => trivial
    apply uses_bind (uses_query.mpr hread)
    intro current
    apply uses_bind uses_orThrow
    intro _
    apply uses_bind uses_ofResult
    intro _
    apply uses_bind (uses_currentTime.mpr hread)
    intro now
    apply uses_bind (uses_perform.mpr (by simp [ReadsNoEndpoint]))
    intro updated
    exact uses_bind uses_orThrow fun _ => trivial
  | delete id =>
    apply Uses.follows readsNoEndpoint_decides
    refine Uses.bind ?_ fun _ => trivial
    apply uses_bind (uses_query.mpr hread)
    intro current
    exact uses_bind uses_orThrow fun _ => uses_perform.mpr (by simp [ReadsNoEndpoint])
  | deliver id idempotencyKey =>
    exact ((deliverWebhookRequestWithAttempt_follows id idempotencyKey).map _).map _
  | createAttempt id idempotencyKey =>
    refine Follows.map ?_ _
    unfold createWebhookDeliveryAttempt
    apply Follows.bind readsNoEndpoint_decides (uses_query.mpr hread)
    intro found
    apply Follows.bind readsNoEndpoint_decides uses_orThrow
    intro current
    apply Follows.bind readsNoEndpoint_decides (uses_query.mpr hread)
    intro existing
    split
    · trivial
    · apply Follows.bind readsNoEndpoint_decides uses_throwIf
      intro _
      exact (deliverWebhookRequestWithAttempt_follows id idempotencyKey).map _

end Programs

/-! ## Runs -/

section Runs

variable [Platform] {w : World} {before middle : List SigningAction} {rotation : SigningAction}
  {id secret : String} {s : World}

/-- Until the next rotation the endpoint holds the secret that the last one returned. -/
theorem secretIs_until (hreplies : ∀ i reply,
      .advance i reply ∈ before ++ rotation :: middle → reply.Seals)
    (hintime : ∀ entry ∈ (idle w).history signingSystem (before ++ rotation :: middle),
      MigratesInTime entry.2.1 entry.2.2)
    (hrotated : ((idle w).run signingSystem before).ending? rotation =
      some (.rotate id, .ok (some secret), s))
    (hlast : ∀ entry ∈ (((idle w).run signingSystem before).act signingSystem rotation).history
      signingSystem middle, ¬ Rotates id entry) :
    SecretIs id secret
      ((((idle w).run signingSystem before).act signingSystem rotation).run signingSystem
        middle).state := by
  have hidle : signingPromises.Inv
      (idle w : Pool Command World Reply Error (Option String) SigningRequest) :=
    Promises.inv_idle trivial
  have hthroughout := Stepwise.throughout_admits (D := signingPromises.steps) hreplies hintime
  obtain ⟨hbefore, hadmits, hmiddle⟩ := hidle.reaches signingPromises_sound hthroughout
  have hends : SecretIs id secret s := hbefore.ending signingPromises_sound hadmits hrotated
  have hstate := Promises.ending?_state (S := signingSystem) hrotated
  have hrun := ((hbefore.act signingPromises_sound hadmits).1.recorded signingPromises_sound
    hmiddle (I := fun log t => (∀ entry ∈ log, ¬ Rotates id entry) → SecretIs id secret t)
    ?_ ?_ [] fun _ => hstate ▸ hends).2
  · exact hrun hlast
  · intro log request command t _ hcond hpromise ih hlog
    rw [List.forall_mem_append] at hlog
    exact (ih hlog.1).exec hpromise hcond (hlog.2 _ (List.mem_singleton_self _))
  · intro log e t _ ih hlog
    cases e with
    | elapse milliseconds => exact ih hlog
    | configure db => exact ih hlog

/-- The secret that a rotation returns signs every delivery that reads the endpoint before the
next rotation, and its prefix is the one that is stored. -/
theorem rotation_stands (hreplies : ∀ i reply,
      .advance i reply ∈ before ++ rotation :: middle → reply.Seals)
    (hintime : ∀ entry ∈ (idle w).history signingSystem (before ++ rotation :: middle),
      MigratesInTime entry.2.1 entry.2.2)
    (hrotated : ((idle w).run signingSystem before).ending? rotation =
      some (.rotate id, .ok (some secret), s))
    (hlast : ∀ entry ∈ (((idle w).run signingSystem before).act signingSystem rotation).history
      signingSystem middle, ¬ Rotates id entry) :
    let P := ((idle w).run signingSystem (before ++ rotation :: middle))
    (∀ row, P.state.db.findWebhookEndpoint id = some row → row.Holds secret) ∧
      ∀ i reply request, P.step? (.advance i reply : SigningAction) =
          some (request, .webhook (.readEndpoint id)) →
        ∀ after, ∀ entry ∈
            (P.act signingSystem (.advance i reply)).commandsOf signingSystem i after,
          ∀ sent, entry.1 = .send sent → sent.SignedWith secret := by
  intro P
  have hP : P = (((idle w).run signingSystem before).act signingSystem rotation).run
      signingSystem middle := by
    rw [← run_cons, ← run_append]
  have hsecret := secretIs_until hreplies hintime hrotated hlast
  rw [← hP] at hsecret
  refine ⟨hsecret, ?_⟩
  intro i reply request hstep after entry hentry sent hsent
  have hfollowing : P.Following DecidesSignature :=
    Following.run signingSystem_follows _ (following_idle w)
  obtain ⟨endpoint, plain, hfound, hsigns, hsigned⟩ :=
    hfollowing.commandsOf hstep after entry hentry id sent rfl hsent
  have hplain := (hsecret endpoint hfound).signs
  rw [hsigns, Option.some.injEq] at hplain
  exact hplain ▸ hsigned

end Runs

/-! ## A rotation that is undone -/

namespace SigningExample

@[reducible] def platform : Platform :=
  { samplePlatform with
    openSecret := fun sealed _ => some (String.ofList (sealed.toList.drop 3)) }

def reply : Reply := { random := "new", sealing := fun plaintext _ => "v1." ++ plaintext }

/-- An endpoint whose secret was stored before secrets were sealed. -/
def endpoint : WebhookEndpoint :=
  { id := "endpoint", organizationId := none, url := "https://hooks.example"
    events := ["user.created"], enabled := true, signingSecret := "whsec_old"
    secretPrefix := "whsec_old", createdAt := 0, updatedAt := 0 }

def delivery : WebhookDeliveryRequest :=
  { id := "request", endpointId := "endpoint", event := "user.created", status := "pending"
    attemptCount := 0, httpStatus := none, error := none, requestBody := some (.obj [])
    responseBody := none, nextAttemptAt := some 0, createdAt := 0, updatedAt := 0 }

def start : World :=
  { db := { webhookEndpoints := [endpoint], webhookDeliveryRequests := [delivery] }
    clock := 1000, nextId := 0 }

def advance (i : ℕ) : SigningAction := .advance i reply

/-- A delivery has read the endpoint when the rotation begins. -/
def before : List SigningAction :=
  [.start (.deliver "request" "initial:request"), advance 0, advance 0, .start (.rotate "endpoint"),
    advance 1, advance 1, advance 1, advance 1]

/-- The delivery goes on until it has written the old secret back. -/
def middle : List SigningAction := List.replicate 8 (advance 0)

/-- The rotation returns, no other one is in progress, and the old secret signs again. -/
theorem rotation_undone :
    (((idle start).run (@signingSystem platform) before).ending? (advance 1)).map
        (fun entry => (entry.1, entry.2.1)) =
      some (.rotate "endpoint", .ok (some "whsec_new")) ∧
    ((idle start).run (@signingSystem platform)
        (before ++ advance 1 :: middle)).state.db.webhookEndpoints.map
      (fun row => (row.id, @WebhookEndpoint.signs platform row, row.secretPrefix)) =
      [("endpoint", some "whsec_old", "whsec_new")] := by
  decide +kernel

/-- The rotation returns before the delivery begins. -/
def inTime : List SigningAction :=
  [.start (.rotate "endpoint"), advance 0, advance 0, advance 0, advance 0]

def reading : List SigningAction := [.start (.deliver "request" "initial:request"), advance 1]

theorem reply_seals : @Reply.Seals platform reply := by
  intro plaintext context
  constructor
  · simp [isSealed, reply]
  · change some (String.ofList (("v1." ++ plaintext).toList.drop 3)) = some plaintext
    simp

theorem rotation_stands_inTime :
    (((idle start).run (@signingSystem platform) inTime).ending? (advance 0)).map
        (fun entry => (entry.1, entry.2.1)) = some (.rotate "endpoint", .ok (some "whsec_new")) ∧
      ∀ after,
        ∀ entry ∈ (((idle start).run (@signingSystem platform)
            (inTime ++ advance 0 :: reading)).act (@signingSystem platform)
              (advance 1)).commandsOf (@signingSystem platform) 1 after,
          ∀ sent, entry.1 = .send sent → @PeerRequest.SignedWith platform sent "whsec_new" := by
  have hending : (((idle start).run (@signingSystem platform) inTime).ending? (advance 0)).map
      (fun entry => (entry.1, entry.2.1)) =
        some (.rotate "endpoint", .ok (some "whsec_new")) := by
    decide +kernel
  refine ⟨hending, ?_⟩
  obtain ⟨⟨request, result, s⟩, hrotated, heq⟩ := Option.map_eq_some_iff.mp hending
  cases heq
  have hreplies : ∀ i r, .advance i r ∈ inTime ++ advance 0 :: reading →
      @Reply.Seals platform r := by
    intro i r h
    have hr : r = reply := by
      simp only [inTime, reading, advance, List.mem_append, List.mem_cons] at h
      grind
    exact hr ▸ reply_seals
  exact (@rotation_stands platform start inTime reading (advance 0) "endpoint" "whsec_new" s
    hreplies (by decide +kernel) hrotated (by decide +kernel)).2 1 reply
      (.deliver "request" "initial:request") rfl

end SigningExample
end Realmroot
