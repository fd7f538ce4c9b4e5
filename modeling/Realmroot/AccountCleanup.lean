import Realmroot.ConnectionSystem
import Realmroot.DeliveryPrograms
import Realmroot.Library.Memory
import Realmroot.MembershipSystem
import Realmroot.SigningSecrets
import Realmroot.Usecases.AccountDeletion

/-!
# The system of clean-up jobs

Assets of a deleted account are handed to its job while any number of workers claim jobs, delete
assets, finish and retry. A worker remembers the job that it holds and what it has deleted since.
-/

namespace Realmroot

open AtomicProgram Program Pool
open Database (CleanupJob)

/-! ## The system -/

inductive CleanupCall where
  | enqueue (userId key : String)
  | erase (userId : String)
  /-- A worker. -/
  | process

inductive CleanupEvent where
  | elapse (milliseconds : ℕ)
  /-- The tables other than that of the jobs change in any way. -/
  | configure (db : Database)

/-- The table that `configure` keeps. -/
def keepCleanups (kept db : Database) : Database :=
  { db with accountDeletionCleanups := kept.accountDeletionCleanups }

section System

variable [Platform]

def CleanupCall.program : CleanupCall → Request Unit
  | enqueue userId key => (enqueueAssetCleanup userId key).discard
  | erase userId => deleteAccount userId
  | process => processAccountDeletionCleanup

def cleanupSystem : System Command World Reply Error Unit CleanupCall CleanupEvent where
  program := CleanupCall.program
  environment
    | .elapse milliseconds, w => { w with clock := w.clock + milliseconds }
    | .configure db, w => { w with db := keepCleanups w.db db }

end System

abbrev CleanupAction := Action Reply CleanupCall CleanupEvent

abbrev CleanupEntry := CleanupCall × Command × World

/-! ## Jobs and their assets -/

/-- The key of an asset is in the job of a user. -/
def Database.Lists (db : Database) (userId key : String) : Prop :=
  ∃ row ∈ db.accountDeletionCleanups, row.userId = userId ∧ key ∈ row.assetKeys

/-- The command hands the asset to the job: it is asked to, or it makes the job. -/
def Enqueues (command : Command) (w : World) (userId key : String) : Prop :=
  (command = .cleanup (.enqueueAsset userId key) ∧
      ∃ db, Database.enqueueAssetCleanup userId key w.db = .ok (true, db)) ∨
    ¬ w.db.Lists userId key ∧ (exec command w).db.Lists userId key

/-- The entry claims a job. -/
def Claims (entry : CleanupEntry) (job : CleanupJob) : Prop :=
  ∃ now claimId db, entry.2.1 = .cleanup (.claim now claimId) ∧
    Database.claimCleanup now claimId entry.2.2.db = .ok (some job, db)

/-- The asset is deleted after the job is claimed with it. -/
def Cleaned (log : List CleanupEntry) (userId key : String) : Prop :=
  ∃ before claim after job, log = before ++ claim :: after ∧ Claims claim job ∧
    job.userId = userId ∧ key ∈ job.assetKeys ∧
      ∃ entry ∈ after, entry.2.1 = .deleteAsset key

/-! ## What a worker remembers -/

/-- The job that it holds, and the assets that it has deleted since. -/
def cleanupMemory : Memory Command World (Option (CleanupJob × List String)) where
  advance phase command w :=
    match command with
    | .cleanup (.claim now claimId) =>
      match Database.claimCleanup now claimId w.db with
      | .ok (some job, _) => some (job, [])
      | _ => none
    | .deleteAsset key => phase.map fun held => (held.1, key :: held.2)
    | _ => phase
  issues phase command :=
    match command with
    | .read => True
    | .generateId => True
    | .send _ => True
    | .deleteAsset _ => True
    | .webhook _ => True
    | .membership (.eraseAccount ..) => True
    | .cleanup (.finish job) =>
      ∃ deleted, phase = some (job, deleted) ∧ ∀ key ∈ job.assetKeys, key ∈ deleted
    | .cleanup _ => True
    | _ => False

/-- The history bears out what a worker remembers. -/
def BorneOut : Option (CleanupJob × List String) → List CleanupEntry → Prop
  | none, _ => True
  | some (job, deleted), log =>
    ∃ before claim after, log = before ++ claim :: after ∧ Claims claim job ∧
      ∀ key ∈ deleted, ∃ entry ∈ after, entry.2.1 = .deleteAsset key

/-- The claim of a job is the one that was asked for. -/
theorem claimCleanup_id {now : Time} {claimId : String} {db db' : Database} {job : CleanupJob}
    (h : Database.claimCleanup now claimId db = .ok (some job, db')) : job.claimId = claimId := by
  unfold Database.claimCleanup at h
  split at h
  · cases h
  · cases h
    rfl

/-- What is borne out stays so. -/
theorem BorneOut.append {phase : Option (CleanupJob × List String)} {log : List CleanupEntry}
    (h : BorneOut phase log) (entry : CleanupEntry) : BorneOut phase (log ++ [entry]) := by
  cases phase with
  | none => trivial
  | some held =>
    obtain ⟨before, claim, after, rfl, hclaims, hdeleted⟩ := h
    refine ⟨before, claim, after ++ [entry], by simp, hclaims, ?_⟩
    intro key hkey
    obtain ⟨deleting, hmem, hcommand⟩ := hdeleted key hkey
    exact ⟨deleting, List.mem_append_left _ hmem, hcommand⟩

theorem cleanup_remembers : Remembers cleanupMemory none BorneOut where
  start _ := trivial
  others _ _ entry h := h.append entry
  own phase log request command w _ h := by
    have hlater := h.append (request, command, w)
    cases command with
    | deleteAsset key =>
      cases phase with
      | none => trivial
      | some held =>
        obtain ⟨before, claim, after, rfl, hclaims, hdeleted⟩ := h
        refine ⟨before, claim, after ++ [(request, .deleteAsset key, w)], by simp, hclaims, ?_⟩
        intro key' hkey'
        rcases List.mem_cons.mp hkey' with rfl | hold
        · exact ⟨_, List.mem_append_right _ (List.mem_singleton.mpr rfl), rfl⟩
        · obtain ⟨deleting, hmem, hcommand⟩ := hdeleted key' hold
          exact ⟨deleting, List.mem_append_left _ hmem, hcommand⟩
    | cleanup command =>
      cases command with
      | claim now claimId =>
        change BorneOut (match Database.claimCleanup now claimId w.db with
          | .ok (some job, _) => some (job, [])
          | _ => none) _
        split
        · rename_i job db hclaimed
          refine ⟨log, (request, .cleanup (.claim now claimId), w), [], rfl,
            ⟨now, claimId, db, rfl, hclaimed⟩, ?_⟩
          intro key hkey
          cases hkey
        · trivial
      | _ => exact hlater
    | _ => exact hlater

/-! ## The programs -/

section Uses

variable [Platform] {P : Command → Prop} (hread : P .read) (hid : P .generateId)
  (hsend : ∀ request, P (.send request)) (hwebhook : ∀ command, P (.webhook command))

section Webhooks

include hread hid hsend hwebhook

theorem deliverWebhookRequestWithAttempt_uses (id idempotencyKey : String) :
    (deliverWebhookRequestWithAttempt id idempotencyKey).Uses P := by
  apply uses_bind (uses_query.mpr hread)
  intro found
  apply uses_bind uses_orThrow
  intro current
  refine uses_bind ⟨hwebhook _, fun _ => trivial⟩ ?_
  intro foundEndpoint
  apply uses_bind uses_orThrow
  intro endpoint
  apply uses_bind uses_orThrow
  intro body
  apply uses_bind (uses_currentTime.mpr hread)
  intro attemptedAt
  apply uses_bind (uses_generateId.mpr hid)
  intro attemptId
  apply uses_bind (reserveAttempt_uses hread _ _ (hwebhook _))
  intro reservation
  split_ifs
  · apply uses_bind (updateDelivery_uses hread _ _ (hwebhook _))
    intro started
    apply uses_bind (outcome_uses hread hsend (fun _ _ => hwebhook _) _ _ _ _)
    intro outcome
    apply uses_bind (uses_currentTime.mpr hread)
    intro completedAt
    apply uses_bind (uses_bind (uses_perform.mpr (hwebhook _)) fun _ => uses_orThrow)
    intro updatedAttempt
    exact uses_bind (updateDelivery_uses hread _ _ (hwebhook _)) fun _ => trivial
  · trivial

/-- The publication of an event reads, sends, and writes what belongs to webhooks. -/
theorem publishWebhookEvent_uses (event : String) (data : Json) (organizationIds : List String)
    (eventId : String) :
    (publishWebhookEvent event data (some organizationIds) (some eventId)).Uses P := by
  apply uses_bind (by trivial : (Program.pure organizationIds : Request _).Uses P)
  intro organizationIds
  apply uses_bind (uses_query.mpr hread)
  intro endpoints
  split_ifs
  · trivial
  apply uses_bind (uses_currentTime.mpr hread)
  intro now
  apply uses_bind (by trivial : (Program.pure eventId : Request _).Uses P)
  intro id
  apply uses_bind
  · apply Uses.mapEach
    intro endpoint
    apply uses_bind (uses_generateId.mpr hid)
    intro requestId
    apply uses_bind (uses_perform.mpr (hwebhook _))
    intro created
    apply uses_bind (uses_query.mpr hread)
    intro found
    exact uses_bind uses_orThrow fun _ => trivial
  · intro ids
    apply Uses.mapEach
    intro requestId
    exact (deliverWebhookRequestWithAttempt_uses hread hid hsend hwebhook _ _).bind
      fun _ => trivial

end Webhooks

section Revocations

omit [Platform] in
theorem attempt_uses {operation : Request Unit} (h : operation.Uses P) :
    (attempt operation).Uses P := by
  have hthen : (operation.bind fun _ => (.pure none : Request (Option Error))).Uses P :=
    h.bind fun _ => trivial
  exact Uses.tryCatch hthen fun cause => trivial

variable (hP : ∀ command : Command, command.Outside → P command)

include hP

theorem revokeCredentialTokens_uses (resource : ApiResource) (credential : ProviderCredential) :
    (revokeCredentialTokens resource credential).Uses P := by
  apply uses_bind
  · unfold connectorOAuthAuthorization
    split_ifs
    · trivial
    · exact (requireActiveConnectorAuthorization_uses (hP .read trivial) _ _).bind
        fun _ => trivial
  intro found
  apply uses_bind uses_orThrow
  intro authorization
  apply uses_bind uses_ofResult
  intro payload
  apply uses_bind uses_ofResult
  intro refreshToken
  apply uses_bind (postEmptyForm_uses hP _ _ _ _ _)
  intro _
  split_ifs
  · apply uses_bind uses_ofResult
    intro accessToken
    exact postEmptyForm_uses hP _ _ _ _ _
  · trivial

theorem revokeDeletedAccountConnection_uses (connectionId : String) :
    (revokeDeletedAccountConnection connectionId).Uses P := by
  apply uses_bind (findConnection_uses (hP .read trivial) _)
  intro found
  apply uses_bind uses_orThrow
  intro connection
  unfold revokeRealmrootCustodiedProviderAuthorization
  dsimp only
  split_ifs
  · trivial
  · apply uses_bind (uses_query.mpr (hP .read trivial))
    intro foundResource
    apply uses_bind uses_orThrow
    intro resource
    exact Uses.forEach fun credential => revokeCredentialTokens_uses hP resource credential

theorem revokeDeletedAccountLease_uses (leaseId : String) :
    (revokeDeletedAccountLease leaseId).Uses P := by
  apply uses_bind (uses_query.mpr (hP .read trivial))
  intro found
  apply uses_bind uses_orThrow
  intro lease
  apply uses_bind (uses_currentTime.mpr (hP .read trivial))
  intro now
  split_ifs
  · apply uses_bind (uses_currentTime.mpr (hP .read trivial))
    intro revokedAt
    exact revokeTokenLeaseAtTarget_uses hP _ _ (by simp)
  · trivial

end Revocations

end Uses

/-! ## What workers track -/

/-- The commands that have nothing to do with jobs. -/
def Command.SparesJobs : Command → Prop
  | .read => True
  | .generateId => True
  | .send _ => True
  | .webhook _ => True
  | .cleanup (.clearConnection _) => True
  | .cleanup (.clearLease _) => True
  | _ => False

theorem sparesJobs_outside (command : Command) (h : command.Outside) : command.SparesJobs := by
  cases command with
  | read => trivial
  | generateId => trivial
  | send request => trivial
  | _ => exact h.elim

section Tracks

variable {α β : Type} {phase : Option (CleanupJob × List String)}

theorem sparesJobs_issues {command : Command} (h : command.SparesJobs) :
    cleanupMemory.issues phase command := by
  cases command with
  | read => trivial
  | generateId => trivial
  | send request => trivial
  | webhook command => trivial
  | cleanup command =>
    cases command with
    | clearConnection id => trivial
    | clearLease id => trivial
    | _ => exact h.elim
  | _ => exact h.elim

theorem sparesJobs_stays {command : Command} (h : command.SparesJobs) (w : World) :
    cleanupMemory.advance phase command w = phase := by
  cases command with
  | read => rfl
  | generateId => rfl
  | send request => rfl
  | webhook command => rfl
  | cleanup command =>
    cases command with
    | clearConnection id => rfl
    | clearLease id => rfl
    | _ => exact h.elim
  | _ => exact h.elim

theorem tracks_sparing {post : β → Option (CleanupJob × List String) → Prop} {p : Request α}
    {next : α → Request β} (hp : p.Uses Command.SparesJobs)
    (h : ∀ a, (next a).Tracks cleanupMemory post phase) :
    (p.bind next).Tracks cleanupMemory post phase := by
  have htracks : p.Tracks cleanupMemory (fun _ later => later = phase) phase :=
    hp.tracks (fun _ => sparesJobs_issues) fun _ hc => sparesJobs_stays hc
  apply htracks.bind
  rintro a later rfl
  exact h a

/-- A deletion that does not fail is remembered. -/
theorem attemptDelete_tracks (key : String) (job : CleanupJob) (deleted : List String) :
    (attempt (deleteStoredAsset key)).Tracks cleanupMemory
      (fun error later => ∃ deleted', later = some (job, deleted') ∧
        (∀ other ∈ deleted, other ∈ deleted') ∧ (error = none → key ∈ deleted'))
      (some (job, deleted)) := by
  intro reply
  change Tracks cleanupMemory _ (some (job, deleted))
    (((if reply.ok then .call (.deleteAsset key) fun _ => .pure ()
      else .throw (.internal reply.random) : Request Unit).bind fun _ => .pure none).tryCatch
        fun cause => .pure (some cause))
  split_ifs
  · refine ⟨trivial, ?_⟩
    intro w
    exact ⟨key :: deleted, rfl, fun other h => List.mem_cons_of_mem _ h,
      fun _ => List.mem_cons_self ..⟩
  · exact ⟨deleted, rfl, fun other h => h, nofun⟩

/-- The deletions that do not fail are remembered. -/
theorem deleteAssets_tracks (keys : List String) (job : CleanupJob) (deleted : List String) :
    (Program.mapEach keys fun key => attempt (deleteStoredAsset key)).Tracks cleanupMemory
      (fun errors later => ∃ deleted', later = some (job, deleted') ∧
        (∀ other ∈ deleted, other ∈ deleted') ∧
        (errors.filterMap id = [] → ∀ key ∈ keys, key ∈ deleted')) (some (job, deleted)) := by
  induction keys generalizing deleted with
  | nil => exact ⟨deleted, rfl, fun _ h => h, fun _ _ h => nomatch h⟩
  | cons key keys ih =>
    apply (attemptDelete_tracks key job deleted).bind
    rintro error later ⟨deleted₁, rfl, hkept₁, hdeleted⟩
    apply (ih deleted₁).bind
    rintro errors later ⟨deleted₂, rfl, hkept₂, hall⟩
    refine ⟨deleted₂, rfl, fun other h => hkept₂ other (hkept₁ other h), ?_⟩
    intro hnone
    have herror : error = none := by
      cases error with
      | none => rfl
      | some cause => simp at hnone
    subst herror
    rintro other (_ | ⟨_, htail⟩)
    · exact hkept₂ key (hdeleted rfl)
    · exact hall (by simpa using hnone) other htail

variable [Platform]

/-- A job is finished when all of its assets are deleted. -/
theorem cleanUpJob_tracks (job : CleanupJob) :
    (cleanUpJob job).Tracks cleanupMemory (fun _ _ => True) (some (job, [])) := by
  unfold cleanUpJob
  apply (deleteAssets_tracks job.assetKeys job []).bind
  rintro assetErrors later ⟨deleted, rfl, -, hall⟩
  apply tracks_sparing (uses_query.mpr trivial)
  intro leases
  apply tracks_sparing
  · apply Uses.mapEach
    intro id
    apply attempt_uses
    exact (revokeDeletedAccountLease_uses sparesJobs_outside id).bind fun _ => uses_perform.mpr trivial
  intro leaseErrors
  apply tracks_sparing (uses_query.mpr trivial)
  intro connections
  apply tracks_sparing
  · apply Uses.mapEach
    intro id
    apply attempt_uses
    exact (revokeDeletedAccountConnection_uses sparesJobs_outside id).bind
      fun _ => uses_perform.mpr trivial
  intro connectionErrors
  unfold throwIf
  split_ifs with herrors
  · trivial
  have hnone : assetErrors.filterMap id = [] := by
    simp only [List.filterMap_append, ne_eq, not_not, List.append_eq_nil_iff] at herrors
    exact herrors.1.1
  apply tracks_sparing (p := publishWebhookEvent _ _ _ _)
    (publishWebhookEvent_uses trivial trivial (fun _ => trivial) (fun _ => trivial) _ _ _ _)
  intro published
  refine ⟨⟨deleted, rfl, hall hnone⟩, ?_⟩
  intro w
  dsimp only
  split <;> trivial

theorem cleanUpOrRetry_tracks (job : CleanupJob) :
    (cleanUpOrRetry job).Tracks cleanupMemory (fun _ _ => True) (some (job, [])) := by
  apply Tracks.tryCatch
  · exact (cleanUpJob_tracks job).bind fun _ _ _ => trivial
  · intro cause phase
    apply tracks_sparing (uses_currentTime.mpr trivial)
    intro now
    refine ⟨trivial, ?_⟩
    intro w
    dsimp only
    split <;> trivial

omit [Platform] in
theorem tracks_claim {post : β → Option (CleanupJob × List String) → Prop} {now : Time}
    {claimId : String} {next : Option CleanupJob → Request β}
    (hnone : (next none).Tracks cleanupMemory post none)
    (hsome : ∀ job, (next (some job)).Tracks cleanupMemory post (some (job, []))) :
    (executeCleanup (.claim now claimId) >>= next).Tracks cleanupMemory post phase := by
  refine ⟨trivial, ?_⟩
  intro w
  have hadvance : cleanupMemory.advance phase (.cleanup (.claim now claimId)) w =
      match Database.claimCleanup now claimId w.db with
      | .ok (some job, _) => some (job, [])
      | _ => none := rfl
  rw [hadvance]
  cases hclaim : (CleanupCommand.claim now claimId).statement w.db with
  | error e =>
    dsimp only
    rw [hclaim]
    trivial
  | ok result =>
    obtain ⟨answer, db⟩ := result
    have hclaimed : Database.claimCleanup now claimId w.db = .ok (answer, db) := hclaim
    rw [hclaimed]
    dsimp only
    rw [hclaim]
    cases answer with
    | none => exact hnone
    | some job => exact hsome job

theorem cleanUpJobs_tracks (count : ℕ) :
    (cleanUpJobs count).Tracks cleanupMemory (fun _ _ => True) phase := by
  induction count generalizing phase with
  | zero => trivial
  | succ count ih =>
    apply tracks_sparing (uses_currentTime.mpr trivial)
    intro now
    apply tracks_sparing (uses_generateId.mpr trivial)
    intro claimId
    apply tracks_claim
    · trivial
    · intro job
      apply (cleanUpOrRetry_tracks job).bind
      intro failure later _
      apply ih.bind
      intro failures later' _
      trivial

/-- Every call tracks what it has done. -/
theorem cleanupCall_tracks (call : CleanupCall) :
    (cleanupSystem.program call).Tracks cleanupMemory (fun _ _ => True) none := by
  cases call with
  | enqueue userId key =>
    refine ⟨trivial, ?_⟩
    intro w
    dsimp only
    split <;> trivial
  | erase userId =>
    have huses : (deleteAccount userId).Uses fun command =>
        command = .read ∨ ∃ now, command = .membership (.eraseAccount userId now) :=
      deleteAccount_uses (Or.inl rfl) userId fun now => Or.inr ⟨now, rfl⟩
    refine (huses.tracks ?_ ?_).mono fun _ _ _ => trivial
    · rintro command (rfl | ⟨now, rfl⟩)
      · trivial
      · trivial
    · rintro command (rfl | ⟨now, rfl⟩) w
      · rfl
      · rfl
  | process =>
    apply (cleanUpJobs_tracks 10).bind
    intro failures phase _
    unfold throwIf
    split_ifs <;> trivial

end Tracks

end Realmroot
