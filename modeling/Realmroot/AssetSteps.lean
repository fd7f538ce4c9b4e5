import Realmroot.CleanupRuns
import Realmroot.Ownership
import Realmroot.Usecases.Assets

/-!
# Steps on assets

Assets are uploaded and read while accounts are erased and workers clean up after them. What a
program holds follows from its commands, and says what its next command does: to the table of
assets, to the jobs, and to the store.
-/

namespace Realmroot

open AtomicProgram Program Pool
open Database (CleanupJob)

/-! ## The system -/

inductive AssetCall where
  | upload (input : UploadInput)
  | download (assetId : String)
  | erase (userId : String)
  /-- A worker. -/
  | cleanUp

inductive AssetAnswer where
  | uploaded (asset : AssetRecord)
  | served (asset : AssetRecord) (object : StoredObject)
  | done

inductive AssetEvent where
  | elapse (milliseconds : ℕ)
  /-- Another request generates an identifier. -/
  | generate
  | signUp (user : User)
  /-- Other tables change in any way, and so does what users are besides deleted. -/
  | configure (db : Database) (edit : User → User)

/-- The tables that `configure` keeps. -/
def keepAssets (edit : User → User) (kept db : Database) : Database :=
  { db with
    users := kept.users.map fun user =>
      { edit user with id := user.id, deletedAt := user.deletedAt }
    uploadedAssets := kept.uploadedAssets
    accountDeletionCleanups := kept.accountDeletionCleanups }

/-- A user with a new identifier signs up. -/
def Database.signUp (user : User) (db : Database) : Database :=
  if db.users.any fun old => old.id = user.id then db
  else { db with users := db.users ++ [{ user with deletedAt := none }] }

section System

variable [Platform] (digest : List UInt8 → List UInt8)

def AssetCall.program : AssetCall → AssetRequest AssetAnswer
  | upload input => (uploadAsset digest input).bind fun asset => .pure (.uploaded asset)
  | download assetId => (getAssetObject assetId).bind fun found => .pure (.served found.1 found.2)
  | erase userId => (onWorld (deleteAccount userId)).bind fun _ => .pure .done
  | cleanUp => (onWorld processAccountDeletionCleanup).bind fun _ => .pure .done

def assetSystem :
    System AssetCommand AssetWorld Reply Error AssetAnswer AssetCall AssetEvent where
  program := AssetCall.program digest
  environment
    | .elapse milliseconds, w =>
      { w with world := { w.world with clock := w.world.clock + milliseconds } }
    | .generate, w => { w with world := { w.world with nextId := w.world.nextId + 1 } }
    | .signUp user, w => { w with world := { w.world with db := w.world.db.signUp user } }
    | .configure db edit, w =>
      { w with world := { w.world with db := keepAssets edit w.world.db db } }

end System

abbrev AssetAction := Action Reply AssetCall AssetEvent

/-! ## What programs hold -/

/-- An identifier that is generated and not used, and the job that is claimed. -/
structure ClaimPhase where
  id : Option ℕ := none
  job : Option CleanupJob := none

/-- What a program holds, and what it has read of an asset. -/
structure AssetPhase where
  worker : Option (CleanupJob × List String) := none
  claims : ClaimPhase := {}
  /-- The object that is stored and has no row. -/
  put : Option StoredObject := none
  found : Option AssetRecord := none
  served : Option (AssetRecord × StoredObject) := none

/-- What a program on the world alone holds. -/
def heldOnWorld (held : Option (CleanupJob × List String) × ClaimPhase) : AssetPhase :=
  { worker := held.1, claims := held.2 }

section Memory

variable [Platform] (digest : List UInt8 → List UInt8)

/-- A worker claims a job under a new name, and deletes what belongs to the job. -/
def claimMemory : Memory Command World ClaimPhase where
  advance held command w :=
    match command with
    | .generateId => { held with id := some w.nextId }
    | .cleanup (.claim now claimId) =>
      { id := none
        job :=
          match Database.claimCleanup now claimId w.db with
          | .ok (some job, _) => some job
          | _ => none }
    | _ => held
  issues held command :=
    match command with
    | .cleanup (.claim _ claimId) => ∃ n, held.id = some n ∧ claimId = Platform.generateId n
    | .cleanup (.enqueueAsset ..) => False
    | .deleteAsset key => ∃ job, held.job = some job ∧ key ∈ job.assetKeys
    | _ => True

/-- The object is what the row says it is. -/
structure Genuine (details : AssetDetails) (object : StoredObject) : Prop where
  size : details.byteSize = object.bytes.length
  contentType : sniffContentType object.bytes = some details.contentType
  checksum : ∀ checksum, details.checksumSha256 = some checksum →
    checksum = sha256HexOf digest object.bytes

/-- The storage key of an asset with the identifier of a number. -/
def KeyOf (n : ℕ) (key : String) : Prop :=
  ∃ purpose bytes name,
    key = storageKeyOf purpose (sha256HexOf digest bytes) (Platform.generateId n) name

/-- What a program still keeps after a command on the world. -/
def keepPut (put : Option StoredObject) (command : Command) (w : World) : Option StoredObject :=
  match command with
  | .deleteAsset key => put.filter fun object => object.key ≠ key
  | .cleanup (.enqueueAsset userId key) =>
    match Database.enqueueAssetCleanup userId key w.db with
    | .ok (true, _) => put.filter fun object => object.key ≠ key
    | _ => put
  | _ => put

def assetMemory : Memory AssetCommand AssetWorld AssetPhase where
  advance held command w :=
    match command with
    | .base command =>
      { held with
        worker := cleanupMemory.advance held.worker command w.world
        claims := claimMemory.advance held.claims command w.world
        put := keepPut held.put command w.world }
    | .put object => { held with claims := { held.claims with id := none }, put := some object }
    | .createAsset asset =>
      { held with
        put := if (Database.insertAsset asset.row).refuses w.world.db then held.put else none }
    | .findAsset id => { held with found := w.findAsset id }
    | .getObject key =>
      { held with
        served := held.found.bind fun asset => (w.getObject key).map fun object => (asset, object) }
  issues held command :=
    match command with
    | .base (.deleteAsset key) =>
      (held.worker = none ∧ ∃ object, held.put = some object ∧ object.key = key) ∨
        (held.put = none ∧ ∃ job, held.claims.job = some job ∧ key ∈ job.assetKeys)
    | .base (.cleanup (.enqueueAsset _ key)) => ∃ object, held.put = some object ∧ object.key = key
    | .base command =>
      cleanupMemory.issues held.worker command ∧ claimMemory.issues held.claims command
    | .put object =>
      held.put = none ∧ (∃ n, held.claims.id = some n ∧ KeyOf digest n object.key) ∧
        sniffContentType object.bytes = some object.contentType
    | .createAsset asset =>
      ∃ object, held.put = some object ∧ object.key = asset.storageKey ∧
        Genuine digest asset.details object
    | .findAsset _ => True
    | .getObject key => ∃ asset, held.found = some asset ∧ key = asset.storageKey

end Memory

/-! ## Workers and erasures -/

/-- The commands that a worker executes for a job. -/
def Command.ServesJob (job : CleanupJob) : Command → Prop
  | .read => True
  | .generateId => True
  | .send _ => True
  | .webhook _ => True
  | .deleteAsset key => key ∈ job.assetKeys
  | .cleanup (.finish _) => True
  | .cleanup (.retry ..) => True
  | .cleanup (.clearConnection _) => True
  | .cleanup (.clearLease _) => True
  | _ => False

section Workers

variable [Platform] {job : CleanupJob}

omit [Platform] in
theorem servesJob_outside (command : Command) (h : command.Outside) : command.ServesJob job := by
  cases command with
  | read => trivial
  | generateId => trivial
  | send request => trivial
  | _ => exact h.elim

theorem cleanUpOrRetry_servesJob (job : CleanupJob) :
    (cleanUpOrRetry job).Uses (Command.ServesJob job) := by
  apply Uses.tryCatch
  · refine Uses.bind ?_ fun done => trivial
    unfold cleanUpJob
    apply uses_bind
    · apply Uses.mapEach_mem
      intro key hkey
      apply attempt_uses
      intro reply
      dsimp only
      split_ifs
      · exact ⟨hkey, fun _ => trivial⟩
      · trivial
    intro assetErrors
    apply uses_bind (uses_query.mpr trivial)
    intro leases
    apply uses_bind
    · apply Uses.mapEach
      intro id
      apply attempt_uses
      exact (revokeDeletedAccountLease_uses servesJob_outside id).bind
        fun _ => uses_perform.mpr trivial
    intro leaseErrors
    apply uses_bind (uses_query.mpr trivial)
    intro connections
    apply uses_bind
    · apply Uses.mapEach
      intro id
      apply attempt_uses
      exact (revokeDeletedAccountConnection_uses servesJob_outside id).bind
        fun _ => uses_perform.mpr trivial
    intro connectionErrors
    apply uses_bind uses_throwIf
    intro _
    apply uses_bind (publishWebhookEvent_uses trivial trivial (fun _ => trivial)
      (fun _ => trivial) _ _ _ _)
    intro published
    exact uses_perform.mpr trivial
  · intro cause
    apply uses_bind (uses_currentTime.mpr trivial)
    intro now
    exact uses_bind (uses_perform.mpr trivial) fun _ => trivial

theorem servesJob_holds {held : ClaimPhase} (hjob : held.job = some job) :
    (cleanUpOrRetry job).Holds claimMemory (fun _ _ => True) (fun _ _ => True) held := by
  have hholds : (cleanUpOrRetry job).Holds claimMemory (fun _ held => held.job = some job)
      (fun _ held => held.job = some job) held := by
    apply (cleanUpOrRetry_servesJob job).holds (J := fun held : ClaimPhase => held.job = some job)
      ?_ ?_ hjob
    · intro command held hcommand hjob
      cases command with
      | deleteAsset key => exact ⟨job, hjob, hcommand⟩
      | cleanup command =>
        cases command with
        | claim now claimId => exact hcommand.elim
        | enqueueAsset userId key => exact hcommand.elim
        | _ => trivial
      | _ => trivial
    · intro command held w hcommand hjob
      cases command with
      | cleanup command =>
        cases command with
        | claim now claimId => exact hcommand.elim
        | _ => exact hjob
      | _ => exact hjob
  exact hholds.mono (fun _ _ _ => trivial) fun _ _ _ => trivial

/-- What follows a claim knows the job. -/
theorem claim_holds {β : Type} {now : Time} {claimId : String} {n : ℕ}
    {next : Option CleanupJob → Request β} {returned : β → ClaimPhase → Prop} {held : ClaimPhase}
    (hid : held.id = some n) (hclaimId : claimId = Platform.generateId n)
    (hnext : ∀ answer, (next answer).Holds claimMemory returned (fun _ _ => True)
      { id := none, job := answer }) :
    (executeCleanup (.claim now claimId) >>= next).Holds claimMemory returned (fun _ _ => True)
      held := by
  refine ⟨⟨n, hid, hclaimId⟩, ?_⟩
  intro w
  have hadvance : claimMemory.advance held (.cleanup (.claim now claimId)) w =
      { id := none
        job :=
          match Database.claimCleanup now claimId w.db with
          | .ok (some job, _) => some job
          | _ => none } := rfl
  rw [hadvance]
  cases hclaim : (CleanupCommand.claim now claimId).statement w.db with
  | error e =>
    dsimp only
    rw [hclaim]
    trivial
  | ok result =>
    obtain ⟨answer, db⟩ := result
    have hclaimed : Database.claimCleanup now claimId w.db = .ok (answer, db) := hclaim
    rw [hclaimed]
    dsimp only
    rw [hclaim]
    cases answer with
    | none => exact hnext none
    | some job => exact hnext (some job)

/-- A worker claims every job under a new name, and deletes only what belongs to the job that it
has claimed last. -/
theorem cleanUpJobs_holds (count : ℕ) (held : ClaimPhase) :
    (cleanUpJobs count).Holds claimMemory (fun _ _ => True) (fun _ _ => True) held := by
  induction count generalizing held with
  | zero => trivial
  | succ count ih =>
    refine ⟨trivial, fun w => ⟨trivial, fun w' => ?_⟩⟩
    apply claim_holds rfl rfl
    intro answer
    cases answer with
    | none => trivial
    | some job =>
      apply (servesJob_holds rfl).bind
      intro failure held _
      apply (ih held).bind
      intro failures held _
      trivial

/-- A program on the world alone keeps no object. -/
theorem onWorld_holds {α : Type} (digest : List UInt8 → List UInt8) {p : Request α}
    {returned : α → ClaimPhase → Prop} {thrown : Error → ClaimPhase → Prop}
    (hworker : p.Tracks cleanupMemory (fun _ _ => True) none)
    (hclaims : p.Holds claimMemory returned thrown {}) :
    (onWorld p).Holds (assetMemory digest) (fun _ held => held.put = none)
      (fun _ held => held.put = none) {} := by
  have hboth := hworker.holds.prod hclaims
  refine Holds.lift (g := heldOnWorld) hboth ?_ ?_ (fun _ _ _ => rfl) fun _ _ _ => rfl
  · intro held command hissues
    cases command with
    | deleteAsset key => exact Or.inr ⟨rfl, hissues.2⟩
    | cleanup command =>
      cases command with
      | enqueueAsset userId key => exact hissues.2.elim
      | _ => exact hissues
    | _ => exact hissues
  · intro held command w
    have hput : keepPut none command w.world = none := by
      unfold keepPut
      split
      · rfl
      · split <;> rfl
      · rfl
    change ({ worker := _, claims := _, put := keepPut none command w.world } : AssetPhase) = _
    rw [hput]
    rfl

end Workers

/-! ## Uploads and downloads -/

section Uploads

variable [Platform] (digest : List UInt8 → List UInt8)

/-- What is thrown when the object of an upload stays without a row. -/
def Abandoned (error : Error) : Prop :=
  error = .internal "Asset persistence and cleanup failed." ∨
    error = .constraint "account_last_owner"

omit [Platform] in
theorem enqueueAssetCleanup_error {userId key : String} {db : Database} {e : Error}
    (h : Database.enqueueAssetCleanup userId key db = .error e) :
    e = .constraint "account_last_owner" := by
  unfold Database.enqueueAssetCleanup at h
  split_ifs at h
  exact (Except.error.inj h).symm

/-- An upload that is abandoned gives its object away, or says that it does not. -/
theorem abandonUpload_holds {actorUserId : Option String} {object : StoredObject}
    {held : AssetPhase} (hput : held.put = some object) (hworker : held.worker = none) :
    (abandonUpload actorUserId object.key).Holds (assetMemory digest)
      (fun _ held => held.put = none) (fun e held => held.put = none ∨ Abandoned e) held := by
  have hdelete : (onWorld (deleteStoredAsset object.key)).Holds (assetMemory digest)
      (fun _ held => held.put = none) (fun _ later => later = held) held := by
    intro reply
    change Holds _ _ _ held (Program.lift _ _ (if reply.ok then _ else _))
    split_ifs
    · refine ⟨Or.inl ⟨hworker, object, hput, rfl⟩, ?_⟩
      intro w
      change Option.filter _ held.put = none
      rw [hput]
      simp
    · rfl
  apply hdelete.tryCatch
  rintro e later rfl
  cases truthy actorUserId with
  | none => exact Or.inr (Or.inl rfl)
  | some userId =>
    refine ⟨⟨object, hput, rfl⟩, ?_⟩
    intro w
    have hstill : ((assetMemory digest).advance later
        (.base (.cleanup (.enqueueAsset userId object.key))) w).put =
          keepPut (some object) (.cleanup (.enqueueAsset userId object.key)) w.world := by
      rw [← hput]
      rfl
    generalize (assetMemory digest).advance later _ w = held' at hstill ⊢
    unfold keepPut at hstill
    dsimp only at hstill ⊢
    cases hok : (CleanupCommand.enqueueAsset userId object.key).statement w.world.db with
    | error e =>
      exact Or.inr (Or.inr (enqueueAssetCleanup_error hok))
    | ok result =>
      obtain ⟨enqueued, db⟩ := result
      have henqueued : Database.enqueueAssetCleanup userId object.key w.world.db =
        .ok (enqueued, db) := hok
      rw [henqueued] at hstill
      cases enqueued with
      | false => exact Or.inr (Or.inl rfl)
      | true =>
        change held'.put = none
        rw [hstill]
        simp

omit [Platform] in
theorem validateUpload_ok {purpose : AssetPurpose} {file : UploadFile} {bytes : List UInt8}
    {contentType : String} (h : validateUpload purpose file = .ok (bytes, contentType)) :
    bytes = file.bytes ∧ sniffContentType file.bytes = some contentType := by
  unfold validateUpload at h
  dsimp only at h
  split_ifs at h
  split at h
  · cases h
  · rename_i sniffed hsniffed
    split_ifs at h
    cases h
    exact ⟨rfl, hsniffed⟩

theorem createAsset_holds {asset : AssetRecord} {object : StoredObject} {held : AssetPhase}
    (hput : held.put = some object) (hkey : object.key = asset.storageKey)
    (hgenuine : Genuine digest asset.details object) (hworker : held.worker = none) :
    (createAsset asset).Holds (assetMemory digest) (fun _ held => held.put = none)
      (fun _ held => held.put = some object ∧ held.worker = none) held := by
  refine ⟨⟨object, hput, hkey, hgenuine⟩, ?_⟩
  intro w
  have hstill : ((assetMemory digest).advance held (.createAsset asset) w).put =
      if (Database.insertAsset asset.row).refuses w.world.db then held.put else none := rfl
  have hsame : ((assetMemory digest).advance held (.createAsset asset) w).worker = none := hworker
  generalize (assetMemory digest).advance held _ w = held' at hstill hsame ⊢
  unfold Statement.refuses at hstill
  dsimp only
  cases hok : Database.insertAsset asset.row w.world.db with
  | error e =>
    rw [hok] at hstill
    exact ⟨hstill.trans hput, hsame⟩
  | ok result =>
    rw [hok] at hstill
    exact hstill

/-- An upload that returns has a row, and one that throws has no object or says so. -/
theorem uploadAsset_holds (input : UploadInput) :
    (uploadAsset digest input).Holds (assetMemory digest) (fun _ held => held.put = none)
      (fun e held => held.put = none ∨ Abandoned e) {} := by
  unfold uploadAsset
  cases hvalid : validateUpload input.purpose input.file with
  | error e => exact Or.inl rfl
  | ok validated =>
    obtain ⟨bytes, contentType⟩ := validated
    obtain ⟨rfl, hsniffed⟩ := validateUpload_ok hvalid
    refine ⟨⟨trivial, trivial⟩, ?_⟩
    intro w reply
    change Holds _ _ _ _ (Program.bind (if reply.ok then _ else _) _)
    split_ifs
    · refine ⟨⟨rfl, ⟨w.world.nextId, rfl, _, _, _, rfl⟩, hsniffed⟩, ?_⟩
      intro w'
      let object : StoredObject :=
        { key := storageKeyOf input.purpose (sha256HexOf digest input.file.bytes)
            (Platform.generateId w.world.nextId) input.file.name
          bytes := input.file.bytes, contentType := contentType }
      have hregister : ∀ held : AssetPhase, held.put = some object → held.worker = none →
          Holds (assetMemory digest) (fun _ held => held.put = none)
            (fun _ held => held.put = some object ∧ held.worker = none) held
            (do
              let now ← onWorld currentTime
              let asset := uploadedRecord digest input (Platform.generateId w.world.nextId)
                contentType now
              createAsset asset
              .pure asset : AssetRequest AssetRecord) := by
        intro held hput hworker
        refine ⟨⟨trivial, trivial⟩, ?_⟩
        intro w''
        let asset := uploadedRecord digest input (Platform.generateId w.world.nextId) contentType
          w''.world.clock
        have hgenuine : Genuine digest asset.details object :=
          ⟨rfl, hsniffed, fun checksum h => (Option.some.inj h).symm⟩
        have hcreate := createAsset_holds digest hput rfl hgenuine hworker
        exact hcreate.bind fun _ _ hput => hput
      apply (hregister _ rfl rfl).tryCatch
      rintro e held ⟨hput, hworker⟩
      apply (abandonUpload_holds digest hput hworker).bind
      exact fun _ _ hput => Or.inl hput
    · exact Or.inl rfl

theorem getStoredObject_holds {asset : AssetRecord} {held : AssetPhase} (hput : held.put = none)
    (hfound : held.found = some asset) :
    (getStoredObject asset.storageKey).Holds (assetMemory digest)
      (fun stored held => held.put = none ∧
        held.served = stored.map fun object => (asset, object))
      (fun _ held => held.put = none) held := by
  intro reply
  dsimp only
  split_ifs
  · refine ⟨⟨asset, hfound, rfl⟩, ?_⟩
    intro w
    have hserved : ((assetMemory digest).advance held (.getObject asset.storageKey) w).served =
        held.found.bind fun asset' =>
          (w.getObject asset.storageKey).map fun object => (asset', object) := rfl
    rw [hfound] at hserved
    exact ⟨hput, hserved⟩
  · exact hput

/-- A download serves what it has read. -/
theorem getAssetObject_holds (assetId : String) :
    (getAssetObject assetId).Holds (assetMemory digest)
      (fun answer held => held.put = none ∧ held.served = some answer)
      (fun _ held => held.put = none) {} := by
  have hfind : (.call (.findAsset assetId) fun w => .pure (w.findAsset assetId) :
      AssetRequest (Option AssetRecord)).Holds (assetMemory digest)
        (fun found held => held.put = none ∧ held.found = found) (fun _ held => held.put = none)
          {} := ⟨trivial, fun w => ⟨rfl, rfl⟩⟩
  apply hfind.bind
  rintro found held ⟨hput, hfound⟩
  cases found with
  | none => exact hput
  | some asset =>
    apply (getStoredObject_holds digest hput hfound).bind
    rintro stored later ⟨hstill, hserved⟩
    cases stored with
    | none => exact hstill
    | some object => exact ⟨hstill, hserved⟩

/-- What a call holds when it returns. -/
def Answered (answer : AssetAnswer) (held : AssetPhase) : Prop :=
  held.put = none ∧ ∀ asset object, answer = .served asset object →
    held.served = some (asset, object)

theorem assetCall_holds (call : AssetCall) :
    ((assetSystem digest).program call).Holds (assetMemory digest) Answered
      (fun e held => held.put = none ∨ Abandoned e) {} := by
  cases call with
  | upload input =>
    apply (uploadAsset_holds digest input).bind
    exact fun asset held hput => ⟨hput, nofun⟩
  | download assetId =>
    have hholds : (getAssetObject assetId).Holds (assetMemory digest)
        (fun answer held => held.put = none ∧ held.served = some answer)
        (fun e held => held.put = none ∨ Abandoned e) {} :=
      (getAssetObject_holds digest assetId).mono (fun _ _ h => h) fun _ _ hput => Or.inl hput
    apply hholds.bind
    rintro ⟨asset, object⟩ held ⟨hput, hserved⟩
    refine ⟨hput, ?_⟩
    rintro asset' object' h
    cases h
    exact hserved
  | erase userId =>
    have huses : (deleteAccount userId).Uses fun command =>
        command = .read ∨ ∃ now, command = .membership (.eraseAccount userId now) :=
      deleteAccount_uses (Or.inl rfl) userId fun now => Or.inr ⟨now, rfl⟩
    have hclaims : (deleteAccount userId).Holds claimMemory (fun _ _ => True) (fun _ _ => True)
        {} := by
      apply huses.holds (J := fun _ => True) ?_ (fun _ _ _ _ _ => trivial) trivial
      rintro command held (rfl | ⟨now, rfl⟩) _
      · trivial
      · trivial
    have hholds := onWorld_holds digest (cleanupCall_tracks (.erase userId)) hclaims
    exact (hholds.mono (fun _ _ h => h) fun _ _ hput => Or.inl hput).bind
      fun _ _ hput => ⟨hput, nofun⟩
  | cleanUp =>
    have hclaims : processAccountDeletionCleanup.Holds claimMemory (fun _ _ => True)
        (fun _ _ => True) {} := by
      apply (cleanUpJobs_holds 10 {}).bind
      intro failures held _
      unfold throwIf
      split_ifs <;> trivial
    have hholds := onWorld_holds digest (cleanupCall_tracks .process) hclaims
    exact (hholds.mono (fun _ _ h => h) fun _ _ hput => Or.inl hput).bind
      fun _ _ hput => ⟨hput, nofun⟩

end Uploads

/-! ## Steps -/

namespace AssetWorld

def withDb (w : AssetWorld) (db : Database) : AssetWorld :=
  { w with world := { w.world with db := db } }

/-- What the table of assets, the jobs and the store have to do with is unchanged. -/
structure SameTables (w w' : AssetWorld) : Prop where
  assets : w'.world.db.uploadedAssets = w.world.db.uploadedAssets
  jobs : w'.world.db.accountDeletionCleanups = w.world.db.accountDeletionCleanups
  users : w'.world.db.users = w.world.db.users
  details : w'.details = w.details
  objects : w'.objects = w.objects

end AssetWorld

section Steps

variable [Platform] (digest : List UInt8 → List UInt8)

/-- What one command makes of what its program holds and of the world. -/
inductive AssetStep (held : AssetPhase) (w : AssetWorld) : AssetPhase → AssetWorld → Prop
  | idle (held' : AssetPhase) (w' : AssetWorld) (same : w.SameTables w')
    (next : w.world.nextId ≤ w'.world.nextId) (worker : held'.worker = held.worker)
    (job : held'.claims.job = held.claims.job) (put : held'.put = held.put)
    (id : ∀ n, held'.claims.id = some n →
      held.claims.id = some n ∨ (n = w.world.nextId ∧ n < w'.world.nextId))
    (found : ∀ asset, held'.found = some asset → held.found = some asset ∨
      ∃ row, ∃ details ∈ w.details, details.storageKey = row.storageKey ∧
        asset = toAssetRecord row details)
    (served : ∀ asset object, held'.served = some (asset, object) →
      held.served = some (asset, object) ∨
        (held.found = some asset ∧ object ∈ w.objects ∧ object.key = asset.storageKey)) :
    AssetStep held w held' w'
  | put (object : StoredObject) (n : ℕ) (put : held.put = none) (id : held.claims.id = some n)
    (key : KeyOf digest n object.key)
    (content : sniffContentType object.bytes = some object.contentType) :
    AssetStep held w { held with claims := { held.claims with id := none }, put := some object }
      (w.putObject object)
  | register (asset : AssetRecord) (object : StoredObject) (put : held.put = some object)
    (key : object.key = asset.storageKey) (genuine : Genuine digest asset.details object)
    (accepted : (Database.insertAsset asset.row).refuses w.world.db = false) :
    AssetStep held w { held with put := none }
      { w.withDb { w.world.db with uploadedAssets := w.world.db.uploadedAssets ++ [asset.row] } with
        details := w.details ++ [asset.details] }
  | discard (object : StoredObject) (put : held.put = some object) (worker : held.worker = none) :
    AssetStep held w { held with put := none } (w.deleteObject object.key)
  | delete (key : String) (job : CleanupJob) (deleted : List String) (put : held.put = none)
    (worker : held.worker = some (job, deleted)) (mem : key ∈ job.assetKeys) :
    AssetStep held w { held with worker := some (job, key :: deleted) } (w.deleteObject key)
  | handOver (userId : String) (object : StoredObject) (put : held.put = some object)
    (db : Database)
    (accepted : Database.enqueueAssetCleanup userId object.key w.world.db = .ok (true, db)) :
    AssetStep held w { held with put := none } (w.withDb db)
  | claim (now : Time) (n : ℕ) (job : CleanupJob) (db : Database) (id : held.claims.id = some n)
    (claimed : Database.claimCleanup now (Platform.generateId n) w.world.db = .ok (some job, db)) :
    AssetStep held w
      { held with worker := some (job, []), claims := { id := none, job := some job } } (w.withDb db)
  | unclaimed :
    AssetStep held w { held with worker := none, claims := {} } w
  | finish (job : CleanupJob) (deleted : List String) (worker : held.worker = some (job, deleted))
    (done : ∀ key ∈ job.assetKeys, key ∈ deleted) :
    AssetStep held w held (w.withDb { w.world.db with
      accountDeletionCleanups :=
        w.world.db.accountDeletionCleanups.filter fun row => !Database.holds job row })
  | retry (job : CleanupJob) (now : Time) :
    AssetStep held w held (w.withDb ((CleanupCommand.retry job now).after w.world.db))
  | erase (userId : String) (now : Time) (db : Database)
    (erased : Database.eraseAccount userId now w.world.db = .ok ((), db)) :
    AssetStep held w held (w.withDb db)

variable {digest} {held : AssetPhase} {w : AssetWorld}

omit [Platform] in
theorem sameTables_of_sparesJobs {command : Command} (h : command.SparesJobs) (w : AssetWorld) :
    w.SameTables (exec (.base command : AssetCommand) w) ∧
      w.world.nextId ≤ (exec (.base command : AssetCommand) w).world.nextId := by
  cases command with
  | read => exact ⟨⟨rfl, rfl, rfl, rfl, rfl⟩, le_rfl⟩
  | generateId => exact ⟨⟨rfl, rfl, rfl, rfl, rfl⟩, Nat.le_succ _⟩
  | send request => exact ⟨⟨rfl, rfl, rfl, rfl, rfl⟩, le_rfl⟩
  | webhook command =>
    obtain ⟨_, _, _, hafter⟩ := command.after_eq w.world.db
    have hdb : (exec (.base (.webhook command) : AssetCommand) w).world.db =
        command.after w.world.db := rfl
    rw [hafter] at hdb
    refine ⟨⟨?_, ?_, ?_, rfl, rfl⟩, le_rfl⟩ <;> rw [hdb]
  | cleanup command =>
    cases command with
    | clearConnection id => exact ⟨⟨rfl, rfl, rfl, rfl, rfl⟩, le_rfl⟩
    | clearLease id => exact ⟨⟨rfl, rfl, rfl, rfl, rfl⟩, le_rfl⟩
    | _ => exact h.elim
  | _ => exact h.elim

/-- The names that a program holds after a command that has nothing to do with jobs. -/
theorem claims_of_sparesJobs {command : Command} (h : command.SparesJobs) (claims : ClaimPhase)
    (w : World) :
    (claimMemory.advance claims command w).job = claims.job ∧
      ∀ n, (claimMemory.advance claims command w).id = some n →
        claims.id = some n ∨ (n = w.nextId ∧ n < (exec command w).nextId) := by
  cases command with
  | generateId =>
    refine ⟨rfl, ?_⟩
    intro n hn
    obtain rfl : w.nextId = n := Option.some.inj hn
    exact Or.inr ⟨rfl, Nat.lt_succ_self _⟩
  | read => exact ⟨rfl, fun n hn => Or.inl hn⟩
  | send request => exact ⟨rfl, fun n hn => Or.inl hn⟩
  | webhook command => exact ⟨rfl, fun n hn => Or.inl hn⟩
  | cleanup command =>
    cases command with
    | clearConnection id => exact ⟨rfl, fun n hn => Or.inl hn⟩
    | clearLease id => exact ⟨rfl, fun n hn => Or.inl hn⟩
    | _ => exact h.elim
  | _ => exact h.elim

theorem step_of_sparesJobs {command : Command} (h : command.SparesJobs) :
    AssetStep digest held w ((assetMemory digest).advance held (.base command) w)
      (exec (.base command : AssetCommand) w) := by
  obtain ⟨hsame, hnext⟩ := sameTables_of_sparesJobs h w
  obtain ⟨hjob, hid⟩ := claims_of_sparesJobs h held.claims w.world
  have hput : keepPut held.put command w.world = held.put := by
    cases command with
    | cleanup command =>
      cases command with
      | enqueueAsset userId key => exact h.elim
      | _ => rfl
    | deleteAsset key => exact h.elim
    | _ => rfl
  have hworld : (exec (.base command : AssetCommand) w).world = exec command w.world := by
    cases command with
    | deleteAsset key => exact h.elim
    | _ => rfl
  refine .idle _ _ hsame hnext (sparesJobs_stays h w.world) hjob hput ?_
    (fun _ => Or.inl) (fun _ _ => Or.inl)
  rw [hworld]
  exact hid

theorem step_enqueue {userId key : String}
    (h : ∃ object, held.put = some object ∧ object.key = key) :
    AssetStep digest held w
      ((assetMemory digest).advance held (.base (.cleanup (.enqueueAsset userId key))) w)
      (exec (.base (.cleanup (.enqueueAsset userId key)) : AssetCommand) w) := by
  obtain ⟨object, hput, rfl⟩ := h
  have hheld : (assetMemory digest).advance held
      (.base (.cleanup (.enqueueAsset userId object.key))) w =
        { held with put := keepPut held.put (.cleanup (.enqueueAsset userId object.key)) w.world } :=
    rfl
  have hworld : exec (.base (.cleanup (.enqueueAsset userId object.key)) : AssetCommand) w =
      w.withDb ((Database.enqueueAssetCleanup userId object.key).after w.world.db) := rfl
  rw [hheld, hworld]
  unfold keepPut
  dsimp only
  cases hok : Database.enqueueAssetCleanup userId object.key w.world.db with
  | error e =>
    rw [Statement.after_of_error hok]
    exact .idle _ _ ⟨rfl, rfl, rfl, rfl, rfl⟩ le_rfl rfl rfl rfl (fun _ => Or.inl) (fun _ => Or.inl)
      fun _ _ => Or.inl
  | ok result =>
    obtain ⟨enqueued, db⟩ := result
    rw [Statement.after_of_ok hok]
    cases enqueued with
    | false =>
      have hdb : db = w.world.db := by
        unfold Database.enqueueAssetCleanup at hok
        split_ifs at hok <;> cases hok
        rfl
      rw [hdb]
      exact .idle _ _ ⟨rfl, rfl, rfl, rfl, rfl⟩ le_rfl rfl rfl rfl (fun _ => Or.inl)
        (fun _ => Or.inl) fun _ _ => Or.inl
    | true =>
      have hnone : held.put.filter (fun other => other.key ≠ object.key) = none := by
        rw [hput]
        simp
      dsimp only
      rw [hnone]
      exact .handOver userId object hput db hok

theorem step_claim {now : Time} {claimId : String}
    (h : ∃ n, held.claims.id = some n ∧ claimId = Platform.generateId n) :
    AssetStep digest held w
      ((assetMemory digest).advance held (.base (.cleanup (.claim now claimId))) w)
      (exec (.base (.cleanup (.claim now claimId)) : AssetCommand) w) := by
  obtain ⟨n, hid, rfl⟩ := h
  have hworld : exec (.base (.cleanup (.claim now (Platform.generateId n))) : AssetCommand) w =
      w.withDb ((Database.claimCleanup now (Platform.generateId n)).after w.world.db) := rfl
  cases hok : Database.claimCleanup now (Platform.generateId n) w.world.db with
  | error e =>
    unfold Database.claimCleanup at hok
    split at hok <;> cases hok
  | ok result =>
    obtain ⟨answer, db⟩ := result
    have hheld : (assetMemory digest).advance held
        (.base (.cleanup (.claim now (Platform.generateId n)))) w =
          { held with
            worker := answer.map fun job => (job, [])
            claims := { id := none, job := answer } } := by
      change ({ held with
        worker := (match Database.claimCleanup now (Platform.generateId n) w.world.db with
          | .ok (some job, _) => some (job, [])
          | _ => none)
        claims := { id := none
                    job := match Database.claimCleanup now (Platform.generateId n) w.world.db with
                      | .ok (some job, _) => some job
                      | _ => none } } : AssetPhase) = _
      rw [hok]
      cases answer <;> rfl
    rw [hheld, hworld, Statement.after_of_ok hok]
    cases answer with
    | none =>
      have hdb : db = w.world.db := by
        unfold Database.claimCleanup at hok
        split at hok
        · cases hok
          rfl
        · cases hok
      rw [hdb]
      exact .unclaimed
    | some job => exact .claim now n job db hid hok

theorem step_erase {userId : String} {now : Time} :
    AssetStep digest held w
      ((assetMemory digest).advance held (.base (.membership (.eraseAccount userId now))) w)
      (exec (.base (.membership (.eraseAccount userId now)) : AssetCommand) w) := by
  have hworld : exec (.base (.membership (.eraseAccount userId now)) : AssetCommand) w =
      w.withDb ((Database.eraseAccount userId now).after w.world.db) := rfl
  rw [hworld]
  cases hok : Database.eraseAccount userId now w.world.db with
  | error e =>
    rw [Statement.after_of_error hok]
    exact .idle _ _ ⟨rfl, rfl, rfl, rfl, rfl⟩ le_rfl rfl rfl rfl (fun _ => Or.inl) (fun _ => Or.inl)
      fun _ _ => Or.inl
  | ok result =>
    rw [Statement.after_of_ok hok]
    exact .erase userId now _ hok

theorem step_createAsset {asset : AssetRecord} {object : StoredObject}
    (hput : held.put = some object) (hkey : object.key = asset.storageKey)
    (hgenuine : Genuine digest asset.details object) :
    AssetStep digest held w ((assetMemory digest).advance held (.createAsset asset) w)
      (exec (.createAsset asset : AssetCommand) w) := by
  have hheld : (assetMemory digest).advance held (.createAsset asset) w =
      { held with
        put := if (Database.insertAsset asset.row).refuses w.world.db then held.put else none } := rfl
  have hworld : exec (.createAsset asset : AssetCommand) w = w.createAsset asset := rfl
  rw [hheld, hworld]
  unfold AssetWorld.createAsset
  cases hok : Database.insertAsset asset.row w.world.db with
  | error e =>
    rw [if_pos (Statement.refuses_of_error hok)]
    exact .idle _ _ ⟨rfl, rfl, rfl, rfl, rfl⟩ le_rfl rfl rfl rfl (fun _ => Or.inl) (fun _ => Or.inl)
      fun _ _ => Or.inl
  | ok result =>
    have haccepted : (Database.insertAsset asset.row).refuses w.world.db = false := by
      simp [Statement.refuses, hok]
    have hdb : result.2 = { w.world.db with
        uploadedAssets := w.world.db.uploadedAssets ++ [asset.row] } := by
      unfold Database.insertAsset at hok
      split_ifs at hok
      cases hok
      rfl
    rw [haccepted, if_neg (by simp)]
    dsimp only
    rw [hdb]
    exact .register asset object hput hkey hgenuine haccepted

theorem step_deleteAsset {key : String} (hagree : held.worker.map (·.1) = held.claims.job)
    (h : (assetMemory digest).issues held (.base (.deleteAsset key))) :
    AssetStep digest held w ((assetMemory digest).advance held (.base (.deleteAsset key)) w)
      (exec (.base (.deleteAsset key) : AssetCommand) w) := by
  have hheld : (assetMemory digest).advance held (.base (.deleteAsset key)) w =
      { held with
        worker := held.worker.map fun worker => (worker.1, key :: worker.2)
        put := held.put.filter fun object => object.key ≠ key } := rfl
  have hworld : exec (.base (.deleteAsset key) : AssetCommand) w = w.deleteObject key := rfl
  rw [hheld, hworld]
  rcases h with ⟨hworker, object, hput, rfl⟩ | ⟨hput, job, hjob, hmem⟩
  · have hnone : held.put.filter (fun other => other.key ≠ object.key) = none := by
      rw [hput]
      simp
    have hsame : held.worker.map (fun worker => (worker.1, object.key :: worker.2)) =
        held.worker := by
      rw [hworker]
      rfl
    rw [hnone, hsame]
    exact .discard object hput hworker
  · rw [hjob] at hagree
    obtain ⟨⟨job', deleted⟩, hworker, rfl⟩ := Option.map_eq_some_iff.mp hagree
    have hdeleted : held.worker.map (fun worker => (worker.1, key :: worker.2)) =
        some (job', key :: deleted) := by
      rw [hworker]
      rfl
    have hsame : held.put.filter (fun object => object.key ≠ key) = held.put := by
      rw [hput]
      rfl
    rw [hdeleted, hsame]
    exact .delete key job' deleted hput hworker hmem

/-- What the commands of the system do. -/
theorem assetStep_exec {command : AssetCommand} (hagree : held.worker.map (·.1) = held.claims.job)
    (h : (assetMemory digest).issues held command) :
    AssetStep digest held w ((assetMemory digest).advance held command w) (exec command w) := by
  cases command with
  | put object =>
    obtain ⟨hput, ⟨n, hid, hkey⟩, hcontent⟩ := h
    exact .put object n hput hid hkey hcontent
  | createAsset asset =>
    obtain ⟨object, hput, hkey, hgenuine⟩ := h
    exact step_createAsset hput hkey hgenuine
  | findAsset id =>
    refine .idle _ _ ⟨rfl, rfl, rfl, rfl, rfl⟩ le_rfl rfl rfl rfl (fun _ => Or.inl) ?_
      fun _ _ => Or.inl
    intro asset hasset
    right
    obtain ⟨row, hrow, hdetails⟩ := Option.bind_eq_some_iff.mp hasset
    obtain ⟨details, hfind, rfl⟩ := Option.map_eq_some_iff.mp hdetails
    exact ⟨row, details, List.mem_of_find?_eq_some hfind, by simpa using List.find?_some hfind, rfl⟩
  | getObject key =>
    obtain ⟨asset, hfound, rfl⟩ := h
    refine .idle _ _ ⟨rfl, rfl, rfl, rfl, rfl⟩ le_rfl rfl rfl rfl (fun _ => Or.inl)
      (fun _ => Or.inl) ?_
    intro asset' object hserved
    right
    obtain ⟨found, hfound', hobject⟩ := Option.bind_eq_some_iff.mp hserved
    obtain ⟨stored, hget, hpair⟩ := Option.map_eq_some_iff.mp hobject
    cases hpair
    rw [hfound] at hfound'
    cases hfound'
    exact ⟨hfound, List.mem_of_find?_eq_some hget, by simpa using List.find?_some hget⟩
  | base command =>
    cases command with
    | deleteAsset key => exact step_deleteAsset hagree h
    | cleanup command =>
      cases command with
      | enqueueAsset userId key => exact step_enqueue h
      | claim now claimId => exact step_claim h.2
      | finish job =>
        obtain ⟨deleted, hworker, hdone⟩ := h.1
        exact .finish job deleted hworker hdone
      | retry job now => exact .retry job now
      | clearConnection id => exact step_of_sparesJobs trivial
      | clearLease id => exact step_of_sparesJobs trivial
    | membership command =>
      cases command with
      | eraseAccount userId now => exact step_erase
      | _ => exact h.1.elim
    | read => exact step_of_sparesJobs trivial
    | generateId => exact step_of_sparesJobs trivial
    | send request => exact step_of_sparesJobs trivial
    | webhook command => exact step_of_sparesJobs trivial
    | _ => exact h.1.elim

end Steps

end Realmroot
