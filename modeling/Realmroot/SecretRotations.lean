import Realmroot.ApplicationMirror
import Realmroot.Library.Promises
import Realmroot.Rules
import Realmroot.Usecases.ClientSecrets

/-!
# Rotations of client secrets

Any number of rotations are in progress. Two of them may have read the same latest version; the
unique index then refuses the batch of the second one as a whole, so the batches that are made
follow each other.
-/

namespace Table

variable {α : Type} {p q : α → Bool} {f : α → α} {rows : List α}

/-- An update that nobody sees in `q` may be made after the rows are selected. -/
theorem filter_updateWhere_comm (hkept : ∀ row, q (f row) = q row) :
    (updateWhere p f rows).filter q = updateWhere p f (rows.filter q) := by
  induction rows with
  | nil => rfl
  | cons row rows ih =>
    have hhead : q (if p row = true then f row else row) = q row := by
      split_ifs
      · exact hkept row
      · rfl
    have hcons : updateWhere p f (row :: rows) =
        (if p row = true then f row else row) :: updateWhere p f rows := rfl
    rw [hcons, List.filter_cons, List.filter_cons, hhead, ih]
    by_cases hq : q row = true <;> simp [hq, updateWhere]

end Table

namespace Realmroot

open AtomicProgram Program Pool

/-! ## The latest version -/

theorem le_foldr_max {versions : List ℕ} {version : ℕ} (h : version ∈ versions) :
    version ≤ versions.foldr max 0 := by
  induction versions with
  | nil => cases h
  | cons first rest ih =>
    rw [List.foldr_cons]
    rcases List.mem_cons.mp h with rfl | hrest
    · exact le_max_left _ _
    · exact (ih hrest).trans (le_max_right _ _)

theorem foldr_max_range' (first count : ℕ) :
    (List.range' (first + 1) count).foldr max 0 = if count = 0 then 0 else first + count := by
  induction count generalizing first with
  | zero => rfl
  | succ count ih =>
    rw [List.range'_succ, List.foldr_cons, ih, if_neg count.succ_ne_zero]
    split_ifs with hnone
    · simp [hnone]
    · omega

theorem foldr_max_append (versions : List ℕ) (version : ℕ) :
    (versions ++ [version]).foldr max 0 = max (versions.foldr max 0) version := by
  induction versions with
  | nil => simp
  | cons first rest ih => rw [List.cons_append, List.foldr_cons, List.foldr_cons, ih, max_assoc]

/-! ## Secrets that follow each other -/

namespace Database

/-- The active secrets of an Application. -/
def activeSecrets (db : Database) (applicationId : String) : List ApplicationClientSecret :=
  (db.clientSecrets applicationId).filter fun row => row.status = .active

/-- The versions are consecutive, the newest secret alone is active, and the client has it. -/
structure Chained (db : Database) (app : Application) : Prop where
  versions : (db.clientSecrets app.id).map (·.version) =
    List.range' 1 (db.clientSecrets app.id).length
  active : db.activeSecrets app.id = (db.clientSecrets app.id).getLast?.toList
  client : ∀ secret ∈ (db.clientSecrets app.id).getLast?, ∀ client ∈ db.oauthClients,
    client.clientId = app.oauthClientId → client.clientSecret = some secret.secretHash

/-- Every Application has a client, and secrets that follow each other. -/
structure SecretsChained (db : Database) : Prop where
  keys : db.ApplicationKeys
  clients : ∀ app ∈ db.applications, ∃ client ∈ db.oauthClients,
    client.clientId = app.oauthClientId
  chained : ∀ app ∈ db.applications, db.Chained app

/-! ## A batch -/

variable {db db' : Database} {rotation : SecretRotation}

theorem rotateSecret_ok (h : rotateSecret rotation db = .ok ((), db')) :
    db.secretTaken rotation.row = false ∧
      db' = { db with
        applicationClientSecrets :=
          Table.updateWhere rotation.revokes rotation.revoke db.applicationClientSecrets ++
            [rotation.row]
        oauthClients :=
          Table.updateWhere (fun row => row.clientId = rotation.oauthClientId)
            (fun row => { row with clientSecret := some rotation.secret.secretHash })
            db.oauthClients } := by
  unfold rotateSecret at h
  split_ifs at h with htaken
  cases h
  exact ⟨by simpa using htaken, rfl⟩

/-- The secrets of the rotated Application are revoked and get a successor; those of another
stay as they are. -/
theorem clientSecrets_rotate (h : rotateSecret rotation db = .ok ((), db'))
    (applicationId : String) :
    db'.clientSecrets applicationId =
      if rotation.applicationId = applicationId then
        Table.updateWhere rotation.revokes rotation.revoke (db.clientSecrets applicationId) ++
          [rotation.row]
      else db.clientSecrets applicationId := by
  obtain ⟨-, rfl⟩ := rotateSecret_ok h
  have hkept : ∀ row, decide ((rotation.revoke row).applicationId = applicationId) =
      decide (row.applicationId = applicationId) := fun _ => rfl
  have hrow : rotation.row.applicationId = rotation.applicationId := rfl
  unfold clientSecrets
  rw [List.filter_append, List.filter_singleton, hrow]
  split_ifs with heq
  · rw [Table.filter_updateWhere_comm hkept, decide_eq_true heq]
    rfl
  · have hunselected : ∀ row : ApplicationClientSecret, rotation.revokes row = true →
        decide (row.applicationId = applicationId) = false := by
      intro row hrevokes
      have hof : row.applicationId = rotation.applicationId := by
        simpa using (Bool.and_eq_true_iff.mp hrevokes).1
      simpa [hof] using heq
    rw [Table.filter_updateWhere hunselected hkept, decide_eq_false heq]
    simp

theorem activeSecrets_rotate (h : rotateSecret rotation db = .ok ((), db'))
    (hactive : rotation.secret.status = .active) :
    db'.activeSecrets rotation.applicationId = [rotation.row] := by
  have hstatus : rotation.row.status = .active := hactive
  unfold activeSecrets
  rw [clientSecrets_rotate h, if_pos rfl, List.filter_append, List.filter_singleton]
  have hnone : (Table.updateWhere rotation.revokes rotation.revoke
      (db.clientSecrets rotation.applicationId)).filter (fun row => row.status = .active) = [] := by
    rw [List.filter_eq_nil_iff]
    intro row' hrow'
    obtain ⟨row, hrow, rfl⟩ := Table.mem_updateWhere.mp hrow'
    have hof : row.applicationId = rotation.applicationId := by
      simpa using (List.mem_filter.mp hrow).2
    split_ifs with hrevokes
    · simp [SecretRotation.revoke]
    · simpa [SecretRotation.revokes, hof] using hrevokes
  rw [hnone, hstatus]
  rfl

theorem versions_rotate (h : rotateSecret rotation db = .ok ((), db')) :
    (db'.clientSecrets rotation.applicationId).map (·.version) =
      (db.clientSecrets rotation.applicationId).map (·.version) ++ [rotation.version] := by
  have hkept : ∀ row, (rotation.revoke row).version = row.version := fun _ => rfl
  rw [clientSecrets_rotate h, if_pos rfl, List.map_append, Table.map_updateWhere hkept]
  rfl

theorem le_latestVersion {applicationId : String} {row : ApplicationClientSecret}
    (hrow : row ∈ db.clientSecrets applicationId) :
    row.version ≤ db.latestVersion applicationId :=
  le_foldr_max (List.mem_map_of_mem hrow)

theorem latestVersion_rotate (h : rotateSecret rotation db = .ok ((), db'))
    (applicationId : String) :
    db'.latestVersion applicationId =
      if rotation.applicationId = applicationId then
        max (db.latestVersion applicationId) rotation.version
      else db.latestVersion applicationId := by
  unfold latestVersion
  split_ifs with heq
  · subst heq
    rw [versions_rotate h, foldr_max_append]
  · rw [clientSecrets_rotate h, if_neg heq]

/-- Consecutive versions end with their number. -/
theorem Chained.latest {app : Application} (h : db.Chained app) :
    db.latestVersion app.id = (db.clientSecrets app.id).length := by
  unfold latestVersion
  rw [h.versions, foldr_max_range' 0]
  split_ifs with hnone
  · exact hnone.symm
  · omega

/-- What a rotation knows when its batch is made. -/
structure RotationReady (rotation : SecretRotation) (db : Database) : Prop where
  application : ∃ app ∈ db.applications,
    app.id = rotation.applicationId ∧ app.oauthClientId = rotation.oauthClientId
  version_pos : 1 ≤ rotation.version
  version_le : rotation.version ≤ db.latestVersion rotation.applicationId + 1
  active : rotation.secret.status = .active

/-- The version of a batch that is made is the next one. -/
theorem rotateSecret_version (h : rotateSecret rotation db = .ok ((), db')) {app : Application}
    (hchained : db.Chained app) (hid : app.id = rotation.applicationId)
    (hready : RotationReady rotation db) :
    rotation.version = (db.clientSecrets app.id).length + 1 := by
  have hle := hready.version_le
  rw [← hid, hchained.latest] at hle
  have hpos := hready.version_pos
  by_contra hne
  have hmem : rotation.version ∈ (db.clientSecrets app.id).map (·.version) := by
    rw [hchained.versions, List.mem_range'_1]
    omega
  obtain ⟨old, hold, hversion⟩ := List.mem_map.mp hmem
  obtain ⟨hmem, hof⟩ := List.mem_filter.mp hold
  have htaken : db.secretTaken rotation.row = true := by
    apply List.any_eq_true.mpr
    refine ⟨old, hmem, ?_⟩
    have hof : old.applicationId = rotation.applicationId := by simpa [hid] using hof
    simp [SecretRotation.row, NewClientSecret.toRow, hof, hversion]
  rw [(rotateSecret_ok h).1] at htaken
  cases htaken

theorem Chained.rotate (h : rotateSecret rotation db = .ok ((), db')) {app : Application}
    (hchained : db.Chained app) (hid : app.id = rotation.applicationId)
    (hclient : app.oauthClientId = rotation.oauthClientId)
    (hready : RotationReady rotation db) : db'.Chained app := by
  have hversion := rotateSecret_version h hchained hid hready
  have hsecrets := clientSecrets_rotate h app.id
  rw [if_pos hid.symm] at hsecrets
  have hlast : (db'.clientSecrets app.id).getLast? = some rotation.row := by
    rw [hsecrets]
    simp
  constructor
  · have hversions := versions_rotate h
    rw [← hid, hchained.versions, hversion] at hversions
    rw [hversions, hsecrets, List.length_append, Table.length_updateWhere, List.length_singleton,
      List.range'_concat]
    simp [Nat.add_comm]
  · rw [hlast, hid, activeSecrets_rotate h hready.active]
    rfl
  · rw [hlast]
    rintro _ ⟨rfl⟩ client' hclient' heq
    obtain ⟨-, rfl⟩ := rotateSecret_ok h
    obtain ⟨client, -, rfl⟩ := Table.mem_updateWhere.mp hclient'
    split_ifs at heq ⊢ with hselected
    · rfl
    · exact absurd (heq.trans hclient) (by simpa using hselected)

/-- What is said of the secrets of an Application depends on them and its client only. -/
theorem Chained.of_new {app : Application} (h : db.Chained app)
    (hsecrets : db'.clientSecrets app.id = db.clientSecrets app.id)
    (hclients : ∀ client ∈ db'.oauthClients, client.clientId = app.oauthClientId →
      client ∈ db.oauthClients) : db'.Chained app := by
  constructor
  · rw [hsecrets]
    exact h.versions
  · unfold activeSecrets
    rw [hsecrets]
    exact h.active
  · rw [hsecrets]
    intro secret hsecret client hclient hid
    exact h.client secret hsecret client (hclients client hclient hid) hid

/-- The rotation of another Application changes nothing. -/
theorem Chained.rotate_other (h : rotateSecret rotation db = .ok ((), db')) {app : Application}
    (hchained : db.Chained app) (hid : app.id ≠ rotation.applicationId)
    (hclient : app.oauthClientId ≠ rotation.oauthClientId) : db'.Chained app := by
  apply hchained.of_new
  · rw [clientSecrets_rotate h, if_neg hid.symm]
  · intro client' hclient' heq
    obtain ⟨-, rfl⟩ := rotateSecret_ok h
    obtain ⟨client, hmem, rfl⟩ := Table.mem_updateWhere.mp hclient'
    split_ifs at heq ⊢ with hselected
    · have hsame : client.clientId = rotation.oauthClientId := by simpa using hselected
      exact absurd (heq.symm.trans hsame) hclient
    · exact hmem

theorem SecretsChained.rotate (hdb : db.SecretsChained)
    (h : rotateSecret rotation db = .ok ((), db')) (hready : RotationReady rotation db) :
    db'.SecretsChained := by
  obtain ⟨target, htarget, htargetId, htargetClient⟩ := hready.application
  have hchained : ∀ app ∈ db.applications, db'.Chained app := by
    intro app happ
    by_cases hid : app.id = rotation.applicationId
    · have hsame := hdb.keys.ids.eq_of_key happ htarget (hid.trans htargetId.symm)
      subst hsame
      exact (hdb.chained app happ).rotate h hid htargetClient hready
    · apply (hdb.chained app happ).rotate_other h hid
      intro hclient
      have hsame := hdb.keys.oauthClientIds.eq_of_key happ htarget
        (hclient.trans htargetClient.symm)
      exact hid (hsame ▸ htargetId)
  obtain ⟨-, rfl⟩ := rotateSecret_ok h
  refine ⟨⟨hdb.keys.ids, hdb.keys.oauthClientIds, ?_⟩, ?_, hchained⟩
  · exact hdb.keys.clientIds.updateWhere fun _ => rfl
  · intro app happ
    obtain ⟨client, hclient, hid⟩ := hdb.clients app happ
    have hmem : (if decide (client.clientId = rotation.oauthClientId) = true then
          { client with clientSecret := some rotation.secret.secretHash } else client) ∈
        Table.updateWhere (fun row => row.clientId = rotation.oauthClientId)
          (fun row => { row with clientSecret := some rotation.secret.secretHash })
          db.oauthClients :=
      Table.mem_updateWhere.mpr ⟨client, hclient, rfl⟩
    refine ⟨_, hmem, ?_⟩
    split_ifs
    · exact hid
    · exact hid

end Database

/-! ## The system -/

structure RotationRequest where
  applicationId : String
  actorUserId : Option String
  deriving DecidableEq

inductive RotationEvent where
  | elapse (milliseconds : ℕ)
  /-- Whatever else the server does leaves Applications, clients and secrets alone. -/
  | configure (db : Database)

/-- The tables that rotations read and write are as in the first database. -/
def Database.withRotations (base db : Database) : Database :=
  { db with
    applications := base.applications, oauthClients := base.oauthClients
    applicationClientSecrets := base.applicationClientSecrets }

section System

variable [Platform]

def rotationSystem :
    System Command World Reply Error RotatedClientSecret RotationRequest RotationEvent where
  program request := rotateApplicationSecret request.applicationId request.actorUserId
  environment
    | .elapse milliseconds, w => { w with clock := w.clock + milliseconds }
    | .configure db, w => { w with db := w.db.withRotations db }

end System

abbrev RotationAction := Action Reply RotationRequest RotationEvent

/-! ## What a rotation promises -/

section Promises

variable [Platform]

/-- Applications stay, and versions only rise. -/
def RotationsMove (s t : World) : Prop :=
  t.db.applications = s.db.applications ∧
    ∀ applicationId, s.db.latestVersion applicationId ≤ t.db.latestVersion applicationId

/-- The secret that a rotation returns is the only active one. -/
def ReturnsActive (request : RotationRequest) :
    Except Error RotatedClientSecret → World → Prop
  | .ok rotated, w => ∃ row, w.db.activeSecrets request.applicationId = [row] ∧
      row.id = rotated.secret.id ∧ row.version = rotated.secret.version ∧ 1 ≤ row.version ∧
      row.secretHash = Platform.hashProviderSecret rotated.clientSecret
  | .error _, _ => True

/-- The Application has been rotated when a rotation has returned. -/
def HasRotated (request : RotationRequest) : Except Error RotatedClientSecret → World → Prop
  | .ok _, w => 1 ≤ w.db.latestVersion request.applicationId
  | .error _, _ => True

def rotationPromises :
    Promises Command World Reply Error RotatedClientSecret RotationRequest where
  inv w := w.db.SecretsChained
  moves := RotationsMove
  cond _ _ _ := True
  promise request command w :=
    match command with
    | .read => True
    | .generateId => True
    | .rotateSecret rotation =>
      rotation.applicationId = request.applicationId ∧ Database.RotationReady rotation w.db
    | _ => False
  post := HasRotated
  ends := ReturnsActive

/-- What the repository stores is the only active secret. -/
def StoresActive (request : RotationRequest) (secret : NewClientSecret) :
    Except Error SecretMetadata → World → Prop
  | .ok stored, w => ∃ row, w.db.activeSecrets request.applicationId = [row] ∧
      row.id = stored.id ∧ row.version = stored.version ∧ 1 ≤ row.version ∧
      row.secretHash = secret.secretHash
  | .error _, _ => True

omit [Platform] in
theorem RotationsMove.refl (s : World) : RotationsMove s s := ⟨rfl, fun _ => le_rfl⟩

omit [Platform] in
theorem RotationsMove.trans {s t u : World} (h : RotationsMove s t) (h' : RotationsMove t u) :
    RotationsMove s u :=
  ⟨h'.1.trans h.1, fun applicationId => (h.2 applicationId).trans (h'.2 applicationId)⟩

theorem rotateSecret_meets (request : RotationRequest) {secret : NewClientSecret}
    (hactive : secret.status = .active) {w : World}
    (happ : ∃ app ∈ w.db.applications, app.id = request.applicationId) :
    (rotateSecret request.applicationId secret).Meets (rotationPromises.contract request)
      (StoresActive request secret) w := by
  unfold rotateSecret
  apply meets_currentTime
  intro t hwt _
  refine ⟨trivial, ?_⟩
  apply meets_query
  intro u htu _
  refine ⟨trivial, ?_⟩
  apply meets_query
  intro v huv _
  refine ⟨trivial, ?_⟩
  have hwv : RotationsMove w v := (RotationsMove.trans hwt htu).trans huv
  cases hfound : v.db.applications.find? fun row => row.id = request.applicationId with
  | none =>
    obtain ⟨app, hmem, hid⟩ := happ
    rw [← hwv.1] at hmem
    simpa [hid] using List.find?_eq_none.mp hfound app hmem
  | some app =>
    have hmem := List.mem_of_find?_eq_some hfound
    have hid : app.id = request.applicationId := by simpa using List.find?_some hfound
    apply meets_perform
    intro x hvx _
    have hlatest : u.db.latestVersion request.applicationId ≤
        x.db.latestVersion request.applicationId :=
      (RotationsMove.trans huv hvx).2 request.applicationId
    refine ⟨⟨rfl, ⟨app, hvx.1 ▸ hmem, hid, rfl⟩, Nat.le_add_left 1 _, ?_, hactive⟩, ?_⟩
    · exact Nat.add_le_add_right hlatest 1
    · split
      · rename_i db' hok
        have hrow := Database.activeSecrets_rotate hok hactive
        rw [← Statement.after_of_ok hok] at hrow
        exact ⟨_, hrow, rfl, rfl, Nat.le_add_left 1 _, rfl⟩
      · trivial

theorem rotateApplicationSecret_meets (request : RotationRequest) (w : World) :
    (rotateApplicationSecret request.applicationId request.actorUserId).Meets
      (rotationPromises.contract request) (rotationPromises.ends request) w := by
  unfold rotateApplicationSecret
  apply meets_query
  intro t _ _
  refine ⟨trivial, meets_orThrow (fun _ => trivial) fun found hfound => ?_⟩
  apply meets_throwIf (fun _ => trivial)
  intro _
  unfold createClientSecret
  rw [Program.bind_eq, Program.bind_eq, Program.bind_assoc, ← Program.bind_eq]
  apply meets_randomString
  intro reply u _ htu
  apply meets_generateId
  intro v huv _
  refine ⟨trivial, ?_⟩
  have happ : ∃ app ∈ v.db.applications, app.id = request.applicationId := by
    obtain ⟨app, happ, -⟩ := Option.bind_eq_some_iff.mp hfound
    rw [(RotationsMove.trans htu huv).1]
    exact ⟨app, List.mem_of_find?_eq_some happ, by simpa using List.find?_some happ⟩
  rw [Program.bind_eq, meets_bind]
  apply (rotateSecret_meets request rfl happ).mono
  rintro (e | stored) x hstored
  · trivial
  · exact hstored

omit [Platform] in
/-- A batch that a rotation has prepared keeps the secrets in order. -/
theorem rotation_moves {w : World} (h : w.db.SecretsChained) {rotation : SecretRotation}
    (hready : Database.RotationReady rotation w.db) :
    (exec (Command.rotateSecret rotation) w).db.SecretsChained ∧
      RotationsMove w (exec (Command.rotateSecret rotation) w) := by
  change ((Database.rotateSecret rotation).after w.db).SecretsChained ∧
    ((Database.rotateSecret rotation).after w.db).applications = w.db.applications ∧
      ∀ applicationId, w.db.latestVersion applicationId ≤
        ((Database.rotateSecret rotation).after w.db).latestVersion applicationId
  cases hok : Database.rotateSecret rotation w.db with
  | error e =>
    rw [Statement.after_of_error hok]
    exact ⟨h, rfl, fun _ => le_rfl⟩
  | ok result =>
    rw [Statement.after_of_ok hok]
    refine ⟨h.rotate hok hready, ?_, fun applicationId => ?_⟩
    · rw [(Database.rotateSecret_ok hok).2]
    · rw [Database.latestVersion_rotate hok]
      split_ifs
      · exact le_max_left _ _
      · exact le_rfl

theorem rotationPromises_sound : rotationPromises.Sound rotationSystem where
  refl := RotationsMove.refl
  trans := RotationsMove.trans
  stable request r s t h hst := by
    cases r with
    | error e => trivial
    | ok rotated => exact le_trans h (hst.2 request.applicationId)
  remains request r s h := by
    cases r with
    | error e => trivial
    | ok rotated =>
      obtain ⟨row, hrow, -, -, hpos, -⟩ := h
      have hmem : row ∈ s.db.activeSecrets request.applicationId := by simp [hrow]
      exact le_trans hpos (Database.le_latestVersion (List.mem_filter.mp hmem).1)
  program request s _ := rotateApplicationSecret_meets request s
  exec request c s hs _ hpromise := by
    cases c with
    | read => exact ⟨hs, RotationsMove.refl s⟩
    | generateId => exact ⟨hs, rfl, fun _ => le_rfl⟩
    | rotateSecret rotation => exact rotation_moves hs hpromise.2
    | _ => exact hpromise.elim
  environment e s hs := by
    cases e with
    | elapse milliseconds => exact ⟨hs, rfl, fun _ => le_rfl⟩
    | configure db =>
      exact ⟨⟨⟨hs.keys.ids, hs.keys.oauthClientIds, hs.keys.clientIds⟩, hs.clients,
        fun app happ => ⟨(hs.chained app happ).versions, (hs.chained app happ).active,
          (hs.chained app happ).client⟩⟩, rfl, fun _ => le_rfl⟩

end Promises

/-! ## Runs -/

section Runs

variable [Platform]

/-- A rotation of the Application has returned a secret. -/
def Rotated (P : Pool Command World Reply Error RotatedClientSecret RotationRequest)
    (applicationId : String) : Prop :=
  ∃ entry ∈ P.procs, entry.1.applicationId = applicationId ∧
    ∃ rotated, entry.2 = .pure rotated

/-- One secret of the Application is active, the client has it, and the versions are
consecutive. -/
def Database.SecretsLinear (db : Database) (app : Application) : Prop :=
  (∃ secret, db.activeSecrets app.id = [secret] ∧ ∃ client ∈ db.oauthClients,
    client.clientId = app.oauthClientId ∧ client.clientSecret = some secret.secretHash) ∧
  (db.clientSecrets app.id).map (·.version) = List.range' 1 (db.clientSecrets app.id).length

omit [Platform] in
theorem Database.SecretsChained.linear {db : Database} (h : db.SecretsChained) {app : Application}
    (happ : app ∈ db.applications) (hrotated : 1 ≤ db.latestVersion app.id) :
    db.SecretsLinear app := by
  have hchained := h.chained app happ
  rw [hchained.latest] at hrotated
  cases hlast : (db.clientSecrets app.id).getLast? with
  | none =>
    rw [List.getLast?_eq_none_iff] at hlast
    simp [hlast] at hrotated
  | some secret =>
    obtain ⟨client, hclient, hid⟩ := h.clients app happ
    refine ⟨⟨secret, ?_, client, hclient, hid, ?_⟩, hchained.versions⟩
    · rw [hchained.active, hlast]
      rfl
    · exact hchained.client secret hlast client hclient hid

/-- Rotations are linear, whatever their order: an Application that has been rotated has one active
secret, which its client has, and every rotation that returns leaves its own secret active. -/
theorem rotations_linear (w : World) (hstart : w.db.SecretsChained)
    (schedule : List RotationAction) :
    (∀ app ∈ ((idle w).run rotationSystem schedule).state.db.applications,
      Rotated ((idle w).run rotationSystem schedule) app.id →
        ((idle w).run rotationSystem schedule).state.db.SecretsLinear app) ∧
      ∀ entry ∈ (idle w).endings rotationSystem schedule,
        ReturnsActive entry.1 entry.2.1 entry.2.2 := by
  constructor
  · have hrun : rotationPromises.Inv ((idle w).run rotationSystem schedule) :=
      rotationPromises_sound.run hstart (fun _ _ _ => trivial) fun _ _ => trivial
    rintro app happ ⟨⟨request, program⟩, hentry, hid, rotated, hpure⟩
    have hkept := hrun.procs _ hentry
    dsimp only at hid hpure
    subst hpure
    exact hrun.state.linear happ (hid ▸ hkept)
  · exact rotationPromises_sound.endings hstart (fun _ _ _ => trivial) fun _ _ => trivial

end Runs

/-! ## Creation -/

namespace Database

variable {db db' : Database}

theorem chained_of_nil {app : Application} (h : db.clientSecrets app.id = []) :
    db.Chained app := by
  constructor <;> simp [activeSecrets, h]

theorem chained_of_singleton {app : Application} {secret : ApplicationClientSecret}
    (h : db.clientSecrets app.id = [secret]) (hversion : secret.version = 1)
    (hactive : secret.status = .active)
    (hclient : ∀ client ∈ db.oauthClients, client.clientId = app.oauthClientId →
      client.clientSecret = some secret.secretHash) : db.Chained app := by
  constructor
  · simp [h, hversion]
  · simp [activeSecrets, h, hactive]
  · simpa [h] using hclient

/-- The secrets of an Application that is created follow each other from the first one on. -/
theorem SecretsChained.create (h : db.SecretsChained) {input : NewApplication}
    {clientSecret : Option NewClientSecret} {now : Time}
    (hnone : db.clientSecrets input.id = [])
    (hfirst : ∀ secret ∈ clientSecret, secret.version = 1 ∧ secret.status = .active)
    (hok : insertApplication input clientSecret now db = .ok ((), db')) : db'.SecretsChained := by
  have hkeys : db'.ApplicationKeys := by
    have hinserted := keys_insertApplication h.keys input clientSecret now
    rwa [Statement.after_of_ok hok] at hinserted
  obtain ⟨hclients, happs, rfl⟩ := insertApplication_ok hok
  refine ⟨hkeys, ?_, ?_⟩
  · intro app happ
    rcases List.mem_append.mp happ with hold | hnew
    · obtain ⟨client, hclient, hid⟩ := h.clients app hold
      exact ⟨client, List.mem_append_left _ hclient, hid⟩
    · obtain rfl := List.mem_singleton.mp hnew
      exact ⟨_, List.mem_append_right _ (List.mem_singleton_self _), rfl⟩
  · intro app happ
    rcases List.mem_append.mp happ with hold | hnew
    · apply (h.chained app hold).of_new
      · have hother : input.id ≠ app.id := fun heq => (happs app hold).1 heq.symm
        cases clientSecret with
        | none => simp [clientSecrets]
        | some secret => simp [clientSecrets, NewClientSecret.toRow, hother]
      · intro client hclient hid
        rcases List.mem_append.mp hclient with hclient | hclient
        · exact hclient
        · obtain rfl := List.mem_singleton.mp hclient
          exact absurd hid.symm (happs app hold).2
    · obtain rfl := List.mem_singleton.mp hnew
      have hid : (input.toApplicationInsert now).id = input.id := rfl
      cases clientSecret with
      | none =>
        apply chained_of_nil
        rw [hid]
        simpa [clientSecrets] using hnone
      | some secret =>
        obtain ⟨hversion, hactive⟩ := hfirst secret rfl
        apply @chained_of_singleton _ _ (secret.toRow input.id secret.version now) _ hversion hactive
        · intro client hclient hof
          rcases List.mem_append.mp hclient with hclient | hclient
          · exact absurd hof (hclients client hclient)
          · obtain rfl := List.mem_singleton.mp hclient
            rfl
        · rw [hid]
          unfold clientSecrets at hnone ⊢
          rw [List.filter_append, hnone]
          simp [NewClientSecret.toRow]

end Database

namespace RotationExample

attribute [local instance] samplePlatform

def app : Application :=
  { id := "app", oauthClientId := "client", ownerOrganizationId := "acme", visibility := .public
    oidcScopes := [], resourceScopes := [], tokenExchangePolicies := [], disabled := false
    updatedAt := 0 }

def start : World :=
  { db :=
      { applications := [app]
        oauthClients :=
          [{ clientId := "client", clientSecret := some "old", disabled := false
             grantTypes := [] }]
        applicationClientSecrets :=
          [{ id := "first", applicationId := "app", version := 1, secretHash := "old"
             secretPrefix := none, status := .active, materializedToOauthClientAt := some 0
             createdByUserId := none }] }
    clock := 0, nextId := 0 }

theorem start_chained : start.db.SecretsChained where
  keys := ⟨List.nodup_singleton _, List.nodup_singleton _, List.nodup_singleton _⟩
  clients := by decide
  chained := by
    intro row hrow
    obtain rfl : row = app := by simpa [start] using hrow
    exact ⟨by decide, by decide, by decide⟩

def rotate : RotationAction := .start { applicationId := "app", actorUserId := none }

def advance (i : ℕ) (token : String) : RotationAction := .advance i { random := token }

/-- Both rotations read the same latest version; the second batch is refused. -/
def race : List RotationAction :=
  [rotate, rotate] ++ List.replicate 6 (advance 0 "one") ++ List.replicate 6 (advance 1 "two") ++
    [advance 0 "one", advance 1 "two"]

theorem race_linear :
    (∀ row ∈ ((idle start).run rotationSystem race).state.db.applications,
      Rotated ((idle start).run rotationSystem race) row.id →
        ((idle start).run rotationSystem race).state.db.SecretsLinear row) ∧
      ∀ entry ∈ (idle start).endings rotationSystem race,
        ReturnsActive entry.1 entry.2.1 entry.2.2 :=
  rotations_linear start start_chained race

example : ((idle start).run rotationSystem race).state.db.applicationClientSecrets.map
    (fun row => (row.version, row.status)) = [(1, .revoked), (2, .active)] := by decide +kernel

end RotationExample

end Realmroot
