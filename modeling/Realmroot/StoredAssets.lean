import Realmroot.AssetSteps
import Realmroot.Library.Custody

/-!
# The store of assets

In every run the rows of the table of assets and the objects of the store stay together: a row has
its object, and an object has a row, a job that will delete it, or an upload that answers for it.
-/

namespace Realmroot

open AtomicProgram Program Pool
open Database (CleanupJob)

/-! ## Tables -/

namespace Database

/-- A job has the object to delete. -/
def Queues (db : Database) (key : String) : Prop :=
  ∃ row ∈ db.accountDeletionCleanups, key ∈ row.assetKeys

/-- The table has the object. -/
def Registers (db : Database) (key : String) : Prop :=
  ∃ row ∈ db.uploadedAssets, row.storageKey = key

/-- Assets belong to accounts that are not deleted, and jobs to those that are. -/
structure AssetsOwned (db : Database) : Prop where
  users : Table.Keyed (·.id) db.users
  assets : Table.Keyed (·.storageKey) db.uploadedAssets
  jobs : Table.Keyed (·.userId) db.accountDeletionCleanups
  creators : ∀ row ∈ db.uploadedAssets, ∀ userId, row.createdByUserId = some userId →
    db.isLiveUser userId = true
  buried : ∀ row ∈ db.accountDeletionCleanups, db.isDeletedUser row.userId = true

variable {db db' : Database} {userId key : String}

/-- A deleted account is not live. -/
theorem AssetsOwned.not_live (h : db.AssetsOwned) (hdeleted : db.isDeletedUser userId = true) :
    db.isLiveUser userId = false := by
  rw [← Bool.not_eq_true, isLiveUser_iff]
  rintro ⟨live, hlive, hid, hnone⟩
  simp only [isDeletedUser, List.any_eq_true, Bool.and_eq_true, decide_eq_true_eq] at hdeleted
  obtain ⟨user, huser, hsame, hsome⟩ := hdeleted
  obtain rfl := h.users.eq_of_key huser hlive (hsame.trans hid.symm)
  rw [hnone] at hsome
  cases hsome

/-- Tables that have the same owners and jobs of the same users. -/
theorem AssetsOwned.same (h : db.AssetsOwned) (husers : db'.users = db.users)
    (hassets : db'.uploadedAssets = db.uploadedAssets)
    (hjobs : db'.accountDeletionCleanups.map (·.userId) =
      db.accountDeletionCleanups.map (·.userId)) : db'.AssetsOwned := by
  refine ⟨husers ▸ h.users, hassets ▸ h.assets, ?_, ?_, ?_⟩
  · rw [Table.Keyed, hjobs]
    exact h.jobs
  · intro row hrow userId hcreator
    rw [isLiveUser, husers]
    exact h.creators row (hassets ▸ hrow) userId hcreator
  · intro row hrow
    have hmem : row.userId ∈ db'.accountDeletionCleanups.map (·.userId) :=
      List.mem_map_of_mem hrow
    rw [hjobs] at hmem
    obtain ⟨old, hold, hsame⟩ := List.mem_map.mp hmem
    rw [isDeletedUser, husers, ← hsame]
    exact h.buried old hold

/-- Users who keep what they are, and jobs of which some go. -/
theorem AssetsOwned.fewer (h : db.AssetsOwned) {jobs : List AccountDeletionCleanup}
    (hjobs : jobs.Sublist db.accountDeletionCleanups) :
    ({ db with accountDeletionCleanups := jobs } : Database).AssetsOwned :=
  ⟨h.users, h.assets, List.Nodup.sublist (hjobs.map _) h.jobs, h.creators,
    fun row hrow => h.buried row (hjobs.subset hrow)⟩

/-- Users may sign up, and those that are there stay live or deleted. -/
theorem AssetsOwned.users_change (h : db.AssetsOwned) (husers : Table.Keyed (·.id) db'.users)
    (hassets : db'.uploadedAssets = db.uploadedAssets)
    (hjobs : db'.accountDeletionCleanups = db.accountDeletionCleanups)
    (hstay : ∀ user ∈ db.users, ∃ user' ∈ db'.users, user'.id = user.id ∧
      user'.deletedAt = user.deletedAt) : db'.AssetsOwned := by
  refine ⟨husers, hassets ▸ h.assets, hjobs ▸ h.jobs, ?_, ?_⟩
  · intro row hrow userId hcreator
    obtain ⟨user, huser, hid, hnone⟩ :=
      isLiveUser_iff.mp (h.creators row (hassets ▸ hrow) userId hcreator)
    obtain ⟨user', huser', hid', hdeleted'⟩ := hstay user huser
    exact isLiveUser_iff.mpr ⟨user', huser', hid'.trans hid, hdeleted'.trans hnone⟩
  · intro row hrow
    have hburied := h.buried row (hjobs ▸ hrow)
    simp only [isDeletedUser, List.any_eq_true, Bool.and_eq_true, decide_eq_true_eq] at hburied ⊢
    obtain ⟨user, huser, hid, hsome⟩ := hburied
    obtain ⟨user', huser', hid', hdeleted'⟩ := hstay user huser
    exact ⟨user', huser', hid'.trans hid, hdeleted' ▸ hsome⟩

/-! ### A new asset -/

theorem AssetsOwned.insertAsset (h : db.AssetsOwned) {row : UploadedAsset}
    (haccepted : (Database.insertAsset row).refuses db = false) :
    ({ db with uploadedAssets := db.uploadedAssets ++ [row] } : Database).AssetsOwned ∧
      ¬ db.Registers row.storageKey := by
  unfold Statement.refuses Database.insertAsset at haccepted
  split_ifs at haccepted with hdeleted hid hkey huser
  · have hnew : ∀ old ∈ db.uploadedAssets, old.storageKey ≠ row.storageKey := by
      simpa using hkey
    refine ⟨⟨h.users, h.assets.append_singleton hnew, h.jobs, ?_, h.buried⟩, ?_⟩
    · intro asset hasset userId hcreator
      rcases List.mem_append.mp hasset with hold | hlast
      · exact h.creators asset hold userId hcreator
      · rw [List.mem_singleton.mp hlast] at hcreator
        rw [hcreator] at hdeleted huser
        have hlive : db.isLiveUser userId = true :=
          isLiveUser_of_not_deleted (by simpa using hdeleted) (by simpa using huser)
        exact hlive
    · rintro ⟨old, hold, hsame⟩
      exact hnew old hold hsame

/-! ### Jobs -/

theorem enqueueAssetCleanup_queues
    (h : Database.enqueueAssetCleanup userId key db = .ok (true, db')) (key' : String) :
    db'.Queues key' ↔ key' = key ∨ db.Queues key' := by
  unfold Database.enqueueAssetCleanup at h
  split at h
  · cases h
  split at h
  · cases h
  split at h
  · rename_i hjob
    cases h
    unfold Queues
    obtain ⟨old, hold, hsame⟩ := List.any_eq_true.mp hjob
    constructor
    · rintro ⟨row, hrow, hkey⟩
      obtain ⟨old, hold, rfl⟩ := Table.mem_updateWhere.mp hrow
      split_ifs at hkey
      · rcases List.mem_append.mp hkey with hbefore | hlast
        · exact Or.inr ⟨old, hold, hbefore⟩
        · exact Or.inl (List.mem_singleton.mp hlast)
      · exact Or.inr ⟨old, hold, hkey⟩
    · rintro (rfl | ⟨row, hrow, hkey⟩)
      · exact ⟨_, Table.mem_updateWhere_of_pos hold hsame, by simp⟩
      · by_cases huser : row.userId = userId
        · exact ⟨_, Table.mem_updateWhere_of_pos hrow (by simpa using huser),
            List.mem_append_left _ hkey⟩
        · exact ⟨row, Table.mem_updateWhere_of_not hrow (by simpa using huser), hkey⟩
  · cases h
    unfold Queues
    simp only [List.mem_append, List.mem_singleton, or_and_right, exists_or, exists_eq_left]
    rw [or_comm]

theorem queues_updateWhere {p : AccountDeletionCleanup → Bool}
    {f : AccountDeletionCleanup → AccountDeletionCleanup}
    (hf : ∀ row, (f row).assetKeys = row.assetKeys)
    (h : db'.accountDeletionCleanups = Table.updateWhere p f db.accountDeletionCleanups)
    (key : String) : db'.Queues key ↔ db.Queues key := by
  unfold Queues
  rw [h]
  constructor
  · rintro ⟨row, hrow, hkey⟩
    obtain ⟨old, hold, rfl⟩ := Table.mem_updateWhere.mp hrow
    refine ⟨old, hold, ?_⟩
    split_ifs at hkey
    · rwa [hf] at hkey
    · exact hkey
  · rintro ⟨row, hrow, hkey⟩
    cases hp : p row with
    | true => exact ⟨f row, Table.mem_updateWhere_of_pos hrow hp, (hf row).symm ▸ hkey⟩
    | false => exact ⟨row, Table.mem_updateWhere_of_not hrow hp, hkey⟩

theorem AssetsOwned.enqueueAssetCleanup (howned : db.AssetsOwned)
    (h : Database.enqueueAssetCleanup userId key db = .ok (true, db')) :
    db'.AssetsOwned ∧ db'.uploadedAssets = db.uploadedAssets := by
  unfold Database.enqueueAssetCleanup at h
  split at h
  · cases h
  rename_i hdeleted
  split at h
  · cases h
  split at h
  · cases h
    refine ⟨howned.same rfl rfl ?_, rfl⟩
    exact Table.map_updateWhere fun row => rfl
  · rename_i hjob
    cases h
    refine ⟨⟨howned.users, howned.assets, ?_, howned.creators, ?_⟩, rfl⟩
    · apply howned.jobs.append_singleton
      intro old hold hsame
      exact hjob (List.any_eq_true.mpr ⟨old, hold, by simpa using hsame⟩)
    · intro row hrow
      rcases List.mem_append.mp hrow with hold | hlast
      · exact howned.buried row hold
      · have hsome : db.isDeletedUser userId = true := by simpa using hdeleted
        rw [List.mem_singleton.mp hlast]
        exact hsome

/-- Jobs that are handed something are not claimed. -/
theorem claimId_of_effect {rows : List AccountDeletionCleanup} (h : CleanupEffect .read db rows) :
    ∀ row ∈ rows, row.claimId = none ∨ row ∈ db.accountDeletionCleanups := by
  intro row hrow
  cases h with
  | same => exact Or.inr hrow
  | append new hclaim hnew =>
    rcases List.mem_append.mp hrow with hold | hlast
    · exact Or.inr hold
    · exact Or.inl (by rw [List.mem_singleton.mp hlast, hclaim])
  | release p f hf =>
    obtain ⟨old, hold, rfl⟩ := Table.mem_updateWhere.mp hrow
    split_ifs
    · exact Or.inl (hf old).2.1
    · exact Or.inr hold
  | claim now claimId job db' hcommand hok => cases hcommand
  | finish job hcommand => cases hcommand

/-! ### Erasures -/

/-- The avatar of the user. -/
def isAvatarOf (userId : String) (row : UploadedAsset) : Bool :=
  row.createdByUserId = some userId && row.purpose = "avatar"

theorem eraseAccount_assets {now : Time} (h : eraseAccount userId now db = .ok ((), db')) :
    db'.uploadedAssets =
        Table.updateWhere (fun row => row.createdByUserId = some userId)
          (fun row => { row with createdByUserId := none })
          (db.uploadedAssets.filter fun row => !isAvatarOf userId row) ∧
      (((db.isLiveUser userId = false ∨ ∃ row ∈ db.accountDeletionCleanups, row.userId = userId) ∧
          db'.accountDeletionCleanups = db.accountDeletionCleanups) ∨
        (db.isLiveUser userId = true ∧
          (∀ row ∈ db.accountDeletionCleanups, row.userId ≠ userId) ∧ ∃ organizationIds,
            db'.accountDeletionCleanups = db.accountDeletionCleanups ++
              [{ userId := userId, organizationIds := organizationIds
                 assetKeys := (db.uploadedAssets.filter (isAvatarOf userId)).map (·.storageKey)
                 nextAttemptAt := now }])) := by
  obtain ⟨⟨⟨⟩, db₁⟩, hcleanup, h⟩ := Statement.bind_ok h
  obtain ⟨⟨⟨⟩, db₂⟩, hidentities, h⟩ := Statement.bind_ok h
  obtain ⟨⟨⟨⟩, db₃⟩, hconnections, h⟩ := Statement.bind_ok h
  obtain ⟨_, _, _, _, rfl⟩ := retireIdentities_ok hidentities
  obtain ⟨_, rfl⟩ := retireConnections_ok hconnections
  cases h
  unfold enqueueCleanup at hcleanup
  split at hcleanup
  · rename_i hlive
    cases hcleanup
    exact ⟨rfl, Or.inl ⟨Or.inl (by simpa using hlive), rfl⟩⟩
  rename_i hlive
  split at hcleanup
  · cases hcleanup
  split at hcleanup
  · rename_i hjob
    cases hcleanup
    refine ⟨rfl, Or.inl ⟨Or.inr ?_, rfl⟩⟩
    obtain ⟨row, hrow, hsame⟩ := List.any_eq_true.mp hjob
    exact ⟨row, hrow, by simpa using hsame⟩
  · rename_i hjob
    cases hcleanup
    refine ⟨rfl, Or.inr ⟨by simpa using hlive, ?_, _, rfl⟩⟩
    intro row hrow hsame
    exact hjob (List.any_eq_true.mpr ⟨row, hrow, by simpa using hsame⟩)

/-- The user has the object as an avatar. -/
def HasAvatar (db : Database) (userId key : String) : Prop :=
  ∃ row ∈ db.uploadedAssets, isAvatarOf userId row = true ∧ row.storageKey = key

theorem isLiveUser_of_erased {now : Time} (h : eraseAccount userId now db = .ok ((), db'))
    (other : String) :
    db'.isLiveUser other = true ↔ db.isLiveUser other = true ∧ other ≠ userId := by
  obtain ⟨-, -, -, -, husers, -⟩ := eraseAccount_ok h
  rw [isLiveUser_iff, isLiveUser_iff, husers]
  constructor
  · rintro ⟨row, hrow, rfl, hnone⟩
    obtain ⟨user, huser, rfl⟩ := Table.mem_updateWhere.mp hrow
    cases hselected : decide (user.id = userId) && user.deletedAt.isNone with
    | true => simp [hselected] at hnone
    | false =>
      simp only [hselected, Bool.false_eq_true, if_false] at hnone ⊢
      refine ⟨⟨user, huser, rfl, hnone⟩, ?_⟩
      rintro rfl
      simp [hnone] at hselected
  · rintro ⟨⟨user, huser, rfl, hnone⟩, hne⟩
    exact ⟨user, Table.mem_updateWhere_of_not huser (by simp [hne]), rfl, hnone⟩

theorem isDeletedUser_of_erased {now : Time} (h : eraseAccount userId now db = .ok ((), db'))
    {other : String} (hother : db.isDeletedUser other = true ∨
      other = userId ∧ db.isLiveUser userId = true) : db'.isDeletedUser other = true := by
  obtain ⟨-, -, -, -, husers, -⟩ := eraseAccount_ok h
  simp only [isDeletedUser, List.any_eq_true, Bool.and_eq_true, decide_eq_true_eq, husers]
    at hother ⊢
  rcases hother with ⟨user, huser, hid, hsome⟩ | ⟨rfl, hlive⟩
  · refine ⟨user, Table.mem_updateWhere_of_not huser ?_, hid, hsome⟩
    cases hdeleted : user.deletedAt with
    | none => simp [hdeleted] at hsome
    | some time => simp
  · obtain ⟨user, huser, hid, hnone⟩ := isLiveUser_iff.mp hlive
    exact ⟨_, Table.mem_updateWhere_of_pos huser (by simp [hid, hnone]), hid, rfl⟩

/-- The avatars of a user who is deleted go from the table to the job. -/
theorem AssetsOwned.eraseAccount (howned : db.AssetsOwned) {now : Time}
    (h : Database.eraseAccount userId now db = .ok ((), db')) :
    db'.AssetsOwned ∧
      (∀ key, db'.Registers key ↔ db.Registers key ∧ ¬ db.HasAvatar userId key) ∧
      ∀ key, db'.Queues key ↔ db.Queues key ∨ db.Registers key ∧ db.HasAvatar userId key := by
  obtain ⟨hassets, hjobs⟩ := eraseAccount_assets h
  obtain ⟨-, -, -, -, husers, -⟩ := eraseAccount_ok h
  have hregisters : ∀ key, db'.Registers key ↔ db.Registers key ∧ ¬ db.HasAvatar userId key := by
    intro key
    unfold Registers HasAvatar
    rw [hassets]
    constructor
    · rintro ⟨row, hrow, rfl⟩
      obtain ⟨old, hold, rfl⟩ := Table.mem_updateWhere.mp hrow
      obtain ⟨hmem, hnot⟩ := List.mem_filter.mp hold
      have hkey : (if (old.createdByUserId = some userId : Bool) then
          { old with createdByUserId := none } else old).storageKey = old.storageKey := by
        split_ifs <;> rfl
      rw [hkey]
      refine ⟨⟨old, hmem, rfl⟩, ?_⟩
      rintro ⟨other, hother, havatar, hsame⟩
      obtain rfl := howned.assets.eq_of_key hother hmem hsame
      simp [havatar] at hnot
    · rintro ⟨⟨row, hrow, rfl⟩, hnot⟩
      have hfilter : row ∈ db.uploadedAssets.filter fun row => !isAvatarOf userId row := by
        refine List.mem_filter.mpr ⟨hrow, ?_⟩
        by_contra havatar
        exact hnot ⟨row, hrow, by simpa using havatar, rfl⟩
      by_cases hcreator : row.createdByUserId = some userId
      · exact ⟨_, Table.mem_updateWhere_of_pos hfilter (by simpa using hcreator), rfl⟩
      · exact ⟨row, Table.mem_updateWhere_of_not hfilter (by simpa using hcreator), rfl⟩
  have hlive : ∀ key, db.HasAvatar userId key → db.isLiveUser userId = true := by
    rintro key ⟨row, hrow, havatar, -⟩
    simp only [isAvatarOf, Bool.and_eq_true, decide_eq_true_eq] at havatar
    exact howned.creators row hrow userId havatar.1
  have hcreators : ∀ row ∈ db'.uploadedAssets, ∀ creator, row.createdByUserId = some creator →
      db'.isLiveUser creator = true := by
    rw [hassets]
    intro row hrow creator hcreator
    obtain ⟨old, hold, rfl⟩ := Table.mem_updateWhere.mp hrow
    split_ifs at hcreator with hselected
    rw [isLiveUser_of_erased h]
    refine ⟨howned.creators old (List.mem_filter.mp hold).1 creator hcreator, ?_⟩
    rintro rfl
    exact hselected (by simpa using hcreator)
  have hkeyed : Table.Keyed (·.storageKey) db'.uploadedAssets := by
    have hfiltered : Table.Keyed (·.storageKey)
        (db.uploadedAssets.filter fun row => !isAvatarOf userId row) :=
      List.Nodup.sublist (List.Sublist.map _ List.filter_sublist) howned.assets
    rw [hassets]
    exact hfiltered.updateWhere fun row => rfl
  have husersKeyed : Table.Keyed (·.id) db'.users := by
    rw [husers]
    exact howned.users.updateWhere fun row => rfl
  rcases hjobs with ⟨hdead, hsame⟩ | ⟨hliving, hfree, organizationIds, happend⟩
  · have hnone : ∀ key, ¬ db.HasAvatar userId key := by
      intro key havatar
      rcases hdead with hdead | ⟨row, hrow, rfl⟩
      · rw [hlive key havatar] at hdead
        cases hdead
      · have hburied := howned.not_live (howned.buried row hrow)
        rw [hlive key havatar] at hburied
        cases hburied
    refine ⟨⟨husersKeyed, hkeyed, hsame ▸ howned.jobs, hcreators, ?_⟩, hregisters, ?_⟩
    · rw [hsame]
      exact fun row hrow => isDeletedUser_of_erased h (Or.inl (howned.buried row hrow))
    · intro key
      simp [Queues, hsame, hnone]
  · refine ⟨⟨husersKeyed, hkeyed, ?_, hcreators, ?_⟩, hregisters, ?_⟩
    · rw [happend]
      exact howned.jobs.append_singleton hfree
    · rw [happend]
      intro row hrow
      rcases List.mem_append.mp hrow with hold | hlast
      · exact isDeletedUser_of_erased h (Or.inl (howned.buried row hold))
      · rw [List.mem_singleton.mp hlast]
        exact isDeletedUser_of_erased h (Or.inr ⟨rfl, hliving⟩)
    · intro key
      simp only [Queues, Registers, HasAvatar, happend, List.mem_append, List.mem_singleton,
        or_and_right, exists_or, exists_eq_left, List.mem_map, List.mem_filter]
      constructor
      · rintro (hold | ⟨row, ⟨hrow, havatar⟩, rfl⟩)
        · exact Or.inl hold
        · exact Or.inr ⟨⟨row, hrow, rfl⟩, row, hrow, havatar, rfl⟩
      · rintro (hold | ⟨-, row, hrow, havatar, rfl⟩)
        · exact Or.inl hold
        · exact Or.inr ⟨row, ⟨hrow, havatar⟩, rfl⟩

end Database

/-! ## Custody -/

namespace AssetPhase

/-- The object belongs to the job that is claimed. -/
def ClaimsKey (held : AssetPhase) (key : String) : Prop :=
  ∃ worker ∈ held.worker, key ∈ worker.1.assetKeys

/-- The object is deleted since. -/
def DeletedKey (held : AssetPhase) (key : String) : Prop := ∃ worker ∈ held.worker, key ∈ worker.2

/-- The object is stored and has no row. -/
def KeepsKey (held : AssetPhase) (key : String) : Prop := ∃ object ∈ held.put, object.key = key

end AssetPhase

/-- Who accounts for which objects. -/
def custody (held : ℕ → AssetPhase) (w : AssetWorld) : Custody.State String ℕ where
  stored key := ∃ object ∈ w.objects, object.key = key
  registered := w.world.db.Registers
  queued := w.world.db.Queues
  claimed i := (held i).ClaimsKey
  deleted i := (held i).DeletedKey
  kept i := (held i).KeepsKey

section Custody

variable {held : ℕ → AssetPhase} {i : ℕ} {φ : AssetPhase} {w w' : AssetWorld}

theorem custody_same (hworker : φ.worker = (held i).worker) (hput : φ.put = (held i).put)
    (w : AssetWorld) : custody (Function.update held i φ) w = custody held w := by
  ext j key
  · rfl
  · rfl
  · rfl
  all_goals
    by_cases hj : j = i
    · subst hj
      simp [custody, AssetPhase.ClaimsKey, AssetPhase.DeletedKey, AssetPhase.KeepsKey, hworker, hput]
    · simp [custody, Function.update_of_ne hj]

/-- A program gives its object away. -/
theorem custody_released (hc : Custody.Sound (custody held w)) {object : StoredObject}
    (hput : (held i).put = some object) (hworker : φ.worker = (held i).worker)
    (hnone : φ.put = none) (w' : AssetWorld) :
    custody (Function.update held i φ) w' =
      { custody held w' with
        kept := fun j key => (custody held w').kept j key ∧ key ≠ object.key } := by
  have hkept : (custody held w).kept i object.key := ⟨object, hput, rfl⟩
  ext j key
  · rfl
  · rfl
  · rfl
  · by_cases hj : j = i
    · subst hj
      simp [custody, AssetPhase.ClaimsKey, hworker]
    · simp [custody, Function.update_of_ne hj]
  · by_cases hj : j = i
    · subst hj
      simp [custody, AssetPhase.DeletedKey, hworker]
    · simp [custody, Function.update_of_ne hj]
  · by_cases hj : j = i
    · subst hj
      simp [custody, AssetPhase.KeepsKey, hnone, hput, eq_comm]
    · simp only [custody, Function.update_of_ne hj, iff_self_and]
      rintro hother rfl
      exact hj (hc.kept_alone j i _ hother hkept)

theorem custody_delete (w : AssetWorld) (key : String) :
    custody held (w.deleteObject key) =
      { custody held w with
        stored := fun other => (custody held w).stored other ∧ other ≠ key } := by
  ext j other
  · simp only [custody, AssetWorld.deleteObject, List.mem_filter, decide_eq_true_eq, ne_eq]
    constructor
    · rintro ⟨object, ⟨hmem, hne⟩, rfl⟩
      exact ⟨⟨object, hmem, rfl⟩, hne⟩
    · rintro ⟨⟨object, hmem, rfl⟩, hne⟩
      exact ⟨object, ⟨hmem, hne⟩, rfl⟩
  all_goals rfl

end Custody

/-! ## What is kept -/

section Kept

variable [Platform] (digest : List UInt8 → List UInt8)

/-- The rows have descriptions, and the objects are what these say. -/
structure AssetWorld.Described (w : AssetWorld) : Prop where
  objects : Table.Keyed (·.key) w.objects
  rows : ∀ row ∈ w.world.db.uploadedAssets, ∃ details ∈ w.details,
    details.storageKey = row.storageKey
  genuine : ∀ details ∈ w.details, ∀ object ∈ w.objects, object.key = details.storageKey →
    Genuine digest details object

/-- An object that is served is what its record says. -/
structure Served (asset : AssetRecord) (object : StoredObject) : Prop where
  key : object.key = asset.storageKey
  size : asset.byteSize = object.bytes.length
  contentType : sniffContentType object.bytes = some asset.contentType
  checksum : asset.checksumSha256 = sha256HexOf digest object.bytes ∨ asset.checksumSha256 = ""

/-- The identifier is generated, and no program is going to use it. -/
def UsedUp (held : ℕ → AssetPhase) (w : AssetWorld) (n : ℕ) : Prop :=
  n < w.world.nextId ∧ ∀ i, (held i).claims.id ≠ some n

/-- The claim of a job has the name. -/
def NamesClaim (held : ℕ → AssetPhase) (w : AssetWorld) (claimId : String) : Prop :=
  (∃ row ∈ w.world.db.accountDeletionCleanups, row.claimId = some claimId) ∨
    ∃ i, ∃ worker ∈ (held i).worker, worker.1.claimId = claimId

/-- What every step keeps of the world and of what the programs hold. -/
structure Kept (held : ℕ → AssetPhase) (w : AssetWorld) : Prop where
  custody : Custody.Sound (custody held w)
  owned : w.world.db.AssetsOwned
  described : w.Described digest
  ids : ∀ i n, (held i).claims.id = some n → n < w.world.nextId
  apart : ∀ i j n, (held i).claims.id = some n → (held j).claims.id = some n → i = j
  keys : ∀ key, ((Realmroot.custody held w).Known key ∨
    ∃ details ∈ w.details, details.storageKey = key) → ∀ n, KeyOf digest n key → UsedUp held w n
  names : ∀ claimId, NamesClaim held w claimId → ∀ n, claimId = Platform.generateId n →
    UsedUp held w n
  agree : ∀ i, (held i).worker.map (·.1) = (held i).claims.job
  claimed : ∀ i, ∀ worker ∈ (held i).worker, ∀ row ∈ w.world.db.accountDeletionCleanups,
    row.claimId = some worker.1.claimId → row.assetKeys = worker.1.assetKeys
  puts : ∀ i, ∀ object ∈ (held i).put, object ∈ w.objects
  found : ∀ i, ∀ asset ∈ (held i).found, ∃ row, ∃ details ∈ w.details,
    details.storageKey = row.storageKey ∧ asset = toAssetRecord row details
  served : ∀ i, ∀ answer ∈ (held i).served, Served digest answer.1 answer.2

variable {digest} {held : ℕ → AssetPhase} {i : ℕ} {φ : AssetPhase} {w w' : AssetWorld}

/-- A new object is not known. -/
theorem Kept.unknown (h : Kept digest held w) {n : ℕ} {key : String}
    (hid : (held i).claims.id = some n) (hkey : KeyOf digest n key) :
    ¬ (Realmroot.custody held w).Known key ∧ ∀ details ∈ w.details, details.storageKey ≠ key :=
  ⟨fun hknown => (h.keys key (Or.inl hknown) n hkey).2 i hid,
    fun details hdetails hsame => (h.keys key (Or.inr ⟨details, hdetails, hsame⟩) n hkey).2 i hid⟩

omit [Platform] in
theorem putObject_objects {object : StoredObject}
    (hunknown : ¬ (Realmroot.custody held w).Known object.key) :
    (w.putObject object).objects = w.objects ++ [object] ∧
      ∀ old ∈ w.objects, old.key ≠ object.key := by
  have hnew : ∀ old ∈ w.objects, old.key ≠ object.key :=
    fun old hold hsame => hunknown (Or.inl ⟨old, hold, hsame⟩)
  refine ⟨?_, hnew⟩
  unfold AssetWorld.putObject AssetWorld.deleteObject
  rw [List.filter_eq_self.mpr]
  intro old hold
  simpa using hnew old hold

/-- The jobs of a worker that has finished. -/
theorem Kept.finished (h : Kept digest held w) {job : CleanupJob} {deleted : List String}
    (hworker : (held i).worker = some (job, deleted)) (hdone : ∀ key ∈ job.assetKeys, key ∈ deleted)
    {row : AccountDeletionCleanup} (hrow : row ∈ w.world.db.accountDeletionCleanups)
    (hholds : Database.holds job row = true) {key : String} (hkey : key ∈ row.assetKeys) :
    ¬ (Realmroot.custody held w).stored key := by
  simp only [Database.holds, Bool.and_eq_true, decide_eq_true_eq] at hholds
  have hkeys : row.assetKeys = job.assetKeys := h.claimed i _ hworker row hrow hholds.2
  rw [hkeys] at hkey
  exact h.custody.deleted_gone i key ⟨_, hworker, hdone key hkey⟩

omit [Platform] in
theorem claimCleanup_assets {now : Time} {claimId : String} {job : CleanupJob} {db db' : Database}
    (h : Database.claimCleanup now claimId db = .ok (some job, db')) :
    db'.uploadedAssets = db.uploadedAssets ∧ db'.users = db.users := by
  unfold Database.claimCleanup at h
  split at h
  · cases h
  · cases h
    exact ⟨rfl, rfl⟩

/-- What a step makes of the custody of objects: a program stores one that is new, or what is known
moves. -/
theorem Kept.custody_step (h : Kept digest held w) (hstep : AssetStep digest (held i) w φ w') :
    Custody.Move (Realmroot.custody held w)
        (Realmroot.custody (Function.update held i φ) w') ∨
      ∃ key n, (held i).claims.id = some n ∧ φ.claims.id = none ∧ KeyOf digest n key ∧
        Realmroot.custody (Function.update held i φ) w' =
          (Realmroot.custody held w).store i key := by
  cases hstep with
  | idle held' w' same next worker job put id found served =>
    left
    have hsame : Realmroot.custody held w' = Realmroot.custody held w := by
      unfold Realmroot.custody Database.Registers Database.Queues
      rw [same.assets, same.jobs, same.objects]
    rw [custody_same worker put, hsame]
    exact .none
  | put object n put id key content =>
    right
    obtain ⟨hobjects, -⟩ := putObject_objects (h.unknown id key).1
    refine ⟨object.key, n, id, rfl, key, ?_⟩
    ext j other
    · simp only [Realmroot.custody, hobjects, Custody.State.store, List.mem_append,
        List.mem_singleton, or_and_right, exists_or, exists_eq_left]
      rw [or_comm, eq_comm]
    · rfl
    · rfl
    all_goals
      by_cases hj : j = i
      · subst hj
        simp [Realmroot.custody, Custody.State.store, AssetPhase.ClaimsKey, AssetPhase.DeletedKey,
          AssetPhase.KeepsKey, put, eq_comm]
      · simp [Realmroot.custody, Custody.State.store, hj]
  | register asset object put key genuine accepted =>
    left
    have hreleased := custody_released (φ := { held i with put := none }) h.custody put rfl rfl
    rw [hreleased]
    have hmove := Custody.Move.register (c := Realmroot.custody held w) i object.key
      ⟨object, put, rfl⟩
    convert hmove using 1
    ext j other
    · rfl
    · simp only [Realmroot.custody, Database.Registers, AssetWorld.withDb, Custody.State.register,
        List.mem_append, List.mem_singleton, or_and_right, exists_or, exists_eq_left, key]
      rw [or_comm]
      exact or_congr_left eq_comm
    all_goals rfl
  | discard object put worker =>
    left
    have hreleased := custody_released (φ := { held i with put := none }) h.custody put rfl rfl
    rw [hreleased, custody_delete]
    exact .discard i object.key ⟨object, put, rfl⟩
  | delete key job deleted put worker mem =>
    left
    have hmove := Custody.Move.delete (c := Realmroot.custody held w) i key ⟨_, worker, mem⟩
    convert hmove using 1
    rw [custody_delete]
    ext j other
    · rfl
    · rfl
    · rfl
    all_goals
      by_cases hj : j = i
      · subst hj
        simp [Realmroot.custody, Custody.State.delete, AssetPhase.ClaimsKey, AssetPhase.DeletedKey,
          AssetPhase.KeepsKey, worker]
      · simp [Realmroot.custody, Custody.State.delete, hj]
  | handOver userId object put db accepted =>
    left
    have hreleased := custody_released (φ := { held i with put := none }) h.custody put rfl rfl
    rw [hreleased]
    have hmove := Custody.Move.handOver (c := Realmroot.custody held w) i object.key
      ⟨object, put, rfl⟩
    convert hmove using 1
    ext j other
    · rfl
    · simp only [Realmroot.custody, Database.Registers, AssetWorld.withDb, Custody.State.handOver]
      rw [(h.owned.enqueueAssetCleanup accepted).2]
    · exact Database.enqueueAssetCleanup_queues accepted _
    all_goals rfl
  | claim now n job db id claimed =>
    left
    obtain ⟨⟨row, hrow, -, hkeys⟩, -, hjobs⟩ := claimCleanup_ok claimed
    have hassets : db.uploadedAssets = w.world.db.uploadedAssets :=
      (claimCleanup_assets claimed).1
    have hmove := Custody.Move.claim (c := Realmroot.custody held w) i (fun key => key ∈ job.assetKeys)
      fun key hkey => ⟨row, hrow, hkeys ▸ hkey⟩
    convert hmove using 1
    ext j other
    · rfl
    · simp only [Realmroot.custody, Database.Registers, AssetWorld.withDb, Custody.State.claim, hassets]
    · exact Database.queues_updateWhere (f := claimedRow now (Platform.generateId n))
        (fun row => rfl) hjobs _
    all_goals
      by_cases hj : j = i
      · subst hj
        simp [Realmroot.custody, Custody.State.claim, AssetPhase.ClaimsKey, AssetPhase.DeletedKey,
          AssetPhase.KeepsKey]
      · simp [Realmroot.custody, Custody.State.claim, hj]
  | unclaimed =>
    left
    have hmove := Custody.Move.claim (c := Realmroot.custody held w) i (fun _ => False)
      fun key hkey => hkey.elim
    convert hmove using 1
    ext j other
    · rfl
    · rfl
    · rfl
    all_goals
      by_cases hj : j = i
      · subst hj
        simp [Realmroot.custody, Custody.State.claim, AssetPhase.ClaimsKey, AssetPhase.DeletedKey,
          AssetPhase.KeepsKey]
      · simp [Realmroot.custody, Custody.State.claim, hj]
  | finish job deleted worker done =>
    left
    rw [Function.update_eq_self]
    have hmove := Custody.Move.finish (c := Realmroot.custody held w)
      (fun key => ∃ row ∈ w.world.db.accountDeletionCleanups,
        Database.holds job row = false ∧ key ∈ row.assetKeys) ?_ ?_
    · convert hmove using 1
      ext j other
      · rfl
      · rfl
      · simp [Realmroot.custody, Database.Queues, AssetWorld.withDb, Custody.State.finish, and_assoc]
      all_goals rfl
    · rintro key ⟨row, hrow, -, hkey⟩
      exact ⟨row, hrow, hkey⟩
    · rintro key ⟨row, hrow, hkey⟩
      cases hholds : Database.holds job row with
      | true => exact Or.inr (h.finished worker done hrow hholds hkey)
      | false => exact Or.inl ⟨row, hrow, hholds, hkey⟩
  | retry job now =>
    left
    rw [Function.update_eq_self]
    have hsame : Realmroot.custody held
        (w.withDb ((CleanupCommand.retry job now).after w.world.db)) =
          Realmroot.custody held w := by
      ext j other
      · rfl
      · rfl
      · exact Database.queues_updateWhere
          (f := fun row => { row with
            attempts := row.attempts + 1
            nextAttemptAt := now + min 3600000 (60000 * 2 ^ min job.attempts 6)
            claimId := none, claimUntil := none })
          (fun row => rfl) rfl _
      all_goals rfl
    rw [hsame]
    exact .none
  | erase userId now db erased =>
    left
    rw [Function.update_eq_self]
    obtain ⟨-, hregisters, hqueues⟩ := h.owned.eraseAccount erased
    have hmove := Custody.Move.retire (c := Realmroot.custody held w)
      (w.world.db.HasAvatar userId)
    convert hmove using 1
    ext j other
    · rfl
    · exact hregisters _
    · exact hqueues _
    all_goals rfl

end Kept

end Realmroot
