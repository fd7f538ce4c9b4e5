import Realmroot.AccountCleanup
import Realmroot.Library.Names

/-!
# Clean-up jobs in runs

A job that disappears takes no work with it: whatever it was handed was deleted by a worker that
claimed the job afterwards.
-/

namespace Realmroot

open AtomicProgram Program Pool
open Database (CleanupJob)

/-! ## Statements -/

/-- The commands of the system. -/
def Command.OnJobs : Command → Prop
  | .read => True
  | .generateId => True
  | .send _ => True
  | .deleteAsset _ => True
  | .webhook _ => True
  | .membership (.eraseAccount ..) => True
  | .cleanup _ => True
  | _ => False

theorem issues_onJobs {phase : Option (CleanupJob × List String)} {command : Command}
    (h : cleanupMemory.issues phase command) : command.OnJobs := by
  cases command with
  | membership command =>
    cases command with
    | eraseAccount userId now => trivial
    | _ => exact h.elim
  | read => trivial
  | generateId => trivial
  | send request => trivial
  | deleteAsset key => trivial
  | webhook command => trivial
  | cleanup command => trivial
  | _ => exact h.elim

/-- The row of a job that a worker claims. -/
def claimedRow (now : Time) (claimId : String) (row : AccountDeletionCleanup) :
    AccountDeletionCleanup :=
  { row with claimId := some claimId, claimUntil := some (now + 300000) }

/-- What a command does to the table of the jobs. -/
inductive CleanupEffect (command : Command) (db : Database) : List AccountDeletionCleanup → Prop
  | same : CleanupEffect command db db.accountDeletionCleanups
  | append (row : AccountDeletionCleanup) (hclaim : row.claimId = none)
    (hnew : ∀ old ∈ db.accountDeletionCleanups, old.userId ≠ row.userId) :
    CleanupEffect command db (db.accountDeletionCleanups ++ [row])
  | release (p : AccountDeletionCleanup → Bool)
    (f : AccountDeletionCleanup → AccountDeletionCleanup)
    (hf : ∀ row, (f row).userId = row.userId ∧ (f row).claimId = none ∧
      ∀ key ∈ row.assetKeys, key ∈ (f row).assetKeys) :
    CleanupEffect command db (Table.updateWhere p f db.accountDeletionCleanups)
  | claim (now : Time) (claimId : String) (job : CleanupJob) (db' : Database)
    (hcommand : command = .cleanup (.claim now claimId))
    (hok : Database.claimCleanup now claimId db = .ok (some job, db')) :
    CleanupEffect command db (Table.updateWhere (fun row => row.userId = job.userId)
      (claimedRow now claimId) db.accountDeletionCleanups)
  | finish (job : CleanupJob) (hcommand : command = .cleanup (.finish job)) :
    CleanupEffect command db
      (db.accountDeletionCleanups.filter fun row => !Database.holds job row)

section Statements

variable {db db' : Database}

open Database

theorem eraseAccount_effect {command : Command} {userId : String} {now : Time}
    (h : eraseAccount userId now db = .ok ((), db')) :
    CleanupEffect command db db'.accountDeletionCleanups := by
  obtain ⟨⟨⟨⟩, db₁⟩, hcleanup, h⟩ := Statement.bind_ok h
  obtain ⟨⟨⟨⟩, db₂⟩, hidentities, h⟩ := Statement.bind_ok h
  obtain ⟨⟨⟨⟩, db₃⟩, hconnections, h⟩ := Statement.bind_ok h
  obtain ⟨_, _, _, _, rfl⟩ := retireIdentities_ok hidentities
  obtain ⟨_, rfl⟩ := retireConnections_ok hconnections
  cases h
  change CleanupEffect command db db₁.accountDeletionCleanups
  unfold enqueueCleanup at hcleanup
  split at hcleanup
  · cases hcleanup
    exact .same
  split at hcleanup
  · cases hcleanup
  split at hcleanup
  · cases hcleanup
    exact .same
  · rename_i hjob
    cases hcleanup
    refine .append _ rfl ?_
    intro old hold hsame
    exact hjob (List.any_eq_true.mpr ⟨old, hold, by simpa using hsame⟩)

theorem enqueueAssetCleanup_effect {command : Command} {userId key : String} {enqueued : Bool}
    (h : Database.enqueueAssetCleanup userId key db = .ok (enqueued, db')) :
    CleanupEffect command db db'.accountDeletionCleanups := by
  unfold Database.enqueueAssetCleanup at h
  split at h
  · cases h
    exact .same
  split at h
  · cases h
  split at h
  · cases h
    refine .release _ _ ?_
    intro row
    exact ⟨rfl, rfl, fun other hother => List.mem_append_left _ hother⟩
  · rename_i hjob
    cases h
    refine .append _ rfl ?_
    intro old hold hsame
    exact hjob (List.any_eq_true.mpr ⟨old, hold, by simpa using hsame⟩)

theorem mem_earliest {rows : List AccountDeletionCleanup} {row : AccountDeletionCleanup}
    (h : earliest rows = some row) : row ∈ rows := by
  induction rows generalizing row with
  | nil => cases h
  | cons first rows ih =>
    unfold earliest at h
    split at h
    · cases h
      exact List.mem_cons_self ..
    · rename_i other hother
      split_ifs at h
      · cases h
        exact List.mem_cons_self ..
      · cases h
        exact List.mem_cons_of_mem _ (ih hother)

/-- A claimed job is a row of the table, and only its claim changes. -/
theorem claimCleanup_ok {now : Time} {claimId : String} {job : CleanupJob}
    (h : claimCleanup now claimId db = .ok (some job, db')) :
    (∃ row ∈ db.accountDeletionCleanups, row.userId = job.userId ∧
      row.assetKeys = job.assetKeys) ∧ job.claimId = claimId ∧
      db'.accountDeletionCleanups = Table.updateWhere (fun row => row.userId = job.userId)
        (claimedRow now claimId) db.accountDeletionCleanups := by
  unfold claimCleanup at h
  split at h
  · cases h
  · rename_i row hrow
    cases h
    exact ⟨⟨row, (List.mem_filter.mp (mem_earliest hrow)).1, rfl, rfl⟩, rfl, rfl⟩

theorem cleanup_effect (command : CleanupCommand) :
    CleanupEffect (.cleanup command) db (command.after db).accountDeletionCleanups := by
  apply Statement.after_keeps
    (p := fun db' => CleanupEffect (.cleanup command) db db'.accountDeletionCleanups) .same
  intro answer db' hok
  cases command with
  | enqueueAsset userId key =>
    exact enqueueAssetCleanup_effect hok
  | claim now claimId =>
    cases answer with
    | none =>
      simp only [CleanupCommand.statement, claimCleanup] at hok
      split at hok
      · cases hok
        exact .same
      · cases hok
    | some job =>
      rw [(claimCleanup_ok hok).2.2]
      exact .claim now claimId job db' rfl hok
  | finish job =>
    cases hok
    exact .finish job rfl
  | retry job now =>
    cases hok
    refine .release _ _ ?_
    intro row
    exact ⟨rfl, rfl, fun other h => h⟩
  | clearConnection id =>
    cases hok
    exact .same
  | clearLease id =>
    cases hok
    exact .same

/-- What the commands of the system do to the jobs. -/
theorem exec_effect {command : Command} (h : command.OnJobs) (w : World) :
    CleanupEffect command w.db (exec command w).db.accountDeletionCleanups := by
  cases command with
  | read => exact .same
  | generateId => exact .same
  | send request => exact .same
  | deleteAsset key => exact .same
  | webhook command =>
    obtain ⟨_, _, _, hafter⟩ := command.after_eq w.db
    change CleanupEffect _ w.db (command.after w.db).accountDeletionCleanups
    rw [hafter]
    exact .same
  | membership command =>
    cases command with
    | eraseAccount userId now =>
      apply Statement.after_keeps (p := fun db' => CleanupEffect _ w.db db'.accountDeletionCleanups)
        .same
      intro answer db' hok
      exact eraseAccount_effect hok
    | _ => exact h.elim
  | cleanup command => exact cleanup_effect command
  | _ => exact h.elim

end Statements

/-! ## What a job owes -/

/-- The job still has the asset, and a claim on it comes after. -/
def Pending (log : List CleanupEntry) (db : Database) (userId key : String) : Prop :=
  ∃ row ∈ db.accountDeletionCleanups, row.userId = userId ∧ key ∈ row.assetKeys ∧
    ∀ claimId, row.claimId = some claimId →
      ∃ claim ∈ log, ∃ job, Claims claim job ∧ job.claimId = claimId

/-- The asset is in the job, or it is deleted. -/
def Owes (log : List CleanupEntry) (db : Database) (userId key : String) : Prop :=
  Pending log db userId key ∨ Cleaned log userId key

/-- The claims of a history have different names, which were not in use. -/
structure ClaimsApart (log : List CleanupEntry) : Prop where
  pairwise : log.Pairwise fun entry entry' => ∀ job job', Claims entry job → Claims entry' job' →
    job.claimId ≠ job'.claimId
  unused : ∀ entry ∈ log, ∀ job, Claims entry job →
    ∀ row ∈ entry.2.2.db.accountDeletionCleanups, row.claimId ≠ some job.claimId

theorem ClaimsApart.before {log : List CleanupEntry} {entry : CleanupEntry}
    (h : ClaimsApart (log ++ [entry])) : ClaimsApart log where
  pairwise := (List.pairwise_append.mp h.pairwise).1
  unused earlier hearlier := h.unused earlier (List.mem_append_left _ hearlier)

/-- What every step of a history keeps. -/
structure JobsKept (start : Database) (log : List CleanupEntry) (db : Database) : Prop where
  users : Table.Keyed (·.userId) db.accountDeletionCleanups
  claimed : ∀ claim ∈ log, ∀ job, Claims claim job → ∀ row ∈ db.accountDeletionCleanups,
    row.claimId = some job.claimId → row.userId = job.userId ∧ row.assetKeys = job.assetKeys
  enqueued : ∀ before entry after, log = before ++ entry :: after →
    ∀ userId key, Enqueues entry.2.1 entry.2.2 userId key → Owes after db userId key
  listed : ∀ userId key, start.Lists userId key → Owes log db userId key

/-- A list whose entries exclude each other splits at one of them in one way. -/
theorem pairwise_split {α : Type} {R : α → α → Prop} {l before before' after after' : List α}
    {x x' : α} (h : l.Pairwise R) (hx : l = before ++ x :: after)
    (hx' : l = before' ++ x' :: after') (hR : ¬ R x x') (hR' : ¬ R x' x) :
    before = before' ∧ x = x' ∧ after = after' := by
  subst hx
  rcases List.append_eq_append_iff.mp hx' with ⟨middle, rfl, hmiddle⟩ | ⟨middle, rfl, hmiddle⟩
  · cases middle with
    | nil => simpa using hmiddle
    | cons y middle =>
      simp only [List.cons_append, List.cons.injEq] at hmiddle
      obtain ⟨rfl, rfl⟩ := hmiddle
      rw [List.pairwise_append, List.pairwise_cons] at h
      exact absurd (h.2.1.1 x' (by simp)) hR
  · cases middle with
    | nil =>
      simp only [List.nil_append, List.cons.injEq] at hmiddle
      exact ⟨List.append_nil _, hmiddle.1.symm, hmiddle.2.symm⟩
    | cons y middle =>
      simp only [List.cons_append, List.cons.injEq] at hmiddle
      obtain ⟨rfl, rfl⟩ := hmiddle
      rw [List.pairwise_append] at h
      exact absurd (h.2.2 x' (by simp) x (List.mem_cons_self ..)) hR'

theorem Cleaned.append {log : List CleanupEntry} {userId key : String}
    (h : Cleaned log userId key) (entry : CleanupEntry) :
    Cleaned (log ++ [entry]) userId key := by
  obtain ⟨before, claim, after, job, rfl, hclaims, huser, hkey, deleting, hmem, hdeletes⟩ := h
  exact ⟨before, claim, after ++ [entry], job, by simp, hclaims, huser, hkey, deleting,
    List.mem_append_left _ hmem, hdeletes⟩

section Steps

variable {start : Database} {log : List CleanupEntry}
  {phase : Option (CleanupJob × List String)} {request : CleanupCall} {command : Command}
  {w : World} {userId key : String}

/-- A row that keeps its claim or gives it up is pending as before. -/
theorem Pending.later {after : List CleanupEntry} {db' : Database} {row : AccountDeletionCleanup}
    (hrow : row ∈ db'.accountDeletionCleanups) (huser : row.userId = userId)
    (hkey : key ∈ row.assetKeys) (entry : CleanupEntry)
    (hclaim : ∀ claimId, row.claimId = some claimId →
      (∃ claim ∈ after, ∃ job, Claims claim job ∧ job.claimId = claimId) ∨
        ∃ job, Claims entry job ∧ job.claimId = claimId) :
    Pending (after ++ [entry]) db' userId key := by
  refine ⟨row, hrow, huser, hkey, ?_⟩
  intro claimId hclaimId
  rcases hclaim claimId hclaimId with ⟨claim, hmem, hclaims⟩ | hclaims
  · exact ⟨claim, List.mem_append_left _ hmem, hclaims⟩
  · exact ⟨entry, List.mem_append_right _ (List.mem_singleton.mpr rfl), hclaims⟩

/-- A worker that finishes a job which still has the asset has deleted it. -/
theorem cleaned_of_finish {before after : List CleanupEntry} {job : CleanupJob}
    {row : AccountDeletionCleanup} (hapart : ClaimsApart log) (hkept : JobsKept start log w.db)
    (hissues : cleanupMemory.issues phase (.cleanup (.finish job))) (hborne : BorneOut phase log)
    (hlog : log = before ++ after) (hrow : row ∈ w.db.accountDeletionCleanups)
    (hholds : Database.holds job row = true) (huser : row.userId = userId)
    (hkey : key ∈ row.assetKeys)
    (hclaim : ∀ claimId, row.claimId = some claimId →
      ∃ claim ∈ after, ∃ job, Claims claim job ∧ job.claimId = claimId) :
    Cleaned after userId key := by
  obtain ⟨deleted, rfl, hall⟩ := hissues
  obtain ⟨before₁, claim₁, after₁, hlog₁, hclaims₁, hdeleted⟩ := hborne
  have hheld : row.userId = job.userId ∧ row.claimId = some job.claimId := by
    simpa [Database.holds] using hholds
  obtain ⟨claim₂, hmem₂, job₂, hclaims₂, hid₂⟩ := hclaim job.claimId hheld.2
  obtain ⟨middle, after₂, hafter⟩ := List.append_of_mem hmem₂
  have hlog₂ : log = (before ++ middle) ++ claim₂ :: after₂ := by
    rw [hlog, hafter, List.append_assoc]
  have hsame := pairwise_split hapart.pairwise hlog₁ hlog₂
    (fun hR => hR job job₂ hclaims₁ hclaims₂ hid₂.symm)
    (fun hR => hR job₂ job hclaims₂ hclaims₁ hid₂)
  obtain ⟨-, rfl, rfl⟩ := hsame
  have hmem₁ : claim₁ ∈ log := by
    rw [hlog₁]
    exact List.mem_append_right _ (List.mem_cons_self ..)
  have hkeys := (hkept.claimed claim₁ hmem₁ job hclaims₁ row hrow hheld.2).2
  rw [hkeys] at hkey
  exact ⟨middle, claim₁, after₁, job, hafter, hclaims₁, hheld.1.symm.trans huser, hkey,
    hdeleted key (hall key hkey)⟩

/-- What a job owes, it owes after the next command or has done. -/
theorem Owes.step {before after : List CleanupEntry} (hapart : ClaimsApart log)
    (hkept : JobsKept start log w.db) (hissues : cleanupMemory.issues phase command)
    (hborne : BorneOut phase log) (hlog : log = before ++ after)
    (h : Owes after w.db userId key) :
    Owes (after ++ [(request, command, w)]) (exec command w).db userId key := by
  rcases h with ⟨row, hrow, huser, hkey, hclaim⟩ | hcleaned
  · have heffect := exec_effect (issues_onJobs hissues) w
    have hstays : row ∈ (exec command w).db.accountDeletionCleanups →
        Owes (after ++ [(request, command, w)]) (exec command w).db userId key := by
      intro hrow'
      exact Or.inl (Pending.later hrow' huser hkey _ fun claimId hid => Or.inl (hclaim claimId hid))
    generalize hrows : (exec command w).db.accountDeletionCleanups = rows at heffect hstays
    cases heffect with
    | same => exact hstays hrow
    | append new hnone hnew => exact hstays (List.mem_append_left _ hrow)
    | release p f hf =>
      by_cases hp : p row = true
      · obtain ⟨hsame, hnone, hkeys⟩ := hf row
        have hmem : f row ∈ (exec command w).db.accountDeletionCleanups :=
          hrows ▸ Table.mem_updateWhere_of_pos hrow hp
        refine Or.inl (Pending.later hmem (hsame.trans huser) (hkeys key hkey) _ ?_)
        intro claimId hid
        rw [hnone] at hid
        cases hid
      · exact hstays (Table.mem_updateWhere_of_not hrow (by simpa using hp))
    | claim now claimId job db' hcommand hok =>
      by_cases hp : row.userId = job.userId
      · have hmem : claimedRow now claimId row ∈ (exec command w).db.accountDeletionCleanups :=
          hrows ▸ Table.mem_updateWhere_of_pos hrow (by simpa using hp)
        refine Or.inl (Pending.later hmem huser hkey _ ?_)
        intro id hid
        cases hid
        exact Or.inr ⟨job, ⟨now, claimId, db', hcommand, hok⟩, claimCleanup_id hok⟩
      · exact hstays (Table.mem_updateWhere_of_not hrow (by simpa using hp))
    | finish job hcommand =>
      cases hholds : Database.holds job row with
      | false => exact hstays (List.mem_filter.mpr ⟨hrow, by simp [hholds]⟩)
      | true =>
        subst hcommand
        exact Or.inr ((cleaned_of_finish hapart hkept hissues hborne hlog hrow hholds huser hkey
          hclaim).append _)
  · exact Or.inr (hcleaned.append _)

/-- The rows of the jobs have their users for keys after the next command. -/
theorem users_step (hkeyed : Table.Keyed (·.userId) w.db.accountDeletionCleanups)
    (hcommand : command.OnJobs) :
    Table.Keyed (·.userId) (exec command w).db.accountDeletionCleanups := by
  have heffect := exec_effect hcommand w
  generalize (exec command w).db.accountDeletionCleanups = rows at heffect
  cases heffect with
  | same => exact hkeyed
  | append new hnone hnew => exact hkeyed.append_singleton hnew
  | release p f hf => exact hkeyed.updateWhere fun row => (hf row).1
  | claim now claimId job db' hcommand hok => exact hkeyed.updateWhere fun row => rfl
  | finish job hcommand => exact List.Nodup.sublist (List.Sublist.map _ List.filter_sublist) hkeyed

/-- The rows under an earlier claim are what was claimed. -/
theorem claimed_step (hapart : ClaimsApart (log ++ [(request, command, w)]))
    (hkept : JobsKept start log w.db) (hcommand : command.OnJobs) :
    ∀ claim ∈ log, ∀ job, Claims claim job →
      ∀ row ∈ (exec command w).db.accountDeletionCleanups, row.claimId = some job.claimId →
        row.userId = job.userId ∧ row.assetKeys = job.assetKeys := by
  intro claim hclaim job hclaims row hrow hid
  have hold : row ∈ w.db.accountDeletionCleanups →
      row.userId = job.userId ∧ row.assetKeys = job.assetKeys :=
    fun hrow => hkept.claimed claim hclaim job hclaims row hrow hid
  have heffect := exec_effect hcommand w
  generalize (exec command w).db.accountDeletionCleanups = rows at heffect hrow
  cases heffect with
  | same => exact hold hrow
  | append new hnone hnew =>
    rcases List.mem_append.mp hrow with hmem | hmem
    · exact hold hmem
    · rw [List.mem_singleton.mp hmem, hnone] at hid
      cases hid
  | release p f hf =>
    obtain ⟨old, hmem, rfl⟩ := Table.mem_updateWhere.mp hrow
    split_ifs at hid hold ⊢
    · rw [(hf old).2.1] at hid
      cases hid
    · exact hold hmem
  | claim now claimId claimed db' hclaiming hok =>
    obtain ⟨old, hmem, rfl⟩ := Table.mem_updateWhere.mp hrow
    split_ifs at hid hold ⊢
    · have hlater : Claims (request, command, w) claimed := ⟨now, claimId, db', hclaiming, hok⟩
      have hpairwise := List.pairwise_append.mp hapart.pairwise
      have hdifferent := hpairwise.2.2 claim hclaim _ (List.mem_singleton.mpr rfl) job claimed
        hclaims hlater
      have hsame : claimId = job.claimId := Option.some.inj hid
      exact absurd (hsame.symm.trans (claimCleanup_id hok).symm) hdifferent
    · exact hold hmem
  | finish held hfinishing => exact hold (List.mem_filter.mp hrow).1

/-- The row under a new claim is what was claimed. -/
theorem claimed_new (hapart : ClaimsApart (log ++ [(request, command, w)]))
    (hkeyed : Table.Keyed (·.userId) w.db.accountDeletionCleanups) {job : CleanupJob}
    (hclaims : Claims (request, command, w) job) :
    ∀ row ∈ (exec command w).db.accountDeletionCleanups, row.claimId = some job.claimId →
      row.userId = job.userId ∧ row.assetKeys = job.assetKeys := by
  intro row hrow hid
  have hunused := hapart.unused _ (List.mem_append_right _ (List.mem_singleton.mpr rfl)) job hclaims
  obtain ⟨now, claimId, db', hcommand, hok⟩ := hclaims
  dsimp only at hcommand hok hunused
  subst hcommand
  obtain ⟨⟨found, hfound, huser, hkeys⟩, -, hrows⟩ := claimCleanup_ok hok
  have hexec : (exec (Command.cleanup (.claim now claimId)) w).db = db' :=
    Statement.after_of_ok hok
  rw [hexec, hrows] at hrow
  obtain ⟨old, hmem, rfl⟩ := Table.mem_updateWhere.mp hrow
  split_ifs at hid ⊢ with hselected
  · have hsame : old.userId = job.userId := by simpa using hselected
    obtain rfl := hkeyed.eq_of_key hmem hfound (hsame.trans huser.symm)
    exact ⟨huser, hkeys⟩
  · exact absurd hid (hunused old hmem)

/-- An asset that is handed to a job is pending. -/
theorem enqueues_pending (hcommand : command.OnJobs) (h : Enqueues command w userId key) :
    Pending [] (exec command w).db userId key := by
  have hfree : ∀ row ∈ (exec command w).db.accountDeletionCleanups, row.userId = userId →
      key ∈ row.assetKeys → row.claimId = none →
        Pending [] (exec command w).db userId key := by
    intro row hrow huser hkey hnone
    refine ⟨row, hrow, huser, hkey, ?_⟩
    intro claimId hid
    rw [hnone] at hid
    cases hid
  rcases h with ⟨rfl, db, hok⟩ | ⟨hbefore, row, hrow, huser, hkey⟩
  · have hexec : (exec (Command.cleanup (.enqueueAsset userId key)) w).db = db :=
      Statement.after_of_ok hok
    rw [hexec] at hfree ⊢
    unfold Database.enqueueAssetCleanup at hok
    split at hok
    · cases hok
    split at hok
    · cases hok
    split at hok
    · rename_i hjob
      cases hok
      obtain ⟨old, hold, hsame⟩ := List.any_eq_true.mp hjob
      exact hfree _ (Table.mem_updateWhere_of_pos hold hsame) (by simpa using hsame) (by simp) rfl
    · cases hok
      exact hfree _ (List.mem_append_right _ (List.mem_singleton.mpr rfl)) rfl (by simp) rfl
  · have heffect := exec_effect hcommand w
    have hnot : ∀ old ∈ w.db.accountDeletionCleanups, old.userId = userId →
        key ∉ old.assetKeys := fun old hold hsame hmem => hbefore ⟨old, hold, hsame, hmem⟩
    have hrow' := hrow
    generalize (exec command w).db.accountDeletionCleanups = rows at heffect hrow'
    apply hfree row hrow huser hkey
    cases heffect with
    | same => exact absurd hkey (hnot row hrow' huser)
    | append new hnone hnew =>
      rcases List.mem_append.mp hrow' with hmem | hmem
      · exact absurd hkey (hnot row hmem huser)
      · rw [List.mem_singleton.mp hmem, hnone]
    | release p f hf =>
      obtain ⟨old, hmem, rfl⟩ := Table.mem_updateWhere.mp hrow'
      split_ifs at huser hkey ⊢
      · exact (hf old).2.1
      · exact absurd hkey (hnot old hmem huser)
    | claim now claimId job db' hclaiming hok =>
      obtain ⟨old, hmem, rfl⟩ := Table.mem_updateWhere.mp hrow'
      split_ifs at huser hkey
      · exact absurd hkey (hnot old hmem huser)
      · exact absurd hkey (hnot old hmem huser)
    | finish job hfinishing => exact absurd hkey (hnot row (List.mem_filter.mp hrow').1 huser)

/-- Every command of a worker keeps the history of the jobs. -/
theorem JobsKept.step (hapart : ClaimsApart (log ++ [(request, command, w)]))
    (hkept : JobsKept start log w.db) (hissues : cleanupMemory.issues phase command)
    (hborne : BorneOut phase log) :
    JobsKept start (log ++ [(request, command, w)]) (exec command w).db := by
  have hbefore := hapart.before
  have hcommand := issues_onJobs hissues
  constructor
  · exact users_step hkept.users hcommand
  · intro claim hclaim job hclaims
    rcases List.mem_append.mp hclaim with hold | hnew
    · exact claimed_step hapart hkept hcommand claim hold job hclaims
    · rw [List.mem_singleton.mp hnew] at hclaims
      exact claimed_new hapart hkept.users hclaims
  · intro before entry after hsplit userId key henqueues
    rcases List.eq_nil_or_concat after with rfl | ⟨middle, last, rfl⟩
    · obtain ⟨-, hlast⟩ := List.append_inj' hsplit rfl
      cases hlast
      exact Or.inl (enqueues_pending hcommand henqueues)
    · rw [List.concat_eq_append, ← List.cons_append, ← List.append_assoc] at hsplit
      obtain ⟨hlog, hlast⟩ := List.append_inj' hsplit rfl
      cases hlast
      have hlog' : log = (before ++ [entry]) ++ middle := by simpa using hlog
      rw [List.concat_eq_append]
      exact (hkept.enqueued before entry middle hlog userId key henqueues).step hbefore hkept
        hissues hborne hlog'
  · intro userId key hlists
    have hall : log = [] ++ log := rfl
    exact (hkept.listed userId key hlists).step hbefore hkept hissues hborne hall

end Steps

/-! ## Names of claims -/

/-- A claim stores its name in the row of its job. -/
def claimNames [Platform] : Naming Command World String where
  generates
    | .generateId, w, n => n = Platform.generateId w.nextId
    | _, _, _ => False
  stores
    | .read, _ => False
    | .generateId, _ => False
    | .send _, _ => False
    | .deleteAsset _, _ => False
    | .webhook _, _ => False
    | .membership (.eraseAccount ..), _ => False
    | .cleanup (.claim _ claimId), n => n = claimId
    | .cleanup _, _ => False
    | _, _ => True
  used w n := ∃ k < w.nextId, n = Platform.generateId k
  stored w n := ∃ row ∈ w.db.accountDeletionCleanups, row.claimId = some n

section Names

variable [Platform] {α β : Type} {own : String → Prop}

/-- A command that stores no name. -/
def ClaimNameless (c : Command) : Prop := ∀ n, ¬ claimNames.stores c n

theorem nameless_uses {p : Request α} (hp : p.Uses ClaimNameless) :
    p.Linear claimNames (fun _ _ => True) own := by
  induction p generalizing own with
  | pure a => trivial
  | throw e => trivial
  | call c next ih => exact ⟨fun n hn => absurd hn (hp.1 n), fun s => ih s (hp.2 s)⟩
  | ask next ih => exact fun r => ih r (hp r)

theorem nameless_of_sparesJobs (command : Command) (h : command.SparesJobs) : ClaimNameless command := by
  cases command with
  | read => exact fun _ => id
  | generateId => exact fun _ => id
  | send request => exact fun _ => id
  | webhook command => exact fun _ => id
  | cleanup command =>
    cases command with
    | clearConnection id => exact fun _ hn => hn
    | clearLease id => exact fun _ hn => hn
    | _ => exact h.elim
  | _ => exact h.elim

/-- What a worker does for a job does not claim another one. -/
theorem cleanUpOrRetry_uses (job : CleanupJob) : (cleanUpOrRetry job).Uses ClaimNameless := by
  have hout : ∀ command : Command, command.Outside → ClaimNameless command :=
    fun command h => nameless_of_sparesJobs command (sparesJobs_outside command h)
  have hread : ClaimNameless .read := fun _ => id
  apply Uses.tryCatch
  · refine Uses.bind ?_ fun done => trivial
    unfold cleanUpJob
    apply uses_bind
    · apply Uses.mapEach
      intro key
      apply attempt_uses
      intro reply
      dsimp only
      split_ifs
      · exact ⟨fun _ h => h, fun _ => trivial⟩
      · trivial
    intro assetErrors
    apply uses_bind (uses_query.mpr hread)
    intro leases
    apply uses_bind
    · apply Uses.mapEach
      intro id
      apply attempt_uses
      exact (revokeDeletedAccountLease_uses hout id).bind
        fun _ => uses_perform.mpr fun _ h => h
    intro leaseErrors
    apply uses_bind (uses_query.mpr hread)
    intro connections
    apply uses_bind
    · apply Uses.mapEach
      intro id
      apply attempt_uses
      exact (revokeDeletedAccountConnection_uses hout id).bind
        fun _ => uses_perform.mpr fun _ h => h
    intro connectionErrors
    apply uses_bind uses_throwIf
    intro _
    apply uses_bind (publishWebhookEvent_uses hread (fun _ => id) (fun _ _ => id) (fun _ _ => id)
      _ _ _ _)
    intro published
    exact uses_perform.mpr fun _ h => h
  · intro cause
    apply uses_bind (uses_currentTime.mpr hread)
    intro now
    exact uses_bind (uses_perform.mpr fun _ h => h) fun _ => trivial

/-- A worker claims every job under a name of its own. -/
theorem cleanUpJobs_linear (count : ℕ) :
    (cleanUpJobs count).Linear claimNames (fun _ _ => True) own := by
  induction count generalizing own with
  | zero => trivial
  | succ count ih =>
    apply Linear.bind
    refine (nameless_uses (uses_currentTime.mpr fun _ => id)).mono ?_
    intro now own' _
    refine ⟨fun n hn => hn.elim, ?_⟩
    intro w
    refine ⟨?_, ?_⟩
    · rintro n rfl
      exact Or.inr rfl
    intro w'
    apply Linear.bind
    dsimp only
    split
    · rename_i answer db hok
      cases answer with
      | none => trivial
      | some job =>
        apply Linear.bind
        refine (nameless_uses (cleanUpOrRetry_uses job)).mono ?_
        intro failure own'' _
        apply Linear.bind
        exact ih.mono fun _ _ _ => trivial
    · trivial

/-- A name in a row was there before, or the command claims the job. -/
theorem stored_claim {c : Command} {w : World} {n : String} (hcommand : c.OnJobs)
    (h : claimNames.stored (exec c w) n) : claimNames.stored w n ∨ claimNames.stores c n := by
  obtain ⟨row, hrow, hn⟩ := h
  have heffect := exec_effect hcommand w
  generalize (exec c w).db.accountDeletionCleanups = rows at heffect hrow
  cases heffect with
  | same => exact Or.inl ⟨row, hrow, hn⟩
  | append new hnone hnew =>
    rcases List.mem_append.mp hrow with hmem | hmem
    · exact Or.inl ⟨row, hmem, hn⟩
    · rw [List.mem_singleton.mp hmem, hnone] at hn
      cases hn
  | release p f hf =>
    obtain ⟨old, hmem, rfl⟩ := Table.mem_updateWhere.mp hrow
    split_ifs at hn
    · rw [(hf old).2.1] at hn
      cases hn
    · exact Or.inl ⟨old, hmem, hn⟩
  | claim now claimId job db' hclaiming hok =>
    obtain ⟨old, hmem, rfl⟩ := Table.mem_updateWhere.mp hrow
    split_ifs at hn
    · subst hclaiming
      exact Or.inr (Option.some.inj hn).symm
    · exact Or.inl ⟨old, hmem, hn⟩
  | finish job hfinishing => exact Or.inl ⟨row, (List.mem_filter.mp hrow).1, hn⟩

theorem cleanupSystem_lawful : Lawful cleanupSystem claimNames where
  fresh c w n hgenerates := by
    rintro ⟨k, hk, hn⟩
    cases c with
    | generateId =>
      have hsame := Platform.generateId_inj.mp (hgenerates.symm.trans hn)
      omega
    | _ => exact hgenerates
  generated c w n hgenerates := by
    cases c with
    | generateId => exact ⟨w.nextId, Nat.lt_succ_self _, hgenerates⟩
    | _ => exact hgenerates.elim
  used c w n hused := by
    obtain ⟨k, hk, hn⟩ := hused
    exact ⟨k, hk.trans_le (nextId_exec c w), hn⟩
  stored c w n h := by
    by_cases honjobs : c.OnJobs
    · exact stored_claim honjobs h
    · cases c with
      | membership command =>
        cases command with
        | eraseAccount userId now => exact absurd trivial honjobs
        | _ => exact Or.inr trivial
      | read => exact absurd trivial honjobs
      | generateId => exact absurd trivial honjobs
      | send request => exact absurd trivial honjobs
      | deleteAsset key => exact absurd trivial honjobs
      | webhook command => exact absurd trivial honjobs
      | cleanup command => exact absurd trivial honjobs
      | _ => exact Or.inr trivial
  used_environment event w n hused := by
    cases event with
    | elapse milliseconds => exact hused
    | configure db => exact hused
  stored_environment event w n h := by
    cases event with
    | elapse milliseconds => exact h
    | configure db => exact h
  linear call := by
    cases call with
    | enqueue userId key =>
      have huses : (enqueueAssetCleanup userId key).Uses ClaimNameless :=
        uses_perform.mpr fun _ h => h
      exact nameless_uses (huses.bind fun _ => trivial)
    | erase userId =>
      exact nameless_uses (deleteAccount_uses (fun _ => id) userId fun _ _ => id)
    | process =>
      apply Linear.bind
      refine (cleanUpJobs_linear 10).mono ?_
      intro failures own _
      exact nameless_uses uses_throwIf

/-- The claims of a run are apart. -/
theorem claimsApart_run {w : World} (hfree : ∀ row ∈ w.db.accountDeletionCleanups,
    row.claimId = none) (schedule : List CleanupAction) :
    ClaimsApart ((idle w).history cleanupSystem schedule) := by
  have hseparate : Separate claimNames (fun _ _ => False)
      (idle w : Pool Command World Reply Error Unit CleanupCall) := by
    apply separate_idle
    rintro n ⟨row, hrow, hn⟩
    rw [hfree row hrow] at hn
    cases hn
  have hstores : ∀ (entry : CleanupEntry) job, Claims entry job →
      claimNames.stores entry.2.1 job.claimId := by
    rintro entry job ⟨now, claimId, db, hcommand, hok⟩
    rw [hcommand]
    exact claimCleanup_id hok
  constructor
  · refine (hseparate.history_pairwise cleanupSystem_lawful schedule).imp ?_
    intro entry entry' honce job job' hclaims hclaims' hsame
    exact honce job.claimId (hstores entry job hclaims) (hsame ▸ hstores entry' job' hclaims')
  · intro entry hentry job hclaims row hrow hid
    exact hseparate.history cleanupSystem_lawful schedule entry hentry job.claimId
      (hstores entry job hclaims) ⟨row, hrow, hid⟩

end Names

/-! ## Runs -/

section Runs

variable [Platform] {w : World}

end Runs

/-! ## An asset that is handed over while a worker holds the job -/

namespace CleanupExample

attribute [local instance] samplePlatform

def start : World :=
  { db :=
      { users := [{ id := "ada", deletedAt := some 0, banned := true }]
        accountDeletionCleanups :=
          [{ userId := "ada", organizationIds := [], assetKeys := ["avatar"]
             nextAttemptAt := 0 }] }
    clock := 10, nextId := 0 }

def steps (count i : ℕ) : List CleanupAction := List.replicate count (.advance i {})

/-- The worker has deleted what it claimed when another asset is handed over. -/
def handover : List CleanupAction :=
  [.start .process] ++ steps 5 0 ++ [.start (.enqueue "ada" "late")] ++ steps 1 1 ++ steps 19 0

end CleanupExample

end Realmroot
