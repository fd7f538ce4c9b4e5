import Realmroot.StoredAssets

/-!
# Assets in runs

Every step keeps rows and objects together, as long as no identifier is generated twice and a
storage key tells the identifier of its asset. So does every run, and an object that has neither a
row nor a job is one that an upload answers for.
-/

namespace Realmroot

open AtomicProgram Program Pool
open Database (CleanupJob)

section Kept

variable [Platform] {digest : List UInt8 → List UInt8}
variable {held : ℕ → AssetPhase} {i : ℕ} {φ : AssetPhase} {w w' : AssetWorld}

/-! ### Names -/

/-- A step gives the program the next identifier at most. -/
theorem AssetStep.ids {phase : AssetPhase} (hstep : AssetStep digest phase w φ w') :
    w.world.nextId ≤ w'.world.nextId ∧ ∀ n, φ.claims.id = some n →
      phase.claims.id = some n ∨ (n = w.world.nextId ∧ n < w'.world.nextId) := by
  cases hstep with
  | idle held' w' same next worker job put id found served => exact ⟨next, id⟩
  | put => exact ⟨le_rfl, by simp⟩
  | claim => exact ⟨le_rfl, by simp⟩
  | unclaimed => exact ⟨le_rfl, by simp⟩
  | _ => exact ⟨le_rfl, fun n hn => Or.inl hn⟩

theorem UsedUp.step {n : ℕ} (h : UsedUp held w n) (hstep : AssetStep digest (held i) w φ w') :
    UsedUp (Function.update held i φ) w' n := by
  obtain ⟨hnext, hid⟩ := hstep.ids
  refine ⟨lt_of_lt_of_le h.1 hnext, ?_⟩
  intro j
  by_cases hj : j = i
  · subst hj
    rw [Function.update_self]
    intro hn
    rcases hid n hn with hold | ⟨rfl, -⟩
    · exact h.2 j hold
    · exact lt_irrefl _ h.1
  · rw [Function.update_of_ne hj]
    exact h.2 j

/-- An identifier that a program uses is used up. -/
theorem Kept.used (h : Kept digest held w) (hstep : AssetStep digest (held i) w φ w') {n : ℕ}
    (hid : (held i).claims.id = some n) (hnone : φ.claims.id = none) :
    UsedUp (Function.update held i φ) w' n := by
  refine ⟨lt_of_lt_of_le (h.ids i n hid) hstep.ids.1, ?_⟩
  intro j
  by_cases hj : j = i
  · subst hj
    rw [Function.update_self, hnone]
    simp
  · rw [Function.update_of_ne hj]
    exact fun hother => hj (h.apart j i n hother hid)

/-- What a program has after a step of one, it had before, or it is the next identifier. -/
theorem AssetStep.id_cases (hstep : AssetStep digest (held i) w φ w') {j n : ℕ}
    (hn : (Function.update held i φ j).claims.id = some n) :
    (held j).claims.id = some n ∨ (j = i ∧ n = w.world.nextId ∧ n < w'.world.nextId) := by
  by_cases hj : j = i
  · subst hj
    rw [Function.update_self] at hn
    rcases hstep.ids.2 n hn with hold | hnew
    · exact Or.inl hold
    · exact Or.inr ⟨rfl, hnew⟩
  · rw [Function.update_of_ne hj] at hn
    exact Or.inl hn

theorem Kept.ids_step (h : Kept digest held w) (hstep : AssetStep digest (held i) w φ w') (j n : ℕ)
    (hn : (Function.update held i φ j).claims.id = some n) : n < w'.world.nextId := by
  rcases hstep.id_cases hn with hold | ⟨-, -, hnew⟩
  · exact lt_of_lt_of_le (h.ids j n hold) hstep.ids.1
  · exact hnew

theorem Kept.apart_step (h : Kept digest held w) (hstep : AssetStep digest (held i) w φ w')
    (j k n : ℕ) (hj : (Function.update held i φ j).claims.id = some n)
    (hk : (Function.update held i φ k).claims.id = some n) : j = k := by
  rcases hstep.id_cases hj with hold | ⟨hji, hn, -⟩
  · rcases hstep.id_cases hk with hold' | ⟨-, hn, -⟩
    · exact h.apart j k n hold hold'
    · have hlt := h.ids j n hold
      omega
  · rcases hstep.id_cases hk with hold' | ⟨hki, -, -⟩
    · have hlt := h.ids k n hold'
      omega
    · exact hji.trans hki.symm

/-! ### Keys -/

/-- No identifier is another one and a hyphen and more. -/
def IdsDelimited : Prop :=
  ∀ (m n : ℕ) (name name' : List Char),
    (Platform.generateId m).toList ++ '-' :: name = (Platform.generateId n).toList ++ '-' :: name' →
      m = n

omit [Platform] in
theorem purpose_no_slash (purpose : AssetPurpose) : '/' ∉ purpose.text.toList := by
  cases purpose <;> decide

omit [Platform] in
theorem digitChar_ne_slash : ∀ n < 16, Nat.digitChar n ≠ '/' := by decide

omit [Platform] in
theorem sha256Hex_no_slash (bytes : List UInt8) :
    '/' ∉ (sha256HexOf digest bytes).toList.take 2 := by
  intro hmem
  have hall := List.mem_of_mem_take hmem
  rw [sha256HexOf, String.toList_ofList, List.mem_flatMap] at hall
  obtain ⟨byte, -, hbyte⟩ := hall
  have hlt := byte.toNat_lt
  simp only [hexOfByte, List.mem_cons, List.not_mem_nil, or_false] at hbyte
  rcases hbyte with h | h
  · exact digitChar_ne_slash _ (by omega) h.symm
  · exact digitChar_ne_slash _ (by omega) h.symm

omit [Platform] in
/-- Texts are cut in one way at the first of a character. -/
theorem eq_of_cut {c : Char} {xs ys rest rest' : List Char} (hxs : c ∉ xs) (hys : c ∉ ys)
    (h : xs ++ c :: rest = ys ++ c :: rest') : xs = ys ∧ rest = rest' := by
  induction xs generalizing ys with
  | nil =>
    cases ys with
    | nil => simpa using h
    | cons y ys =>
      obtain ⟨rfl, -⟩ := List.cons.inj h
      exact absurd List.mem_cons_self hys
  | cons x xs ih =>
    cases ys with
    | nil =>
      obtain ⟨rfl, -⟩ := List.cons.inj h
      exact absurd List.mem_cons_self hxs
    | cons y ys =>
      obtain ⟨rfl, htail⟩ := List.cons.inj h
      have hboth := ih (fun hmem => hxs (List.mem_cons_of_mem _ hmem))
        (fun hmem => hys (List.mem_cons_of_mem _ hmem)) htail
      exact ⟨congrArg _ hboth.1, hboth.2⟩

theorem storageKeyOf_toList (purpose : AssetPurpose) (checksum assetId name : String) :
    (storageKeyOf purpose checksum assetId name).toList =
      purpose.text.toList ++ '/' :: (checksum.toList.take 2 ++ '/' ::
        (assetId.toList ++ '-' :: (safeFileName name).toList)) := by
  simp [storageKeyOf]

/-- A key tells the identifier of its asset. -/
theorem KeyOf.unique (hids : IdsDelimited) {m n : ℕ} {key : String} (hm : KeyOf digest m key)
    (hn : KeyOf digest n key) : m = n := by
  obtain ⟨purpose, bytes, name, rfl⟩ := hm
  obtain ⟨purpose', bytes', name', hsame⟩ := hn
  have hlist := congrArg String.toList hsame
  rw [storageKeyOf_toList, storageKeyOf_toList] at hlist
  have hrest := (eq_of_cut (purpose_no_slash purpose) (purpose_no_slash purpose') hlist).2
  exact hids m n _ _ (eq_of_cut (sha256Hex_no_slash bytes) (sha256Hex_no_slash bytes') hrest).2

/-- Descriptions are added for objects that are stored. -/
theorem AssetStep.details (hstep : AssetStep digest (held i) w φ w')
    {details : AssetDetails} (hdetails : details ∈ w'.details) :
    details ∈ w.details ∨ ∃ asset : AssetRecord, ∃ object, (held i).put = some object ∧
      object.key = asset.storageKey ∧ Genuine digest asset.details object ∧
        details = asset.details ∧ w'.objects = w.objects := by
  cases hstep with
  | idle held' w' same next worker job put id found served => exact Or.inl (same.details ▸ hdetails)
  | register asset object put key genuine accepted =>
    rcases List.mem_append.mp hdetails with hold | hlast
    · exact Or.inl hold
    · exact Or.inr ⟨asset, object, put, key, genuine, List.mem_singleton.mp hlast, rfl⟩
  | _ => exact Or.inl hdetails

theorem Kept.keys_step (h : Kept digest held w) (hids : IdsDelimited)
    (hstep : AssetStep digest (held i) w φ w') (key : String)
    (hkey : (Realmroot.custody (Function.update held i φ) w').Known key ∨
      ∃ details ∈ w'.details, details.storageKey = key) (n : ℕ) (hn : KeyOf digest n key) :
    UsedUp (Function.update held i φ) w' n := by
  have hold : (Realmroot.custody held w).Known key ∨
      (∃ details ∈ w.details, details.storageKey = key) →
        UsedUp (Function.update held i φ) w' n :=
    fun hbefore => (h.keys key hbefore n hn).step hstep
  rcases hkey with hknown | ⟨details, hdetails, rfl⟩
  · rcases h.custody_step hstep with hmove | ⟨new, m, hid, hnone, hnew, hstore⟩
    · exact hold (Or.inl (hmove.known h.custody hknown))
    · rw [hstore] at hknown
      by_cases hsame : key = new
      · subst hsame
        obtain rfl := hnew.unique hids hn
        exact h.used hstep hid hnone
      · refine hold (Or.inl ?_)
        simpa [Custody.State.Known, Custody.State.store, hsame] using hknown
  · rcases hstep.details hdetails with hbefore | ⟨asset, object, hput, hkey, -, rfl, -⟩
    · exact hold (Or.inr ⟨details, hbefore, rfl⟩)
    · exact hold (Or.inl (Or.inl ⟨object, h.puts i object hput, hkey⟩))

/-! ### Claims -/

/-- A worker claims a job under a name of its own, or claims stay what they are or end. -/
theorem Kept.claims_cases (h : Kept digest held w) (hstep : AssetStep digest (held i) w φ w') :
    (∃ n job, (held i).claims.id = some n ∧ φ.claims.id = none ∧ φ.worker = some (job, []) ∧
        job.claimId = Platform.generateId n ∧
          ∀ row ∈ w'.world.db.accountDeletionCleanups, row.claimId = none ∨
            row ∈ w.world.db.accountDeletionCleanups ∨
              (row.claimId = some job.claimId ∧ row.assetKeys = job.assetKeys)) ∨
      ((∀ worker ∈ φ.worker, ∃ worker' ∈ (held i).worker, worker'.1 = worker.1) ∧
        ∀ row ∈ w'.world.db.accountDeletionCleanups, row.claimId = none ∨
          row ∈ w.world.db.accountDeletionCleanups) := by
  have hworkers : ∀ worker ∈ (held i).worker, ∃ worker' ∈ (held i).worker, worker'.1 = worker.1 :=
    fun worker hworker => ⟨worker, hworker, rfl⟩
  cases hstep with
  | idle held' w' same next worker job put id found served =>
    exact Or.inr ⟨worker ▸ hworkers, fun row hrow => Or.inr (same.jobs ▸ hrow)⟩
  | delete key job deleted put worker mem =>
    refine Or.inr ⟨?_, fun row hrow => Or.inr hrow⟩
    rintro _ ⟨⟩
    exact ⟨_, worker, rfl⟩
  | handOver userId object put db accepted =>
    exact Or.inr ⟨hworkers, Database.claimId_of_effect (enqueueAssetCleanup_effect accepted)⟩
  | claim now n job db id claimed =>
    obtain ⟨⟨row, hrow, huser, hkeys⟩, hname, hjobs⟩ := claimCleanup_ok claimed
    refine Or.inl ⟨n, job, id, rfl, rfl, hname, ?_⟩
    intro row' hrow'
    have hmem : row' ∈ db.accountDeletionCleanups := hrow'
    rw [hjobs] at hmem
    obtain ⟨old, hold, rfl⟩ := Table.mem_updateWhere.mp hmem
    split_ifs with hclaimed
    · have hsame : old.userId = row.userId := (of_decide_eq_true hclaimed).trans huser.symm
      obtain rfl := h.owned.jobs.eq_of_key hold hrow hsame
      exact Or.inr (Or.inr ⟨congrArg some hname.symm, hkeys⟩)
    · exact Or.inr (Or.inl hold)
  | unclaimed => exact Or.inr ⟨by simp, fun row hrow => Or.inr hrow⟩
  | finish job deleted worker done =>
    exact Or.inr ⟨hworkers, fun row hrow => Or.inr (List.mem_filter.mp hrow).1⟩
  | retry job now =>
    refine Or.inr ⟨hworkers, ?_⟩
    intro row hrow
    obtain ⟨old, hold, rfl⟩ := Table.mem_updateWhere.mp hrow
    split_ifs
    · exact Or.inl rfl
    · exact Or.inr hold
  | erase userId now db erased =>
    exact Or.inr ⟨hworkers, Database.claimId_of_effect (eraseAccount_effect erased)⟩
  | _ => exact Or.inr ⟨hworkers, fun row hrow => Or.inr hrow⟩

theorem Kept.names_step (h : Kept digest held w) (hstep : AssetStep digest (held i) w φ w')
    (claimId : String) (hclaim : NamesClaim (Function.update held i φ) w' claimId) (n : ℕ)
    (hn : claimId = Platform.generateId n) : UsedUp (Function.update held i φ) w' n := by
  have hold : NamesClaim held w claimId → UsedUp (Function.update held i φ) w' n :=
    fun hbefore => (h.names claimId hbefore n hn).step hstep
  have hothers : ∀ j, j ≠ i → (∃ worker ∈ (Function.update held i φ j).worker,
      worker.1.claimId = claimId) → UsedUp (Function.update held i φ) w' n := by
    intro j hj hworker
    rw [Function.update_of_ne hj] at hworker
    exact hold (Or.inr ⟨j, hworker⟩)
  rcases h.claims_cases hstep with ⟨m, job, hid, hnone, hworker, hname, hrows⟩ | ⟨hworkers, hrows⟩
  · have hnew : claimId = job.claimId → UsedUp (Function.update held i φ) w' n := by
      intro hsame
      obtain rfl := Platform.generateId_inj.mp (hname.symm.trans (hsame.symm.trans hn))
      exact h.used hstep hid hnone
    rcases hclaim with ⟨row, hrow, hclaim⟩ | ⟨j, worker, hmem, hclaim⟩
    · rcases hrows row hrow with hfree | hbefore | ⟨hsame, -⟩
      · rw [hfree] at hclaim
        cases hclaim
      · exact hold (Or.inl ⟨row, hbefore, hclaim⟩)
      · exact hnew (Option.some.inj (hclaim.symm.trans hsame))
    · by_cases hj : j = i
      · subst hj
        rw [Function.update_self, hworker] at hmem
        cases hmem
        exact hnew hclaim.symm
      · exact hothers j hj ⟨worker, hmem, hclaim⟩
  · rcases hclaim with ⟨row, hrow, hclaim⟩ | ⟨j, worker, hmem, hclaim⟩
    · rcases hrows row hrow with hfree | hbefore
      · rw [hfree] at hclaim
        cases hclaim
      · exact hold (Or.inl ⟨row, hbefore, hclaim⟩)
    · by_cases hj : j = i
      · subst hj
        rw [Function.update_self] at hmem
        obtain ⟨worker', hworker', hsame⟩ := hworkers worker hmem
        exact hold (Or.inr ⟨j, worker', hworker', hsame ▸ hclaim⟩)
      · exact hothers j hj ⟨worker, hmem, hclaim⟩

theorem Kept.claimed_step (h : Kept digest held w) (hstep : AssetStep digest (held i) w φ w')
    (j : ℕ) (worker : CleanupJob × List String)
    (hworker : worker ∈ (Function.update held i φ j).worker)
    (row : AccountDeletionCleanup) (hrow : row ∈ w'.world.db.accountDeletionCleanups)
    (hclaim : row.claimId = some worker.1.claimId) : row.assetKeys = worker.1.assetKeys := by
  rcases h.claims_cases hstep with ⟨n, job, hid, -, hnew, hname, hrows⟩ | ⟨hworkers, hrows⟩
  · -- the name of the claim is new
    have hfresh : ¬ NamesClaim held w job.claimId :=
      fun hnamed => (h.names _ hnamed n hname).2 i hid
    have hcases : worker.1 = job ∨ ∃ worker' ∈ (held j).worker, worker'.1 = worker.1 := by
      by_cases hj : j = i
      · subst hj
        rw [Function.update_self, hnew] at hworker
        cases hworker
        exact Or.inl rfl
      · rw [Function.update_of_ne hj] at hworker
        exact Or.inr ⟨worker, hworker, rfl⟩
    rcases hrows row hrow with hfree | hbefore | ⟨hsame, hkeys⟩
    · rw [hfree] at hclaim
      cases hclaim
    · rcases hcases with hjob | ⟨worker', hworker', hjob⟩
      · exact absurd (Or.inl ⟨row, hbefore, hjob ▸ hclaim⟩) hfresh
      · rw [← hjob] at hclaim ⊢
        exact h.claimed j worker' hworker' row hbefore hclaim
    · rcases hcases with hjob | ⟨worker', hworker', hjob⟩
      · rw [hjob, hkeys]
      · have hnamed : worker'.1.claimId = job.claimId := by
          rw [hjob]
          exact Option.some.inj (hclaim.symm.trans hsame)
        exact absurd (Or.inr ⟨j, worker', hworker', hnamed⟩) hfresh
  · have hbefore : ∃ worker' ∈ (held j).worker, worker'.1 = worker.1 := by
      by_cases hj : j = i
      · subst hj
        rw [Function.update_self] at hworker
        exact hworkers worker hworker
      · rw [Function.update_of_ne hj] at hworker
        exact ⟨worker, hworker, rfl⟩
    obtain ⟨worker', hworker', hjob⟩ := hbefore
    rcases hrows row hrow with hfree | hbefore
    · rw [hfree] at hclaim
      cases hclaim
    · rw [← hjob] at hclaim ⊢
      exact h.claimed j worker' hworker' row hbefore hclaim

/-! ### Rows and objects -/

theorem Kept.owned_step (h : Kept digest held w) (hstep : AssetStep digest (held i) w φ w') :
    w'.world.db.AssetsOwned := by
  cases hstep with
  | idle held' w' same next worker job put id found served =>
    exact h.owned.same same.users same.assets (congrArg _ same.jobs)
  | register asset object put key genuine accepted => exact (h.owned.insertAsset accepted).1
  | handOver userId object put db accepted => exact (h.owned.enqueueAssetCleanup accepted).1
  | claim now n job db id claimed =>
    obtain ⟨hassets, husers⟩ := claimCleanup_assets claimed
    obtain ⟨-, -, hjobs⟩ := claimCleanup_ok claimed
    refine h.owned.same husers hassets ?_
    change db.accountDeletionCleanups.map _ = _
    rw [hjobs]
    exact Table.map_updateWhere fun row => rfl
  | finish job deleted worker done => exact h.owned.fewer List.filter_sublist
  | retry job now => exact h.owned.same rfl rfl (Table.map_updateWhere fun row => rfl)
  | erase userId now db erased => exact (h.owned.eraseAccount erased).1
  | _ => exact h.owned

/-- The objects after a step are those before, with one more or one less. -/
theorem Kept.objects_step (h : Kept digest held w) (hstep : AssetStep digest (held i) w φ w') :
    Table.Keyed (·.key) w'.objects ∧ ∀ object ∈ w'.objects, object ∈ w.objects ∨
      ∀ details ∈ w'.details, details.storageKey ≠ object.key := by
  have hfewer : ∀ key, Table.Keyed (·.key) (w.deleteObject key).objects ∧
      ∀ object ∈ (w.deleteObject key).objects, object ∈ w.objects ∨
        ∀ details ∈ w.details, details.storageKey ≠ object.key := by
    intro key
    refine ⟨List.Nodup.sublist (List.Sublist.map _ List.filter_sublist) h.described.objects, ?_⟩
    exact fun object hobject => Or.inl (List.mem_filter.mp hobject).1
  cases hstep with
  | idle held' w' same next worker job put id found served =>
    rw [same.objects]
    exact ⟨h.described.objects, fun object hobject => Or.inl hobject⟩
  | put object n put id key content =>
    obtain ⟨hunknown, hdetails⟩ := h.unknown id key
    obtain ⟨hobjects, hnew⟩ := putObject_objects hunknown
    rw [hobjects]
    refine ⟨h.described.objects.append_singleton hnew, ?_⟩
    intro other hother
    rcases List.mem_append.mp hother with hold | hlast
    · exact Or.inl hold
    · rw [List.mem_singleton.mp hlast]
      exact Or.inr hdetails
  | discard object put worker => exact hfewer object.key
  | delete key job deleted put worker mem => exact hfewer key
  | _ => exact ⟨h.described.objects, fun object hobject => Or.inl hobject⟩

/-- Rows are those before, or have a description. -/
theorem Kept.rows_step (h : Kept digest held w) (hstep : AssetStep digest (held i) w φ w')
    {key : String} (hkey : w'.world.db.Registers key) :
    w.world.db.Registers key ∨ ∃ details ∈ w'.details, details.storageKey = key := by
  cases hstep with
  | idle held' w' same next worker job put id found served =>
    left
    unfold Database.Registers at hkey ⊢
    rwa [same.assets] at hkey
  | register asset object put key genuine accepted =>
    obtain ⟨row, hrow, rfl⟩ := hkey
    rcases List.mem_append.mp hrow with hold | hlast
    · exact Or.inl ⟨row, hold, rfl⟩
    · rw [List.mem_singleton.mp hlast]
      exact Or.inr ⟨asset.details, List.mem_append_right _ (List.mem_singleton_self _), rfl⟩
  | handOver userId object put db accepted =>
    left
    unfold Database.Registers at hkey ⊢
    rwa [← (h.owned.enqueueAssetCleanup accepted).2]
  | claim now n job db id claimed =>
    left
    unfold Database.Registers at hkey ⊢
    rwa [← (claimCleanup_assets claimed).1]
  | erase userId now db erased =>
    exact Or.inl (((h.owned.eraseAccount erased).2.1 key).mp hkey).1
  | _ => exact Or.inl hkey

theorem AssetStep.details_mono {phase : AssetPhase} (hstep : AssetStep digest phase w φ w')
    {details : AssetDetails} (h : details ∈ w.details) : details ∈ w'.details := by
  cases hstep with
  | idle held' w' same next worker job put id found served => exact same.details ▸ h
  | register asset object put key genuine accepted => exact List.mem_append_left _ h
  | _ => exact h

theorem Kept.described_step (h : Kept digest held w) (hstep : AssetStep digest (held i) w φ w') :
    w'.Described digest := by
  obtain ⟨hkeyed, hobjects⟩ := h.objects_step hstep
  refine ⟨hkeyed, ?_, ?_⟩
  · intro row hrow
    rcases h.rows_step hstep ⟨row, hrow, rfl⟩ with ⟨old, hold, hsame⟩ | hnew
    · obtain ⟨details, hdetails, hkey⟩ := h.described.rows old hold
      exact ⟨details, hstep.details_mono hdetails, hkey.trans hsame⟩
    · exact hnew
  · intro details hdetails object hobject hkey
    rcases hobjects object hobject with hbefore | hnone
    · rcases hstep.details hdetails with hold | ⟨asset, stored, hput, hsame, hgenuine, rfl, -⟩
      · exact h.described.genuine details hold object hbefore hkey
      · have hstored := h.puts i stored hput
        obtain rfl := h.described.objects.eq_of_key hbefore hstored (hkey.trans hsame.symm)
        exact hgenuine
    · exact absurd hkey.symm (hnone details hdetails)

/-- What a program has put stays until it gives it away. -/
theorem Kept.puts_step (h : Kept digest held w) (hstep : AssetStep digest (held i) w φ w') (j : ℕ)
    (object : StoredObject) (hobject : object ∈ (Function.update held i φ j).put) :
    object ∈ w'.objects := by
  have hothers : j ≠ i → object ∈ (held j).put := by
    intro hj
    rwa [Function.update_of_ne hj] at hobject
  have hmine : j = i → object ∈ φ.put := by
    rintro rfl
    rwa [Function.update_self] at hobject
  have hsame : φ.put = (held i).put → object ∈ (held j).put := by
    intro hput
    by_cases hj : j = i
    · rw [hj, ← hput]
      exact hmine hj
    · exact hothers hj
  have hgiven : φ.put = none → j ≠ i := by
    rintro hput rfl
    have hnone := hmine rfl
    rw [hput] at hnone
    cases hnone
  cases hstep with
  | idle held' w' same next worker job put id found served =>
    rw [same.objects]
    exact h.puts j object (hsame put)
  | put new n put id key content =>
    obtain ⟨hobjects, -⟩ := putObject_objects (h.unknown id key).1
    rw [hobjects]
    by_cases hj : j = i
    · obtain rfl : new = object := Option.some.inj (hmine hj)
      exact List.mem_append_right _ (List.mem_singleton_self _)
    · exact List.mem_append_left _ (h.puts j object (hothers hj))
  | register asset stored put key genuine accepted =>
    exact h.puts j object (hothers (hgiven rfl))
  | discard stored put worker =>
    have hother := hothers (hgiven rfl)
    have hne : object.key ≠ stored.key := by
      intro hkey
      exact hgiven rfl (h.custody.kept_alone j i _ ⟨object, hother, rfl⟩ ⟨stored, put, hkey.symm⟩)
    exact List.mem_filter.mpr ⟨h.puts j object hother, by simpa using hne⟩
  | delete key job deleted put worker mem =>
    have hother := hsame rfl
    have hne : object.key ≠ key := by
      rintro rfl
      exact h.custody.kept_unclaimed j i _ ⟨object, hother, rfl⟩ ⟨_, worker, mem⟩
    exact List.mem_filter.mpr ⟨h.puts j object hother, by simpa using hne⟩
  | handOver userId stored put db accepted => exact h.puts j object (hothers (hgiven rfl))
  | _ => exact h.puts j object (hsame rfl)

/-- What is read of a record and of an object with its key is what the record says. -/
theorem Kept.serves (h : Kept digest held w) {asset : AssetRecord} {object : StoredObject}
    (hfound : (held i).found = some asset) (hobject : object ∈ w.objects)
    (hkey : object.key = asset.storageKey) : Served digest asset object := by
  obtain ⟨row, details, hdetails, hsame, rfl⟩ := h.found i asset hfound
  have hgenuine := h.described.genuine details hdetails object hobject (hkey.trans hsame.symm)
  refine ⟨hkey, hgenuine.size, hgenuine.contentType, ?_⟩
  cases hchecksum : details.checksumSha256 with
  | none => exact Or.inr (by simp [toAssetRecord, hchecksum])
  | some checksum =>
    left
    rw [← hgenuine.checksum checksum hchecksum]
    simp [toAssetRecord, hchecksum]

/-- What a download has read of the table, and what it has read of the store. -/
theorem Kept.reads_step (h : Kept digest held w) (hstep : AssetStep digest (held i) w φ w')
    (j : ℕ) :
    (∀ asset ∈ (Function.update held i φ j).found, ∃ row, ∃ details ∈ w'.details,
        details.storageKey = row.storageKey ∧ asset = toAssetRecord row details) ∧
      ∀ answer ∈ (Function.update held i φ j).served, Served digest answer.1 answer.2 := by
  have hfound : ∀ j, ∀ asset ∈ (held j).found, ∃ row, ∃ details ∈ w'.details,
      details.storageKey = row.storageKey ∧ asset = toAssetRecord row details := by
    intro j asset hasset
    obtain ⟨row, details, hdetails, hread⟩ := h.found j asset hasset
    exact ⟨row, details, hstep.details_mono hdetails, hread⟩
  by_cases hj : j = i
  · subst hj
    rw [Function.update_self]
    have hmine : (∀ asset ∈ (held j).found, ∃ row, ∃ details ∈ w'.details,
        details.storageKey = row.storageKey ∧ asset = toAssetRecord row details) ∧
          ∀ answer ∈ (held j).served, Served digest answer.1 answer.2 := ⟨hfound j, h.served j⟩
    cases hstep with
    | idle held' w' same next worker job put id found served =>
      constructor
      · intro asset hasset
        rcases found asset hasset with hold | ⟨row, details, hdetails, hread⟩
        · exact hfound j asset hold
        · exact ⟨row, details, same.details.symm ▸ hdetails, hread⟩
      · rintro ⟨asset, object⟩ hanswer
        rcases served asset object hanswer with hold | ⟨hasset, hobject, hkey⟩
        · exact h.served j _ hold
        · exact h.serves hasset hobject hkey
    | _ => exact hmine
  · rw [Function.update_of_ne hj]
    exact ⟨hfound j, h.served j⟩

theorem Kept.agree_step (h : Kept digest held w) (hstep : AssetStep digest (held i) w φ w')
    (j : ℕ) :
    (Function.update held i φ j).worker.map (·.1) = (Function.update held i φ j).claims.job := by
  by_cases hj : j = i
  · subst hj
    rw [Function.update_self]
    have hmine := h.agree j
    cases hstep with
    | idle held' w' same next worker job put id found served =>
      rw [worker, job]
      exact hmine
    | delete key job deleted put worker mem =>
      rw [worker] at hmine
      exact hmine
    | claim => rfl
    | unclaimed => rfl
    | _ => exact hmine
  · rw [Function.update_of_ne hj]
    exact h.agree j

/-- Every step keeps what is kept. -/
theorem Kept.step (h : Kept digest held w) (hids : IdsDelimited)
    (hstep : AssetStep digest (held i) w φ w') : Kept digest (Function.update held i φ) w' where
  custody := by
    rcases h.custody_step hstep with hmove | ⟨key, n, hid, -, hkey, hstore⟩
    · exact hmove.sound h.custody
    · rw [hstore]
      exact h.custody.store (h.unknown hid hkey).1
  owned := h.owned_step hstep
  described := h.described_step hstep
  ids := h.ids_step hstep
  apart := h.apart_step hstep
  keys := h.keys_step hids hstep
  names := h.names_step hstep
  agree := h.agree_step hstep
  claimed := h.claimed_step hstep
  puts := h.puts_step hstep
  found j := (h.reads_step hstep j).1
  served j := (h.reads_step hstep j).2

/-- What happens to the users, or to other tables, keeps it too. -/
theorem Kept.outside (h : Kept digest held w) (howned : w'.world.db.AssetsOwned)
    (hassets : w'.world.db.uploadedAssets = w.world.db.uploadedAssets)
    (hjobs : w'.world.db.accountDeletionCleanups = w.world.db.accountDeletionCleanups)
    (hdetails : w'.details = w.details) (hobjects : w'.objects = w.objects)
    (hnext : w.world.nextId ≤ w'.world.nextId) : Kept digest held w' := by
  have hcustody : Realmroot.custody held w' = Realmroot.custody held w := by
    unfold Realmroot.custody Database.Registers Database.Queues
    rw [hassets, hjobs, hobjects]
  have hused : ∀ n, UsedUp held w n → UsedUp held w' n :=
    fun n hn => ⟨lt_of_lt_of_le hn.1 hnext, hn.2⟩
  refine ⟨hcustody ▸ h.custody, howned, ⟨?_, ?_, ?_⟩, ?_, h.apart, ?_, ?_, h.agree, ?_, ?_, ?_,
    h.served⟩
  · rw [hobjects]
    exact h.described.objects
  · rw [hassets, hdetails]
    exact h.described.rows
  · rw [hdetails, hobjects]
    exact h.described.genuine
  · exact fun j n hn => lt_of_lt_of_le (h.ids j n hn) hnext
  · rw [hcustody, hdetails]
    exact fun key hkey n hn => hused n (h.keys key hkey n hn)
  · intro claimId hclaim n hn
    have hbefore : NamesClaim held w claimId := by
      unfold NamesClaim at hclaim ⊢
      rwa [hjobs] at hclaim
    exact hused n (h.names claimId hbefore n hn)
  · rw [hjobs]
    exact h.claimed
  · rw [hobjects]
    exact h.puts
  · rw [hdetails]
    exact h.found

omit [Platform] in
theorem signUp_owned {db : Database} (h : db.AssetsOwned) (user : User) :
    (db.signUp user).AssetsOwned ∧ (db.signUp user).uploadedAssets = db.uploadedAssets ∧
      (db.signUp user).accountDeletionCleanups = db.accountDeletionCleanups := by
  unfold Database.signUp
  split_ifs with htaken
  · exact ⟨h, rfl, rfl⟩
  · refine ⟨h.users_change ?_ rfl rfl ?_, rfl, rfl⟩
    · apply h.users.append_singleton
      intro old hold hsame
      exact htaken (List.any_eq_true.mpr ⟨old, hold, by simpa using hsame⟩)
    · exact fun old hold => ⟨old, List.mem_append_left _ hold, rfl, rfl⟩

omit [Platform] in
theorem keepAssets_owned {kept : Database} (h : kept.AssetsOwned) (edit : User → User)
    (db : Database) : (keepAssets edit kept db).AssetsOwned := by
  refine h.users_change ?_ rfl rfl ?_
  · have hids : (keepAssets edit kept db).users.map (·.id) = kept.users.map (·.id) := by
      simp [keepAssets]
    rw [Table.Keyed, hids]
    exact h.users
  · exact fun user huser => ⟨_, List.mem_map_of_mem huser, rfl, rfl⟩

theorem Kept.environment (h : Kept digest held w) (event : AssetEvent) :
    Kept digest held ((assetSystem digest).environment event w) := by
  cases event with
  | elapse milliseconds => exact h.outside h.owned rfl rfl rfl rfl le_rfl
  | generate => exact h.outside h.owned rfl rfl rfl rfl (Nat.le_succ _)
  | signUp user =>
    obtain ⟨howned, hassets, hjobs⟩ := signUp_owned h.owned user
    exact h.outside howned hassets hjobs rfl rfl le_rfl
  | configure db edit => exact h.outside (keepAssets_owned h.owned edit db) rfl rfl rfl rfl le_rfl

end Kept

/-! ## Runs -/

section Runs

variable [Platform] (digest : List UInt8 → List UInt8)

/-- Rows have objects, objects have rows or jobs, and no identifier that is generated later is in a
key or names a claim. -/
structure AssetWorld.Tidy (w : AssetWorld) : Prop where
  owned : w.world.db.AssetsOwned
  described : w.Described digest
  registered : ∀ key, w.world.db.Registers key →
    (∃ object ∈ w.objects, object.key = key) ∧ ¬ w.world.db.Queues key
  stored : ∀ object ∈ w.objects,
    w.world.db.Registers object.key ∨ w.world.db.Queues object.key
  keys : ∀ n key, KeyOf digest n key → ((∃ object ∈ w.objects, object.key = key) ∨
    w.world.db.Registers key ∨ w.world.db.Queues key ∨
      ∃ details ∈ w.details, details.storageKey = key) → n < w.world.nextId
  names : ∀ row ∈ w.world.db.accountDeletionCleanups, ∀ n,
    row.claimId = some (Platform.generateId n) → n < w.world.nextId

variable {digest} {w : AssetWorld}

theorem AssetWorld.Tidy.kept (h : w.Tidy digest) : Kept digest (fun _ => {}) w := by
  have hnothing : ∀ i key, ¬ (custody (fun _ => {}) w).claimed i key ∧
      ¬ (custody (fun _ => {}) w).deleted i key ∧ ¬ (custody (fun _ => {}) w).kept i key := by
    simp [custody, AssetPhase.ClaimsKey, AssetPhase.DeletedKey, AssetPhase.KeepsKey]
  refine ⟨⟨?_, ?_, ?_, ?_, ?_, ?_, ?_, ?_, ?_, ?_, ?_⟩, h.owned, h.described, ?_, ?_, ?_, ?_, ?_,
    ?_, ?_, ?_, ?_⟩
  · exact fun key hkey => (h.registered key hkey).1
  · exact fun i key hkept => absurd hkept (hnothing i key).2.2
  · rintro key ⟨object, hobject, rfl⟩
    rcases h.stored object hobject with hregistered | hqueued
    · exact Or.inl hregistered
    · exact Or.inr (Or.inl hqueued)
  · exact fun key hkey => (h.registered key hkey).2
  · exact fun i key _ => (hnothing i key).1
  · exact fun i key _ => (hnothing i key).2.2
  · exact fun i key hkept => absurd hkept (hnothing i key).2.2
  · exact fun i j key hkept => absurd hkept (hnothing i key).2.2
  · exact fun i j key hkept => absurd hkept (hnothing i key).2.2
  · exact fun i key hdeleted => absurd hdeleted (hnothing i key).2.1
  · exact fun i key hdeleted => absurd hdeleted (hnothing i key).2.1
  · simp
  · simp
  · intro key hkey n hn
    refine ⟨h.keys n key hn ?_, by simp⟩
    rcases hkey with (hstored | hregistered | hqueued | ⟨i, hclaimed⟩) | hdetails
    · exact Or.inl hstored
    · exact Or.inr (Or.inl hregistered)
    · exact Or.inr (Or.inr (Or.inl hqueued))
    · exact absurd hclaimed (hnothing i key).1
    · exact Or.inr (Or.inr (Or.inr hdetails))
  · rintro claimId (⟨row, hrow, hclaim⟩ | ⟨i, worker, hworker, -⟩) n rfl
    · exact ⟨h.names row hrow n hclaim, by simp⟩
    · cases hworker
  · simp
  · simp
  · simp
  · simp
  · simp

/-- What every run keeps. -/
theorem kept_run (hids : IdsDelimited) (hstart : w.Tidy digest) (schedule : List AssetAction) :
    ((idle w).run (assetSystem digest) schedule).Holding (assetMemory digest) {}
      (fun _ => Answered) (fun _ e held => held.put = none ∨ Abandoned e) (Kept digest)
      (heldAfter (assetSystem digest) (assetMemory digest) (fun _ => {}) (idle w) schedule) := by
  apply holding_run
  · exact fun call => assetCall_holds digest call
  · exact fun held i command w h hissues => h.step hids (assetStep_exec (h.agree i) hissues)
  · exact fun held event w h => h.environment event
  · exact hstart.kept

omit [Platform] in
theorem keepPut_mem {put : Option StoredObject} {command : Command} {w : World}
    {object : StoredObject} (h : object ∈ keepPut put command w) : object ∈ put := by
  unfold keepPut at h
  split at h
  · exact (Option.mem_filter_iff.mp h).1
  · split at h
    · exact (Option.mem_filter_iff.mp h).1
    · exact h
  · exact h

/-- What a program keeps, it has put. -/
theorem put_of_recall {held : AssetPhase} {entries : List (AssetCommand × AssetWorld)}
    {object : StoredObject} (h : object ∈ ((assetMemory digest).recall held entries).put) :
    object ∈ held.put ∨ ∃ w, (.put object, w) ∈ entries := by
  induction entries generalizing held with
  | nil => exact Or.inl h
  | cons entry entries ih =>
    obtain ⟨command, w⟩ := entry
    have hlast : object ∈
        ((assetMemory digest).recall ((assetMemory digest).advance held command w) entries).put := h
    rcases ih hlast with hbefore | ⟨w', hlater⟩
    · cases command with
      | base command => exact Or.inl (keepPut_mem hbefore)
      | put new =>
        obtain rfl : new = object := Option.some.inj hbefore
        exact Or.inr ⟨w, List.mem_cons_self⟩
      | createAsset asset =>
        have hkept : object ∈ (if (Database.insertAsset asset.row).refuses w.world.db then held.put
          else none) := hbefore
        split_ifs at hkept
        · exact Or.inl hkept
        · cases hkept
      | findAsset id => exact Or.inl hbefore
      | getObject key => exact Or.inl hbefore
    · exact Or.inr ⟨w', List.mem_cons_of_mem _ hlater⟩

variable (digest) (w)

/-- The call has put the object. It is in progress, or it has failed to clean up and says so. -/
def AnswersFor (schedule : List AssetAction) (i : ℕ) (object : StoredObject) : Prop :=
  (∃ s, (.put object, s) ∈ (idle w).commandsOf (assetSystem digest) i schedule) ∧
    ∃ call p, ((idle w).run (assetSystem digest) schedule).procs[i]? = some (call, p) ∧
      (∀ answer, p ≠ .pure answer) ∧ ∀ e, p = .throw e → Abandoned e

variable {digest} {w}

theorem answersFor_of_kept (hids : IdsDelimited) (hstart : w.Tidy digest)
    {schedule : List AssetAction} {i : ℕ} {object : StoredObject}
    (h : (heldAfter (assetSystem digest) (assetMemory digest) (fun _ => {}) (idle w)
      schedule i).put = some object) : AnswersFor digest w schedule i object := by
  have hrun := kept_run hids hstart schedule
  refine ⟨?_, ?_⟩
  · rcases put_of_recall h with hnone | hput
    · cases hnone
    · exact hput
  · cases hget : ((idle w).run (assetSystem digest) schedule).procs[i]? with
    | none =>
      rw [hrun.idle i (List.getElem?_eq_none_iff.mp hget)] at h
      cases h
    | some entry =>
      obtain ⟨call, p⟩ := entry
      have hp := hrun.programs i call p hget
      refine ⟨call, p, rfl, ?_, ?_⟩
      · rintro answer rfl
        rw [hp.1] at h
        cases h
      · rintro e rfl
        rcases hp with hnone | habandoned
        · rw [hnone] at h
          cases h
        · exact habandoned

/-- In every run of uploads, downloads, erasures and workers, a row of the table of assets has its
object, and the object is what the row says. An object has a row, a job that lists it, or a call
that answers for it. A download that returns serves what its record says. -/
theorem assets_stay_together (hids : IdsDelimited) (hstart : w.Tidy digest)
    (schedule : List AssetAction) :
    let P := (idle w).run (assetSystem digest) schedule
    (∀ row ∈ P.state.world.db.uploadedAssets, ∃ details ∈ P.state.details,
        ∃ object ∈ P.state.objects, details.storageKey = row.storageKey ∧
          object.key = row.storageKey ∧ Genuine digest details object) ∧
      (∀ object ∈ P.state.objects, P.state.world.db.Registers object.key ∨
        P.state.world.db.Queues object.key ∨ ∃ i, AnswersFor digest w schedule i object) ∧
      ∀ (i : ℕ) call asset object, P.procs[i]? = some (call, .pure (.served asset object)) →
        Served digest asset object := by
  intro P
  have hrun := kept_run hids hstart schedule
  have hkept := hrun.invariant
  refine ⟨?_, ?_, ?_⟩
  · intro row hrow
    obtain ⟨details, hdetails, hsame⟩ := hkept.described.rows row hrow
    obtain ⟨object, hobject, hkey⟩ := hkept.custody.registered_stored _ ⟨row, hrow, rfl⟩
    exact ⟨details, hdetails, object, hobject, hsame, hkey,
      hkept.described.genuine details hdetails object hobject (hkey.trans hsame.symm)⟩
  · intro object hobject
    rcases hkept.custody.covered object.key ⟨object, hobject, rfl⟩ with
      hrow | hjob | ⟨i, stored, hput, hkey⟩
    · exact Or.inl hrow
    · exact Or.inr (Or.inl hjob)
    · obtain rfl := hkept.described.objects.eq_of_key (hkept.puts i stored hput) hobject hkey
      exact Or.inr (Or.inr ⟨i, answersFor_of_kept hids hstart hput⟩)
  · intro i call asset object hget
    have hp := hrun.programs i call _ hget
    exact hkept.served i _ (hp.2 asset object rfl)

end Runs

/-! ## An upload and an erasure -/

namespace OverlappingErasureExample

attribute [local instance] samplePlatform

theorem sample_delimited : IdsDelimited := by
  intro m n name name' h
  have hids : ∀ k, (Platform.generateId k).toList = List.replicate (k + 1) 'i' :=
    fun k => String.toList_ofList
  have hhyphen : ∀ k, '-' ∉ List.replicate k 'i' := by
    intro k hmem
    exact absurd (List.eq_of_mem_replicate hmem) (by decide)
  rw [hids, hids] at h
  have hlength := congrArg List.length (eq_of_cut (hhyphen _) (hhyphen _) h).1
  simpa using hlength

def firstBytes (bytes : List UInt8) : List UInt8 := bytes.take 2

def avatar (name : String) : AssetCall :=
  .upload
    { purpose := .avatar
      file :=
        { name := name, type := "image/png"
          bytes := [0x89, 0x50, 0x4e, 0x47, 0x0d, 0x0a, 0x1a, 0x0a] }
      actorUserId := some "ada" }

def start : AssetWorld :=
  { world :=
      { db := { users := [{ id := "ada", banned := false, deletedAt := none }] }
        clock := 0, nextId := 0 } }

theorem start_tidy : start.Tidy firstBytes where
  owned :=
    ⟨List.nodup_singleton _, List.nodup_nil, List.nodup_nil, by simp [start], by simp [start]⟩
  described := ⟨List.nodup_nil, by simp [start], by simp [start]⟩
  registered := by simp [start, Database.Registers]
  stored := by simp [start]
  keys := by simp [start, Database.Registers, Database.Queues]
  names := by simp [start]

/-- The account is erased after the second upload has put its object. The upload cannot delete the
object and hands it to the job, where the avatar of the first upload is already. -/
def schedule : List AssetAction :=
  .start (avatar "First.png") :: List.replicate 8 (.advance 0 {}) ++
    .start (avatar "second.png") :: List.replicate 3 (.advance 1 {}) ++
      .start (.erase "ada") :: List.replicate 4 (.advance 2 {}) ++
        List.replicate 2 (.advance 1 {}) ++ .advance 1 { ok := false } ::
          List.replicate 4 (.advance 1 {})

example :
    let P := (idle start).run (assetSystem firstBytes) schedule
    P.state.world.db.uploadedAssets = [] ∧
      P.state.world.db.accountDeletionCleanups.map (·.assetKeys) = [P.state.objects.map (·.key)] ∧
        P.state.objects.length = 2 := by
  decide +kernel

/-- No object of the run is lost. -/
theorem objects_handed_over :
    IdsDelimited ∧ start.Tidy firstBytes ∧
      ∀ object ∈ ((idle start).run (assetSystem firstBytes) schedule).state.objects,
        ((idle start).run (assetSystem firstBytes) schedule).state.world.db.Registers object.key ∨
          ((idle start).run (assetSystem firstBytes) schedule).state.world.db.Queues object.key ∨
            ∃ i, AnswersFor firstBytes start schedule i object :=
  ⟨sample_delimited, start_tidy,
    (assets_stay_together sample_delimited start_tidy schedule).2.1⟩

end OverlappingErasureExample

end Realmroot
