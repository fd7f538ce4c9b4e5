import Realmroot.CredentialVersions
import Realmroot.Library.References

/-!
# Live credentials

An active credential belongs to an active authorization, and an active authorization
to a resource that is not deleted. Deleting a resource withdraws its authorizations
and leaves their credentials as they are; a reconnect stores its credential after it
has looked for the resource.
-/

namespace Realmroot

open AtomicProgram Program

/-- The statuses of credentials, authorizations and resources fit together. -/
structure Database.Linked (db : Database) : Prop where
  authorizationIds : Table.Keyed (·.id) db.providerResourceAuthorizations
  credentials : Table.Refers (fun credential : ProviderCredential => credential.status = .active)
    (·.providerResourceAuthorizationId) (·.id)
    (fun authorization : ProviderResourceAuthorization => authorization.status = .active)
    db.providerCredentials db.providerResourceAuthorizations
  authorizations : Table.Refers
    (fun authorization : ProviderResourceAuthorization => authorization.status = .active)
    (·.resourceId) (·.id) (fun resource : ApiResource => resource.deletedAt = none)
    db.providerResourceAuthorizations db.apiResources

namespace Database

variable {db db' : Database}

theorem Linked.congr (h : db.Linked)
    (hauthorizations : db'.providerResourceAuthorizations = db.providerResourceAuthorizations)
    (hcredentials : db'.providerCredentials = db.providerCredentials)
    (hresources : db'.apiResources = db.apiResources) : db'.Linked := by
  constructor
  · rw [hauthorizations]
    exact h.authorizationIds
  · rw [hcredentials, hauthorizations]
    exact h.credentials
  · rw [hauthorizations, hresources]
    exact h.authorizations

/-- An update of credentials that activates none. -/
theorem Linked.credentials_update (h : db.Linked) {p : ProviderCredential → Bool}
    {f : ProviderCredential → ProviderCredential}
    (hf : ∀ row, (f row).status = .active → row.status = .active)
    (hid : ∀ row, (f row).providerResourceAuthorizationId = row.providerResourceAuthorizationId) :
    ({ db with
      providerCredentials := Table.updateWhere p f db.providerCredentials } :
        Database).Linked where
  authorizationIds := h.authorizationIds
  credentials := h.credentials.update_of_imp fun row _ _ hactive => ⟨hf row hactive, hid row⟩
  authorizations := h.authorizations

/-- Authorizations without active credentials may be revoked. -/
theorem Linked.authorizations_revoke (h : db.Linked)
    {p : ProviderResourceAuthorization → Bool} (now : Time)
    (hfree : ∀ authorization ∈ db.providerResourceAuthorizations,
      p authorization = true → ∀ credential ∈ db.providerCredentials,
        credential.status = .active →
          authorization.id ≠ credential.providerResourceAuthorizationId) :
    ({ db with
      providerResourceAuthorizations :=
        Table.updateWhere p (·.revoke now) db.providerResourceAuthorizations } :
        Database).Linked where
  authorizationIds := h.authorizationIds.updateWhere fun _ => rfl
  credentials := by
    apply h.credentials.update_target
    · intro authorization
      rfl
    · intro credential hcredential hactive authorization hauthorization hid _ hselects
      exact absurd hid (hfree authorization hauthorization hselects credential hcredential hactive)
  authorizations := by
    apply h.authorizations.update_of_imp
    intro authorization _ _ hactive
    cases hactive

/-- Authorizations may be revoked together with all of their credentials. -/
theorem Linked.revoke (h : db.Linked) {p : String → Bool} (now : Time)
    {f : ProviderCredential → ProviderCredential} (hf : ∀ row, (f row).status = .revoked)
    (hid : ∀ row, (f row).providerResourceAuthorizationId = row.providerResourceAuthorizationId) :
    ({ db with
      providerCredentials :=
        Table.updateWhere (fun row => p row.providerResourceAuthorizationId) f
          db.providerCredentials
      providerResourceAuthorizations :=
        Table.updateWhere (fun row => p row.id) (·.revoke now)
          db.providerResourceAuthorizations } : Database).Linked := by
  have hcredentials : ({ db with
      providerCredentials :=
        Table.updateWhere (fun row => p row.providerResourceAuthorizationId) f
          db.providerCredentials } : Database).Linked := by
    apply h.credentials_update _ hid
    intro row hactive
    rw [hf row] at hactive
    cases hactive
  apply hcredentials.authorizations_revoke
  intro authorization _ hselects credential hcredential hactive heq
  obtain ⟨old, -, rfl⟩ := Table.mem_updateWhere.mp hcredential
  by_cases hold : p old.providerResourceAuthorizationId = true
  · rw [if_pos hold, hf old] at hactive
    cases hactive
  · rw [if_neg hold] at heq
    exact hold (heq ▸ hselects)

/-- An update of resources that deletes none. -/
theorem Linked.resources_update (h : db.Linked) {p : ApiResource → Bool}
    {f : ApiResource → ApiResource} (hid : ∀ row, (f row).id = row.id)
    (hdeleted : ∀ row, (f row).deletedAt = row.deletedAt) :
    ({ db with apiResources := Table.updateWhere p f db.apiResources } :
      Database).Linked where
  authorizationIds := h.authorizationIds
  credentials := h.credentials
  authorizations := by
    apply h.authorizations.update_target hid
    intro _ _ _ resource _ _ hnone _
    exact (hdeleted resource).trans hnone

/-- The authorization is one of a resource that is not deleted. -/
def HasUndeletedResource (db : Database) (authorizationId : String) : Prop :=
  ∃ authorization ∈ db.providerResourceAuthorizations, authorization.id = authorizationId ∧
    ∃ resource ∈ db.apiResources, resource.id = authorization.resourceId ∧
      resource.deletedAt = none

theorem Linked.upsertProviderCredential (h : db.Linked) {authorizationId : String}
    {input : ProviderCredential} (hresource : db.HasUndeletedResource authorizationId)
    (hok : Database.upsertProviderCredential authorizationId input db = .ok ((), db')) :
    db'.Linked := by
  obtain ⟨authorization, hauthorization, hid, hundeleted⟩ := hresource
  have hactivated : Table.Refers
      (fun credential : ProviderCredential => credential.status = .active)
      (·.providerResourceAuthorizationId) (·.id)
      (fun authorization : ProviderResourceAuthorization => authorization.status = .active)
      db.providerCredentials (activateAuthorization authorizationId input.updatedAt
        db.providerResourceAuthorizations) := by
    apply h.credentials.update_target
    · intro _
      rfl
    · intros
      rfl
  have htarget : ∃ target ∈ activateAuthorization authorizationId input.updatedAt
      db.providerResourceAuthorizations, target.id = authorizationId ∧ target.status = .active :=
    ⟨_, Table.mem_updateWhere_of_pos hauthorization (by simpa using hid), hid, rfl⟩
  obtain ⟨credentials, rfl, hcredentials⟩ := upsertProviderCredential_ok hok
  refine ⟨h.authorizationIds.updateWhere fun _ => rfl, ?_, ?_⟩
  · rcases hcredentials with rfl | ⟨-, -, rfl⟩
    · apply hactivated.update
      intro row _ hselects _
      have hrow : row.providerResourceAuthorizationId = authorizationId := by simpa using hselects
      obtain ⟨target, hmem, htargetId, hactive⟩ := htarget
      exact ⟨target, hmem, htargetId.trans hrow.symm, hactive⟩
    · exact hactivated.append fun _ => htarget
  · apply h.authorizations.update
    intro row hrow hselects _
    have hsame : row = authorization := by
      apply h.authorizationIds.eq_of_key hrow hauthorization
      rw [hid]
      simpa using hselects
    exact hsame ▸ hundeleted

theorem Linked.createResourceAuthorization (h : db.Linked) {row : ProviderResourceAuthorization}
    {credential : ProviderCredential} (hid : credential.providerResourceAuthorizationId = row.id)
    (hactive : row.status = .active)
    (hok : Database.createResourceAuthorization row credential db = .ok ((), db')) :
    db'.Linked := by
  obtain ⟨hresource, hnew, -, rfl⟩ := createResourceAuthorization_ok hok
  refine ⟨h.authorizationIds.append_singleton hnew, ?_, ?_⟩
  · apply (h.credentials.append_target [row]).append
    intro _
    exact ⟨row, List.mem_append_right _ (List.mem_singleton_self row), hid.symm, hactive⟩
  · apply h.authorizations.append
    intro _
    obtain ⟨resource, hmem, hselects⟩ := List.any_eq_true.mp hresource
    simp only [Bool.and_eq_true, decide_eq_true_eq, Option.isNone_iff_eq_none] at hselects
    exact ⟨resource, hmem, hselects.1.1, hselects.2⟩

/-- No active credential belongs to an authorization of the resource. -/
def CredentialFree (db : Database) (id : String) : Prop :=
  ∀ credential ∈ db.providerCredentials, credential.status = .active →
    ∀ authorization ∈ db.providerResourceAuthorizations,
      authorization.id = credential.providerResourceAuthorizationId →
        authorization.resourceId ≠ id

theorem Linked.deleteResource (h : db.Linked) {id : String} {now : Time} {audit : AgentAuditEvent}
    (hfree : db.CredentialFree id)
    (hok : Database.deleteResource id now audit db = .ok ((), db')) : db'.Linked := by
  have hrevoked := h.authorizations_revoke
    (p := fun row => row.resourceId = id && row.status = .active) now
    (by
      intro authorization hauthorization hselects credential hcredential hactive heq
      have hresource := hfree credential hcredential hactive authorization hauthorization heq
      simp [hresource] at hselects)
  cases hok
  rw [recordAudit_agentAuditEvents]
  refine ⟨hrevoked.authorizationIds, hrevoked.credentials, ?_⟩
  apply hrevoked.authorizations.update_target
  · intro resource
    rfl
  · intro authorization hauthorization hactive resource _ hid _ hselects
    obtain ⟨old, -, rfl⟩ := Table.mem_updateWhere.mp hauthorization
    simp only [isUndeleted, Bool.and_eq_true, decide_eq_true_eq] at hselects
    by_cases hold : (old.resourceId = id && old.status = .active) = true
    · rw [if_pos hold] at hactive
      cases hactive
    · rw [if_neg hold] at hactive hid
      exact absurd (by simp [← hid, hselects.1, hactive]) hold

end Database

/-! ## Steps -/

/-- The resource that a command deletes. -/
def Command.deletes? : Command → Option String
  | .access (.deleteResource id _ _) => some id
  | _ => none

/-- No resource is deleted while an active credential belongs to one of its authorizations,
and no credential is stored for a resource that has been deleted. -/
def KeepsLinks (command : Command) (s : World) : Prop :=
  (∀ id ∈ command.deletes?, s.db.CredentialFree id) ∧
    ∀ stored ∈ command.stores?, s.db.HasUndeletedResource stored.1

instance (db : Database) (id : String) : Decidable (db.CredentialFree id) :=
  inferInstanceAs (Decidable (∀ credential ∈ db.providerCredentials, _ → _))

instance (db : Database) (id : String) : Decidable (db.HasUndeletedResource id) :=
  inferInstanceAs (Decidable (∃ authorization ∈ db.providerResourceAuthorizations, _ ∧ _))

instance (command : Command) (s : World) : Decidable (KeepsLinks command s) :=
  inferInstanceAs (Decidable (_ ∧ _))

theorem linked_access {request : ConnectionRequest} {command : AccessCommand} {s : World}
    (hissues : request.Executes command) (hkeeps : KeepsLinks (.access command) s)
    (h : s.db.Linked) : (command.after s.db).Linked := by
  by_cases hwrites : TableGroup.credentials ∉ command.writes ∧
      TableGroup.authorizations ∉ command.writes ∧ TableGroup.resources ∉ command.writes
  · exact h.congr (command.after_same s.db hwrites.2.1) (command.after_same s.db hwrites.1)
      (command.after_same s.db hwrites.2.2)
  · apply Statement.after_keeps h
    intro answer db' hok
    cases command with
    | claimRefresh claim =>
      cases hok
      exact h.credentials_update (fun _ hactive => hactive) fun _ => rfl
    | completeRefresh id input =>
      cases hok
      exact h.credentials_update (fun _ hactive => hactive) fun _ => rfl
    | releaseRefresh id expectedVersion claimId now =>
      cases hok
      exact h.credentials_update (fun _ hactive => hactive) fun _ => rfl
    | revokeActiveCredential id now =>
      cases hok
      exact h.credentials_update (fun _ hactive => by cases hactive) fun _ => rfl
    | revokeUncredentialedAuthorization authorizationId now =>
      cases hok
      apply h.authorizations_revoke
      intro authorization _ hselects credential hcredential hactive heq
      simp only [Database.hasActiveCredential, Bool.and_eq_true, decide_eq_true_eq,
        Bool.not_eq_true', List.any_eq_false] at hselects
      exact hselects.2 credential hcredential ⟨heq.symm.trans hselects.1, hactive⟩
    | revokeConnection id now =>
      cases hok
      exact h.revoke (p := fun other => other = id) now (fun _ => rfl) fun _ => rfl
    | revokeAuthorizationsByConnector authorizationIds now =>
      obtain ⟨rows, rfl⟩ := Database.revokeAuthorizations_ok hok
      have hrevoked := h.revoke (p := authorizationIds.contains) now
        (f := fun row => { row with
          status := .revoked, revokedAt := some now, refreshClaimId := none
          refreshClaimExpiresAt := none, updatedAt := now }) (fun _ => rfl) fun _ => rfl
      exact hrevoked.congr rfl rfl rfl
    | upsertProviderCredential authorizationId credential =>
      exact h.upsertProviderCredential (hkeeps.2 _ rfl) hok
    | createResourceAuthorization row credential =>
      obtain ⟨hid, hactive⟩ := hissues.created
      exact h.createResourceAuthorization hid hactive hok
    | updateResource id patch narrowing now =>
      rw [Database.updateResource_ok hok]
      have hupdated := h.resources_update (p := Database.isUndeleted id)
        (f := patch.apply now) (fun _ => rfl) fun _ => rfl
      exact hupdated.congr rfl rfl rfl
    | replaceResourceDiscovery id discovery narrowing now =>
      cases hok
      have hupdated := h.resources_update (p := Database.isUndeleted id)
        (f := fun row => { row with
          name := discovery.name, description := discovery.description
          scopeRegistry := some discovery.scopeRegistry, updatedAt := now }) (fun _ => rfl)
        fun _ => rfl
      exact hupdated.congr rfl rfl rfl
    | deleteResource id now audit => exact h.deleteResource (hkeeps.1 id rfl) hok
    | _ => simp [AccessCommand.writes] at hwrites

theorem linked_exec {request : ConnectionRequest} {command : Command} {s : World}
    (hissues : request.Issues command) (hkeeps : KeepsLinks command s) (h : s.db.Linked) :
    (exec command s).db.Linked := by
  cases command with
  | access command => exact linked_access hissues hkeeps h
  | read => exact h
  | generateId => exact h
  | send request => exact h
  | _ => exact hissues.elim

theorem linked_environment [Platform] (event : ConnectionEvent) {s : World} (h : s.db.Linked) :
    (connectionSystem.environment event s).db.Linked := by
  cases event with
  | elapse milliseconds => exact h
  | configure db => exact h.congr rfl rfl rfl
  | editResource row => exact h.resources_update (fun _ => rfl) fun _ => rfl
  | createResource row =>
    dsimp only [connectionSystem, createResourceRow]
    split_ifs
    · exact h
    · exact ⟨h.authorizationIds, h.credentials, h.authorizations.append_target [row]⟩

/-! ## Runs -/

section Runs

variable [Platform] {w : World} {schedule : List ConnectionAction}

/-- The steps of the system, as long as no link is cut. -/
def linkSteps : Pool.Stepwise Command World Reply ConnectionRequest where
  issues := ConnectionRequest.Issues
  inv s := s.db.Linked
  cond _ := KeepsLinks

theorem linkSteps_sound : linkSteps.Sound connectionSystem where
  program request := (connectionSystem_issues request).issues
  refl _ := trivial
  trans _ _ := trivial
  exec _ _ _ hissues hkeeps h := ⟨linked_exec hissues hkeeps h, trivial⟩
  environment event _ h := ⟨linked_environment event h, trivial⟩

/-- Whatever is interleaved, live credentials hang on live resources, if no resource is
deleted under a live credential and no credential is stored for a deleted resource. -/
theorem credentials_live (hlinked : w.db.Linked)
    (h : ∀ entry ∈ (Pool.idle w).history connectionSystem schedule,
      KeepsLinks entry.2.1 entry.2.2) :
    ∀ s ∈ (Pool.idle w).states connectionSystem schedule, s.db.Linked :=
  linkSteps_sound.states hlinked (fun _ _ _ => trivial) h

end Runs

namespace CredentialExample

attribute [local instance] platform

def api : ApiResource :=
  { id := "api", identifier := "api", name := "API", description := none
    resourceUrl := "https://api", authorizationModel := .external
    connectorId := some "connector", authorizationDetails := [], enabled := true
    ownerOrganizationId := "acme", visibility := .public, scopeRegistry := none
    availableToAgents := true, deletedAt := none, updatedAt := 0 }

def connected : ProviderResourceAuthorization :=
  { id := "connection", providerConnectionId := "account", resourceId := "api"
    status := .active, revokedAt := none, createdAt := 0, updatedAt := 0 }

/-- A credential of a connection to a resource. -/
def connectedWorld : World :=
  { db :=
      { providerCredentials := [credential], providerResourceAuthorizations := [connected]
        apiResources := [api] }
    clock := 1, nextId := 0 }

theorem connectedWorld_linked : connectedWorld.db.Linked where
  authorizationIds := List.nodup_singleton _
  credentials := by decide
  authorizations := by decide

def delete : ConnectionRequest :=
  .deleteResource "api" { controllerUserId := some "ada", agent := none }

def step (index : ℕ) : ConnectionAction := .advance index {}

/-- The connection is revoked before its resource is deleted. -/
theorem credentials_live_revoked :
    connectedWorld.db.Linked ∧
      ∀ s ∈ (Pool.idle connectedWorld).states connectionSystem
          ([.start (.revokeConnection "connection"), .start delete] ++
            List.replicate 3 (step 0) ++ List.replicate 5 (step 1)), s.db.Linked :=
  ⟨connectedWorld_linked, credentials_live connectedWorld_linked (by decide +kernel)⟩

/-- Deleting the resource revokes the authorization; its credential stays active. -/
theorem deletion_leaves_credential :
    ∃ (w : World) (schedule : List ConnectionAction), w.db.Linked ∧
      ¬ ∀ s ∈ (Pool.idle w).states connectionSystem schedule, s.db.Linked := by
  refine ⟨connectedWorld, [.start delete] ++ List.replicate 5 (step 0), connectedWorld_linked, ?_⟩
  intro h
  have hcredentials := (h _ (Pool.run_mem_states connectionSystem _ _)).credentials
  revert hcredentials
  decide +kernel

end CredentialExample
end Realmroot
