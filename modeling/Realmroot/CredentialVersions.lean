import Realmroot.ConnectionSystem
import Realmroot.Library.Versions

/-!
# Versions of provider credentials

A credential is claimed for a refresh at the version that was read, and the refresh
completes at that version only. A reconnect stores the version after the one it read,
and an answer `invalid_grant` revokes the credential at whatever version it is.
-/

namespace Realmroot

open AtomicProgram Program

/-- A credential is versioned under its id; its payload is what the tokens are sealed in. -/
def credentialScheme : Versions.Scheme ProviderCredential String String where
  key := (·.id)
  version := (·.credentialVersion)
  payload := (·.encryptedTokens)

/-- Later versions of the credentials of `s`, and new credentials. -/
def CredentialsAdvance (s t : World) : Prop :=
  Versions.Advances credentialScheme s.db.providerCredentials t.db.providerCredentials

/-- The primary key of the credentials. -/
def CredentialsKeyed (w : World) : Prop := Table.Keyed (·.id) w.db.providerCredentials

instance (w : World) : Decidable (CredentialsKeyed w) := inferInstanceAs (Decidable (List.Nodup _))

/-! ## What is asked of a step -/

/-- The credential that a refresh started from. -/
def ConnectionRequest.refreshed? : ConnectionRequest → Option ProviderCredential
  | refresh credential _ => some credential
  | _ => none

/-- The credential that a command revokes when it is active. -/
def Command.revokes? : Command → Option String
  | .access (.revokeActiveCredential id _) => some id
  | _ => none

/-- The authorization for which a command stores a credential that was prepared before. -/
def Command.stores? : Command → Option (String × ProviderCredential)
  | .access (.upsertProviderCredential authorizationId credential) =>
    some (authorizationId, credential)
  | _ => none

/-- A refresh revokes the version that it started from, and a reconnect stores a version
above the stored one. -/
def VersionsCurrent (request : ConnectionRequest) (command : Command) (s : World) : Prop :=
  (∀ credential ∈ request.refreshed?, ∀ id ∈ command.revokes?,
    ∀ row ∈ s.db.providerCredentials, row.id = id → row.status = .active →
      row.credentialVersion = credential.credentialVersion) ∧
  ∀ stored ∈ command.stores?, ∀ row ∈ s.db.providerCredentials,
    row.providerResourceAuthorizationId = stored.1 →
      row.credentialVersion < stored.2.credentialVersion

instance (request : ConnectionRequest) (command : Command) (s : World) :
    Decidable (VersionsCurrent request command s) := inferInstanceAs (Decidable (_ ∧ _))

/-! ## What is promised of a run -/

/-- The credential and version from which a command completes a refresh. -/
def Command.completes? (s : World) : Command → Option (String × ℕ)
  | .access (.completeRefresh id input) =>
    match Database.completeProviderCredentialRefresh id input s.db with
    | .ok (true, _) => some (id, input.expectedVersion)
    | _ => none
  | _ => none

/-- A refresh leaves every other credential, and every other version of its own, as it is. -/
def SparesReplaced (request : ConnectionRequest) (command : Command) (s : World) : Prop :=
  ∀ credential ∈ request.refreshed?, ∀ row ∈ s.db.providerCredentials,
    ¬ (row.id = credential.id ∧ row.credentialVersion = credential.credentialVersion) →
      row ∈ (exec command s).db.providerCredentials

instance (request : ConnectionRequest) (command : Command) (s : World) :
    Decidable (SparesReplaced request command s) :=
  inferInstanceAs (Decidable (∀ credential ∈ request.refreshed?,
    ∀ row ∈ s.db.providerCredentials, _ → row ∈ (exec command s).db.providerCredentials))

section Promise

variable [Platform] (w : World) (schedule : List ConnectionAction)

/-- Each version of a credential has one set of tokens, from each version at most one refresh
completes, and a refresh spares what has replaced the version that it started from. -/
structure Linearised : Prop where
  versions : ∀ s ∈ (Pool.idle w).states connectionSystem schedule,
    ∀ t ∈ (Pool.idle w).states connectionSystem schedule,
      ∀ row ∈ s.db.providerCredentials, ∀ row' ∈ t.db.providerCredentials,
        row'.id = row.id → row'.credentialVersion = row.credentialVersion →
          row'.encryptedTokens = row.encryptedTokens
  completions : (((Pool.idle w).commands connectionSystem schedule).filterMap
    fun entry => entry.1.completes? entry.2).Nodup
  replaced : ∀ entry ∈ (Pool.idle w).history connectionSystem schedule,
    SparesReplaced entry.1 entry.2.1 entry.2.2

end Promise

/-! ## Steps -/

section Steps

variable {db : Database} {p : ProviderCredential → Bool}
  {f : ProviderCredential → ProviderCredential}

/-- The rows with the given ids, in the same or later versions. -/
def CredentialsSucceed (rows rows' : List ProviderCredential) : Prop :=
  Table.Keyed (·.id) rows' ∧ Versions.Advances credentialScheme rows rows'

theorem CredentialsSucceed.refl {rows : List ProviderCredential}
    (h : Table.Keyed (·.id) rows) : CredentialsSucceed rows rows :=
  ⟨h, Versions.Advances.refl rows⟩

theorem credentialsSucceed_update {rows : List ProviderCredential} (h : Table.Keyed (·.id) rows)
    (hid : ∀ row, (f row).id = row.id)
    (hf : ∀ row ∈ rows, p row = true → row.credentialVersion < (f row).credentialVersion ∨
      (f row).credentialVersion = row.credentialVersion ∧
        (f row).encryptedTokens = row.encryptedTokens) :
    CredentialsSucceed rows (Table.updateWhere p f rows) := by
  constructor
  · exact h.updateWhere hid
  · apply Versions.advances_updateWhere
    intro row hrow hp
    exact ⟨hid row, hf row hrow hp⟩

theorem credentialsSucceed_append {rows : List ProviderCredential}
    (h : Table.Keyed (·.id) rows) {row : ProviderCredential}
    (hnew : ∀ old ∈ rows, old.id ≠ row.id) : CredentialsSucceed rows (rows ++ [row]) :=
  ⟨h.append_singleton hnew, Versions.advances_append _⟩

/-- What the database has of a credential when a command stores a new one for its
authorization. -/
def AccessCommand.StoresLater (db : Database) : AccessCommand → Prop
  | .upsertProviderCredential authorizationId credential =>
    ∀ row ∈ db.providerCredentials, row.providerResourceAuthorizationId = authorizationId →
      row.credentialVersion < credential.credentialVersion
  | _ => True

/-- Every command leaves later versions, if what it stores is later. -/
theorem AccessCommand.credentialsSucceed (command : AccessCommand)
    (h : Table.Keyed (·.id) db.providerCredentials) (hlater : command.StoresLater db) :
    CredentialsSucceed db.providerCredentials (command.after db).providerCredentials := by
  by_cases hwrites : TableGroup.credentials ∈ command.writes
  · unfold AccessCommand.after
    apply Statement.after_keeps (p := fun db' =>
      CredentialsSucceed db.providerCredentials db'.providerCredentials) (.refl h)
    intro answer db' hok
    cases command with
    | claimRefresh claim =>
      cases hok
      exact credentialsSucceed_update h (fun _ => rfl) fun _ _ _ => Or.inr ⟨rfl, rfl⟩
    | completeRefresh id input =>
      cases hok
      refine credentialsSucceed_update h (fun _ => rfl) ?_
      intro row _ hclaimed
      simp only [Database.claimed, Bool.and_eq_true, decide_eq_true_eq] at hclaimed
      left
      dsimp only
      omega
    | releaseRefresh id expectedVersion claimId now =>
      cases hok
      exact credentialsSucceed_update h (fun _ => rfl) fun _ _ _ => Or.inr ⟨rfl, rfl⟩
    | revokeActiveCredential id now =>
      cases hok
      exact credentialsSucceed_update h (fun _ => rfl) fun _ _ _ => Or.inr ⟨rfl, rfl⟩
    | revokeConnection id now =>
      cases hok
      exact credentialsSucceed_update h (fun _ => rfl) fun _ _ _ => Or.inr ⟨rfl, rfl⟩
    | revokeAuthorizationsByConnector authorizationIds now =>
      obtain ⟨rows, rfl⟩ := Database.revokeAuthorizations_ok hok
      exact credentialsSucceed_update h (fun _ => rfl) fun _ _ _ => Or.inr ⟨rfl, rfl⟩
    | upsertProviderCredential authorizationId credential =>
      obtain ⟨credentials, rfl, rfl | ⟨-, hid, rfl⟩⟩ := Database.upsertProviderCredential_ok hok
      · refine credentialsSucceed_update h (fun _ => rfl) ?_
        intro row hrow hauthorization
        exact Or.inl (hlater row hrow (by simpa using hauthorization))
      · exact credentialsSucceed_append h hid
    | createResourceAuthorization row credential =>
      obtain ⟨-, -, hnew, rfl⟩ := Database.createResourceAuthorization_ok hok
      exact credentialsSucceed_append h fun old hold => (hnew old hold).1
    | _ => simp [AccessCommand.writes] at hwrites
  · have hsame : (command.after db).providerCredentials = db.providerCredentials :=
      command.after_same db hwrites
    rw [hsame]
    exact .refl h

end Steps

section Run

variable {request : ConnectionRequest} {command : Command} {s : World}

theorem credentials_exec (hissues : request.Issues command)
    (hcurrent : VersionsCurrent request command s) (h : CredentialsKeyed s) :
    CredentialsKeyed (exec command s) ∧ CredentialsAdvance s (exec command s) := by
  cases command with
  | access command =>
    apply command.credentialsSucceed h
    cases command with
    | upsertProviderCredential authorizationId credential => exact hcurrent.2 _ rfl
    | _ => trivial
  | read => exact ⟨h, Versions.Advances.refl _⟩
  | generateId => exact ⟨h, Versions.Advances.refl _⟩
  | send request => exact ⟨h, Versions.Advances.refl _⟩
  | _ => exact hissues.elim

theorem credentials_environment [Platform] (event : ConnectionEvent) (h : CredentialsKeyed s) :
    CredentialsKeyed (connectionSystem.environment event s) ∧
      CredentialsAdvance s (connectionSystem.environment event s) := by
  cases event with
  | elapse milliseconds => exact ⟨h, Versions.Advances.refl _⟩
  | configure db => exact ⟨h, Versions.Advances.refl _⟩
  | editResource row => exact ⟨h, Versions.Advances.refl _⟩
  | createResource row =>
    have hsame : (createResourceRow row s.db).providerCredentials = s.db.providerCredentials := by
      unfold createResourceRow
      split_ifs <;> rfl
    dsimp only [CredentialsKeyed, CredentialsAdvance, connectionSystem]
    rw [hsame]
    exact ⟨h, Versions.Advances.refl _⟩

/-- A refresh selects its own credential at the version from which it started. -/
theorem spares_replaced (hissues : request.Issues command)
    (hcurrent : VersionsCurrent request command s) : SparesReplaced request command s := by
  intro credential hcredential row hrow hother
  cases request with
  | refresh started authorization =>
    cases hcredential
    have hfails : ∀ id version, id = credential.id ∧ version = credential.credentialVersion →
        ∀ rest : Bool, (decide (row.id = id) && rest &&
          decide (row.credentialVersion = version)) = false := by
      rintro _ _ ⟨rfl, rfl⟩ rest
      by_cases hid : row.id = credential.id
      · have hversion : row.credentialVersion ≠ credential.credentialVersion :=
          fun heq => hother ⟨hid, heq⟩
        simp [hversion]
      · simp [hid]
    cases command with
    | access command =>
      cases command with
      | claimRefresh claim =>
        apply Table.mem_updateWhere_of_not hrow
        rw [hfails _ _ hissues, Bool.false_and]
      | completeRefresh id input =>
        apply Table.mem_updateWhere_of_not hrow
        rw [Database.claimed, hfails _ _ hissues, Bool.false_and]
      | releaseRefresh id expectedVersion claimId now =>
        apply Table.mem_updateWhere_of_not hrow
        rw [Database.claimed, hfails _ _ hissues, Bool.false_and]
      | revokeActiveCredential id now =>
        have hid : id = credential.id := hissues
        subst hid
        apply Table.mem_updateWhere_of_not hrow
        have hactive : row.id = credential.id → row.status ≠ .active := by
          intro hid hactive
          exact hother ⟨hid, hcurrent.1 _ rfl _ rfl row hrow hid hactive⟩
        simpa using hactive
      | revokeUncredentialedAuthorization authorizationId now => exact hrow
      | _ => exact hissues.elim
    | read => exact hrow
    | generateId => exact hrow
    | send request => exact hrow
    | _ => exact hissues.elim
  | _ => cases hcredential

/-- After a refresh completes, its credential is past the version that it started from. -/
theorem completes_advances {id : String} {version : ℕ}
    (h : command.completes? s = some (id, version)) :
    (∃ row ∈ s.db.providerCredentials, row.id = id ∧ row.credentialVersion = version) ∧
      ∃ row ∈ (exec command s).db.providerCredentials,
        row.id = id ∧ version < row.credentialVersion := by
  cases command with
  | access command =>
    cases command with
    | completeRefresh id' input =>
      have hselected : s.db.providerCredentials.any
          (Database.claimed id' input.expectedVersion input.claimId) = true := by
        by_contra hnone
        simp [Command.completes?, Database.completeProviderCredentialRefresh, hnone] at h
      obtain ⟨row, hrow, hclaimed⟩ := List.any_eq_true.mp hselected
      have hanswer : (id', input.expectedVersion) = (id, version) := by
        simpa [Command.completes?, Database.completeProviderCredentialRefresh, hselected] using h
      cases hanswer
      have hmem := Table.mem_updateWhere_of_pos (f := fun row : ProviderCredential => { row with
        encryptedTokens := input.encryptedTokens
        credentialExpiresAt := input.credentialExpiresAt
        credentialVersion := input.expectedVersion + 1, refreshClaimId := none
        refreshClaimExpiresAt := none, updatedAt := input.updatedAt }) hrow hclaimed
      simp only [Database.claimed, Bool.and_eq_true, decide_eq_true_eq] at hclaimed
      obtain ⟨⟨⟨hid, -⟩, hversion⟩, -⟩ := hclaimed
      exact ⟨⟨row, hrow, hid, hversion⟩, _, hmem, hid, Nat.lt_succ_self _⟩
    | _ => cases h
  | _ => cases h

end Run

/-! ## Runs -/

/-- The same version of a credential has the same tokens in both states. -/
def SameTokens (s t : World) : Prop :=
  ∀ row ∈ s.db.providerCredentials, ∀ row' ∈ t.db.providerCredentials, row'.id = row.id →
    row'.credentialVersion = row.credentialVersion → row'.encryptedTokens = row.encryptedTokens

instance : Std.Symm SameTokens where
  symm _ _ h row hrow row' hrow' hid hversion :=
    (h row' hrow' row hrow hid.symm hversion.symm).symm

theorem CredentialsAdvance.sameTokens {s t : World} (h : CredentialsAdvance s t)
    (hkeyed : CredentialsKeyed t) : SameTokens s t :=
  fun _ hrow _ hrow' hid hversion =>
    (Versions.Advances.succeeds h hkeyed hrow hrow' hid).payload hversion

section Runs

variable [Platform] {w : World} {schedule : List ConnectionAction}

/-- The steps of the system, as long as nothing stale is written. -/
def credentialSteps : Pool.Stepwise Command World Reply ConnectionRequest where
  issues := ConnectionRequest.Issues
  inv := CredentialsKeyed
  cond := VersionsCurrent
  moves := CredentialsAdvance

theorem credentialSteps_sound : credentialSteps.Sound connectionSystem where
  program request := (connectionSystem_issues request).issues
  refl _ := Versions.Advances.refl _
  trans h h' := Versions.Advances.trans h h'
  exec _ _ _ := credentials_exec
  environment event _ := credentials_environment event

/-- A version is completed once: after that the credential is past it. -/
theorem completions_nodup (hkeyed : CredentialsKeyed w)
    (h : ∀ entry ∈ (Pool.idle w).history connectionSystem schedule,
      VersionsCurrent entry.1 entry.2.1 entry.2.2) :
    (((Pool.idle w).commands connectionSystem schedule).filterMap
      fun entry => entry.1.completes? entry.2).Nodup := by
  have hordered := credentialSteps_sound.commands_pairwise hkeyed (fun _ _ _ => trivial) h
  have hkeys := credentialSteps_sound.commands hkeyed (fun _ _ _ => trivial) h
  rw [List.Nodup, List.pairwise_filterMap]
  refine hordered.imp_of_mem ?_
  rintro ⟨first, s⟩ ⟨second, t⟩ - hsecond hadvance ⟨id, version⟩ hfirst _ hcompletes rfl
  obtain ⟨-, row, hrow, hid, hpast⟩ := completes_advances hfirst
  obtain ⟨⟨row', hrow', hid', hversion⟩, -⟩ := completes_advances hcompletes
  have hsucceeds := Versions.Advances.succeeds hadvance (hkeys _ hsecond) hrow hrow'
    (hid'.trans hid.symm)
  have hle : row.credentialVersion ≤ row'.credentialVersion := hsucceeds.version_le
  omega

/-- Whatever is interleaved, each version of a credential has one set of tokens, from each
version at most one refresh completes, and a refresh spares what has replaced its version, if
no refresh revokes and no reconnect overwrites a version that it has not seen. -/
theorem refresh_linearised (hkeyed : CredentialsKeyed w)
    (h : ∀ entry ∈ (Pool.idle w).history connectionSystem schedule,
      VersionsCurrent entry.1 entry.2.1 entry.2.2) : Linearised w schedule := by
  constructor
  · have hkeys := credentialSteps_sound.states hkeyed (fun _ _ _ => trivial) h
    have hordered := credentialSteps_sound.states_pairwise hkeyed (fun _ _ _ => trivial) h
    have hsame : ((Pool.idle w).states connectionSystem schedule).Pairwise SameTokens :=
      hordered.imp_of_mem fun _ ht hadvance => CredentialsAdvance.sameTokens hadvance (hkeys _ ht)
    apply hsame.forall_of_forall
    intro s hs
    exact CredentialsAdvance.sameTokens (Versions.Advances.refl _) (hkeys s hs)
  · exact completions_nodup hkeyed h
  · intro entry hentry
    have hissues := credentialSteps_sound.history hkeyed (fun _ _ _ => trivial) h entry hentry
    exact spares_replaced hissues.1 (h entry hentry)

end Runs

namespace CredentialExample

/-- Stored tokens open, to a refresh token. -/
@[reducible] def platform : Platform :=
  { samplePlatform with
    openSecret := fun envelope _ => some envelope
    parseJson := fun _ => some (.obj [("accessToken", .str "at"), ("refreshToken", .str "rt")]) }

attribute [local instance] platform

def credential : ProviderCredential :=
  { id := "credential", providerResourceAuthorizationId := "connection", encryptedTokens := "first"
    grantedScopes := ["read"], authorizationDetails := [], clientGeneration := 1
    credentialVersion := 1, refreshClaimId := none, refreshClaimExpiresAt := none
    status := .active, credentialExpiresAt := none, revokedAt := none, createdAt := 0
    updatedAt := 0 }

def authorization : ExternalResourceAuthorization :=
  { resourceId := "api", connectorId := "connector", tokenEndpoint := "https://as/token"
    revocationEndpoint := "https://as/revoke", tokenEndpointAuthentication := .basic
    revokeAccessToken := true, authorizationDetailsCatalogEndpoint := none
    authorizationDetailsCatalogScope := none, clientId := "client", clientGeneration := 1
    encryptedClientSecret := "secret", status := .active }

def world : World := { db := { providerCredentials := [credential] }, clock := 0, nextId := 0 }

def refresh : ConnectionRequest := .refresh credential authorization

/-- A step to which the authorization server answers with new tokens. -/
def granted (index : ℕ) : ConnectionAction :=
  .advance index
    { respond := fun _ =>
        some { status := 200, body := some (.obj [("access_token", .str "next")]) }
      sealing := fun plaintext _ => plaintext }

/-- A step to which it answers that the refresh token is not valid. -/
def denied (index : ℕ) : ConnectionAction :=
  .advance index
    { respond := fun _ =>
        some { status := 400, body := some (.obj [("error", .str "invalid_grant")]) } }

/-- Two refreshes of one version: the claim of the first one expires while it waits for its
answer, and the second one completes. -/
def overtaken (answer : List ConnectionAction) : List ConnectionAction :=
  [.start refresh, .start refresh] ++ List.replicate 5 (granted 0) ++
    [.environment (.elapse 20000)] ++ List.replicate 10 (granted 1) ++ answer

/-- Both requests get tokens: the second completion is refused. -/
theorem refresh_linearised_overtaken :
    (∀ row ∈ ((Pool.idle world).run connectionSystem
        (overtaken (List.replicate 8 (granted 0)))).state.db.providerCredentials,
      row.credentialVersion = 2 ∧ row.status = .active) ∧
    Linearised world (overtaken (List.replicate 8 (granted 0))) :=
  ⟨by decide +kernel, refresh_linearised (by decide) (by decide +kernel)⟩

/-- The first refresh is told `invalid_grant` for its old refresh token, and revokes the
credential that the second one has obtained. -/
theorem refresh_revokes_replaced :
    ∃ (w : World) (schedule : List ConnectionAction),
      CredentialsKeyed w ∧ ¬ Linearised w schedule := by
  refine ⟨world, overtaken (List.replicate 4 (denied 0)), by decide, ?_⟩
  intro h
  have hreplaced := h.replaced
  revert hreplaced
  decide +kernel

end CredentialExample
end Realmroot
