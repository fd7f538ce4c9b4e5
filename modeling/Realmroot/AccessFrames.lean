import Realmroot.AccessCommands

/-!
# What commands leave alone

Each batch changes some tables only. Its effect is given as a database that keeps
the others.
-/

namespace Realmroot

namespace Database

variable {db db' : Database}

theorem recordAudit_agentAuditEvents (audit : AgentAuditEvent)
    (condition : Database → Bool) :
    recordAudit audit condition db =
      { db with agentAuditEvents := (recordAudit audit condition db).agentAuditEvents } := by
  unfold recordAudit
  split_ifs <;> rfl

/-- An insert of an approval appends what it inserts. -/
theorem insertEntitlement_snd (requestId : String) (input : ResourceScopeEntitlement) :
    (insertEntitlement requestId db input).2 =
      { db with
        resourceScopeEntitlements :=
          db.resourceScopeEntitlements ++ (insertEntitlement requestId db input).1.toList } := by
  unfold insertEntitlement
  dsimp only
  split_ifs
  · rfl
  · simp

/-- The inserts of an approval append what they insert. -/
theorem insertEntitlements_snd (requestId : String) (inputs : List ResourceScopeEntitlement) :
    (insertEntitlements requestId inputs db).2 =
      { db with
        resourceScopeEntitlements :=
          db.resourceScopeEntitlements ++ (insertEntitlements requestId inputs db).1 } := by
  induction inputs generalizing db with
  | nil => simp [insertEntitlements]
  | cons input inputs ih =>
    rw [insertEntitlements]
    dsimp only
    rw [ih, insertEntitlement_snd]
    simp

/-- The rows after the updates of an approval. -/
def applyUpdates (updates : List EntitlementUpdate) (rows : List ResourceScopeEntitlement) :
    List ResourceScopeEntitlement :=
  updates.foldl (fun rows update => Table.updateWhere update.selects update.apply rows) rows

theorem updateEntitlement_ok {update : EntitlementUpdate} {count : ℕ}
    (h : updateEntitlement update db = .ok (count, db')) :
    count = (db.resourceScopeEntitlements.filter update.selects).length ∧
      db' = { db with
        resourceScopeEntitlements :=
          Table.updateWhere update.selects update.apply db.resourceScopeEntitlements } := by
  unfold updateEntitlement at h
  split_ifs at h
  cases h
  exact ⟨rfl, rfl⟩

theorem updateEntitlements_ok {updates : List EntitlementUpdate} {counts : List ℕ}
    (h : updateEntitlements updates db = .ok (counts, db')) :
    db' = { db with
      resourceScopeEntitlements := applyUpdates updates db.resourceScopeEntitlements } := by
  induction updates generalizing db counts with
  | nil =>
    cases h
    rfl
  | cons update updates ih =>
    obtain ⟨⟨count, db₁⟩, hfirst, h⟩ := Statement.bind_ok h
    obtain ⟨⟨counts', db₂⟩, hrest, h⟩ := Statement.bind_ok h
    cases h
    obtain ⟨-, rfl⟩ := updateEntitlement_ok hfirst
    exact ih hrest

/-- The entitlements that the inserts and the updates of an approval leave. -/
def approvedRows (approval : Approval) (db : Database) : List ResourceScopeEntitlement :=
  applyUpdates approval.entitlementUpdates
    (db.resourceScopeEntitlements ++
      (insertEntitlements approval.requestId approval.entitlements db).1)

/-- An approval that goes through writes the entitlements, then decides the request, and records
the event when the request is approved after that. -/
theorem approveAccessRequest_ok {approval : Approval} {outcome : ApprovalOutcome}
    (h : approveAccessRequestWithEntitlements approval db = .ok (outcome, db')) :
    db' = recordAudit approval.audit (isApproved approval.requestId)
      (updateAccessRequestDecision approval.requestId approval.decision
        { db with resourceScopeEntitlements := approvedRows approval db }).2 := by
  obtain ⟨⟨counts, db₁⟩, hupdates, h⟩ := Statement.bind_ok h
  rw [insertEntitlements_snd] at hupdates
  rw [updateEntitlements_ok hupdates] at h
  dsimp only at h
  split_ifs at h
  · cases h
    rfl
  · cases h
    rfl
  · split at h
    · cases h
      rfl
    · cases h
      rfl

/-- A lease is inserted under its conditions, and nothing happens otherwise. -/
theorem insertTokenLease_ok {lease : ExternalTokenLease}
    {boundary : TokenLeaseAuthorizationBoundary} {inserted : Option ExternalTokenLease}
    (h : insertTokenLease lease boundary db = .ok (inserted, db')) :
    (inserted = none ∧ db.agentAccessRequests.any (db.canIssue lease boundary) = false ∧ db' = db) ∨
      (inserted = some lease ∧ db.agentAccessRequests.any (db.canIssue lease boundary) = true ∧
        db' = { db with externalTokenLeases := db.externalTokenLeases ++ [lease] }) := by
  unfold insertTokenLease at h
  split_ifs at h with hissue
  · cases h
    exact Or.inr ⟨rfl, hissue, rfl⟩
  · cases h
    exact Or.inl ⟨rfl, by simpa using hissue, rfl⟩

/-- The lease is inserted, and then spent. -/
theorem issueTokenLease_spends {lease : ExternalTokenLease}
    {boundary : TokenLeaseAuthorizationBoundary} {consumeEntitlementIds : List String} {now : Time}
    {audit : AgentAuditEvent} {inserted : Option ExternalTokenLease}
    (h : issueTokenLeaseWithAudit lease boundary consumeEntitlementIds now audit db =
      .ok (inserted, db')) :
    ∃ db₁, insertTokenLease lease boundary db = .ok (inserted, db₁) ∧
      db' = spendLease lease consumeEntitlementIds now audit db₁ := by
  obtain ⟨⟨inserted', db₁⟩, hinsert, h⟩ := Statement.bind_ok h
  cases h
  exact ⟨db₁, hinsert, rfl⟩

theorem issueTokenLease_ok {lease : ExternalTokenLease}
    {boundary : TokenLeaseAuthorizationBoundary} {consumeEntitlementIds : List String} {now : Time}
    {audit : AgentAuditEvent} {inserted : Option ExternalTokenLease}
    (h : issueTokenLeaseWithAudit lease boundary consumeEntitlementIds now audit db =
      .ok (inserted, db')) :
    ∃ leases rows requests events, db' = { db with
      externalTokenLeases := leases, resourceScopeEntitlements := rows
      agentAccessRequests := requests, agentAuditEvents := events } := by
  obtain ⟨db₁, hinsert, rfl⟩ := issueTokenLease_spends h
  have hdb₁ : ∃ leases, db₁ = { db with externalTokenLeases := leases } := by
    obtain ⟨-, -, rfl⟩ | ⟨-, -, rfl⟩ := insertTokenLease_ok hinsert
    · exact ⟨_, rfl⟩
    · exact ⟨_, rfl⟩
  obtain ⟨leases, rfl⟩ := hdb₁
  unfold spendLease
  split_ifs
  · rw [recordAudit_agentAuditEvents]
    exact ⟨_, _, _, _, rfl⟩
  · exact ⟨_, _, _, _, rfl⟩

theorem insertScopeEntitlement_ok {row : ResourceScopeEntitlement}
    {inserted : Option ResourceScopeEntitlement}
    (h : insertScopeEntitlement row db = .ok (inserted, db')) :
    (inserted = none ∧ db.conflicts row = true ∧ db' = db) ∨
      (inserted = some row ∧ db.conflicts row = false ∧ db' = { db with
        resourceScopeEntitlements := db.resourceScopeEntitlements ++ [row] }) := by
  unfold insertScopeEntitlement at h
  split_ifs at h with hconflict
  · cases h
    exact Or.inl ⟨rfl, hconflict, rfl⟩
  · cases h
    exact Or.inr ⟨rfl, by simpa using hconflict, rfl⟩

theorem replaceExpiredEntitlement_ok {id : String} {row : ResourceScopeEntitlement} {now : Time}
    (h : replaceExpiredEntitlement id row now db = .ok ((), db')) :
    (endAll [id] .expired now db).conflicts row = false ∧ db' = { db with
      resourceScopeEntitlements :=
        (endAll [id] .expired now db).resourceScopeEntitlements ++ [row] } := by
  unfold replaceExpiredEntitlement at h
  dsimp only at h
  split_ifs at h with hconflict
  cases h
  exact ⟨by simpa using hconflict, rfl⟩

theorem renewEntitlement_ok {renewal : EntitlementRenewal}
    {renewed : Option ResourceScopeEntitlement}
    (h : renewEntitlement renewal db = .ok (renewed, db')) :
    renewed = (db.resourceScopeEntitlements.find? (fun row => row.id = renewal.id)).map
        renewal.apply ∧
      db' = { db with
        resourceScopeEntitlements :=
          Table.updateWhere (fun row => row.id = renewal.id) renewal.apply
            db.resourceScopeEntitlements } := by
  unfold renewEntitlement at h
  dsimp only at h
  split at h
  · cases h
  · cases h
    exact ⟨rfl, rfl⟩

theorem revokeAuthorizations_ok {authorizationIds : List String} {now : Time}
    (h : revokeAuthorizations authorizationIds now db = .ok ((), db')) :
    ∃ rows, db' = { db with
      resourceScopeEntitlements := rows
      agentAccessRequests :=
        Table.updateWhere (fun row => row.connectionId.any authorizationIds.contains)
          (fun row => { row with connectionId := none, updatedAt := now }) db.agentAccessRequests
      providerCredentials :=
        Table.updateWhere (fun row => authorizationIds.contains row.providerResourceAuthorizationId)
          (fun row => { row with
            status := .revoked, revokedAt := some now, refreshClaimId := none
            refreshClaimExpiresAt := none, updatedAt := now })
          db.providerCredentials
      providerResourceAuthorizations :=
        Table.updateWhere (fun row => authorizationIds.contains row.id) (·.revoke now)
          db.providerResourceAuthorizations } := by
  unfold revokeAuthorizations at h
  dsimp only at h
  split_ifs at h
  cases h
  exact ⟨_, rfl⟩

theorem createConnectionIntent_ok {row : ResourceConnectionIntent}
    {created : Option ResourceConnectionIntent}
    (h : createConnectionIntent row db = .ok (created, db')) :
    ∃ rows, db' = { db with resourceConnectionIntents := rows } := by
  unfold createConnectionIntent at h
  split_ifs at h
  · cases h
    exact ⟨_, rfl⟩
  · cases h
    exact ⟨_, rfl⟩

theorem insertProviderConnection_ok {row : ProviderConnection}
    {inserted : Option ProviderConnection}
    (h : insertProviderConnection row db = .ok (inserted, db')) :
    ∃ rows, db' = { db with providerConnections := rows } := by
  unfold insertProviderConnection at h
  split_ifs at h
  · cases h
    exact ⟨_, rfl⟩
  · cases h
    exact ⟨_, rfl⟩

/-- The credential of an authorization is replaced, or it is the first one. -/
theorem storeCredential_ok {input : ProviderCredential}
    (h : storeCredential input db = .ok ((), db')) :
    db' = { db with
      providerCredentials :=
        Table.updateWhere
          (fun row => row.providerResourceAuthorizationId = input.providerResourceAuthorizationId)
          input.replaces db.providerCredentials } ∨
    ((∀ row ∈ db.providerCredentials,
        row.providerResourceAuthorizationId ≠ input.providerResourceAuthorizationId) ∧
      (∀ row ∈ db.providerCredentials, row.id ≠ input.id) ∧
        db' = { db with providerCredentials := db.providerCredentials ++ [input] }) := by
  unfold storeCredential at h
  dsimp only at h
  split_ifs at h with hstored hid
  · cases h
    exact Or.inl rfl
  · cases h
    right
    refine ⟨?_, ?_, rfl⟩
    · simpa using hstored
    · simpa using hid

/-- The authorization after its credential is stored. -/
def activateAuthorization (authorizationId : String) (now : Time)
    (rows : List ProviderResourceAuthorization) : List ProviderResourceAuthorization :=
  Table.updateWhere (fun row => row.id = authorizationId)
    (fun row => { row with status := .active, revokedAt := none, updatedAt := now }) rows

theorem upsertProviderCredential_ok {authorizationId : String} {input : ProviderCredential}
    (h : upsertProviderCredential authorizationId input db = .ok ((), db')) :
    ∃ credentials, db' = { db with
      providerCredentials := credentials
      providerResourceAuthorizations :=
        activateAuthorization authorizationId input.updatedAt db.providerResourceAuthorizations } ∧
      (credentials = Table.updateWhere
          (fun row => row.providerResourceAuthorizationId = authorizationId)
          input.replaces db.providerCredentials ∨
        (∀ row ∈ db.providerCredentials,
            row.providerResourceAuthorizationId ≠ authorizationId) ∧
          (∀ row ∈ db.providerCredentials, row.id ≠ input.id) ∧
            credentials = db.providerCredentials ++
              [{ input with providerResourceAuthorizationId := authorizationId }]) := by
  rcases storeCredential_ok h with rfl | ⟨hauthorization, hid, rfl⟩
  · exact ⟨_, rfl, Or.inl rfl⟩
  · exact ⟨_, rfl, Or.inr ⟨hauthorization, hid, rfl⟩⟩

theorem insertAuthorization_ok {row : ProviderResourceAuthorization}
    (h : insertAuthorization row db = .ok ((), db')) :
    db.hasActiveResource row.resourceId = true ∧
      (∀ old ∈ db.providerResourceAuthorizations, old.id ≠ row.id) ∧
        db' = { db with
          providerResourceAuthorizations := db.providerResourceAuthorizations ++ [row] } := by
  unfold insertAuthorization at h
  split_ifs at h with hactive hid _
  cases h
  refine ⟨by simpa using hactive, ?_, rfl⟩
  simpa using hid

theorem createResourceAuthorization_ok {row : ProviderResourceAuthorization}
    {credential : ProviderCredential}
    (h : createResourceAuthorization row credential db = .ok ((), db')) :
    db.hasActiveResource row.resourceId = true ∧
      (∀ old ∈ db.providerResourceAuthorizations, old.id ≠ row.id) ∧
        (∀ old ∈ db.providerCredentials, old.id ≠ credential.id ∧
          old.providerResourceAuthorizationId ≠ credential.providerResourceAuthorizationId) ∧
        db' = { db with
          providerResourceAuthorizations := db.providerResourceAuthorizations ++ [row]
          providerCredentials := db.providerCredentials ++ [credential] } := by
  obtain ⟨⟨⟨⟩, db₁⟩, hfirst, h⟩ := Statement.bind_ok h
  obtain ⟨hactive, hid, rfl⟩ := insertAuthorization_ok hfirst
  dsimp only at h
  unfold insertCredential at h
  split_ifs at h with hcredential hauthorization
  cases h
  refine ⟨hactive, hid, ?_, rfl⟩
  intro old hold
  constructor
  · intro heq
    exact hcredential (List.any_eq_true.mpr ⟨old, hold, by simpa using heq⟩)
  · intro heq
    exact hauthorization (List.any_eq_true.mpr ⟨old, hold, by simpa using heq⟩)

/-- The database after the narrowing of a changed resource. -/
theorem updateResource_ok {id : String} {patch : ResourcePatch} {narrowing : ResourceNarrowing}
    {now : Time} {found : Bool} (h : updateResource id patch narrowing now db = .ok (found, db')) :
    db' = narrow narrowing now { db with
      apiResources := Table.updateWhere (isUndeleted id) (patch.apply now) db.apiResources } := by
  unfold updateResource at h
  split_ifs at h
  cases h
  rfl

end Database

/-! ## The tables of a command -/

/-- Groups of tables that commands write. -/
inductive TableGroup where
  | entitlements
  | accessRequests
  | tokenLeases
  | authorizations
  | credentials
  | intents
  | providerConnections
  | resources
  | configuration
  | exchangeTokens
  | auditEvents
  /-- What no command on permissions writes. -/
  | identities
  deriving DecidableEq

/-- The group is the same in both databases. -/
def SameTables (db db' : Database) : TableGroup → Prop
  | .entitlements => db'.resourceScopeEntitlements = db.resourceScopeEntitlements
  | .accessRequests => db'.agentAccessRequests = db.agentAccessRequests
  | .tokenLeases => db'.externalTokenLeases = db.externalTokenLeases
  | .authorizations => db'.providerResourceAuthorizations = db.providerResourceAuthorizations
  | .credentials => db'.providerCredentials = db.providerCredentials
  | .intents => db'.resourceConnectionIntents = db.resourceConnectionIntents
  | .providerConnections => db'.providerConnections = db.providerConnections
  | .resources => db'.apiResources = db.apiResources
  | .configuration =>
    db'.applications = db.applications ∧ db'.organizationRoles = db.organizationRoles ∧
      db'.applicationConsents = db.applicationConsents ∧
      db'.federatedCredentials = db.federatedCredentials
  | .exchangeTokens =>
    db'.tokenExchangeAccessTokens = db.tokenExchangeAccessTokens ∧
      db'.tokenExchangeRefreshTokens = db.tokenExchangeRefreshTokens
  | .auditEvents => db'.agentAuditEvents = db.agentAuditEvents
  | .identities =>
    db'.users = db.users ∧ db'.organizations = db.organizations ∧ db'.members = db.members ∧
      db'.oauthClients = db.oauthClients ∧
      db'.identityProviderConnectors = db.identityProviderConnectors ∧
      db'.agentIdentities = db.agentIdentities ∧
      db'.agentIdentityBindings = db.agentIdentityBindings

theorem SameTables.refl (db : Database) (group : TableGroup) : SameTables db db group := by
  cases group <;> simp [SameTables]

namespace AccessCommand

/-- The groups that a command may write. -/
def writes : AccessCommand → List TableGroup
  | decideAccessRequest .. => [.accessRequests, .auditEvents]
  | approveAccessRequest .. => [.entitlements, .accessRequests, .auditEvents]
  | endEntitlement .. => [.entitlements]
  | endEntitlementWithAudit .. => [.entitlements, .tokenLeases, .auditEvents]
  | issueTokenLease .. => [.tokenLeases, .entitlements, .accessRequests, .auditEvents]
  | revokeTokenLease .. => [.tokenLeases]
  | insertScopeEntitlement .. => [.entitlements]
  | replaceExpiredEntitlement .. => [.entitlements]
  | renewEntitlement .. => [.entitlements]
  | claimRefresh .. => [.credentials]
  | completeRefresh .. => [.credentials]
  | releaseRefresh .. => [.credentials]
  | revokeActiveCredential .. => [.credentials]
  | revokeUncredentialedAuthorization .. => [.authorizations]
  | revokeConnection .. => [.authorizations, .credentials]
  | revokeAuthorizationsByConnector .. =>
    [.accessRequests, .entitlements, .authorizations, .credentials]
  | createConnectionIntent .. => [.intents]
  | consumeConnectionIntent .. => [.intents]
  | insertProviderConnection .. => [.providerConnections]
  | updateProviderConnection .. => [.providerConnections]
  | upsertProviderCredential .. => [.authorizations, .credentials]
  | createResourceAuthorization .. => [.authorizations, .credentials]
  | updateResource .. => [.resources, .configuration, .entitlements]
  | replaceResourceDiscovery .. => [.resources, .configuration, .entitlements]
  | deleteResource .. =>
    [.resources, .configuration, .entitlements, .accessRequests, .tokenLeases, .authorizations,
      .intents, .exchangeTokens, .auditEvents]

/-- A command leaves alone what it does not write. -/
theorem after_same (command : AccessCommand) (db : Database) {group : TableGroup}
    (h : group ∉ command.writes) : SameTables db (command.after db) group := by
  unfold after
  apply Statement.after_keeps (p := fun db' => SameTables db db' group) (SameTables.refl db group)
  intro answer db' hok
  cases command with
  | approveAccessRequest approval =>
    rw [Database.approveAccessRequest_ok hok, Database.recordAudit_agentAuditEvents]
    cases group <;> simp_all [SameTables, writes, Database.updateAccessRequestDecision]
  | issueTokenLease lease boundary consumeEntitlementIds now audit =>
    obtain ⟨leases, rows, requests, events, rfl⟩ := Database.issueTokenLease_ok hok
    cases group <;> simp_all [SameTables, writes]
  | decideAccessRequest id decision audit =>
    cases hok
    rw [Database.recordAudit_agentAuditEvents]
    cases group <;> simp_all [SameTables, writes]
  | endEntitlementWithAudit id reason tokenLeaseIds now audit =>
    cases hok
    rw [Database.recordAudit_agentAuditEvents]
    cases group <;> simp_all [SameTables, writes, Database.revokeLeases, Database.endOpen]
  | insertScopeEntitlement row =>
    obtain ⟨-, -, rfl⟩ | ⟨-, -, rfl⟩ := Database.insertScopeEntitlement_ok hok
    · exact SameTables.refl _ group
    · cases group <;> simp_all [SameTables, writes]
  | replaceExpiredEntitlement id row now =>
    obtain ⟨-, rfl⟩ := Database.replaceExpiredEntitlement_ok hok
    cases group <;> simp_all [SameTables, writes]
  | renewEntitlement renewal =>
    rw [(Database.renewEntitlement_ok hok).2]
    cases group <;> simp_all [SameTables, writes]
  | revokeAuthorizationsByConnector authorizationIds now =>
    obtain ⟨rows, rfl⟩ := Database.revokeAuthorizations_ok hok
    cases group <;> simp_all [SameTables, writes]
  | createConnectionIntent row =>
    obtain ⟨rows, rfl⟩ := Database.createConnectionIntent_ok hok
    cases group <;> simp_all [SameTables, writes]
  | insertProviderConnection row =>
    obtain ⟨rows, rfl⟩ := Database.insertProviderConnection_ok hok
    cases group <;> simp_all [SameTables, writes]
  | upsertProviderCredential authorizationId credential =>
    obtain ⟨credentials, rfl, -⟩ := Database.upsertProviderCredential_ok hok
    cases group <;> simp_all [SameTables, writes]
  | createResourceAuthorization row credential =>
    obtain ⟨-, -, -, rfl⟩ := Database.createResourceAuthorization_ok hok
    cases group <;> simp_all [SameTables, writes]
  | updateResource id patch narrowing now =>
    rw [Database.updateResource_ok hok]
    cases group <;> simp_all [SameTables, writes, Database.narrow, Database.endAll]
  | deleteResource id now audit =>
    cases hok
    rw [Database.recordAudit_agentAuditEvents]
    cases group <;>
      simp_all [SameTables, writes, Database.removeConfiguration, Database.withdrawGrants]
  | _ =>
    cases hok
    cases group <;> simp_all [SameTables, writes, Database.endOpen, Database.narrow, Database.endAll]

/-- No command stores a token of an exchange; deleting a resource revokes some. -/
theorem refreshTokens_after (command : AccessCommand) (db : Database) :
    ∀ row ∈ (command.after db).tokenExchangeRefreshTokens,
      ∃ old ∈ db.tokenExchangeRefreshTokens, row = old ∨ ∃ now, row = old.revoke now := by
  intro row hrow
  by_cases hwrites : TableGroup.exchangeTokens ∈ command.writes
  · cases command with
    | deleteResource id now audit =>
      obtain ⟨old, hold, rfl⟩ := Table.mem_updateWhere.mp hrow
      rw [Database.recordAudit_agentAuditEvents] at hold
      refine ⟨old, hold, ?_⟩
      split_ifs
      · exact Or.inr ⟨now, rfl⟩
      · exact Or.inl rfl
    | _ => simp [writes] at hwrites
  · rw [(command.after_same db hwrites).2] at hrow
    exact ⟨row, hrow, Or.inl rfl⟩

theorem accessTokens_after (command : AccessCommand) (db : Database) :
    ∀ row ∈ (command.after db).tokenExchangeAccessTokens,
      ∃ old ∈ db.tokenExchangeAccessTokens, row.id = old.id := by
  intro row hrow
  by_cases hwrites : TableGroup.exchangeTokens ∈ command.writes
  · cases command with
    | deleteResource id now audit =>
      obtain ⟨old, hold, rfl⟩ := Table.mem_updateWhere.mp hrow
      rw [Database.recordAudit_agentAuditEvents] at hold
      refine ⟨old, hold, ?_⟩
      split_ifs <;> rfl
    | _ => simp [writes] at hwrites
  · rw [(command.after_same db hwrites).1] at hrow
    exact ⟨row, hrow, rfl⟩

theorem hasAccessToken_after {id : String} (command : AccessCommand) (db : Database)
    (h : ∃ row ∈ db.tokenExchangeAccessTokens, row.id = id) :
    ∃ row ∈ (command.after db).tokenExchangeAccessTokens, row.id = id := by
  obtain ⟨old, hold, hid⟩ := h
  by_cases hwrites : TableGroup.exchangeTokens ∈ command.writes
  · cases command with
    | deleteResource id' now audit =>
      have hold' : old ∈ (Database.recordAudit { audit with resourceId := some id' }
          (fun db => db.apiResources.any (Database.isUndeleted id')) db).tokenExchangeAccessTokens := by
        rw [Database.recordAudit_agentAuditEvents]
        exact hold
      refine ⟨_, Table.mem_updateWhere.mpr ⟨old, hold', rfl⟩, ?_⟩
      split_ifs <;> exact hid
    | _ => simp [writes] at hwrites
  · rw [(command.after_same db hwrites).1]
    exact ⟨old, hold, hid⟩

end AccessCommand
end Realmroot
