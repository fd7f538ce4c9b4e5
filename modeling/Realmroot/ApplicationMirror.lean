import Realmroot.Repos.Applications

/-!
# The OAuth client of an Application

The row of an OAuth client stores the scopes of its Application again, whether the Application is
disabled, and whether the user is asked. Creations and updates write both rows. A change of a
resource takes scopes away from Applications and leaves their clients alone.
-/

namespace Realmroot

/-! ## Mirrors -/

/-- The row of the client says what the row of the Application says. -/
structure OAuthClient.Mirrors (client : OAuthClient) (app : Application) : Prop where
  clientId : client.clientId = app.oauthClientId
  scopes : ∀ scope, scope ∈ client.scopes ↔
    scope ∈ app.oidcScopes ∨ scope ∈ configuredScopeValues app.resourceScopes
  clientCredentialsScopes : ∀ scope, scope ∈ client.clientCredentialsScopes ↔
    scope ∈ configuredScopeValues app.resourceScopes
  disabled : client.disabled = app.disabled
  skipConsent : client.skipConsent = !app.consentRequired

namespace Database

/-- Every Application has a client that mirrors it. -/
def Mirrors (db : Database) : Prop :=
  ∀ app ∈ db.applications, ∃ client ∈ db.oauthClients, client.Mirrors app

/-- The keys of Applications and clients. -/
structure ApplicationKeys (db : Database) : Prop where
  ids : Table.Keyed Application.id db.applications
  oauthClientIds : Table.Keyed Application.oauthClientId db.applications
  clientIds : Table.Keyed OAuthClient.clientId db.oauthClients

end Database

/-! ## Operations -/

inductive ApplicationOperation where
  | create (input : NewApplication) (clientSecret : Option NewClientSecret)
  | update (id : String) (patch : ApplicationPatch)
  | updateResource (id : String) (patch : ResourcePatch)
  | replaceResourceDiscovery (id : String) (discovery : ResourceDiscovery)
  | deleteResource (id : String) (audit : AgentAuditEvent)

/-- What the reads of `updateResource` select, or nothing when the resource is not there. -/
def Database.resourceNarrowing (db : Database) (id : String) (patch : ResourcePatch) :
    Option ResourceNarrowing :=
  if patch.visibility = some .private then
    (db.apiResources.find? fun row => row.id = id).map fun row =>
      db.privateNarrowing id (patch.ownerOrganizationId.getD row.ownerOrganizationId)
  else some { applications := [], entitlementIds := [], roles := [], consents := [] }

namespace ApplicationOperation

/-- The database after an operation of the repositories that runs alone. -/
def after (db : Database) (now : Time) : ApplicationOperation → Database
  | create input clientSecret => (Database.insertApplication input clientSecret now).after db
  | update id patch =>
    match db.applications.find? fun row => row.id = id with
    | some current => (Database.updateApplication current patch now).after db
    | none => db
  | updateResource id patch =>
    match db.resourceNarrowing id patch with
    | some narrowing => (Database.updateResource id patch narrowing now).after db
    | none => db
  | replaceResourceDiscovery id discovery =>
    (Database.replaceResourceDiscovery id discovery
      (db.discoveryNarrowing id discovery.scopeRegistry) now).after db
  | deleteResource id audit =>
    if db.apiResources.any (Database.isUndeleted id) then
      (Database.deleteResource id now audit).after db
    else db

/-- The states of a sequence of operations, each at its time, the first one included. -/
def states : Database → List (ApplicationOperation × Time) → List Database
  | db, [] => [db]
  | db, (operation, now) :: rest => db :: states (operation.after db now) rest

/-- The operations of a sequence, each with the state in which it begins. -/
def history : Database → List (ApplicationOperation × Time) →
    List (Database × ApplicationOperation × Time)
  | _, [] => []
  | db, (operation, now) :: rest =>
    (db, operation, now) :: history (operation.after db now) rest

/-- What an operation on a resource leaves of the resource scopes of an Application. -/
def leaves (db : Database) (app : Application) :
    ApplicationOperation → List ApplicationResourceScopes
  | updateResource id patch =>
    let withdraws := fun resource : ApiResource =>
      resource.id = id && patch.visibility = some .private &&
        app.ownerOrganizationId ≠ patch.ownerOrganizationId.getD resource.ownerOrganizationId
    let refused := db.apiResources.any (Database.isUndeleted id) && db.resourceKeyTaken id patch
    if (db.apiResources.find? fun row => row.id = id).any withdraws && !refused then
      app.resourceScopes.filter fun configuration => configuration.resourceServerId ≠ id
    else app.resourceScopes
  | replaceResourceDiscovery id discovery =>
    Database.declaredResourceScopes id (discovery.scopeRegistry.scopes.map (·.value)) app.resourceScopes
  | deleteResource id _ =>
    if db.apiResources.any (Database.isUndeleted id) then
      app.resourceScopes.filter fun configuration => configuration.resourceServerId ≠ id
    else app.resourceScopes
  | _ => app.resourceScopes

/-- No Application loses a configured scope. -/
def KeepsConfigured (db : Database) (operation : ApplicationOperation) : Prop :=
  ∀ app ∈ db.applications, ∀ scope ∈ configuredScopeValues app.resourceScopes,
    scope ∈ configuredScopeValues (operation.leaves db app)

instance (db : Database) (operation : ApplicationOperation) :
    Decidable (operation.KeepsConfigured db) :=
  inferInstanceAs (Decidable (∀ _ ∈ _, ∀ _ ∈ _, _))

end ApplicationOperation

/-! ## Resources -/

theorem mem_configuredScopeValues {scope : String}
    {resourceScopes : List ApplicationResourceScopes} :
    scope ∈ configuredScopeValues resourceScopes ↔
      ∃ configuration ∈ resourceScopes, scope ∈ configuration.scopes := by
  simp [configuredScopeValues, List.mem_flatMap]

namespace Database

/-- The Applications lose resource scopes, and nothing else that a client repeats. -/
def Narrows (leaves : Application → List ApplicationResourceScopes) (db db' : Database) : Prop :=
  db'.oauthClients = db.oauthClients ∧ ∃ stamp : Application → Time,
    db'.applications = db.applications.map fun app =>
      { app with resourceScopes := leaves app, updatedAt := stamp app }

theorem Narrows.refl (db : Database) : Narrows (·.resourceScopes) db db := by
  refine ⟨rfl, (·.updatedAt), ?_⟩
  exact (List.map_id' db.applications).symm

theorem Narrows.congr {leaves leaves' : Application → List ApplicationResourceScopes}
    {db db' : Database} (h : Narrows leaves db db')
    (hleaves : ∀ app ∈ db.applications, leaves app = leaves' app) : Narrows leaves' db db' := by
  obtain ⟨hclients, stamp, happs⟩ := h
  refine ⟨hclients, stamp, ?_⟩
  rw [happs]
  refine List.map_congr_left fun app happ => ?_
  rw [hleaves app happ]

/-- A batch that sets what was computed of each row sets that on each row. -/
theorem setResourceScopes_filterMap {rows : List Application}
    (hkeyed : Table.Keyed Application.id rows)
    (change : Application → Option (List ApplicationResourceScopes)) (now : Time) :
    setResourceScopes
        (rows.filterMap fun app => (change app).map fun resourceScopes => (app.id, resourceScopes))
        now rows =
      rows.map fun app =>
        { app with
          resourceScopes := (change app).getD app.resourceScopes
          updatedAt := if (change app).isSome then now else app.updatedAt } := by
  refine List.map_congr_left fun app happ => ?_
  rw [hkeyed.lookup_filterMap change happ]
  cases change app <;> rfl

theorem narrows_narrow {db db₀ : Database}
    (hkeyed : Table.Keyed Application.id db.applications) (narrowing : ResourceNarrowing)
    (change : Application → Option (List ApplicationResourceScopes)) (now : Time)
    (hchange : narrowing.applications =
      db.applications.filterMap fun app =>
        (change app).map fun resourceScopes => (app.id, resourceScopes))
    (happs : db₀.applications = db.applications) (hclients : db₀.oauthClients = db.oauthClients) :
    Narrows (fun app => (change app).getD app.resourceScopes) db (narrow narrowing now db₀) := by
  refine ⟨hclients, fun app => if (change app).isSome then now else app.updatedAt, ?_⟩
  have hset : (narrow narrowing now db₀).applications =
      setResourceScopes narrowing.applications now db₀.applications := rfl
  rw [hset, happs, hchange]
  exact setResourceScopes_filterMap hkeyed change now

end Database

namespace ApplicationOperation

theorem leaves_subset {db : Database} {app : Application} (operation : ApplicationOperation)
    {scope : String} (h : scope ∈ configuredScopeValues (operation.leaves db app)) :
    scope ∈ configuredScopeValues app.resourceScopes := by
  rw [mem_configuredScopeValues] at h ⊢
  obtain ⟨configuration, hconfiguration, hscope⟩ := h
  cases operation with
  | create | update => exact ⟨configuration, hconfiguration, hscope⟩
  | updateResource id patch =>
    simp only [leaves] at hconfiguration
    split_ifs at hconfiguration
    · exact ⟨configuration, (List.mem_filter.mp hconfiguration).1, hscope⟩
    · exact ⟨configuration, hconfiguration, hscope⟩
  | replaceResourceDiscovery id discovery =>
    have hmem := (List.mem_filter.mp hconfiguration).1
    obtain ⟨old, hold, rfl⟩ := List.mem_map.mp hmem
    refine ⟨old, hold, ?_⟩
    split_ifs at hscope
    · exact (List.mem_filter.mp hscope).1
    · exact hscope
  | deleteResource id audit =>
    simp only [leaves] at hconfiguration
    split_ifs at hconfiguration
    · exact ⟨configuration, (List.mem_filter.mp hconfiguration).1, hscope⟩
    · exact ⟨configuration, hconfiguration, hscope⟩

/-- The statement of `updateResource` with a narrowing that was computed of the rows. -/
theorem narrows_updateResource_after {db : Database}
    (hkeyed : Table.Keyed Application.id db.applications) (id : String) (patch : ResourcePatch)
    (narrowing : ResourceNarrowing)
    (change : Application → Option (List ApplicationResourceScopes)) (now : Time)
    (hchange : narrowing.applications =
      db.applications.filterMap fun app =>
        (change app).map fun resourceScopes => (app.id, resourceScopes)) :
    Database.Narrows
      (fun app =>
        if db.apiResources.any (Database.isUndeleted id) && db.resourceKeyTaken id patch then
          app.resourceScopes
        else (change app).getD app.resourceScopes)
      db ((Database.updateResource id patch narrowing now).after db) := by
  by_cases hrefused :
      (db.apiResources.any (Database.isUndeleted id) && db.resourceKeyTaken id patch) = true
  · have hafter : (Database.updateResource id patch narrowing now).after db = db := by
      simp only [Statement.after, Database.updateResource, if_pos hrefused]
    rw [hafter]
    refine (Database.Narrows.refl db).congr fun app _ => ?_
    rw [if_pos hrefused]
  · have hafter : (Database.updateResource id patch narrowing now).after db =
        Database.narrow narrowing now
          { db with
            apiResources :=
              Table.updateWhere (Database.isUndeleted id) (patch.apply now) db.apiResources } := by
      simp only [Statement.after, Database.updateResource, if_neg hrefused]
    rw [hafter]
    refine (Database.narrows_narrow hkeyed narrowing change now hchange rfl rfl).congr ?_
    intro app _
    rw [if_neg hrefused]

theorem narrows_updateResource {db : Database} (hkeyed : Table.Keyed Application.id db.applications)
    (id : String) (patch : ResourcePatch) (now : Time) :
    Database.Narrows (leaves db · (.updateResource id patch)) db
      ((updateResource id patch).after db now) := by
  by_cases hprivate : patch.visibility = some .private
  · cases hfound : db.apiResources.find? fun row => row.id = id with
    | none =>
      have hnarrowing : db.resourceNarrowing id patch = none := by
        simp [Database.resourceNarrowing, hprivate, hfound]
      simp only [after, hnarrowing]
      refine (Database.Narrows.refl db).congr fun app _ => ?_
      simp [leaves, hfound]
    | some resource =>
      let owner := patch.ownerOrganizationId.getD resource.ownerOrganizationId
      have hnarrowing : db.resourceNarrowing id patch = some (db.privateNarrowing id owner) := by
        simp [Database.resourceNarrowing, hprivate, hfound, owner]
      have hid : resource.id = id := by simpa using List.find?_some hfound
      simp only [after, hnarrowing]
      refine (narrows_updateResource_after hkeyed id patch _ (fun app =>
        let resourceScopes := app.resourceScopes.filter fun configuration =>
          configuration.resourceServerId ≠ id
        if app.ownerOrganizationId = owner ∨
            resourceScopes.length = app.resourceScopes.length then none
        else some resourceScopes) now ?_).congr ?_
      · refine List.filterMap_congr fun app _ => ?_
        dsimp only
        split_ifs <;> rfl
      · intro app _
        by_cases howner : app.ownerOrganizationId = owner
        · simp [leaves, hfound, howner, owner]
        · have hwithdraws : (some resource).any (fun resource : ApiResource =>
              resource.id = id && patch.visibility = some .private &&
                app.ownerOrganizationId ≠
                  patch.ownerOrganizationId.getD resource.ownerOrganizationId) = true := by
            simpa [hid, hprivate] using howner
          simp only [leaves, hfound, hwithdraws, howner, false_or, Bool.true_and]
          by_cases hsame : (app.resourceScopes.filter fun configuration =>
              configuration.resourceServerId ≠ id).length = app.resourceScopes.length
          · have hkept := List.filter_sublist.eq_of_length hsame
            rw [hkept]
            simp
          · rw [if_neg hsame]
            cases db.apiResources.any (Database.isUndeleted id) &&
              db.resourceKeyTaken id patch <;> rfl
  · have hnarrowing : db.resourceNarrowing id patch =
        some { applications := [], entitlementIds := [], roles := [], consents := [] } := by
      simp [Database.resourceNarrowing, hprivate]
    simp only [after, hnarrowing]
    refine (narrows_updateResource_after hkeyed id patch _ (fun _ => none) now ?_).congr ?_
    · simp
    · intro app _
      cases hfound : db.apiResources.find? fun row => row.id = id <;>
        simp [leaves, hfound, hprivate]

theorem narrows_replaceResourceDiscovery {db : Database}
    (hkeyed : Table.Keyed Application.id db.applications) (id : String)
    (discovery : ResourceDiscovery) (now : Time) :
    Database.Narrows (leaves db · (.replaceResourceDiscovery id discovery)) db
      ((replaceResourceDiscovery id discovery).after db now) := by
  have hafter : (replaceResourceDiscovery id discovery).after db now =
      Database.narrow (db.discoveryNarrowing id discovery.scopeRegistry) now
        { db with
          apiResources :=
            Table.updateWhere (Database.isUndeleted id)
              (fun row => { row with
                name := discovery.name, description := discovery.description
                scopeRegistry := some discovery.scopeRegistry, updatedAt := now })
              db.apiResources } := rfl
  rw [hafter]
  have hnarrows := Database.narrows_narrow hkeyed
    (db.discoveryNarrowing id discovery.scopeRegistry)
    (fun app =>
      let resourceScopes := Database.declaredResourceScopes id
        (discovery.scopeRegistry.scopes.map (·.value)) app.resourceScopes
      if resourceScopes = app.resourceScopes then none else some resourceScopes)
    now (List.filterMap_congr fun app _ => by dsimp only; split_ifs <;> rfl) rfl rfl
  refine hnarrows.congr fun app _ => ?_
  dsimp only [leaves]
  split_ifs with hsame
  · exact hsame.symm
  · rfl

theorem narrows_deleteResource (db : Database) (id : String) (audit : AgentAuditEvent)
    (now : Time) :
    Database.Narrows (leaves db · (.deleteResource id audit)) db
      ((deleteResource id audit).after db now) := by
  by_cases hthere : db.apiResources.any (Database.isUndeleted id) = true
  · simp only [after, if_pos hthere]
    have hrecorded : (Database.recordAudit { audit with resourceId := some id }
        (fun db => db.apiResources.any (Database.isUndeleted id)) db) =
        { db with
          agentAuditEvents := db.agentAuditEvents ++ [{ audit with resourceId := some id }] } :=
      if_pos hthere
    have hclients : ((Database.deleteResource id now audit).after db).oauthClients =
        db.oauthClients := by
      simp only [Statement.after, Database.deleteResource, hrecorded]
      rfl
    refine ⟨hclients, fun app =>
      if app.resourceScopes.any fun configuration => configuration.resourceServerId = id then now
      else app.updatedAt, ?_⟩
    simp only [Statement.after, Database.deleteResource, hrecorded]
    refine List.map_congr_left fun app _ => ?_
    simp only [leaves, if_pos hthere]
    split_ifs with hconfigured
    · rfl
    · have hkept : app.resourceScopes.filter (fun configuration =>
          configuration.resourceServerId ≠ id) = app.resourceScopes := by
        rw [List.filter_eq_self]
        intro configuration hconfiguration
        simp only [List.any_eq_true, not_exists, not_and] at hconfigured
        simpa using hconfigured configuration hconfiguration
      rw [hkept]
  · simp only [after, if_neg hthere]
    refine (Database.Narrows.refl db).congr fun app _ => ?_
    simp only [leaves, if_neg hthere]

end ApplicationOperation

namespace Database

/-- After a narrowing, the clients mirror exactly when nothing that was configured is gone. -/
theorem Narrows.mirrors_iff {db db' : Database}
    {leaves : Application → List ApplicationResourceScopes} (h : Narrows leaves db db')
    (hkeys : db.ApplicationKeys) (hmirrors : db.Mirrors)
    (hsubset : ∀ app scope, scope ∈ configuredScopeValues (leaves app) →
      scope ∈ configuredScopeValues app.resourceScopes) :
    db'.Mirrors ↔ ∀ app ∈ db.applications, ∀ scope ∈ configuredScopeValues app.resourceScopes,
      scope ∈ configuredScopeValues (leaves app) := by
  obtain ⟨hclients, stamp, happs⟩ := h
  constructor
  · intro hmirrors' app happ scope hscope
    obtain ⟨client, hclient, hmirror⟩ := hmirrors app happ
    obtain ⟨client', hclient', hmirror'⟩ := hmirrors'
      { app with resourceScopes := leaves app, updatedAt := stamp app }
      (happs ▸ List.mem_map_of_mem happ)
    rw [hclients] at hclient'
    have hsame : client' = client :=
      hkeys.clientIds.eq_of_key hclient' hclient (hmirror'.clientId.trans hmirror.clientId.symm)
    subst hsame
    exact (hmirror'.clientCredentialsScopes scope).mp
      ((hmirror.clientCredentialsScopes scope).mpr hscope)
  · intro hkept app' happ'
    rw [happs] at happ'
    obtain ⟨app, happ, rfl⟩ := List.mem_map.mp happ'
    obtain ⟨client, hclient, hmirror⟩ := hmirrors app happ
    have hsame : ∀ scope, scope ∈ configuredScopeValues (leaves app) ↔
        scope ∈ configuredScopeValues app.resourceScopes :=
      fun scope => ⟨hsubset app scope, hkept app happ scope⟩
    refine ⟨client, hclients ▸ hclient, ?_⟩
    exact
      { clientId := hmirror.clientId
        scopes := fun scope => (hmirror.scopes scope).trans (or_congr_right (hsame scope).symm)
        clientCredentialsScopes := fun scope =>
          (hmirror.clientCredentialsScopes scope).trans (hsame scope).symm
        disabled := hmirror.disabled
        skipConsent := hmirror.skipConsent }

theorem Narrows.keys {db db' : Database}
    {leaves : Application → List ApplicationResourceScopes} (h : Narrows leaves db db')
    (hkeys : db.ApplicationKeys) : db'.ApplicationKeys := by
  obtain ⟨hclients, stamp, happs⟩ := h
  have hids : db'.applications.map Application.id = db.applications.map Application.id := by
    rw [happs, List.map_map]
    rfl
  have hclientIds : db'.applications.map Application.oauthClientId =
      db.applications.map Application.oauthClientId := by
    rw [happs, List.map_map]
    rfl
  exact
    { ids := by rw [Table.Keyed, hids]; exact hkeys.ids
      oauthClientIds := by rw [Table.Keyed, hclientIds]; exact hkeys.oauthClientIds
      clientIds := hclients ▸ hkeys.clientIds }

/-! ## Creations -/

theorem insertApplication_ok {db db' : Database} {input : NewApplication}
    {clientSecret : Option NewClientSecret} {now : Time}
    (h : insertApplication input clientSecret now db = .ok ((), db')) :
    (∀ old ∈ db.oauthClients, old.clientId ≠ input.clientId) ∧
      (∀ old ∈ db.applications, old.id ≠ input.id ∧ old.oauthClientId ≠ input.clientId) ∧
      db' = { db with
        applications := db.applications ++ [input.toApplicationInsert now]
        oauthClients := db.oauthClients ++
          [input.toOAuthClientInsert (clientSecret.map (·.secretHash))]
        applicationClientSecrets := db.applicationClientSecrets ++
          clientSecret.toList.map fun secret => secret.toRow input.id secret.version now } := by
  unfold insertApplication at h
  dsimp only at h
  split_ifs at h with hclient hid hslug hoauth hsecret
  cases h
  simp only [List.any_eq_true, decide_eq_true_eq, not_exists, not_and] at hclient hid hoauth
  exact ⟨hclient, fun old hold => ⟨hid old hold, hoauth old hold⟩, rfl⟩

/-- A new client mirrors its Application. -/
theorem mirrors_toOAuthClientInsert (input : NewApplication) (clientSecret : Option String)
    (now : Time) :
    (input.toOAuthClientInsert clientSecret).Mirrors (input.toApplicationInsert now) where
  clientId := rfl
  scopes := fun _ => List.mem_append
  clientCredentialsScopes := fun _ => Iff.rfl
  disabled := rfl
  skipConsent := rfl

theorem mirrors_insertApplication {db : Database} (hmirrors : db.Mirrors) (input : NewApplication)
    (clientSecret : Option NewClientSecret) (now : Time) :
    ((insertApplication input clientSecret now).after db).Mirrors := by
  refine Statement.after_keeps hmirrors ?_
  intro _ db' hok app happ
  obtain ⟨-, -, rfl⟩ := insertApplication_ok hok
  rcases List.mem_append.mp happ with hold | hnew
  · obtain ⟨client, hclient, hmirror⟩ := hmirrors app hold
    exact ⟨client, List.mem_append_left _ hclient, hmirror⟩
  · rw [List.mem_singleton] at hnew
    subst hnew
    refine ⟨input.toOAuthClientInsert (clientSecret.map (·.secretHash)), ?_,
      mirrors_toOAuthClientInsert input _ now⟩
    exact List.mem_append_right _ (List.mem_singleton_self _)

theorem keys_insertApplication {db : Database} (hkeys : db.ApplicationKeys)
    (input : NewApplication) (clientSecret : Option NewClientSecret) (now : Time) :
    ((insertApplication input clientSecret now).after db).ApplicationKeys := by
  refine Statement.after_keeps hkeys ?_
  intro _ db' hok
  obtain ⟨hclient, happ, rfl⟩ := insertApplication_ok hok
  exact
    { ids := hkeys.ids.append_singleton fun old hold => (happ old hold).1
      oauthClientIds := hkeys.oauthClientIds.append_singleton fun old hold => (happ old hold).2
      clientIds := hkeys.clientIds.append_singleton hclient }

/-! ## Updates -/

theorem updateApplication_ok {db db' : Database} {current : Application} {patch : ApplicationPatch}
    {now : Time} {answer : Bool} (h : updateApplication current patch now db = .ok (answer, db')) :
    db' = db ∨
      db' = { db with
        applications :=
          Table.updateWhere (fun row => row.id = current.id) (patch.apply current now)
            db.applications
        oauthClients :=
          Table.updateWhere (fun row => row.clientId = current.oauthClientId)
            (patch.applyClient current) db.oauthClients } := by
  unfold updateApplication at h
  split_ifs at h
  · cases h
    exact .inl rfl
  · cases h
    exact .inr rfl

/-- A client that mirrors the row that was read is updated with it. -/
theorem mirrors_applyClient {client : OAuthClient} {current : Application}
    (h : client.Mirrors current) (patch : ApplicationPatch) (now : Time) :
    (patch.applyClient current client).Mirrors (patch.apply current now current) where
  clientId := h.clientId
  scopes := by
    intro scope
    by_cases hwrites : patch.writesScopes = true
    · simp [ApplicationPatch.applyClient, ApplicationPatch.apply, hwrites]
    · have hwrites' := hwrites
      simp only [ApplicationPatch.writesScopes, Bool.or_eq_true, not_or, Bool.not_eq_true,
        Option.isSome_eq_false_iff, Option.isNone_iff_eq_none] at hwrites'
      simp [ApplicationPatch.applyClient, ApplicationPatch.apply, hwrites, hwrites', h.scopes]
  clientCredentialsScopes := by
    intro scope
    by_cases hwrites : patch.writesScopes = true
    · simp [ApplicationPatch.applyClient, ApplicationPatch.apply, hwrites]
    · have hwrites' := hwrites
      simp only [ApplicationPatch.writesScopes, Bool.or_eq_true, not_or, Bool.not_eq_true,
        Option.isSome_eq_false_iff, Option.isNone_iff_eq_none] at hwrites'
      simp [ApplicationPatch.applyClient, ApplicationPatch.apply, hwrites, hwrites',
        h.clientCredentialsScopes]
  disabled := by simp [ApplicationPatch.applyClient, ApplicationPatch.apply, h.disabled]
  skipConsent := by
    cases hconsent : patch.consentRequired <;>
      simp [ApplicationPatch.applyClient, ApplicationPatch.apply, hconsent, h.skipConsent]

theorem mirrors_updateApplication {db : Database} (hkeys : db.ApplicationKeys)
    (hmirrors : db.Mirrors) {current : Application} (hcurrent : current ∈ db.applications)
    (patch : ApplicationPatch) (now : Time) :
    ((updateApplication current patch now).after db).Mirrors := by
  refine Statement.after_keeps hmirrors ?_
  intro _ db' hok
  rcases updateApplication_ok hok with rfl | rfl
  · exact hmirrors
  · intro app' happ'
    obtain ⟨app, happ, rfl⟩ := Table.mem_updateWhere.mp happ'
    obtain ⟨client, hclient, hmirror⟩ := hmirrors app happ
    by_cases hid : app.id = current.id
    · have hsame : app = current := hkeys.ids.eq_of_key happ hcurrent hid
      subst hsame
      simp only [decide_true, if_true]
      refine ⟨patch.applyClient app client, ?_, mirrors_applyClient hmirror patch now⟩
      exact Table.mem_updateWhere_of_pos hclient (by simpa using hmirror.clientId)
    · simp only [hid, decide_false, Bool.false_eq_true, if_false]
      refine ⟨client, Table.mem_updateWhere_of_not hclient ?_, hmirror⟩
      have hother : app.oauthClientId ≠ current.oauthClientId := fun hclientId =>
        hid (congrArg Application.id (hkeys.oauthClientIds.eq_of_key happ hcurrent hclientId))
      simpa [hmirror.clientId] using hother

theorem keys_updateApplication {db : Database} (hkeys : db.ApplicationKeys)
    (current : Application) (patch : ApplicationPatch) (now : Time) :
    ((updateApplication current patch now).after db).ApplicationKeys := by
  refine Statement.after_keeps hkeys ?_
  intro _ db' hok
  rcases updateApplication_ok hok with rfl | rfl
  · exact hkeys
  · exact
      { ids := hkeys.ids.updateWhere fun _ => rfl
        oauthClientIds := hkeys.oauthClientIds.updateWhere fun _ => rfl
        clientIds := hkeys.clientIds.updateWhere fun _ => rfl }

end Database

/-! ## Runs -/

namespace ApplicationOperation

theorem keys_after {db : Database} (hkeys : db.ApplicationKeys)
    (operation : ApplicationOperation) (now : Time) :
    (operation.after db now).ApplicationKeys := by
  cases operation with
  | create input clientSecret => exact Database.keys_insertApplication hkeys input clientSecret now
  | update id patch =>
    simp only [after]
    split
    · exact Database.keys_updateApplication hkeys _ patch now
    · exact hkeys
  | updateResource id patch => exact (narrows_updateResource hkeys.ids id patch now).keys hkeys
  | replaceResourceDiscovery id discovery =>
    exact (narrows_replaceResourceDiscovery hkeys.ids id discovery now).keys hkeys
  | deleteResource id audit => exact (narrows_deleteResource db id audit now).keys hkeys

/-- One step: where the clients mirror, they still do when no configured scope is lost, and only
then. -/
theorem mirrors_after_iff {db : Database} (hkeys : db.ApplicationKeys) (hmirrors : db.Mirrors)
    (operation : ApplicationOperation) (now : Time) :
    (operation.after db now).Mirrors ↔ operation.KeepsConfigured db := by
  cases operation with
  | create input clientSecret =>
    exact iff_of_true (Database.mirrors_insertApplication hmirrors input clientSecret now)
      fun _ _ _ hscope => hscope
  | update id patch =>
    refine iff_of_true ?_ fun _ _ _ hscope => hscope
    simp only [after]
    split
    · next current hfound =>
      exact Database.mirrors_updateApplication hkeys hmirrors (List.mem_of_find?_eq_some hfound)
        patch now
    · exact hmirrors
  | updateResource id patch =>
    exact (narrows_updateResource hkeys.ids id patch now).mirrors_iff hkeys hmirrors
      fun _ _ => leaves_subset _
  | replaceResourceDiscovery id discovery =>
    exact (narrows_replaceResourceDiscovery hkeys.ids id discovery now).mirrors_iff hkeys hmirrors
      fun _ _ => leaves_subset _
  | deleteResource id audit =>
    exact (narrows_deleteResource db id audit now).mirrors_iff hkeys hmirrors
      fun _ _ => leaves_subset _

/-- Clients mirror their Applications throughout exactly when no operation takes a configured
scope from an Application. -/
theorem clients_mirror_applications (operations : List (ApplicationOperation × Time))
    (start : Database) (hkeys : start.ApplicationKeys) (hmirrors : start.Mirrors) :
    (∀ db ∈ states start operations, db.Mirrors) ↔
      ∀ step ∈ history start operations, step.2.1.KeepsConfigured step.1 := by
  induction operations generalizing start with
  | nil => simpa [states, history] using hmirrors
  | cons head rest ih =>
    obtain ⟨operation, now⟩ := head
    have hstep := mirrors_after_iff hkeys hmirrors operation now
    have hrest := ih (operation.after start now) (keys_after hkeys operation now)
    simp only [states, history, List.forall_mem_cons]
    constructor
    · rintro ⟨-, hstates⟩
      have hnext : (operation.after start now).Mirrors := by
        refine hstates _ ?_
        cases rest <;> simp [states]
      exact ⟨hstep.mp hnext, (hrest hnext).mp hstates⟩
    · rintro ⟨hkept, hhistory⟩
      exact ⟨hmirrors, (hrest (hstep.mpr hkept)).mpr hhistory⟩

end ApplicationOperation

/-! ## The resource that is deleted -/

namespace MirrorExample

def resource : ApiResource :=
  { id := "api", identifier := "api", name := "API", description := none
    resourceUrl := "https://api.example", authorizationModel := .native, connectorId := none
    authorizationDetails := [], enabled := true, ownerOrganizationId := "platform"
    visibility := .public
    scopeRegistry := some { scopes := [
      { value := "read", description := none, grantMode := .automatic },
      { value := "write", description := none, grantMode := .assigned }] }
    availableToAgents := false, deletedAt := none, updatedAt := 0 }

def start : Database := { apiResources := [resource] }

theorem start_keys : start.ApplicationKeys where
  ids := List.nodup_nil
  oauthClientIds := List.nodup_nil
  clientIds := List.nodup_nil

theorem start_mirrors : start.Mirrors := by
  intro app happ
  cases happ

/-- The Application of the dashboard asks for both scopes of the resource. -/
def dashboard : ApplicationOperation :=
  .create
    { id := "dashboard", clientId := "client", slug := "dashboard", name := "Dashboard"
      description := none, homepageUrl := none, iconUrl := none, clientType := .confidentialWeb
      visibility := .public, consentRequired := true, disabled := false, disabledReason := none
      ownerOrganizationId := "platform", redirectUris := ["https://dashboard.example/callback"]
      postLogoutRedirectUris := [], corsOrigins := [], customData := [], oidcClaims := []
      allowedGrantTypes := ["authorization_code"], oidcScopes := ["openid"]
      resourceScopes := [{ resourceServerId := "api", scopes := ["read", "write"] }]
      tokenExchangePolicies := [] }
    none

/-- The Application gives up a scope before the resource drops it, and is disabled. -/
def narrowed : List (ApplicationOperation × Time) :=
  [(dashboard, 1),
    (.update "dashboard"
      { resourceScopes := some [{ resourceServerId := "api", scopes := ["read"] }] }, 2),
    (.replaceResourceDiscovery "api"
      { name := "API", description := none
        scopeRegistry :=
          { scopes := [{ value := "read", description := none, grantMode := .automatic }] } }, 3),
    (.update "dashboard" { disabled := some true, consentRequired := some false }, 4)]

theorem clients_mirror_narrowed :
    start.Mirrors ∧ ∀ db ∈ ApplicationOperation.states start narrowed, db.Mirrors :=
  ⟨start_mirrors,
    (ApplicationOperation.clients_mirror_applications narrowed start start_keys start_mirrors).mpr
      (by decide +kernel)⟩

def audit : AgentAuditEvent :=
  { id := "audit", action := "resource.deleted", result := "success", realmOwned := true
    ownerUserId := none, ownerOrganizationId := none, controllerUserId := none
    subjectIssuer := none, subject := none, agentIdentityId := none, hostId := none
    resourceId := none, resourceConnectionId := none, accessRequestId := none, scopes := none
    reasonCode := none, metadata := none, occurredAt := 2 }

/-- Its resource is deleted, and the client of the dashboard keeps the scopes. -/
theorem not_clients_mirror_deleted :
    ¬ ∀ (operations : List (ApplicationOperation × Time)) (start : Database),
      start.ApplicationKeys → start.Mirrors →
        ∀ db ∈ ApplicationOperation.states start operations, db.Mirrors := by
  intro hclaim
  have hcreated : (dashboard.after start 1).Mirrors :=
    Database.mirrors_insertApplication start_mirrors _ _ _
  have hkeys : (dashboard.after start 1).ApplicationKeys :=
    ApplicationOperation.keys_after start_keys dashboard 1
  have hlost : ¬ (ApplicationOperation.deleteResource "api" audit).KeepsConfigured
      (dashboard.after start 1) := by
    decide +kernel
  refine hlost ((ApplicationOperation.mirrors_after_iff hkeys hcreated _ 2).mp ?_)
  exact hclaim [(.deleteResource "api" audit, 2)] _ hkeys hcreated _
    (by simp [ApplicationOperation.states])

end MirrorExample

end Realmroot
