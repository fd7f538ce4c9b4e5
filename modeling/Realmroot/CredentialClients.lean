import Realmroot.ClientGenerations
import Realmroot.ClientRegistration
import Realmroot.ConnectionSystem
import Realmroot.Usecases.ConnectorUpdates

/-!
# The system of clients

Any number of requests that complete connections, rotate the client of a connector or
set it anew. As long as a generation keeps the client for which it stands, a credential
is only ever used with the client that obtained it.
-/

namespace Realmroot

open AtomicProgram Program Connectors

/-! ## The system -/

inductive GenerationRequest where
  | complete (input : ConnectionCallback) (callbackOrigin : String)
  | ensureScopes (connectorId : String) (requiredScopes : List String) (callbackOrigin : String)
  | updateConnector (id : String) (input : UpdateConnectorRequest) (callbackOrigin : Option String)

inductive GenerationEvent where
  | elapse (milliseconds : ℕ)
  /-- The tables other than those of credentials, authorizations, resources and connectors
  change in any way. -/
  | configure (db : Database)

/-- The tables that `configure` keeps. -/
def keepGenerations (kept db : Database) : Database :=
  { keepConnections kept db with
    identityProviderConnectors := kept.identityProviderConnectors }

section System

variable [Platform]

def GenerationRequest.program : GenerationRequest → Request Unit
  | complete input callbackOrigin =>
    (completeResourceConnectionIntent input callbackOrigin).discard
  | ensureScopes connectorId requiredScopes callbackOrigin =>
    (ensureDynamicConnectorScopes connectorId requiredScopes callbackOrigin).discard
  | updateConnector id input callbackOrigin =>
    (Connectors.updateConnector id input callbackOrigin).discard

def generationSystem :
    System Command World Reply Error Unit GenerationRequest GenerationEvent where
  program := GenerationRequest.program
  environment
    | .elapse milliseconds, w => { w with clock := w.clock + milliseconds }
    | .configure db, w => { w with db := keepGenerations w.db db }

end System

abbrev GenerationAction := Action Reply GenerationRequest GenerationEvent

/-! ## What is remembered of a request -/

/-- The client as which a command asks a remote peer. -/
def Command.authenticatedClient? : Command → Option String
  | .send request =>
    match request.authentication with
    | .client _ clientId _ => some clientId
    | _ => none
  | _ => none

/-- The client as which a request has last asked a remote peer. -/
def lastClient (phase : Option String) (command : Command) : Option String :=
  command.authenticatedClient?.or phase

/-! ## Conditions -/

def Command.access? : Command → Option AccessCommand
  | .access command => some command
  | _ => none

def Command.connector? : Command → Option ConnectorCommand
  | .connector command => some command
  | _ => none

/-- The credentials that a command stores, each with the resource of its authorization. -/
def AccessCommand.stored (db : Database) : AccessCommand → List (String × ProviderCredential)
  | .upsertProviderCredential authorizationId credential =>
    (db.providerResourceAuthorizations.filter fun row => row.id = authorizationId).map fun row =>
      (row.resourceId, credential)
  | .createResourceAuthorization row credential => [(row.resourceId, credential)]
  | _ => []

section Conditions

variable [Platform] (minter : String → String)

/-- What a command may not do to the clients of generations. -/
structure GenerationsCurrent (command : Command × Option String) (s : World) : Prop where
  /-- Tokens are stored where their generation still stands for the client that got them, or
  for none. -/
  stored : ∀ access ∈ command.1.access?, ∀ stored ∈ access.stored s.db, ∀ clientId ∈ command.2,
    ∀ current ∈ s.db.clientAt stored.1 stored.2.clientGeneration, current = clientId
  /-- A client is set at a generation at which no other client has active credentials. -/
  set : ∀ change ∈ command.1.connector?, ∀ generation ∈ change.patch.resourceClientGeneration,
    ∀ clientId ∈ change.patch.resourceClientId.join, ∀ credential ∈ s.db.providerCredentials,
      s.db.Depends change.target generation credential →
        SealsTokensOf minter credential.encryptedTokens clientId
  /-- A rotation retires the client that the connector has. -/
  rotated : ∀ change ∈ command.1.connector?, ∀ generation ∈ change.rotates?,
    ∀ connector ∈ s.db.identityProviderConnectors, connector.id = change.target →
      connector.resourceClientGeneration = generation → change.patch.RetiresCurrent connector

end Conditions

/-! ## The commands of the requests -/

/-- What the statements on permissions of a request may be: they store tokens of the client as
which the request has asked, or they store none. -/
def AccessCommand.KeepsClients [Platform] (minter : String → String) (phase : Option String) :
    AccessCommand → Prop
  | .upsertProviderCredential _ credential =>
    ∃ clientId ∈ phase, SealsTokensOf minter credential.encryptedTokens clientId
  | .createResourceAuthorization row credential =>
    credential.providerResourceAuthorizationId = row.id ∧
      ∃ clientId ∈ phase, SealsTokensOf minter credential.encryptedTokens clientId
  | .revokeAuthorizationsByConnector _ _ => True
  | command => ∀ group ∈ [TableGroup.credentials, .authorizations, .resources],
    group ∉ command.writes

def generationPhases [Platform] (minter : String → String) :
    Phases Command World Reply (Option String) where
  advance := lastClient
  issues phase
    | .access command => command.KeepsClients minter phase
    | .connector command => command.WritesClient
    | .read => True
    | .generateId => True
    | .send _ => True
    | _ => False
  inv w := ClientsKept minter w.db
  answers := Reply.Mints minter

section Exec

variable [Platform] {minter : String → String} {phase : Option String} {w : World}

omit [Platform] in
theorem AccessCommand.identities_not_writes (command : AccessCommand) :
    TableGroup.identities ∉ command.writes := by
  cases command <;> simp [AccessCommand.writes]

omit [Platform] in
/-- Resources and connectors are as before. -/
theorem AccessCommand.resourceConnector_after (command : AccessCommand) (db : Database)
    (h : TableGroup.resources ∉ command.writes) :
    (command.after db).resourceConnector = db.resourceConnector := by
  have hresources : (command.after db).apiResources = db.apiResources := command.after_same db h
  have hidentities := command.after_same db command.identities_not_writes
  have hconnectors : (command.after db).identityProviderConnectors =
      db.identityProviderConnectors := hidentities.2.2.2.2.1
  funext resourceId
  have hresource : (command.after db).findResource resourceId = db.findResource resourceId := by
    rw [Database.findResource, Database.findResource, hresources]
  have hconnector : (command.after db).findConnector = db.findConnector := by
    funext connectorId
    rw [Database.findConnector, Database.findConnector, hconnectors]
  rw [Database.resourceConnector, Database.resourceConnector, hresource, hconnector]

theorem clientsKept_access {command : AccessCommand} (hkeeps : command.KeepsClients minter phase)
    (hcurrent : GenerationsCurrent minter (.access command, phase) w)
    (h : ClientsKept minter w.db) : ClientsKept minter (command.after w.db) := by
  have huntouched : (∀ group ∈ [TableGroup.credentials, .authorizations, .resources],
      group ∉ command.writes) → ClientsKept minter (command.after w.db) := by
    intro hgroups
    have hcredentials : (command.after w.db).providerCredentials = w.db.providerCredentials :=
      command.after_same w.db (hgroups .credentials (by simp))
    have hauthorizations : (command.after w.db).providerResourceAuthorizations =
        w.db.providerResourceAuthorizations :=
      command.after_same w.db (hgroups .authorizations (by simp))
    apply h.onlyRevokes _ (command.resourceConnector_after w.db (hgroups .resources (by simp)))
    constructor
    · rw [hcredentials]
      exact fun _ hcredential _ => hcredential
    · rw [hauthorizations]
      exact fun authorization hauthorization => ⟨authorization, hauthorization, rfl, rfl⟩
  have hstored := hcurrent.stored command rfl
  cases command with
  | upsertProviderCredential authorizationId credential =>
    obtain ⟨clientId, rfl, hseals⟩ := hkeeps
    apply Statement.after_keeps (p := ClientsKept minter) h
    intro _ db' hok
    apply h.upsert hseals _ hok
    intro row hrow hid current hclient
    have hmem : (row.resourceId, credential) ∈
        (AccessCommand.upsertProviderCredential authorizationId credential).stored w.db :=
      List.mem_map.mpr ⟨row, List.mem_filter.mpr ⟨hrow, by simpa using hid⟩, rfl⟩
    exact hstored _ hmem clientId rfl current hclient
  | createResourceAuthorization row credential =>
    obtain ⟨hbelongs, clientId, rfl, hseals⟩ := hkeeps
    apply Statement.after_keeps (p := ClientsKept minter) h
    intro _ db' hok
    apply h.create hseals hbelongs _ hok
    intro current hclient
    exact hstored _ (List.mem_singleton_self _) clientId rfl current hclient
  | revokeAuthorizationsByConnector authorizationIds now =>
    apply h.onlyRevokes _
      (AccessCommand.resourceConnector_after _ w.db (by simp [AccessCommand.writes]))
    apply Statement.after_keeps (p := fun db' => w.db.OnlyRevokes db')
    · exact ⟨fun _ hcredential _ => hcredential, fun row hrow => ⟨row, hrow, rfl, rfl⟩⟩
    · intro _ db' hok
      obtain ⟨rows, rfl⟩ := Database.revokeAuthorizations_ok hok
      constructor
      · intro credential hcredential hactive
        obtain ⟨old, hold, rfl⟩ := Table.mem_updateWhere.mp hcredential
        split_ifs at hactive ⊢
        exact hold
      · intro authorization hauthorization
        obtain ⟨old, hold, rfl⟩ := Table.mem_updateWhere.mp hauthorization
        refine ⟨old, hold, ?_⟩
        split_ifs
        · exact ⟨rfl, rfl⟩
        · exact ⟨rfl, rfl⟩
  | _ => exact huntouched hkeeps

end Exec

section Conforms

variable [Platform] {minter : String → String} {phase : Option String}

/-- The commands that no request authenticates as a client, and that store no tokens. -/
def Command.Aside : Command → Prop
  | .read => True
  | .generateId => True
  | .send request => ∀ authentication clientId clientSecret,
    request.authentication ≠ .client authentication clientId clientSecret
  | .access (.revokeAuthorizationsByConnector _ _) => True
  | .access command => ∀ group ∈ [TableGroup.credentials, .authorizations, .resources],
    group ∉ command.writes
  | .connector command => command.WritesClient
  | _ => False

omit [Platform] in
theorem Command.Aside.stays {command : Command} (h : command.Aside) :
    lastClient phase command = phase := by
  cases command with
  | send request =>
    have hnone : (Command.send request).authenticatedClient? = none := by
      simp only [Command.authenticatedClient?]
      split
      · rename_i authentication clientId clientSecret hclient
        exact absurd hclient (h _ _ _)
      · rfl
    simp [lastClient, hnone]
  | _ => rfl

theorem Command.Aside.issued {command : Command} (h : command.Aside) :
    (generationPhases minter).issues phase command := by
  cases command with
  | access command =>
    cases command with
    | upsertProviderCredential authorizationId credential =>
      exact absurd (h .credentials (by simp)) (by simp [AccessCommand.writes])
    | createResourceAuthorization row credential =>
      exact absurd (h .credentials (by simp)) (by simp [AccessCommand.writes])
    | _ => exact h
  | connector command => exact h
  | read => trivial
  | generateId => trivial
  | send request => trivial
  | _ => exact h.elim

theorem aside_conforms {α : Type} {p : Request α} (h : p.Uses Command.Aside) :
    p.Conforms (generationPhases minter) (fun _ later => later = phase) phase :=
  Uses.conforms h (fun _ => Command.Aside.issued) fun _ => Command.Aside.stays

/-- A request that begins with commands aside. -/
theorem aside_bind {α β : Type} {p : Request α} {next : α → Request β}
    {after : β → Option String → Prop} (hp : p.Uses Command.Aside)
    (h : ∀ a, (next a).Conforms (generationPhases minter) after phase) :
    (p >>= next).Conforms (generationPhases minter) after phase := by
  apply conforms_bind (aside_conforms hp)
  rintro a later rfl
  exact h a

/-- A token request is made as a client, and its tokens are issued to that client. -/
theorem postForm_conforms (url : String) (form : List (String × String))
    (clientId clientSecret : String) (preserveInvalidGrant : Bool)
    (authentication : ClientAuthentication) :
    (postForm url form clientId clientSecret preserveInvalidGrant authentication).Conforms
      (generationPhases minter) (fun token later => later = some clientId ∧
        ∀ accessToken, readString (token.field "access_token") = some accessToken →
          minter accessToken = clientId) phase := by
  apply conforms_fetchPeer trivial
  intro reply hreply
  apply conforms_orThrow
  intro response hresponse
  apply conforms_throwIf
  intro _
  apply conforms_throwIf
  intro _
  unfold ofResult readObject
  split
  · rename_i token htoken
    split at htoken
    · rename_i fields hbody
      cases htoken
      refine ⟨rfl, ?_⟩
      intro accessToken haccess
      exact hreply.tokens _ _ _ _ response _ accessToken rfl hresponse hbody haccess
    · cases htoken
  · trivial

theorem exchangeCode_conforms (intent : ResourceConnectionIntent) (code callbackOrigin : String)
    (now : Time) :
    (exchangeCode intent code callbackOrigin now).Conforms (generationPhases minter)
      (fun granted later => ∃ clientId ∈ later, minter granted.accessToken = clientId) phase := by
  apply aside_bind (requireActiveConnectorAuthorization_uses trivial _ _)
  intro authorization
  apply aside_bind (uses_query.mpr trivial)
  intro connector
  apply conforms_orThrow
  intro driver _
  apply conforms_ofResult
  intro verifier _
  apply conforms_bind (postForm_conforms _ _ _ _ _ _)
  rintro token later ⟨rfl, htoken⟩
  apply conforms_ofResult
  intro accessToken haccess
  have hminted : minter accessToken = authorization.clientId := by
    apply htoken
    unfold Realmroot.requiredString at haccess
    split at haccess
    · rename_i value hvalue
      cases haccess
      exact hvalue
    · cases haccess
  apply conforms_ofResult
  intro refreshToken _
  apply aside_bind (uses_fetchPeer.mpr fun _ _ _ => PeerAuthentication.noConfusion)
  intro reply
  apply conforms_orThrow
  intro response _
  apply conforms_throwIf
  intro _
  apply conforms_ofResult
  intro body _
  apply conforms_ofResult
  intro profile _
  apply conforms_ofResult
  intro details _
  exact ⟨_, rfl, hminted⟩

theorem sealsTokensOf_sealing {reply : Reply} (hreply : reply.Mints minter)
    (accessToken refreshToken scope context : String) :
    SealsTokensOf minter (reply.sealing (stringifyTokens accessToken refreshToken scope) context)
      (minter accessToken) := by
  intro context' accessToken' refreshToken' scope' hopen
  rw [stringifyTokens_inj (hreply.sealing _ _ _ _ hopen)]

/-- Whatever a request does after its tokens are stored. -/
theorem revokeUncoveredEntitlements_conforms (connection : ProviderResourceAuthorizationRecord)
    (authorizationDetailsRequired : Bool) (controllerUserId : String) (now : Time) :
    (revokeUncoveredEntitlements connection authorizationDetailsRequired controllerUserId
      now).Conforms (generationPhases minter) (fun _ _ => True) phase := by
  apply Uses.conforms_always (P := fun c => ∀ phase, (generationPhases minter).issues phase c)
  · apply revokeUncoveredEntitlements_uses
    · intro c houtside phase
      cases c with
      | read => trivial
      | generateId => trivial
      | send request => trivial
      | _ => exact houtside.elim
    · intro id reason leaseIds audit phase
      simp [generationPhases, AccessCommand.KeepsClients, AccessCommand.writes]
  · exact fun phase c h => h phase

theorem upsertProviderCredential_conforms {authorizationId : String}
    {credential : ProviderCredential} {clientId : String} (hphase : clientId ∈ phase)
    (hseals : SealsTokensOf minter credential.encryptedTokens clientId) :
    (upsertProviderCredential authorizationId credential).Conforms (generationPhases minter)
      (fun _ _ => True) phase := by
  apply aside_bind (uses_query.mpr trivial)
  intro found
  split_ifs
  · apply conforms_perform
    · exact ⟨clientId, hphase, hseals⟩
    · intros
      exact (aside_conforms (findConnection_uses trivial _)).mono fun _ _ _ => trivial
  · trivial

theorem createResourceAuthorization_conforms {row : ProviderResourceAuthorization}
    {credential : ProviderCredential} {clientId : String}
    (hbelongs : credential.providerResourceAuthorizationId = row.id) (hphase : clientId ∈ phase)
    (hseals : SealsTokensOf minter credential.encryptedTokens clientId) :
    (createResourceAuthorization row credential).Conforms (generationPhases minter)
      (fun _ _ => True) phase := by
  apply conforms_perform
  · exact ⟨hbelongs, clientId, hphase, hseals⟩
  · intros
    exact (aside_conforms (findConnection_uses trivial _)).mono fun _ _ _ => trivial

theorem storeConnection_conforms (intent : ResourceConnectionIntent) (granted : GrantedTokens)
    (provider : ProviderConnection) (now : Time)
    (hminted : minter granted.accessToken ∈ phase) :
    (storeConnection intent granted provider now).Conforms (generationPhases minter)
      (fun _ _ => True) phase := by
  apply aside_bind (findConnectionByProviderResource_uses trivial _ _)
  intro existing
  apply aside_bind (idOrNew_uses trivial _)
  intro credentialId
  apply conforms_sealSecret
  intro reply hreply
  have hseals := sealsTokensOf_sealing hreply granted.accessToken granted.refreshToken
    (joinWithSpace granted.scopes)
  split
  · apply conforms_bind (upsertProviderCredential_conforms hminted (hseals _))
    intro stored later _
    apply conforms_orThrow
    intro connection _
    exact conforms_bind (revokeUncoveredEntitlements_conforms _ _ _ _) fun _ _ _ => trivial
  · apply conforms_bind (createResourceAuthorization_conforms rfl hminted (hseals _))
    intro stored later _
    unfold orThrow
    split <;> trivial

theorem completeResourceConnectionIntent_conforms (input : ConnectionCallback)
    (callbackOrigin : String) :
    (completeResourceConnectionIntent input callbackOrigin).Conforms (generationPhases minter)
      (fun _ _ => True) phase := by
  apply aside_bind (uses_currentTime.mpr trivial)
  intro now
  apply aside_bind (uses_perform.mpr (by simp [Command.Aside, AccessCommand.writes]))
  intro consumed
  apply conforms_orThrow
  intro intent _
  apply conforms_bind (exchangeCode_conforms _ _ _ _)
  rintro granted later ⟨clientId, hlater, rfl⟩
  apply aside_bind (requireEnabledResource_uses trivial _)
  intro resource
  apply conforms_ofResult
  intro _ _
  apply aside_bind
  · apply ensureProviderConnection_uses
    · trivial
    · trivial
    · intro row
      simp [Command.Aside, AccessCommand.writes]
    · intro row
      simp [Command.Aside, AccessCommand.writes]
  · intro provider
    exact storeConnection_conforms intent granted provider now hlater

/-! ### Requests that never authenticate as a client -/

theorem registerOidcClient_aside (endpoint : String) (request : RegistrationRequest)
    (scopes : List String) : (registerOidcClient endpoint request scopes).Uses Command.Aside := by
  apply uses_bind (fetchOrThrow_uses fun _ _ _ => PeerAuthentication.noConfusion)
  intro response
  apply uses_bind uses_throwIf
  intro _
  apply uses_bind uses_ofResult
  intro body
  exact uses_ofResult

theorem rotateClient_aside (connector : IdentityProviderConnector) (client : DynamicClient)
    (metadata : Record) (requiredScopes desiredScopes : List String)
    (requestBody : RegistrationRequest) :
    (rotateClient connector client metadata requiredScopes desiredScopes requestBody).Uses
      Command.Aside := by
  apply uses_bind (registerOidcClient_aside _ _ _)
  intro replacement
  apply uses_bind uses_sealSecret
  intro encryptedClientSecret
  apply uses_bind (uses_currentTime.mpr trivial)
  intro now
  apply uses_bind (uses_perform.mpr ⟨_, _, _, rfl, rfl, rfl, rfl⟩)
  intro rotated
  split_ifs
  · trivial
  · apply uses_bind (uses_query.mpr trivial)
    intro found
    split <;> trivial

theorem readRegistration_aside (connector : IdentityProviderConnector) (client : DynamicClient)
    (management : Management) (requiredScopes : List String) (callbackOrigin : String) :
    (readRegistration connector client management requiredScopes callbackOrigin).Uses
      Command.Aside := by
  apply uses_bind uses_ofResult
  intro types
  apply uses_bind uses_ofResult
  intro url
  apply uses_bind (fetchOrThrow_uses fun _ _ _ => PeerAuthentication.noConfusion)
  intro response
  split_ifs
  · apply uses_bind uses_ofResult
    intro body
    apply uses_bind uses_ofResult
    intro clientId
    exact uses_bind uses_throwIf fun _ => trivial
  · exact uses_bind uses_throwIf fun _ => trivial

theorem updateRegistration_aside (connector : IdentityProviderConnector) (client : DynamicClient)
    (management : Management) (metadata : Record) (desiredScopes : List String)
    (requestBody : RegistrationRequest) :
    (updateRegistration connector client management metadata desiredScopes requestBody).Uses
      Command.Aside := by
  apply uses_bind uses_ofResult
  intro url
  apply uses_bind (fetchOrThrow_uses fun _ _ _ => PeerAuthentication.noConfusion)
  intro response
  split_ifs
  · apply uses_bind uses_ofResult
    intro body
    apply uses_bind uses_ofResult
    intro updated
    apply uses_bind uses_throwIf
    intro _
    apply uses_bind (uses_currentTime.mpr trivial)
    intro now
    exact uses_bind (uses_perform.mpr (Or.inl ⟨rfl, rfl, rfl⟩)) fun _ => trivial
  · exact uses_bind uses_throwIf fun _ => trivial

theorem reviseRegistration_aside (connector : IdentityProviderConnector) (client : DynamicClient)
    (requiredScopes : List String) (callbackOrigin : String) :
    (reviseRegistration connector client requiredScopes callbackOrigin).Uses Command.Aside := by
  apply uses_bind (fetchOidcMetadata_uses (fun _ _ _ _ => PeerAuthentication.noConfusion) _)
  intro metadata
  apply uses_bind uses_ofResult
  intro catalogScope
  apply uses_bind uses_ofResult
  intro desiredScopes
  apply uses_bind uses_throwIf
  intro _
  apply uses_bind uses_ofResult
  intro types
  split
  · exact rotateClient_aside _ _ _ _ _ _
  · apply uses_bind (updateRegistration_aside _ _ _ _ _ _)
    intro updated
    split_ifs
    · trivial
    · exact rotateClient_aside _ _ _ _ _ _

theorem ensureDynamicConnectorScopes_aside (connectorId : String) (requiredScopes : List String)
    (callbackOrigin : String) :
    (ensureDynamicConnectorScopes connectorId requiredScopes callbackOrigin).Uses
      Command.Aside := by
  apply uses_bind (uses_query.mpr trivial)
  intro found
  apply uses_bind uses_orThrow
  intro connector
  split_ifs
  · trivial
  · apply uses_bind uses_orThrow
    intro client
    split
    · trivial
    · apply uses_bind (readRegistration_aside _ _ _ _ _)
      intro current
      split_ifs
      · trivial
      · exact reviseRegistration_aside _ _ _ _
  · apply uses_bind uses_orThrow
    intro client
    exact reviseRegistration_aside _ _ _ _

theorem prepareResourceOidc_aside (current : IdentityProviderConnector)
    (input : UpdateConnectorRequest) (callbackOrigin : Option String) :
    (prepareResourceOidc current input callbackOrigin).Uses Command.Aside := by
  unfold prepareResourceOidc
  split
  · trivial
  · apply uses_bind
    · apply uses_bind uses_ofResult
      intro issuer
      apply uses_bind (fetchOidcMetadata_uses (fun _ _ _ _ => PeerAuthentication.noConfusion) _)
      intro metadata
      apply uses_bind uses_ofResult
      intro endpoints
      split
      · exact uses_ofResult
      · apply uses_bind uses_orThrow
        intro endpoint
        apply uses_bind uses_orThrow
        intro origin
        exact uses_bind (registerOidcClient_aside _ _ _) fun _ => trivial
    · intro prepared
      trivial

omit [Platform] in
theorem connectorPatch_writesClient (id : String) (input : UpdateConnectorRequest)
    (resourceOidc : Option OidcConnector) (now : Time) :
    (ConnectorCommand.update id (connectorPatch input resourceOidc now)).WritesClient := by
  unfold connectorPatch
  split
  · exact Or.inl ⟨rfl, rfl, rfl⟩
  · exact Or.inr ⟨_, rfl, rfl, rfl⟩

theorem updateConnector_aside (id : String) (input : UpdateConnectorRequest)
    (callbackOrigin : Option String) :
    (Connectors.updateConnector id input callbackOrigin).Uses Command.Aside := by
  apply uses_bind (uses_query.mpr trivial)
  intro found
  apply uses_bind uses_orThrow
  intro current
  apply uses_bind uses_ofResult
  intro _
  apply uses_bind (prepareResourceOidc_aside _ _ _)
  intro resourceOidc
  apply uses_bind (uses_currentTime.mpr trivial)
  intro now
  apply uses_bind uses_ofResult
  intro _
  apply uses_bind (uses_perform.mpr (connectorPatch_writesClient id input resourceOidc now))
  intro updated
  apply uses_bind uses_orThrow
  intro row
  apply uses_bind
  · unfold revokeReplaced
    split
    · trivial
    · apply uses_bind
      · apply uses_bind (uses_query.mpr trivial)
        intro authorizationIds
        split_ifs
        · trivial
        · exact uses_bind (uses_perform.mpr trivial) fun _ => trivial
      · intro _
        trivial
  · intro _
    exact uses_bind uses_ofResult fun _ => trivial

theorem generationSystem_conforms (request : GenerationRequest) :
    (generationSystem.program request).Conforms (generationPhases minter) (fun _ _ => True)
      phase := by
  cases request with
  | complete input callbackOrigin =>
    exact (completeResourceConnectionIntent_conforms input callbackOrigin).discard
  | ensureScopes connectorId requiredScopes callbackOrigin =>
    exact (aside_conforms (ensureDynamicConnectorScopes_aside _ _ _)).discard
  | updateConnector id input callbackOrigin =>
    exact (aside_conforms (updateConnector_aside _ _ _)).discard

end Conforms

/-! ## Runs -/

section Runs

variable [Platform] {minter : String → String} {w : World}

/-- For every active credential, what is resolved for the resource and the generation of the
credential authenticates as the client that its tokens were issued to. -/
def CredentialsKeepClient (minter : String → String) (w : World) : Prop :=
  ∀ credential ∈ w.db.providerCredentials, credential.status = .active →
    ∀ authorization ∈ w.db.providerResourceAuthorizations,
      authorization.id = credential.providerResourceAuthorizationId →
        ∀ around : Surroundings World Reply, Quiescent around → ∀ resolved,
          ((findExternalAuthorization authorization.resourceId
              (some credential.clientGeneration)).execute around 0 w).1 = .ok (some resolved) →
            SealsTokensOf minter credential.encryptedTokens resolved.clientId

theorem ClientsKept.resolved (h : ClientsKept minter w.db) : CredentialsKeepClient minter w := by
  intro credential hcredential hactive authorization hauthorization hid around hquiet resolved
    hresolved
  have hmeets := Meets.execute around hquiet (fun _ => trivial)
    (findExternalAuthorization_meets authorization.resourceId credential.clientGeneration w) 0
  rw [hresolved] at hmeets
  exact h credential hcredential hactive authorization hauthorization hid resolved.clientId
    (hmeets resolved rfl)

/-- The steps of the requests, as long as generations keep their clients. -/
def generationSteps (minter : String → String) :
    Pool.Stepwise (Command × Option String) World Reply GenerationRequest where
  issues _ command := (generationPhases minter).issues command.2 command.1
  inv w := ClientsKept minter w.db
  answers := Reply.Mints minter
  cond _ := GenerationsCurrent minter

theorem generationSteps_sound :
    (generationSteps minter).Sound (generationSystem.phased lastClient none) where
  program request := (generationSystem_conforms request).issues
  refl _ := trivial
  trans _ _ := trivial
  environment event s h := by
    cases event with
    | elapse milliseconds => exact ⟨h, trivial⟩
    | configure db => exact ⟨h, trivial⟩
  exec request command s hissues hcurrent h := by
    obtain ⟨command, phase⟩ := command
    refine ⟨?_, trivial⟩
    cases command with
    | access command => exact clientsKept_access hissues hcurrent h
    | connector command =>
      exact ClientsKept.connector h hissues (hcurrent.set command rfl) (hcurrent.rotated command rfl)
    | read => exact h
    | generateId => exact h
    | send request => exact h
    | _ => exact hissues.elim

/-- Whatever is interleaved, a credential is only used with the client that obtained it, if
tokens are stored while their generation stands for the client that got them, no client is set
at a generation under which another one has active credentials, and rotations retire the client
that the connector has. -/
theorem credentials_keep_client (hkept : ClientsKept minter w.db)
    {schedule : List GenerationAction}
    (hreplies : ∀ i reply, .advance i reply ∈ schedule → reply.Mints minter)
    (h : ∀ entry ∈ (Pool.idle w).history (generationSystem.phased lastClient none) schedule,
      GenerationsCurrent minter entry.2.1 entry.2.2) :
    ∀ s ∈ (Pool.idle w).states generationSystem schedule, CredentialsKeepClient minter s := by
  have hstates := generationSteps_sound.states hkept hreplies h
  rw [Pool.states_phased] at hstates
  intro s hs
  exact (hstates s hs).resolved

end Runs

namespace GenerationExample

/-- Every URL parses, and secrets are stored as they are. -/
@[reducible] def platform : Platform :=
  { samplePlatform with
    openSecret := fun envelope _ => some envelope
    parseUrl := fun value => some
      { protocol := "https:", username := "", password := "", hostname := value, pathname := ""
        search := "", hash := "" }
    printUrl := fun url => url.hostname }

attribute [local instance] platform

def connector : IdentityProviderConnector :=
  { id := "connector", providerType := "generic_oauth", providerId := "provider"
    displayName := "Provider", enabled := true, authenticationEnabled := false, clientId := none
    clientSecret := none, issuer := none, authorizationEndpoint := none, tokenEndpoint := none
    userInfoEndpoint := none, providerMetadata := none, resourceAuthorizationEnabled := true
    resourceClientId := some "first", resourceClientSecret := some "secret"
    resourceIssuer := some "https://as"
    resourceAuthorizationEndpoint := some "https://as/authorize"
    resourceTokenEndpoint := some "https://as/token"
    resourceUserInfoEndpoint := some "https://as/userinfo"
    resourceJwksEndpoint := some "https://as/jwks"
    resourceRegistrationEndpoint := some "https://as/register"
    resourceRevocationEndpoint := some "https://as/revoke"
    resourceRegistrationMode := some .dynamic, resourceRegistrationClientUri := none
    resourceRegistrationAccessToken := none, resourceRegisteredScopes := some []
    resourceClientGeneration := 1, resourceRetiredClientGenerations := none
    resourceProviderMetadata := none, updatedAt := 0 }

def api : ApiResource :=
  { id := "api", identifier := "api", name := "API", description := none
    resourceUrl := "https://api", authorizationModel := .external
    connectorId := some "connector", authorizationDetails := [], enabled := true
    ownerOrganizationId := "acme", visibility := .public, scopeRegistry := none
    availableToAgents := true, deletedAt := none, updatedAt := 0 }

/-- An intent that waits for its callback. -/
def intent : ResourceConnectionIntent :=
  { id := "intent", stateHash := "state", resourceId := "api", ownerUserId := some "ada"
    ownerOrganizationId := none, initiatedByUserId := "ada", scopes := ["read"]
    authorizationDetails := [], encryptedPkceVerifier := "verifier", clientGeneration := 1
    status := .pending, expiresAt := 1000, completedAt := none, updatedAt := 0 }

def world : World :=
  { db :=
      { identityProviderConnectors := [connector], apiResources := [api]
        resourceConnectionIntents := [intent] }
    clock := 0, nextId := 0 }

/-- The authorization server names its tokens after the clients that they are issued to. -/
def answer (request : PeerRequest) : Option PeerResponse :=
  match request.authentication with
  | .client _ clientId _ =>
    some
      { status := 200
        body := some (.obj [("access_token", .str clientId), ("refresh_token", .str "refresh")]) }
  | .bearer _ => some { status := 200, body := some (.obj [("sub", .str "subject")]) }
  | .none =>
    if request.method = "POST" then
      some
        { status := 201
          body := some (.obj [("client_id", .str "next"), ("client_secret", .str "secret")]) }
    else
      some
        { status := 200
          body := some (.obj
            [("issuer", .str "https://as"), ("authorization_endpoint", .str "https://as/authorize"),
              ("token_endpoint", .str "https://as/token"),
              ("userinfo_endpoint", .str "https://as/userinfo"),
              ("jwks_uri", .str "https://as/jwks"),
              ("revocation_endpoint", .str "https://as/revoke")]) }

def reply : Reply := { respond := answer, sealing := fun plaintext _ => plaintext }

theorem reply_mints : reply.Mints id where
  tokens := by
    intro request authentication clientId clientSecret response body accessToken hclient hresponse
      hbody haccess
    simp only [reply, answer, hclient] at hresponse
    cases hresponse
    cases hbody
    obtain ⟨hfield, -⟩ := readString_eq_some haccess
    cases hfield
    rfl
  sealing := by
    intro plaintext context context' secret hopen
    cases hopen
    rfl

def complete : GenerationRequest := .complete { state := "state", code := "code" } "https://realm"

def ensure : GenerationRequest := .ensureScopes "connector" ["email"] "https://realm"

/-- The administrator sets another client by hand. -/
def update : GenerationRequest :=
  .updateConnector "connector"
    { resourceAuthorization := some (some
        { enabled := true, registrationMode := .manual, clientId := some "other"
          clientSecret := some "secret", issuer := "https://as" }) }
    none

def step (index : ℕ) : GenerationAction := .advance index reply

theorem step_mints {schedule : List GenerationAction}
    (h : ∀ a ∈ schedule, (∃ request, a = .start request) ∨ ∃ index, a = step index) :
    ∀ i r, .advance i r ∈ schedule → r.Mints id := by
  intro i r hmem
  rcases h _ hmem with ⟨request, heq⟩ | ⟨index, heq⟩
  · cases heq
  · cases heq
    exact reply_mints

/-- The account is connected, and then the client is rotated. -/
def rotated : List GenerationAction :=
  [.start complete, .start ensure] ++ List.replicate 24 (step 0) ++ List.replicate 12 (step 1)

/-- The client is set anew while the tokens of the old one are on their way. -/
def overtaken : List GenerationAction :=
  [.start complete, .start update] ++ List.replicate 12 (step 0) ++ List.replicate 16 (step 1) ++
    List.replicate 12 (step 0)

/-- The condition, where no client is set at a generation in use at all. -/
def GenerationsUnused (command : Command × Option String) (s : World) : Prop :=
  (∀ access ∈ command.1.access?, ∀ stored ∈ access.stored s.db, ∀ clientId ∈ command.2,
    ∀ current ∈ s.db.clientAt stored.1 stored.2.clientGeneration, current = clientId) ∧
  (∀ change ∈ command.1.connector?, ∀ generation ∈ change.patch.resourceClientGeneration,
    ∀ credential ∈ s.db.providerCredentials, credential.clientGeneration ≠ generation) ∧
  ∀ change ∈ command.1.connector?, ∀ generation ∈ change.rotates?,
    ∀ connector ∈ s.db.identityProviderConnectors, connector.id = change.target →
      connector.resourceClientGeneration = generation → change.patch.RetiresCurrent connector

instance (command : Command × Option String) (s : World) :
    Decidable (GenerationsUnused command s) :=
  inferInstanceAs (Decidable (_ ∧ _ ∧ _))

theorem GenerationsUnused.current {command : Command × Option String} {s : World}
    (h : GenerationsUnused command s) : GenerationsCurrent id command s where
  stored := h.1
  set := by
    intro change hchange generation hgeneration clientId _ credential hcredential hdepends
    exact absurd hdepends.generation (h.2.1 change hchange generation hgeneration _ hcredential)
  rotated := h.2.2

theorem world_kept : ClientsKept id world.db := by
  intro credential hcredential
  cases hcredential

theorem rotated_mints : ∀ i r, .advance i r ∈ rotated → r.Mints id := by
  apply step_mints
  simp [rotated]

theorem overtaken_mints : ∀ i r, .advance i r ∈ overtaken → r.Mints id := by
  apply step_mints
  simp [overtaken]

/-- After the rotation the credential at generation 1 still resolves to its client. -/
theorem credentials_keep_client_rotated :
    (∃ s ∈ (Pool.idle world).states generationSystem rotated,
      s.db.clientAt "api" 1 = some "first" ∧ s.db.clientAt "api" 2 = some "next" ∧
        s.db.providerCredentials.map (·.clientGeneration) = [1]) ∧
    ∀ s ∈ (Pool.idle world).states generationSystem rotated, CredentialsKeepClient id s := by
  have hunused : ∀ entry ∈
      (Pool.idle world).history (generationSystem.phased lastClient none) rotated,
      GenerationsUnused entry.2.1 entry.2.2 := by
    decide +kernel
  refine ⟨by decide +kernel, credentials_keep_client world_kept rotated_mints ?_⟩
  intro entry hentry
  exact (hunused entry hentry).current

/-- Nothing happens while a connection is resolved. -/
def still : Surroundings World Reply := { elapse := fun _ s => s, reply := fun _ => {} }

/-- The credential of the old client is stored under the generation of the new one. -/
theorem credentials_keep_client_overtaken :
    ∃ (minter : String → String) (w : World) (schedule : List GenerationAction),
      ClientsKept minter w.db ∧ (∀ i r, .advance i r ∈ schedule → r.Mints minter) ∧
        ¬ ∀ s ∈ (Pool.idle w).states generationSystem schedule,
          CredentialsKeepClient minter s := by
  refine ⟨id, world, overtaken, world_kept, overtaken_mints, ?_⟩
  intro h
  have hlast : ∃ s ∈ (Pool.idle world).states generationSystem overtaken,
      ∃ credential ∈ s.db.providerCredentials, ∃ authorization ∈ s.db.providerResourceAuthorizations,
        credential.status = .active ∧
        authorization.id = credential.providerResourceAuthorizationId ∧
        credential.encryptedTokens = stringifyTokens "first" "refresh" "read" ∧
        ((findExternalAuthorization authorization.resourceId
            (some credential.clientGeneration)).execute still 0 s).1.toOption.join.map
          (·.clientId) = some "other" := by
    decide +kernel
  obtain ⟨s, hs, credential, hcredential, authorization, hauthorization, hactive, hid, htokens,
    hresolved⟩ := hlast
  obtain ⟨resolved, hfound, hclient⟩ := Option.map_eq_some_iff.mp hresolved
  have hok : ((findExternalAuthorization authorization.resourceId
      (some credential.clientGeneration)).execute still 0 s).1 = .ok (some resolved) := by
    revert hfound
    cases ((findExternalAuthorization authorization.resourceId
      (some credential.clientGeneration)).execute still 0 s).1 with
    | error e => simp [Except.toOption]
    | ok found => simp [Except.toOption]
  have hseals := h s hs credential hcredential hactive authorization hauthorization hid still
    (fun _ _ => Undisturbed.refl _) resolved hok
  rw [htokens, hclient] at hseals
  have hother : "first" = "other" := hseals "" "first" "refresh" "read" rfl
  exact absurd hother (by decide)

end GenerationExample

end Realmroot
