import Realmroot.Rules
import Realmroot.Usecases.Connectors

/-!
# The registered client of a connector

Any number of workers bring the client of a connector up to the scopes they need. A
rotation replaces the client under the generation that it read; an update by PUT
writes the new secret to whatever client the connector has by then.
-/

namespace Realmroot

open AtomicProgram Program Connectors

/-! ## Pairs of ids and secrets -/

section Pairs

variable [Platform] (Paired : String → String → Prop)

/-- The current id and secret belong to one client, and so do those of each retired
generation. -/
structure IdentityProviderConnector.PairedClient (connector : IdentityProviderConnector) :
    Prop where
  current : ∀ clientId ∈ connector.resourceClientId, ∀ secret ∈ connector.resourceClientSecret,
    Paired clientId secret
  retired : ∀ entry ∈ connector.resourceRetiredClientGenerations.getD [],
    ∀ secret ∈ Platform.openSecret entry.encryptedClientSecret entry.clientSecretContext,
      Paired entry.clientId secret

def ClientsPaired (w : World) : Prop :=
  ∀ connector ∈ w.db.identityProviderConnectors, connector.PairedClient Paired

/-- A registration response that names both an id and a secret names those of one client, and
what is sealed opens to what it was. -/
structure Reply.Consistent (reply : Reply) : Prop where
  registration : ∀ request response body clientId secret, request.json.isSome = true →
    reply.respond request = some response → response.body = some (.obj body) →
      readString (Record.field body "client_id") = some clientId →
        readString (Record.field body "client_secret") = some secret → Paired clientId secret
  sealing : ∀ plaintext context secret,
    Platform.openSecret (reply.sealing plaintext context) context = some secret →
      secret = plaintext

end Pairs

/-! ## The system -/

structure EnsureScopes where
  connectorId : String
  requiredScopes : List String
  callbackOrigin : String

inductive RegistrationEvent where
  | elapse (milliseconds : ℕ)
  /-- The tables other than that of connectors change in any way. -/
  | configure (db : Database)

def registrationSystem [Platform] :
    System Command World Reply Error Unit EnsureScopes RegistrationEvent where
  program request :=
    (ensureDynamicConnectorScopes request.connectorId request.requiredScopes
      request.callbackOrigin).discard
  environment
    | .elapse milliseconds, w => { w with clock := w.clock + milliseconds }
    | .configure db, w =>
      { w with
        db := { db with identityProviderConnectors := w.db.identityProviderConnectors } }

abbrev RegistrationAction := Action Reply EnsureScopes RegistrationEvent

/-- The client for which a command sends an update. -/
def Command.updatedClient? : Command → Option String
  | .send request =>
    if request.method = "PUT" then
      match request.json with
      | some (.obj fields) => readString (Record.field fields "client_id")
      | _ => none
    else none
  | _ => none

/-- What is remembered of a worker: the client for which it has last sent an update. -/
def updatedClient (phase : Option String) (command : Command) : Option String :=
  command.updatedClient?.or phase

/-- The connector that a command updates by its id alone. -/
def Command.updates? : Command → Option String
  | .connector (.update id _) => some id
  | _ => none

/-- A worker writes its update where the connector still has the client for which it was
sent. -/
def RegistrationCurrent (command : Command × Option String) (s : World) : Prop :=
  ∀ id ∈ command.1.updates?, ∀ clientId ∈ command.2,
    ∀ connector ∈ s.db.identityProviderConnectors, connector.id = id →
      connector.resourceClientId = some clientId

instance (command : Command × Option String) (s : World) :
    Decidable (RegistrationCurrent command s) :=
  inferInstanceAs (Decidable (∀ id ∈ command.1.updates?, ∀ clientId ∈ command.2,
    ∀ connector ∈ s.db.identityProviderConnectors, _ → _))

section Phases

variable [Platform] (Paired : String → String → Prop)

/-- What is written to a connector: a secret of the client for which an update was sent, or a
whole new client. -/
def WritesPaired (phase : Option String) : ConnectorCommand → Prop
  | .update _ patch =>
    patch.resourceClientId = none ∧ patch.resourceRetiredClientGenerations = none ∧
      ∃ clientId secret, phase = some clientId ∧
        patch.resourceClientSecret = some (some secret) ∧ Paired clientId secret
  | .rotate _ _ patch => ∀ connector, (patch.apply connector).PairedClient Paired

def registrationPhases : Phases Command World Reply (Option String) where
  advance := updatedClient
  issues phase
    | .connector command => WritesPaired Paired phase command
    | .read => True
    | .send _ => True
    | _ => False
  inv := ClientsPaired Paired
  answers := Reply.Consistent Paired

end Phases

/-! ## Reading registrations -/

section Registrations

variable [Platform] {body : Record} {scopes : List String}
  {previous : Option PreviousRegistration} {registration : Registration}

omit [Platform] in
theorem readObject_ok {response : PeerResponse} {message : String}
    (h : readObject response message = .ok body) : response.body = some (.obj body) := by
  unfold readObject at h
  split at h
  · rename_i hbody
    cases h
    exact hbody
  · cases h

omit [Platform] in
theorem requiredString_ok {field label value : String}
    (h : Connectors.requiredString body field label = .ok value) :
    readString (body.field field) = some value := by
  unfold Connectors.requiredString at h
  split at h
  · rename_i hvalue
    cases h
    exact hvalue
  · cases h

omit [Platform] in
/-- The secret is that of the response, or that of the client that is updated. -/
theorem returnedSecret_ok {secret : String} (h : returnedSecret body previous = .ok secret) :
    readString (body.field "client_secret") = some secret ∨
      ∃ client, previous = some client ∧ secret = client.clientSecret := by
  unfold returnedSecret at h
  split at h
  · rename_i hsecret
    cases h
    exact Or.inl hsecret
  · cases h
    exact Or.inr ⟨_, rfl, rfl⟩
  · exact Or.inl (requiredString_ok h)

theorem registrationResponse_ok (h : registrationResponse body scopes previous = .ok registration) :
    readString (body.field "client_id") = some registration.clientId ∧
      (readString (body.field "client_secret") = some registration.clientSecret ∨
        ∃ client, previous = some client ∧ registration.clientSecret = client.clientSecret) := by
  unfold registrationResponse at h
  split_ifs at h
  obtain ⟨uri, -, h⟩ := Statement.bind_ok h
  obtain ⟨clientId, hid, h⟩ := Statement.bind_ok h
  obtain ⟨secret, hsecret, h⟩ := Statement.bind_ok h
  cases h
  exact ⟨requiredString_ok hid, returnedSecret_ok hsecret⟩

omit [Platform] in
omit [Platform] in
theorem dynamicClient_eq_some {connector : IdentityProviderConnector} {client : DynamicClient}
    (h : dynamicClient connector = some client) :
    (connector.resourceClientId = some client.clientId ∧ client.clientId ≠ "") ∧
      connector.resourceClientSecret = some client.clientSecret := by
  obtain ⟨issuer, -, h⟩ := Option.bind_eq_some_iff.mp h
  obtain ⟨endpoint, -, h⟩ := Option.bind_eq_some_iff.mp h
  obtain ⟨clientId, hid, h⟩ := Option.bind_eq_some_iff.mp h
  obtain ⟨secret, hsecret, h⟩ := Option.bind_eq_some_iff.mp h
  cases h
  exact ⟨truthy_eq_some hid, (truthy_eq_some hsecret).1⟩

end Registrations

/-! ## Fetched documents -/

section Fetches

variable {P : Command → Prop}

theorem fetchOrThrow_uses {request : PeerRequest} (h : P (.send request)) :
    (fetchOrThrow request).Uses P :=
  uses_bind (uses_fetchPeer.mpr h) fun _ => uses_orThrow

variable (hget : ∀ url, P (.send { method := "GET", url := url, authentication := .none }))
include hget

theorem fetchDocument_uses (url : Except Error String) : (fetchDocument url).Uses P := by
  apply uses_bind uses_ofResult
  intro url
  exact fetchOrThrow_uses (hget url)

/-- Discovery sends nothing but plain requests for a document. -/
theorem fetchOidcMetadata_uses [Platform] (issuer : String) :
    (fetchOidcMetadata issuer).Uses P := by
  apply uses_bind (fetchDocument_uses hget _)
  intro first
  have halternative : (fetchAlternative issuer first).Uses P := by
    unfold fetchAlternative
    split_ifs
    · trivial
    · exact fetchDocument_uses hget _
  apply uses_bind halternative
  intro response
  apply uses_bind uses_throwIf
  intro _
  apply uses_bind uses_ofResult
  intro metadata
  exact uses_bind uses_throwIf fun _ => trivial

end Fetches

/-! ## The commands of a worker -/

section Conforms

variable [Platform] {Paired : String → String → Prop} {phase : Option String}

/-- The commands that send nothing but requests for documents. -/
def Command.Looks : Command → Prop
  | .read => True
  | .send request => request.method = "GET"
  | _ => False

theorem Command.Looks.issued {command : Command} (h : command.Looks) :
    (registrationPhases Paired).issues phase command := by
  cases command with
  | read => trivial
  | send request => trivial
  | _ => exact h.elim

theorem Command.Looks.stays {command : Command} (h : command.Looks) :
    (registrationPhases Paired).advance phase command = phase := by
  cases command with
  | read => rfl
  | send request =>
    have hget : request.method = "GET" := h
    simp [registrationPhases, updatedClient, Command.updatedClient?, hget]
  | _ => exact h.elim

theorem looks_conforms {α : Type} {p : Request α} (h : p.Uses Command.Looks) :
    p.Conforms (registrationPhases Paired) (fun _ later => later = phase) phase :=
  Uses.conforms h (fun _ => Command.Looks.issued) fun _ => Command.Looks.stays

/-- An answer is one that the peer gives to the request. -/
theorem fetchOrThrow_conforms {α : Type} {after : α → Option String → Prop}
    {request : PeerRequest} {next : PeerResponse → Request α}
    (h : ∀ reply : Reply, reply.Consistent Paired → ∀ response,
      reply.respond request = some response →
        (next response).Conforms (registrationPhases Paired) after
          (updatedClient phase (.send request))) :
    (fetchOrThrow request >>= next).Conforms (registrationPhases Paired) after phase := by
  refine ⟨trivial, ?_⟩
  intro _ _ reply hreply
  change (orThrow (.internal "fetch failed") (reply.respond request) >>= next).Conforms
    (registrationPhases Paired) after (updatedClient phase (.send request))
  apply conforms_orThrow
  intro response hresponse
  exact h reply hreply response hresponse

theorem readRegistration_looks (connector : IdentityProviderConnector) (client : DynamicClient)
    (management : Management) (requiredScopes : List String) (callbackOrigin : String) :
    (readRegistration connector client management requiredScopes callbackOrigin).Uses
      Command.Looks := by
  apply uses_bind uses_ofResult
  intro types
  apply uses_bind uses_ofResult
  intro url
  apply uses_bind
  · exact fetchOrThrow_uses rfl
  · intro response
    split_ifs
    · apply uses_bind uses_ofResult
      intro body
      apply uses_bind uses_ofResult
      intro clientId
      exact uses_bind uses_throwIf fun _ => trivial
    · exact uses_bind uses_throwIf fun _ => trivial

/-- A new client comes with its own secret. -/
theorem registerOidcClient_conforms (endpoint : String) (request : RegistrationRequest)
    (scopes : List String) :
    (registerOidcClient endpoint request scopes).Conforms (registrationPhases Paired)
      (fun registration _ => Paired registration.clientId registration.clientSecret) phase := by
  apply fetchOrThrow_conforms
  intro reply hreply response hresponse
  apply conforms_throwIf
  intro _
  apply conforms_ofResult
  intro body hbody
  unfold ofResult
  split
  · rename_i registration hregistration
    obtain ⟨hid, hsecret | ⟨client, hnone, -⟩⟩ := registrationResponse_ok hregistration
    · exact hreply.registration _ _ body _ _ rfl hresponse (readObject_ok hbody) hid hsecret
    · cases hnone
  · trivial

/-- An update is written under the client for which it was sent. -/
theorem updateRegistration_conforms {connector : IdentityProviderConnector}
    {client : DynamicClient} (management : Management) (metadata : Record)
    (desiredScopes : List String) (requestBody : RegistrationRequest)
    (hclient : Paired client.clientId client.clientSecret) (hne : client.clientId ≠ "") :
    (updateRegistration connector client management metadata desiredScopes requestBody).Conforms
      (registrationPhases Paired) (fun _ _ => True) phase := by
  apply conforms_ofResult
  intro url _
  apply fetchOrThrow_conforms
  intro reply hreply response hresponse
  split_ifs
  · apply conforms_ofResult
    intro body hbody
    apply conforms_ofResult
    intro updated hupdated
    apply conforms_throwIf
    intro hsame
    apply conforms_currentTime trivial
    intro now
    have hid : updated.clientId = client.clientId := not_not.mp hsame
    have hpaired : Paired client.clientId updated.clientSecret := by
      obtain ⟨hreturned, hsecret | ⟨previous, hprevious, hsecret⟩⟩ :=
        registrationResponse_ok hupdated
      · rw [← hid]
        exact hreply.registration _ _ body _ _ rfl hresponse (readObject_ok hbody) hreturned
          hsecret
      · cases hprevious
        rw [hsecret]
        exact hclient
    have hsent : readString (Record.field (("client_id", Json.str client.clientId) ::
        requestBody.record) "client_id") = some client.clientId := by
      simp [Record.field, readString, hne]
    apply conforms_perform
    · refine ⟨rfl, rfl, client.clientId, updated.clientSecret, ?_, rfl, hpaired⟩
      simp [registrationPhases, updatedClient, Command.updatedClient?, hsent]
    · intros
      trivial
  · exact conforms_throwIf fun _ => trivial

/-- The rotation writes a whole client, and retires the one that was read. -/
theorem rotateClient_conforms {connector : IdentityProviderConnector} {client : DynamicClient}
    (metadata : Record) (requiredScopes desiredScopes : List String)
    (requestBody : RegistrationRequest) (hconnector : connector.PairedClient Paired)
    (hclient : Paired client.clientId client.clientSecret) :
    (rotateClient connector client metadata requiredScopes desiredScopes requestBody).Conforms
      (registrationPhases Paired) (fun _ _ => True) phase := by
  apply conforms_bind (registerOidcClient_conforms _ _ _)
  intro replacement later hreplacement
  apply conforms_sealSecret
  intro reply hreply
  apply conforms_currentTime trivial
  intro now
  apply conforms_perform
  · intro row
    constructor
    · intro clientId hid secret hsecret
      cases hid
      cases hsecret
      exact hreplacement
    · intro entry hentry secret hsecret
      rcases List.mem_append.mp hentry with hold | hnew
      · exact hconnector.retired entry hold secret hsecret
      · cases List.mem_singleton.mp hnew
        rw [hreply.sealing _ _ _ hsecret]
        exact hclient
  · intro s rotated db' _ _
    split_ifs
    · trivial
    · apply conforms_query trivial
      intro t _
      split <;> trivial

theorem reviseRegistration_conforms {connector : IdentityProviderConnector}
    {client : DynamicClient} (requiredScopes : List String) (callbackOrigin : String)
    (hconnector : connector.PairedClient Paired)
    (hclient : Paired client.clientId client.clientSecret) (hne : client.clientId ≠ "") :
    (reviseRegistration connector client requiredScopes callbackOrigin).Conforms
      (registrationPhases Paired) (fun _ _ => True) phase := by
  apply conforms_bind (looks_conforms (fetchOidcMetadata_uses (fun _ => rfl) _))
  intro metadata later _
  apply conforms_ofResult
  intro catalogScope _
  apply conforms_ofResult
  intro desiredScopes _
  apply conforms_throwIf
  intro _
  apply conforms_ofResult
  intro types _
  split
  · exact rotateClient_conforms _ _ _ _ hconnector hclient
  · apply conforms_bind (updateRegistration_conforms _ _ _ _ hclient hne)
    intro updated _ _
    split_ifs
    · trivial
    · exact rotateClient_conforms _ _ _ _ hconnector hclient

theorem ensureDynamicConnectorScopes_conforms (connectorId : String) (requiredScopes : List String)
    (callbackOrigin : String) :
    (ensureDynamicConnectorScopes connectorId requiredScopes callbackOrigin).Conforms
      (registrationPhases Paired) (fun _ _ => True) phase := by
  apply conforms_query trivial
  intro s hs
  apply conforms_orThrow
  intro connector hfound
  have hconnector : connector.PairedClient Paired := hs connector (List.mem_of_find?_eq_some hfound)
  have hclient : ∀ client, dynamicClient connector = some client →
      Paired client.clientId client.clientSecret ∧ client.clientId ≠ "" := by
    intro client hdynamic
    obtain ⟨⟨hid, hne⟩, hsecret⟩ := dynamicClient_eq_some hdynamic
    exact ⟨hconnector.current _ hid _ hsecret, hne⟩
  split_ifs
  · trivial
  · apply conforms_orThrow
    intro client hdynamic
    obtain ⟨hpaired, hne⟩ := hclient client hdynamic
    split
    · trivial
    · apply conforms_bind (looks_conforms (readRegistration_looks _ _ _ _ _))
      intro current later _
      split_ifs
      · trivial
      · exact reviseRegistration_conforms _ _ hconnector hpaired hne
  · apply conforms_orThrow
    intro client hdynamic
    obtain ⟨hpaired, hne⟩ := hclient client hdynamic
    exact reviseRegistration_conforms _ _ hconnector hpaired hne

end Conforms

/-! ## Steps and runs -/

section Runs

variable [Platform] {Paired : String → String → Prop} {w : World}

theorem clientsPaired_connector {phase : Option String} {command : ConnectorCommand}
    (hwrites : WritesPaired Paired phase command)
    (hcurrent : RegistrationCurrent (.connector command, phase) w)
    (h : ClientsPaired Paired w) :
    ClientsPaired Paired { w with db := command.after w.db } := by
  intro connector hconnector
  dsimp only at hconnector
  rw [ConnectorCommand.after_eq] at hconnector
  obtain ⟨old, hold, rfl⟩ := List.mem_map.mp hconnector
  cases command with
  | update id patch =>
    obtain ⟨hid, hretired, clientId, secret, rfl, hsecret, hpaired⟩ := hwrites
    simp only [ConnectorCommand.change]
    split_ifs with hsame
    · have hclient := hcurrent id rfl clientId rfl old hold hsame
      constructor
      · simp [ConnectorPatch.apply, hid, hsecret, hclient, hpaired]
      · simpa [ConnectorPatch.apply, hretired] using (h old hold).retired
    · exact h old hold
  | rotate id generation patch =>
    simp only [ConnectorCommand.change]
    split_ifs
    · exact hwrites old
    · exact h old hold

/-- The steps of the workers, as long as an update meets the client for which it was sent. -/
def registrationSteps (Paired : String → String → Prop) :
    Pool.Stepwise (Command × Option String) World Reply EnsureScopes where
  issues _ command := (registrationPhases Paired).issues command.2 command.1
  inv := ClientsPaired Paired
  answers := Reply.Consistent Paired
  cond _ := RegistrationCurrent

theorem registrationSteps_sound :
    (registrationSteps Paired).Sound (registrationSystem.phased updatedClient none) where
  program request :=
    (ensureDynamicConnectorScopes_conforms request.connectorId request.requiredScopes
      request.callbackOrigin).discard.issues
  refl _ := trivial
  trans _ _ := trivial
  environment event s h := by
    cases event with
    | elapse milliseconds => exact ⟨h, trivial⟩
    | configure db => exact ⟨h, trivial⟩
  exec request command s hissues hcurrent h := by
    obtain ⟨command, phase⟩ := command
    refine ⟨?_, trivial⟩
    cases command with
    | connector command => exact clientsPaired_connector hissues hcurrent h
    | read => exact h
    | send request => exact h
    | _ => exact hissues.elim

/-- Whatever the workers do, the id and the secret of each client stay paired, if every
update by PUT is written where the connector still has the client for which it was sent. -/
theorem clients_stay_paired (hpaired : ClientsPaired Paired w)
    {schedule : List RegistrationAction}
    (hreplies : ∀ i reply, .advance i reply ∈ schedule → reply.Consistent Paired)
    (h : ∀ entry ∈ (Pool.idle w).history (registrationSystem.phased updatedClient none) schedule,
      RegistrationCurrent entry.2.1 entry.2.2) :
    ∀ s ∈ (Pool.idle w).states registrationSystem schedule, ClientsPaired Paired s := by
  have hstates := registrationSteps_sound.states hpaired hreplies h
  rw [Pool.states_phased] at hstates
  exact hstates

end Runs

namespace RegistrationExample

/-- Every URL parses, and secrets are stored as they are. -/
@[reducible] def platform : Platform :=
  { samplePlatform with
    openSecret := fun envelope _ => some envelope
    parseUrl := fun value => some
      { protocol := "https:", username := "", password := "", hostname := value, pathname := ""
        search := "", hash := "" }
    printUrl := fun url => url.hostname }

attribute [local instance] platform

/-- The secrets of the two clients that the authorization server has. -/
def Issued (clientId secret : String) : Prop :=
  (clientId, secret) ∈ [("first", "one"), ("first", "two"), ("next", "three")]

instance (clientId secret : String) : Decidable (Issued clientId secret) :=
  inferInstanceAs (Decidable (_ ∈ _))

def connector : IdentityProviderConnector :=
  { id := "connector", providerType := "generic_oauth", providerId := "provider"
    displayName := "Provider", enabled := true, authenticationEnabled := false, clientId := none
    clientSecret := none, issuer := none, authorizationEndpoint := none, tokenEndpoint := none
    userInfoEndpoint := none, providerMetadata := none, resourceAuthorizationEnabled := true
    resourceClientId := some "first", resourceClientSecret := some "one"
    resourceIssuer := some "https://as"
    resourceAuthorizationEndpoint := some "https://as/authorize"
    resourceTokenEndpoint := some "https://as/token"
    resourceUserInfoEndpoint := some "https://as/userinfo"
    resourceJwksEndpoint := some "https://as/jwks"
    resourceRegistrationEndpoint := some "https://as/register"
    resourceRevocationEndpoint := some "https://as/revoke"
    resourceRegistrationMode := some .dynamic
    resourceRegistrationClientUri := some "https://as/register/first"
    resourceRegistrationAccessToken := some "management", resourceRegisteredScopes := some []
    resourceClientGeneration := 1, resourceRetiredClientGenerations := none
    resourceProviderMetadata := none, updatedAt := 0 }

def world : World :=
  { db := { identityProviderConnectors := [connector] }, clock := 0, nextId := 0 }

theorem world_paired : ClientsPaired Issued world := by
  intro row hrow
  cases List.mem_singleton.mp hrow
  exact ⟨by decide, by decide⟩

/-- The answers of the authorization server: updates of the first client succeed, with a new
secret, or are not supported. -/
def answer (updates : Bool) (request : PeerRequest) : Option PeerResponse :=
  if request.method = "GET" then
    some { status := 200, body := some (.obj [("issuer", .str "https://as")]) }
  else if request.method = "PUT" then
    if updates then
      some
        { status := 200
          body := some (.obj [("client_id", .str "first"), ("client_secret", .str "two")]) }
    else some { status := 405 }
  else
    some
      { status := 201
        body := some (.obj [("client_id", .str "next"), ("client_secret", .str "three")]) }

def reply (updates : Bool) : Reply :=
  { respond := answer updates, sealing := fun plaintext _ => plaintext }

theorem reply_consistent (updates : Bool) : (reply updates).Consistent Issued where
  sealing := by
    intro plaintext context secret hopen
    cases hopen
    rfl
  registration := by
    intro request response body clientId secret _ hresponse hbody hid hsecret
    dsimp only [reply, answer] at hresponse
    split_ifs at hresponse <;> cases hresponse <;> cases hbody
    · cases hid
    · cases hid
      cases hsecret
      decide
    · cases hid
      cases hsecret
      decide

def ensure : EnsureScopes :=
  { connectorId := "connector", requiredScopes := ["email"], callbackOrigin := "https://realm" }

def step (index : ℕ) (updates : Bool) : RegistrationAction := .advance index (reply updates)

theorem step_consistent {schedule : List RegistrationAction}
    (h : ∀ a ∈ schedule, a = .start ensure ∨ ∃ index updates, a = step index updates) :
    ∀ i r, .advance i r ∈ schedule → r.Consistent Issued := by
  intro i r hmem
  rcases h _ hmem with heq | ⟨index, updates, heq⟩
  · cases heq
  · cases heq
    exact reply_consistent updates

/-- The first worker updates the client, then the second one, which read it before, replaces
it. -/
def orderly : List RegistrationAction :=
  [.start ensure, .start ensure, step 1 false] ++ List.replicate 7 (step 0 true) ++
    List.replicate 9 (step 1 false)

/-- The second worker replaces the client while the first one waits for its answer. -/
def overtaken : List RegistrationAction :=
  [.start ensure, .start ensure] ++ List.replicate 5 (step 0 true) ++
    List.replicate 10 (step 1 false) ++ List.replicate 2 (step 0 true)

theorem orderly_consistent :
    ∀ i r, .advance i r ∈ orderly → r.Consistent Issued := by
  apply step_consistent
  simp [orderly, step]

theorem overtaken_consistent :
    ∀ i r, .advance i r ∈ overtaken → r.Consistent Issued := by
  apply step_consistent
  simp [overtaken, step]

/-- The generation, the id and the secret of each client in use. -/
def clients (w : World) : List (ℕ × Option String × Option String) :=
  w.db.identityProviderConnectors.map fun connector =>
    (connector.resourceClientGeneration, connector.resourceClientId,
      connector.resourceClientSecret)

theorem ClientsPaired.clients {Paired : String → String → Prop} {w : World}
    (h : ClientsPaired Paired w) {generation : ℕ} {clientId secret : String}
    (hclient : (generation, some clientId, some secret) ∈ clients w) :
    Paired clientId secret := by
  obtain ⟨connector, hconnector, heq⟩ := List.mem_map.mp hclient
  have hfields : connector.resourceClientId = some clientId ∧
      connector.resourceClientSecret = some secret := by
    simp_all
  exact (h connector hconnector).current _ hfields.1 _ hfields.2

theorem clients_stay_paired_orderly :
    (((Pool.idle world).states registrationSystem orderly).getLast?.map clients =
      some [(2, some "next", some "three")]) ∧
      ∀ s ∈ (Pool.idle world).states registrationSystem orderly, ClientsPaired Issued s :=
  ⟨by decide +kernel,
    clients_stay_paired world_paired orderly_consistent (by decide +kernel)⟩

/-- The late update leaves the new client with the secret of the old one. -/
theorem clients_stay_paired_overtaken :
    ∃ (Paired : String → String → Prop) (w : World) (schedule : List RegistrationAction),
      ClientsPaired Paired w ∧
        (∀ i r, .advance i r ∈ schedule → r.Consistent Paired) ∧
          ¬ ∀ s ∈ (Pool.idle w).states registrationSystem schedule, ClientsPaired Paired s := by
  refine ⟨Issued, world, overtaken, world_paired, overtaken_consistent, ?_⟩
  intro h
  have hlast : ∃ s ∈ (Pool.idle world).states registrationSystem overtaken,
      (2, some "next", some "two") ∈ clients s := by
    decide +kernel
  obtain ⟨s, hs, hclient⟩ := hlast
  have hmixed : Issued "next" "two" := ClientsPaired.clients (h s hs) hclient
  exact absurd hmixed (by decide)

end RegistrationExample
end Realmroot
