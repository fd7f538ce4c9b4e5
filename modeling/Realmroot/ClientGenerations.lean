import Realmroot.AccessFrames
import Realmroot.Quoting
import Realmroot.Rules
import Realmroot.Usecases.Connections

/-!
# The clients of credentials

A credential keeps the generation of the client under which its tokens were issued, and a
connector says which client a generation stands for. A rotation adds a generation; an
update of the connector starts again at generation 1.
-/

namespace Realmroot

open AtomicProgram Program

/-! ## Stored tokens -/

section Tokens

variable [Platform]

/-- The text of stored tokens begins with the access token. -/
theorem stringifyTokens_eq (accessToken refreshToken scope : String) :
    ∃ rest, stringifyTokens accessToken refreshToken scope =
      "\x7b" ++ quoteString "accessToken" ++ ":" ++ (quoteString accessToken ++ rest) := by
  refine ⟨"," ++ (quoteString "refreshToken" ++ ":" ++ quoteString refreshToken ++ "," ++
    (quoteString "scope" ++ ":" ++ quoteString scope)) ++ "\x7d", ?_⟩
  simp [stringifyTokens, stringifyJson, stringifyFields, joinWithComma, String.append_assoc]

/-- It determines the access token. -/
theorem stringifyTokens_inj
    {accessToken accessToken' refreshToken refreshToken' scope scope' : String}
    (h : stringifyTokens accessToken refreshToken scope =
      stringifyTokens accessToken' refreshToken' scope') : accessToken = accessToken' := by
  obtain ⟨rest, htext⟩ := stringifyTokens_eq accessToken refreshToken scope
  obtain ⟨rest', htext'⟩ := stringifyTokens_eq accessToken' refreshToken' scope'
  rw [htext, htext'] at h
  have hquoted : quoteString accessToken ++ rest = quoteString accessToken' ++ rest' := by
    simpa using h
  exact (quoteString_append_inj hquoted).1

/-- Whatever tokens open in the envelope were issued to the client. -/
def SealsTokensOf (minter : String → String) (envelope clientId : String) : Prop :=
  ∀ context accessToken refreshToken scope,
    Platform.openSecret envelope context = some (stringifyTokens accessToken refreshToken scope) →
      minter accessToken = clientId

/-- A server answers with tokens that it issues to the client that asks, and what is sealed
opens to nothing but what it was. -/
structure Reply.Mints (minter : String → String) (reply : Reply) : Prop where
  tokens : ∀ request authentication clientId clientSecret response body accessToken,
    request.authentication = .client authentication clientId clientSecret →
      reply.respond request = some response → response.body = some (.obj body) →
        readString (Record.field body "access_token") = some accessToken →
          minter accessToken = clientId
  sealing : ∀ plaintext context context' secret,
    Platform.openSecret (reply.sealing plaintext context) context' = some secret →
      secret = plaintext

end Tokens

/-! ## Generations -/

/-- The client that a generation stands for. -/
def IdentityProviderConnector.clientAt (connector : IdentityProviderConnector) (generation : ℕ) :
    Option String :=
  match (connector.resourceRetiredClientGenerations.getD []).find? fun retired =>
      retired.generation = generation with
  | some retired => some retired.clientId
  | none =>
    if generation = connector.resourceClientGeneration then connector.resourceClientId else none

namespace Database

def resourceConnector (db : Database) (resourceId : String) : Option IdentityProviderConnector :=
  ((db.findResource resourceId).bind fun resource => truthy resource.connectorId).bind
    db.findConnector

/-- The client that a generation stands for at the connector of a resource. -/
def clientAt (db : Database) (resourceId : String) (generation : ℕ) : Option String :=
  (db.resourceConnector resourceId).bind (·.clientAt generation)

end Database

section Resolution

variable [Platform]

omit [Platform] in
theorem configuredConnector_eq_some {connector : IdentityProviderConnector}
    {configured : ConfiguredConnector} (h : configuredConnector connector = some configured) :
    configured.connector = connector ∧
      connector.resourceClientId = some configured.clientId := by
  obtain ⟨driver, -, h⟩ := Option.bind_eq_some_iff.mp h
  obtain ⟨clientId, hid, h⟩ := Option.bind_eq_some_iff.mp h
  obtain ⟨secret, -, h⟩ := Option.bind_eq_some_iff.mp h
  obtain ⟨issuer, -, h⟩ := Option.bind_eq_some_iff.mp h
  obtain ⟨endpoint, -, h⟩ := Option.bind_eq_some_iff.mp h
  cases h
  exact ⟨rfl, (Option.filter_eq_some_iff.mp hid).1⟩

/-- What is resolved for a generation authenticates as the client that it stands for. -/
theorem resolveExternalAuthorization_clientId {resourceId : String}
    {connector : Option IdentityProviderConnector} {generation : ℕ}
    {resolved : ExternalResourceAuthorization}
    (h : resolveExternalAuthorization resourceId connector (some generation) =
      .ok (some resolved)) :
    connector.bind (·.clientAt generation) = some resolved.clientId := by
  unfold resolveExternalAuthorization at h
  cases hconfigured : connector.bind configuredConnector with
  | none =>
    rw [hconfigured] at h
    cases h
  | some configured =>
    obtain ⟨row, rfl, hrow⟩ := Option.bind_eq_some_iff.mp hconfigured
    obtain ⟨hsame, hcurrent⟩ := configuredConnector_eq_some hrow
    rw [hconfigured] at h
    dsimp only [Option.getD_some] at h
    change row.clientAt generation = _
    unfold IdentityProviderConnector.clientAt
    rw [ConfiguredConnector.retired, hsame] at h
    cases hretired : (row.resourceRetiredClientGenerations.getD []).find? fun retired =>
        retired.generation = generation with
    | some retired =>
      rw [hretired] at h
      dsimp only at h
      split at h
      · cases h
        rfl
      · cases h
    | none =>
      rw [hretired] at h
      dsimp only at h ⊢
      split_ifs at h ⊢
      · cases h
        exact hcurrent
      · cases h

/-- What is found for a generation of a resource that nothing else disturbs. -/
theorem findExternalAuthorization_meets (resourceId : String) (generation : ℕ) (w : World) :
    (findExternalAuthorization resourceId (some generation)).Meets undisturbed
      (onSuccess fun found _ => ∀ resolved ∈ found,
        w.db.clientAt resourceId generation = some resolved.clientId) w := by
  apply meets_query
  intro t ht _
  refine ⟨trivial, ?_⟩
  rw [ht.1]
  cases hresource : w.db.findResource resourceId with
  | none => simp [onSuccess, Meets]
  | some resource =>
    dsimp only
    unfold externalAuthorizationOf
    cases hconnector : truthy resource.connectorId with
    | none => simp [onSuccess, Meets]
    | some connectorId =>
      dsimp only
      split_ifs
      · simp [onSuccess, Meets]
      · apply meets_query
        intro u hu _
        refine ⟨trivial, ?_⟩
        have hdb : u.db = w.db := hu.1.trans ht.1
        rw [hdb]
        have hrow : w.db.resourceConnector resourceId = w.db.findConnector connectorId := by
          simp [Database.resourceConnector, hresource, hconnector]
        unfold Database.clientAt
        rw [hrow]
        unfold ofResult
        split
        · rename_i found hfound
          intro resolved hresolved
          cases hresolved
          exact resolveExternalAuthorization_clientId hfound
        · trivial

end Resolution

/-! ## Statements on connectors -/

def ConnectorCommand.target : ConnectorCommand → String
  | .update id _ => id
  | .rotate id _ _ => id

def ConnectorCommand.patch : ConnectorCommand → ConnectorPatch
  | .update _ patch => patch
  | .rotate _ _ patch => patch

/-- The generation of a credential stands for the client at the connector. -/
structure Database.Depends (db : Database) (connectorId : String) (generation : ℕ)
    (credential : ProviderCredential) : Prop where
  active : credential.status = .active
  generation : credential.clientGeneration = generation
  authorized : ∃ authorization ∈ db.providerResourceAuthorizations,
    authorization.id = credential.providerResourceAuthorizationId ∧
      ∃ connector ∈ db.resourceConnector authorization.resourceId, connector.id = connectorId

/-- The generation that a rotation expects. -/
def ConnectorCommand.rotates? : ConnectorCommand → Option ℕ
  | .update _ _ => none
  | .rotate _ generation _ => some generation

/-- A rotation retires the client that the connector has, and keeps those that it has retired
before. -/
def ConnectorPatch.RetiresCurrent (patch : ConnectorPatch) (row : IdentityProviderConnector) :
    Prop :=
  ∃ entry ∈ (patch.resourceRetiredClientGenerations.join.getD []).getLast?,
    patch.resourceRetiredClientGenerations =
      some (some (row.resourceRetiredClientGenerations.getD [] ++ [entry])) ∧
    row.resourceClientId = some entry.clientId

instance (patch : ConnectorPatch) (row : IdentityProviderConnector) :
    Decidable (patch.RetiresCurrent row) :=
  inferInstanceAs (Decidable (∃ entry ∈ Option.join _ |>.getD [] |>.getLast?, _ ∧ _))

/-! ## The invariant -/

section Invariant

variable [Platform] (minter : String → String)

/-- The generation of each active credential stands for the client that its tokens were issued
to, or for none. -/
def ClientsKept (db : Database) : Prop :=
  ∀ credential ∈ db.providerCredentials, credential.status = .active →
    ∀ authorization ∈ db.providerResourceAuthorizations,
      authorization.id = credential.providerResourceAuthorizationId →
        ∀ clientId ∈ db.clientAt authorization.resourceId credential.clientGeneration,
          SealsTokensOf minter credential.encryptedTokens clientId

end Invariant

section Steps

variable [Platform] {minter : String → String} {db db' : Database} {clientId : String}

/-- Every active credential was there, and so was every authorization. -/
structure Database.OnlyRevokes (db db' : Database) : Prop where
  credentials : ∀ credential ∈ db'.providerCredentials, credential.status = .active →
    credential ∈ db.providerCredentials
  authorizations : ∀ authorization ∈ db'.providerResourceAuthorizations,
    ∃ old ∈ db.providerResourceAuthorizations,
      old.id = authorization.id ∧ old.resourceId = authorization.resourceId

/-- A step that stores nothing and leaves the clients. -/
theorem ClientsKept.onlyRevokes (h : ClientsKept minter db) (hrevokes : db.OnlyRevokes db')
    (hclients : db'.resourceConnector = db.resourceConnector) : ClientsKept minter db' := by
  intro credential hcredential hactive authorization hauthorization hid current hcurrent
  obtain ⟨old, hold, holdId, hresource⟩ := hrevokes.authorizations _ hauthorization
  have hbefore : current ∈ db.clientAt old.resourceId credential.clientGeneration := by
    rw [hresource]
    unfold Database.clientAt at hcurrent ⊢
    rw [← hclients]
    exact hcurrent
  exact h credential (hrevokes.credentials _ hcredential hactive) hactive old hold
    (holdId.trans hid) current hbefore

/-- Tokens are stored under a generation that stands for the client that got them. -/
theorem ClientsKept.upsert {authorizationId : String} {input : ProviderCredential}
    (h : ClientsKept minter db) (hseals : SealsTokensOf minter input.encryptedTokens clientId)
    (hstored : ∀ row ∈ db.providerResourceAuthorizations, row.id = authorizationId →
      ∀ current ∈ db.clientAt row.resourceId input.clientGeneration, current = clientId)
    (hok : Database.upsertProviderCredential authorizationId input db = .ok ((), db')) :
    ClientsKept minter db' := by
  obtain ⟨credentials, rfl, hcredentials⟩ := Database.upsertProviderCredential_ok hok
  intro credential hcredential hactive authorization hauthorization hid current hcurrent
  obtain ⟨old, hold, rfl⟩ := Table.mem_updateWhere.mp hauthorization
  have hsame : old.id = credential.providerResourceAuthorizationId ∧
      current ∈ db.clientAt old.resourceId credential.clientGeneration := by
    split_ifs at hid hcurrent
    · exact ⟨hid, hcurrent⟩
    · exact ⟨hid, hcurrent⟩
  have hnew : credential.providerResourceAuthorizationId = authorizationId →
      credential.clientGeneration = input.clientGeneration →
        credential.encryptedTokens = input.encryptedTokens →
          SealsTokensOf minter credential.encryptedTokens current := by
    intro hauthorizationId hgeneration htokens
    have hclient : current = clientId := by
      apply hstored old hold (hsame.1.trans hauthorizationId)
      rw [← hgeneration]
      exact hsame.2
    rw [htokens, hclient]
    exact hseals
  rcases hcredentials with rfl | ⟨-, -, rfl⟩
  · obtain ⟨before, hbefore, rfl⟩ := Table.mem_updateWhere.mp hcredential
    split_ifs at hsame hactive hnew ⊢ with hselected
    · have hauthorizationId : before.providerResourceAuthorizationId = authorizationId := by
        simpa using hselected
      exact hnew hauthorizationId rfl rfl
    · exact h before hbefore hactive old hold hsame.1 current hsame.2
  · rcases List.mem_append.mp hcredential with hbefore | hlast
    · exact h credential hbefore hactive old hold hsame.1 current hsame.2
    · cases List.mem_singleton.mp hlast
      exact hnew rfl rfl rfl

theorem ClientsKept.create {row : ProviderResourceAuthorization} {input : ProviderCredential}
    (h : ClientsKept minter db) (hseals : SealsTokensOf minter input.encryptedTokens clientId)
    (hbelongs : input.providerResourceAuthorizationId = row.id)
    (hstored : ∀ current ∈ db.clientAt row.resourceId input.clientGeneration, current = clientId)
    (hok : Database.createResourceAuthorization row input db = .ok ((), db')) :
    ClientsKept minter db' := by
  obtain ⟨-, hnew, hcredentials, rfl⟩ := Database.createResourceAuthorization_ok hok
  intro credential hcredential hactive authorization hauthorization hid current hcurrent
  change current ∈ db.clientAt authorization.resourceId credential.clientGeneration at hcurrent
  rcases List.mem_append.mp hauthorization with hold | hlast
  · rcases List.mem_append.mp hcredential with hbefore | hlast
    · exact h credential hbefore hactive authorization hold hid current hcurrent
    · cases List.mem_singleton.mp hlast
      exact absurd (hid.trans hbelongs) (hnew _ hold)
  · cases List.mem_singleton.mp hlast
    rcases List.mem_append.mp hcredential with hbefore | hlast
    · exact absurd (hid.symm.trans hbelongs.symm) (hcredentials _ hbefore).2
    · cases List.mem_singleton.mp hlast
      rw [hstored current hcurrent]
      exact hseals

/-! ### Connectors -/

/-- What the connector statements of a request write about clients: nothing, a first
generation, or one more. -/
def ConnectorCommand.WritesClient : ConnectorCommand → Prop
  | .update _ patch =>
    (patch.resourceClientId = none ∧ patch.resourceClientGeneration = none ∧
      patch.resourceRetiredClientGenerations = none) ∨
    ∃ clientId, patch.resourceClientId = some clientId ∧
      patch.resourceClientGeneration = some 1 ∧
        patch.resourceRetiredClientGenerations = some none
  | .rotate _ generation patch => ∃ clientId entries entry,
      patch.resourceClientId = some (some clientId) ∧
      patch.resourceClientGeneration = some (generation + 1) ∧
      patch.resourceRetiredClientGenerations = some (some (entries ++ [entry])) ∧
      entry.generation = generation

omit [Platform] in
/-- A generation stands for the client for which it stood before, or it is the one that the
statement sets. -/
theorem ConnectorCommand.WritesClient.clientAt {command : ConnectorCommand}
    (hwrites : command.WritesClient) {connector : IdentityProviderConnector} {generation : ℕ}
    (hrotated : ∀ expected ∈ command.rotates?, connector.id = command.target →
      connector.resourceClientGeneration = expected → command.patch.RetiresCurrent connector)
    (h : (command.change connector).clientAt generation = some clientId) :
    connector.clientAt generation = some clientId ∨
      connector.id = command.target ∧ command.patch.resourceClientGeneration = some generation ∧
        command.patch.resourceClientId = some (some clientId) := by
  cases command with
  | update id patch =>
    simp only [ConnectorCommand.change] at h
    split_ifs at h with hid
    · rcases hwrites with ⟨hclient, hgeneration, hretired⟩ | ⟨client, hclient, hgeneration, hretired⟩
      · left
        simpa [IdentityProviderConnector.clientAt, ConnectorPatch.apply, hclient, hgeneration,
          hretired] using h
      · right
        simp only [IdentityProviderConnector.clientAt, ConnectorPatch.apply, hclient, hgeneration,
          hretired, Option.getD_some, Option.getD_none, List.find?_nil] at h
        split_ifs at h with hfirst
        exact ⟨hid, by simp [ConnectorCommand.patch, hgeneration, hfirst],
          by simp [ConnectorCommand.patch, hclient, h]⟩
    · exact Or.inl h
  | rotate id expected patch =>
    simp only [ConnectorCommand.change] at h
    split_ifs at h with hselected
    · obtain ⟨hid, hexpected⟩ := hselected
      obtain ⟨client, entries, entry, hclient, hgeneration, hretired, hentry⟩ := hwrites
      obtain ⟨entry', -, hread, hcurrent⟩ := hrotated expected rfl hid hexpected
      dsimp only [ConnectorCommand.patch] at hread
      have hlists : entries ++ [entry] =
          connector.resourceRetiredClientGenerations.getD [] ++ [entry'] := by
        simpa [hretired] using hread
      obtain ⟨rfl, hsame⟩ := List.append_inj' hlists rfl
      cases hsame
      simp only [IdentityProviderConnector.clientAt, ConnectorPatch.apply, hclient, hgeneration,
        hretired, Option.getD_some, List.find?_append, List.find?_singleton, hentry] at h
      unfold IdentityProviderConnector.clientAt
      cases hfound : (connector.resourceRetiredClientGenerations.getD []).find? fun retired =>
          retired.generation = generation with
      | some retired =>
        rw [hfound] at h
        exact Or.inl h
      | none =>
        rw [hfound] at h
        by_cases hretires : expected = generation
        · left
          simpa [hretires, hexpected, hcurrent] using h
        · right
          have hlater : generation = expected + 1 ∧ client = clientId := by
            simpa [hretires] using h
          obtain ⟨rfl, rfl⟩ := hlater
          exact ⟨hid, hgeneration, hclient⟩
    · exact Or.inl h

omit [Platform] in
@[simp] theorem ConnectorCommand.change_id (command : ConnectorCommand)
    (connector : IdentityProviderConnector) : (command.change connector).id = connector.id := by
  cases command with
  | update id patch =>
    simp only [ConnectorCommand.change]
    split_ifs <;> rfl
  | rotate id generation patch =>
    simp only [ConnectorCommand.change]
    split_ifs <;> rfl

omit [Platform] in
theorem resourceConnector_after (command : ConnectorCommand) (db : Database)
    (resourceId : String) :
    (command.after db).resourceConnector resourceId =
      (db.resourceConnector resourceId).map command.change := by
  have hfind : ∀ connectorId, (command.after db).findConnector connectorId =
      (db.findConnector connectorId).map command.change := by
    intro connectorId
    rw [ConnectorCommand.after_eq]
    simp only [Database.findConnector, List.find?_map, Function.comp_def,
      ConnectorCommand.change_id]
  have hresource : (command.after db).findResource resourceId = db.findResource resourceId := by
    rw [ConnectorCommand.after_eq]
    rfl
  unfold Database.resourceConnector
  rw [hresource, Option.map_bind]
  exact congrArg _ (funext hfind)

theorem ClientsKept.connector {command : ConnectorCommand} (h : ClientsKept minter db)
    (hwrites : command.WritesClient)
    (hset : ∀ generation ∈ command.patch.resourceClientGeneration,
      ∀ clientId ∈ command.patch.resourceClientId.join, ∀ credential ∈ db.providerCredentials,
        db.Depends command.target generation credential →
          SealsTokensOf minter credential.encryptedTokens clientId)
    (hrotated : ∀ generation ∈ command.rotates?, ∀ connector ∈ db.identityProviderConnectors,
      connector.id = command.target → connector.resourceClientGeneration = generation →
        command.patch.RetiresCurrent connector) :
    ClientsKept minter (command.after db) := by
  intro credential hcredential hactive authorization hauthorization hid current hcurrent
  have hrows : credential ∈ db.providerCredentials ∧
      authorization ∈ db.providerResourceAuthorizations := by
    rw [ConnectorCommand.after_eq] at hcredential hauthorization
    exact ⟨hcredential, hauthorization⟩
  unfold Database.clientAt at hcurrent
  rw [resourceConnector_after] at hcurrent
  obtain ⟨changed, hchanged, hclient⟩ := Option.bind_eq_some_iff.mp hcurrent
  obtain ⟨connector, hconnector, rfl⟩ := Option.map_eq_some_iff.mp hchanged
  have hmem : connector ∈ db.identityProviderConnectors := by
    obtain ⟨connectorId, -, hfound⟩ := Option.bind_eq_some_iff.mp hconnector
    exact List.mem_of_find?_eq_some hfound
  have hretires : ∀ expected ∈ command.rotates?, connector.id = command.target →
      connector.resourceClientGeneration = expected → command.patch.RetiresCurrent connector :=
    fun expected hexpected => hrotated expected hexpected connector hmem
  rcases hwrites.clientAt hretires hclient with hsame | ⟨htarget, hgeneration, hnew⟩
  · apply h credential hrows.1 hactive authorization hrows.2 hid
    exact Option.bind_eq_some_iff.mpr ⟨connector, hconnector, hsame⟩
  · apply hset _ hgeneration current (by simp [hnew]) credential hrows.1
    exact ⟨hactive, rfl, authorization, hrows.2, hid, connector, hconnector, htarget⟩

end Steps

end Realmroot
