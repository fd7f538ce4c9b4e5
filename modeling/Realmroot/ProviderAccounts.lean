import Realmroot.CredentialClients
import Realmroot.ConnectionSystem
import Realmroot.Library.Promises

/-!
# Provider accounts in interleavings

Any number of completions of connection intents are in progress. As long as the two checks of a
completion still pass where it writes its connection, an account of a provider is connected by one
user, and the tokens of a connection belong to the account that the connection names.
-/

namespace Realmroot

open AtomicProgram Program Pool

/-! ## The system -/

structure CompletionCall where
  input : ConnectionCallback
  callbackOrigin : String

inductive CompletionEvent where
  | elapse (milliseconds : ℕ)
  /-- The tables other than those of connections, authorizations, credentials and connectors
  change in any way. -/
  | configure (db : Database)

/-- The tables that `configure` keeps. -/
def keepAccounts (kept db : Database) : Database :=
  { db with
    providerConnections := kept.providerConnections
    providerResourceAuthorizations := kept.providerResourceAuthorizations
    providerCredentials := kept.providerCredentials
    identityProviderConnectors := kept.identityProviderConnectors }

def accountSystem [Platform] :
    System Command World Reply Error ProviderResourceAuthorizationRecord CompletionCall
      CompletionEvent where
  program call := completeResourceConnectionIntent call.input call.callbackOrigin
  environment
    | .elapse milliseconds, w => { w with clock := w.clock + milliseconds }
    | .configure db, w => { w with db := keepAccounts w.db db }

abbrev CompletionAction := Action Reply CompletionCall CompletionEvent

/-! ## One user, and the account of the tokens -/

namespace Database

variable (db : Database)

/-- The connector of the connection is one of the provider. -/
def isOfProvider (providerId : String) (row : ProviderConnection) : Bool :=
  db.identityProviderConnectors.any fun connector =>
    connector.id = row.connectorId && connector.providerId = providerId

/-- At most one user has an active connection with an account of a provider. -/
def OneUserEach : Prop :=
  ∀ providerId, ∀ row ∈ db.providerConnections, ∀ other ∈ db.providerConnections,
    row.status = .active → other.status = .active →
      row.externalSubject = other.externalSubject → db.isOfProvider providerId row = true →
        db.isOfProvider providerId other = true →
          ∀ userId ∈ row.ownerUserId, ∀ otherId ∈ other.ownerUserId, userId = otherId

/-- The tokens of every active credential were issued for the account that its connection
names. -/
def TokensMatch [Platform] (account : String → String) : Prop :=
  ∀ credential ∈ db.providerCredentials, credential.status = .active →
    ∀ authorization ∈ db.providerResourceAuthorizations,
      authorization.id = credential.providerResourceAuthorizationId →
        ∀ connection ∈ db.providerConnections,
          connection.id = authorization.providerConnectionId →
            SealsTokensOf account credential.encryptedTokens connection.externalSubject

/-- No active credential is stored for the connection. -/
def withoutTokens (connection : ProviderConnection) : Prop :=
  ∀ authorization ∈ db.providerResourceAuthorizations,
    authorization.providerConnectionId = connection.id →
      ∀ credential ∈ db.providerCredentials,
        credential.providerResourceAuthorizationId = authorization.id →
          credential.status ≠ .active

instance (connection : ProviderConnection) : Decidable (db.withoutTokens connection) :=
  inferInstanceAs (Decidable (∀ authorization ∈ db.providerResourceAuthorizations, _))

/-- The checks of `ensureProviderConnection` pass for the row that is written: the account is not
connected by another user, and the owner has no other account, and no tokens of one. -/
def ChecksPass (row : ProviderConnection) : Prop :=
  (∀ connector ∈ db.identityProviderConnectors, connector.id = row.connectorId →
    ∀ claimed ∈ db.providerConnections, claimed.status = .active →
      claimed.externalSubject = row.externalSubject →
        db.isOfProvider connector.providerId claimed = true →
          ∀ userId ∈ claimed.ownerUserId, row.ownerUserId = some userId) ∧
  ∀ existing ∈ db.providerConnections, existing.connectorId = row.connectorId →
    ownedBy row.ownerUserId row.ownerOrganizationId existing = true →
      existing.externalSubject ≠ row.externalSubject →
        existing.status ≠ .active ∧ db.withoutTokens existing

instance (row : ProviderConnection) : Decidable (db.ChecksPass row) :=
  inferInstanceAs (Decidable (_ ∧ _))

end Database

/-- The connection that a command writes. -/
def Command.connects? : Command → Option ProviderConnection
  | .access (.insertProviderConnection row) => some row
  | .access (.updateProviderConnection row) => some row
  | _ => none

/-- A connection is written where the checks pass. -/
def ConnectsInTime (command : Command) (w : World) : Prop :=
  ∀ row ∈ command.connects?, w.db.ChecksPass row

instance (command : Command) (w : World) : Decidable (ConnectsInTime command w) :=
  inferInstanceAs (Decidable (∀ row ∈ command.connects?, _))

section Invariant

variable [Platform] (account : String → String)

/-- A provider answers with the profile of the account for which a token was issued, and what is
sealed opens to nothing but what it was. -/
structure Reply.Identifies (reply : Reply) : Prop where
  profile : ∀ request accessToken response body profile,
    request.authentication = .bearer accessToken → reply.respond request = some response →
      response.body = some (.obj body) → parseProfile body = .ok profile →
        account accessToken = profile.externalSubject
  sealing : ∀ plaintext context context' secret,
    Platform.openSecret (reply.sealing plaintext context) context' = some secret →
      secret = plaintext

/-- The connections, the authorizations and the credentials fit together. -/
structure Database.AccountsKept (db : Database) : Prop where
  connections : Table.Keyed (·.id) db.providerConnections
  authorizations : Table.Keyed (·.id) db.providerResourceAuthorizations
  attached : ∀ authorization ∈ db.providerResourceAuthorizations,
    ∃ connection ∈ db.providerConnections, connection.id = authorization.providerConnectionId
  oneOwner : ∀ connection ∈ db.providerConnections,
    connection.ownerUserId.isSome = true → connection.ownerOrganizationId = none
  oneUser : db.OneUserEach
  tokens : db.TokensMatch account

/-- How the others move the state: an active connection stays with its account, and an
authorization with its connection. -/
structure AccountsMove (w t : World) : Prop where
  connections : ∀ old ∈ w.db.providerConnections, old.status = .active →
    ∃ new ∈ t.db.providerConnections, new.id = old.id ∧ new.status = .active ∧
      new.externalSubject = old.externalSubject
  authorizations : ∀ old ∈ w.db.providerResourceAuthorizations,
    ∃ new ∈ t.db.providerResourceAuthorizations, new.id = old.id ∧
      new.providerConnectionId = old.providerConnectionId

/-- The connection is active, and names the account. -/
def Connected (id externalSubject : String) (w : World) : Prop :=
  ∃ connection ∈ w.db.providerConnections, connection.id = id ∧ connection.status = .active ∧
    connection.externalSubject = externalSubject

/-- The authorization belongs to the connection. -/
def AuthorizedBy (authorizationId connectionId : String) (w : World) : Prop :=
  ∃ authorization ∈ w.db.providerResourceAuthorizations, authorization.id = authorizationId ∧
    authorization.providerConnectionId = connectionId

/-- What a completion promises of its statements. -/
def AccessCommand.StoresOwnTokens (command : AccessCommand) (w : World) : Prop :=
  match command with
  | .insertProviderConnection row => row.status = .active
  | .updateProviderConnection row => row.status = .active
  | .upsertProviderCredential authorizationId credential =>
    ∃ connectionId externalSubject, Connected connectionId externalSubject w ∧
      AuthorizedBy authorizationId connectionId w ∧
        SealsTokensOf account credential.encryptedTokens externalSubject
  | .createResourceAuthorization row credential =>
    credential.providerResourceAuthorizationId = row.id ∧
      ∃ externalSubject, Connected row.providerConnectionId externalSubject w ∧
        SealsTokensOf account credential.encryptedTokens externalSubject
  | command => ∀ group ∈ [TableGroup.credentials, .authorizations, .providerConnections],
    group ∉ command.writes

def accountPromises :
    Promises Command World Reply Error ProviderResourceAuthorizationRecord CompletionCall where
  inv w := w.db.AccountsKept account
  moves := AccountsMove
  answers := Reply.Identifies account
  cond _ := ConnectsInTime
  promise _ command w :=
    match command with
    | .read => True
    | .generateId => True
    | .send _ => True
    | .access command => command.StoresOwnTokens account w
    | _ => False
  post _ _ _ := True

end Invariant

/-! ## Statements -/

namespace Database

variable {db db' : Database}

/-- A connection that is inserted has a new identifier and one owner. -/
theorem insertProviderConnection_stored {row : ProviderConnection}
    {inserted : Option ProviderConnection}
    (h : insertProviderConnection row db = .ok (inserted, db')) :
    (inserted = none ∧ db' = db) ∨
      (inserted = some row ∧ (∀ old ∈ db.providerConnections, old.id ≠ row.id) ∧
        (row.ownerUserId.isSome = true → row.ownerOrganizationId = none) ∧
          db' = { db with providerConnections := db.providerConnections ++ [row] }) := by
  unfold insertProviderConnection at h
  split_ifs at h with howner hconflict
  · cases h
    exact Or.inl ⟨rfl, rfl⟩
  · cases h
    refine Or.inr ⟨rfl, ?_, ?_, rfl⟩
    · intro old hold hid
      exact hconflict (List.any_eq_true.mpr ⟨old, hold, by simp [hid]⟩)
    · intro huser
      cases horganization : row.ownerOrganizationId with
      | none => rfl
      | some organizationId =>
        rw [huser, horganization] at howner
        exact absurd rfl howner

/-- The owner of a connection that is selected by it. -/
theorem ownedBy_user {ownerUserId ownerOrganizationId : Option String} {row : ProviderConnection}
    (h : ownedBy ownerUserId ownerOrganizationId row = true)
    (hone : row.ownerUserId.isSome = true → row.ownerOrganizationId = none) :
    ∀ userId ∈ row.ownerUserId, ownerUserId = some userId := by
  intro userId huser
  have huser' : row.ownerUserId = some userId := huser
  have horganization := hone (by rw [huser', Option.isSome_some])
  unfold ownedBy at h
  split at h
  · simp [horganization] at h
  · simpa [huser', eq_comm] using h

theorem isOfProvider_congr {providerId : String} {row other : ProviderConnection}
    (h : row.connectorId = other.connectorId) :
    db.isOfProvider providerId row = db.isOfProvider providerId other := by
  rw [isOfProvider, isOfProvider, h]

end Database

section Steps

variable [Platform] {account : String → String} {db db' : Database} {w : World}

open Database

omit [Platform] in
/-- The user that connects an account is the only one, when the first check passes. -/
theorem Database.ChecksPass.user {row claimed : ProviderConnection} (h : db.ChecksPass row)
    {providerId : String} (hprovider : db.isOfProvider providerId row = true)
    (hclaimed : claimed ∈ db.providerConnections) (hactive : claimed.status = .active)
    (hsubject : claimed.externalSubject = row.externalSubject)
    (hother : db.isOfProvider providerId claimed = true) :
    ∀ userId ∈ claimed.ownerUserId, row.ownerUserId = some userId := by
  obtain ⟨connector, hconnector, hmatch⟩ := List.any_eq_true.mp hprovider
  simp only [Bool.and_eq_true, decide_eq_true_eq] at hmatch
  apply h.1 connector hconnector hmatch.1 claimed hclaimed hactive hsubject
  rw [hmatch.2]
  exact hother

theorem Database.AccountsKept.insert {row : ProviderConnection}
    {inserted : Option ProviderConnection} (h : db.AccountsKept account)
    (hchecks : db.ChecksPass row)
    (hok : insertProviderConnection row db = .ok (inserted, db')) : db'.AccountsKept account := by
  rcases insertProviderConnection_stored hok with ⟨-, rfl⟩ | ⟨-, hnew, howner, rfl⟩
  · exact h
  constructor
  · exact h.connections.append_singleton hnew
  · exact h.authorizations
  · intro authorization hauthorization
    obtain ⟨connection, hconnection, hid⟩ := h.attached authorization hauthorization
    exact ⟨connection, List.mem_append_left _ hconnection, hid⟩
  · intro connection hconnection
    rcases List.mem_append.mp hconnection with hold | hlast
    · exact h.oneOwner connection hold
    · cases List.mem_singleton.mp hlast
      exact howner
  · intro providerId a ha b hb hactive hother hsubject hprovider hprovider' userId huser otherId
      hotherId
    rcases List.mem_append.mp ha with hold | hlast
    · rcases List.mem_append.mp hb with hold' | hlast
      · exact h.oneUser providerId a hold b hold' hactive hother hsubject hprovider hprovider'
          userId huser otherId hotherId
      · cases List.mem_singleton.mp hlast
        have hrow := hchecks.user hprovider' hold hactive hsubject hprovider userId huser
        exact Option.some.inj (hrow.symm.trans hotherId)
    · cases List.mem_singleton.mp hlast
      rcases List.mem_append.mp hb with hold' | hlast
      · have hrow := hchecks.user hprovider hold' hother hsubject.symm hprovider' otherId hotherId
        exact Option.some.inj (Eq.trans (Eq.symm huser) hrow)
      · cases List.mem_singleton.mp hlast
        exact Option.some.inj (Eq.trans (Eq.symm huser) hotherId)
  · intro credential hcredential hactive authorization hauthorization hid connection hconnection
      hconnected
    rcases List.mem_append.mp hconnection with hold | hlast
    · exact h.tokens credential hcredential hactive authorization hauthorization hid connection hold
        hconnected
    · cases List.mem_singleton.mp hlast
      obtain ⟨old, hold, hsame⟩ := h.attached authorization hauthorization
      exact absurd (hsame.trans hconnected.symm) (hnew old hold)

/-- The connections that an update selects. -/
def updatesConnection (input row : ProviderConnection) : Bool :=
  row.connectorId = input.connectorId && ownedBy input.ownerUserId input.ownerOrganizationId row

/-- What an update makes of them. -/
def updateConnection (input row : ProviderConnection) : ProviderConnection :=
  { row with
    authenticationAccountId := input.authenticationAccountId
    externalSubject := input.externalSubject, displayName := input.displayName
    status := input.status, updatedAt := input.updatedAt }

omit [Platform] in
theorem updateProviderConnection_stored {input : ProviderConnection}
    {updated : Option ProviderConnection}
    (h : updateProviderConnection input db = .ok (updated, db')) :
    updated = (db.providerConnections.find? (updatesConnection input)).map
        (updateConnection input) ∧
      db' = { db with
        providerConnections := Table.updateWhere (updatesConnection input) (updateConnection input)
          db.providerConnections } := by
  cases h
  exact ⟨rfl, rfl⟩

theorem Database.AccountsKept.update {input : ProviderConnection}
    {updated : Option ProviderConnection} (h : db.AccountsKept account)
    (hchecks : db.ChecksPass input)
    (hok : updateProviderConnection input db = .ok (updated, db')) : db'.AccountsKept account := by
  obtain ⟨-, rfl⟩ := updateProviderConnection_stored hok
  have hselected : ∀ row ∈ db.providerConnections, updatesConnection input row = true →
      row.connectorId = input.connectorId ∧
        ∀ userId ∈ row.ownerUserId, input.ownerUserId = some userId := by
    intro row hrow hselects
    simp only [updatesConnection, Bool.and_eq_true, decide_eq_true_eq] at hselects
    exact ⟨hselects.1, ownedBy_user hselects.2 (h.oneOwner row hrow)⟩
  constructor
  · exact h.connections.updateWhere fun _ => rfl
  · exact h.authorizations
  · intro authorization hauthorization
    obtain ⟨connection, hconnection, hid⟩ := h.attached authorization hauthorization
    refine ⟨_, Table.mem_updateWhere.mpr ⟨connection, hconnection, rfl⟩, ?_⟩
    split_ifs
    · exact hid
    · exact hid
  · intro connection hconnection
    obtain ⟨old, hold, rfl⟩ := Table.mem_updateWhere.mp hconnection
    split_ifs
    · exact h.oneOwner old hold
    · exact h.oneOwner old hold
  · intro providerId a ha b hb hactive hother hsubject hprovider hprovider' userId huser otherId
      hotherId
    obtain ⟨old, hold, rfl⟩ := Table.mem_updateWhere.mp ha
    obtain ⟨old', hold', rfl⟩ := Table.mem_updateWhere.mp hb
    split_ifs at hactive hother hsubject hprovider hprovider' huser hotherId with hs hs'
    · have hfirst := (hselected old hold hs).2 userId huser
      have hsecond := (hselected old' hold' hs').2 otherId hotherId
      exact Option.some.inj (hfirst.symm.trans hsecond)
    · obtain ⟨hconnector, hownerId⟩ := hselected old hold hs
      have hinput : db.isOfProvider providerId input = true := by
        rw [← @isOfProvider_congr _ _ old _ hconnector]
        exact hprovider
      have hrow := hchecks.user hinput hold' hother hsubject.symm hprovider' otherId hotherId
      exact Option.some.inj ((hownerId userId huser).symm.trans hrow)
    · obtain ⟨hconnector, hownerId⟩ := hselected old' hold' ‹_›
      have hinput : db.isOfProvider providerId input = true := by
        rw [← @isOfProvider_congr _ _ old' _ hconnector]
        exact hprovider'
      have hrow := hchecks.user hinput hold hactive hsubject hprovider userId huser
      exact Option.some.inj (hrow.symm.trans (hownerId otherId hotherId))
    · exact h.oneUser providerId old hold old' hold' hactive hother hsubject hprovider hprovider'
        userId huser otherId hotherId
  · intro credential hcredential hactive authorization hauthorization hid connection hconnection
      hconnected
    obtain ⟨old, hold, rfl⟩ := Table.mem_updateWhere.mp hconnection
    split_ifs at hconnected ⊢ with hs
    · have hbefore := h.tokens credential hcredential hactive authorization hauthorization hid old
        hold hconnected
      by_cases hsame : old.externalSubject = input.externalSubject
      · rw [hsame] at hbefore
        exact hbefore
      · simp only [updatesConnection, Bool.and_eq_true, decide_eq_true_eq] at hs
        have hnone := (hchecks.2 old hold hs.1 hs.2 hsame).2
        exact absurd hactive
          (hnone authorization hauthorization hconnected.symm credential hcredential hid.symm)
    · exact h.tokens credential hcredential hactive authorization hauthorization hid old hold
        hconnected

omit [Platform] in
theorem Connected.subject {connectionId externalSubject : String}
    (h : Connected connectionId externalSubject w)
    (hkeyed : Table.Keyed (·.id) w.db.providerConnections)
    {connection : ProviderConnection} (hconnection : connection ∈ w.db.providerConnections)
    (hid : connection.id = connectionId) : connection.externalSubject = externalSubject := by
  obtain ⟨row, hrow, hrowId, -, hsubject⟩ := h
  rw [hkeyed.eq_of_key hconnection hrow (hid.trans hrowId.symm)]
  exact hsubject

theorem Database.AccountsKept.upsert {authorizationId connectionId externalSubject : String}
    {input : ProviderCredential} (h : w.db.AccountsKept account)
    (hconnected : Connected connectionId externalSubject w)
    (hauthorized : AuthorizedBy authorizationId connectionId w)
    (hseals : SealsTokensOf account input.encryptedTokens externalSubject)
    (hok : upsertProviderCredential authorizationId input w.db = .ok ((), db')) :
    db'.AccountsKept account := by
  obtain ⟨credentials, rfl, hcredentials⟩ := upsertProviderCredential_ok hok
  constructor
  · exact h.connections
  · exact h.authorizations.updateWhere fun _ => rfl
  · intro authorization hauthorization
    obtain ⟨old, hold, rfl⟩ := Table.mem_updateWhere.mp hauthorization
    split_ifs
    · exact h.attached old hold
    · exact h.attached old hold
  · exact h.oneOwner
  · exact h.oneUser
  · intro credential hcredential hactive authorization hauthorization hid connection hconnection
      hconnectionId
    obtain ⟨old, hold, rfl⟩ := Table.mem_updateWhere.mp hauthorization
    have hsame : old.id = credential.providerResourceAuthorizationId ∧
        connection.id = old.providerConnectionId := by
      split_ifs at hid hconnectionId
      · exact ⟨hid, hconnectionId⟩
      · exact ⟨hid, hconnectionId⟩
    have hnew : credential.providerResourceAuthorizationId = authorizationId →
        credential.encryptedTokens = input.encryptedTokens →
          SealsTokensOf account credential.encryptedTokens connection.externalSubject := by
      intro hauthorizationId htokens
      obtain ⟨row, hrow, hrowId, hrowConnection⟩ := hauthorized
      have heq := h.authorizations.eq_of_key hold hrow
        (hsame.1.trans (hauthorizationId.trans hrowId.symm))
      have hsubject := hconnected.subject h.connections hconnection
        (hsame.2.trans (heq ▸ hrowConnection))
      rw [htokens, hsubject]
      exact hseals
    rcases hcredentials with rfl | ⟨-, -, rfl⟩
    · obtain ⟨before, hbefore, rfl⟩ := Table.mem_updateWhere.mp hcredential
      split_ifs at hsame hactive hnew ⊢ with hselected
      · simp only [decide_eq_true_eq] at hselected
        exact hnew hselected rfl
      · exact h.tokens before hbefore hactive old hold hsame.1 connection hconnection hsame.2
    · rcases List.mem_append.mp hcredential with hbefore | hlast
      · exact h.tokens credential hbefore hactive old hold hsame.1 connection hconnection hsame.2
      · cases List.mem_singleton.mp hlast
        exact hnew rfl rfl

theorem Database.AccountsKept.create {row : ProviderResourceAuthorization}
    {input : ProviderCredential} {externalSubject : String} (h : w.db.AccountsKept account)
    (hbelongs : input.providerResourceAuthorizationId = row.id)
    (hconnected : Connected row.providerConnectionId externalSubject w)
    (hseals : SealsTokensOf account input.encryptedTokens externalSubject)
    (hok : createResourceAuthorization row input w.db = .ok ((), db')) :
    db'.AccountsKept account := by
  obtain ⟨-, hnew, hcredentials, rfl⟩ := createResourceAuthorization_ok hok
  constructor
  · exact h.connections
  · exact h.authorizations.append_singleton hnew
  · intro authorization hauthorization
    rcases List.mem_append.mp hauthorization with hold | hlast
    · exact h.attached authorization hold
    · cases List.mem_singleton.mp hlast
      obtain ⟨connection, hconnection, hid, -⟩ := hconnected
      exact ⟨connection, hconnection, hid⟩
  · exact h.oneOwner
  · exact h.oneUser
  · intro credential hcredential hactive authorization hauthorization hid connection hconnection
      hconnectionId
    rcases List.mem_append.mp hauthorization with hold | hlast
    · rcases List.mem_append.mp hcredential with hbefore | hlast
      · exact h.tokens credential hbefore hactive authorization hold hid connection hconnection
          hconnectionId
      · cases List.mem_singleton.mp hlast
        exact absurd (hid.trans hbelongs) (hnew _ hold)
    · cases List.mem_singleton.mp hlast
      rcases List.mem_append.mp hcredential with hbefore | hlast
      · exact absurd (hid.symm.trans hbelongs.symm) (hcredentials _ hbefore).2
      · cases List.mem_singleton.mp hlast
        rw [hconnected.subject h.connections hconnection hconnectionId]
        exact hseals

/-- A step that leaves the tables alone. -/
theorem Database.AccountsKept.same (h : db.AccountsKept account)
    (hconnections : db'.providerConnections = db.providerConnections)
    (hauthorizations : db'.providerResourceAuthorizations = db.providerResourceAuthorizations)
    (hcredentials : db'.providerCredentials = db.providerCredentials)
    (hconnectors : db'.identityProviderConnectors = db.identityProviderConnectors) :
    db'.AccountsKept account := by
  have hprovider : db'.isOfProvider = db.isOfProvider := by
    funext providerId row
    rw [Database.isOfProvider, Database.isOfProvider, hconnectors]
  constructor
  · rw [hconnections]
    exact h.connections
  · rw [hauthorizations]
    exact h.authorizations
  · rw [hconnections, hauthorizations]
    exact h.attached
  · rw [hconnections]
    exact h.oneOwner
  · rw [Database.OneUserEach, hconnections, hprovider]
    exact h.oneUser
  · rw [Database.TokensMatch, hconnections, hauthorizations, hcredentials]
    exact h.tokens

end Steps

/-! ## How the others move the state -/

theorem AccountsMove.refl (w : World) : AccountsMove w w where
  connections old hold hactive := ⟨old, hold, rfl, hactive, rfl⟩
  authorizations old hold := ⟨old, hold, rfl, rfl⟩

theorem AccountsMove.trans {w t u : World} (h : AccountsMove w t) (h' : AccountsMove t u) :
    AccountsMove w u where
  connections old hold hactive := by
    obtain ⟨middle, hmiddle, hid, hactive, hsubject⟩ := h.connections old hold hactive
    obtain ⟨new, hnew, hid', hactive', hsubject'⟩ := h'.connections middle hmiddle hactive
    exact ⟨new, hnew, hid'.trans hid, hactive', hsubject'.trans hsubject⟩
  authorizations old hold := by
    obtain ⟨middle, hmiddle, hid, hconnection⟩ := h.authorizations old hold
    obtain ⟨new, hnew, hid', hconnection'⟩ := h'.authorizations middle hmiddle
    exact ⟨new, hnew, hid'.trans hid, hconnection'.trans hconnection⟩

/-- Rows are only added. -/
theorem AccountsMove.of_subset {w t : World}
    (hconnections : w.db.providerConnections ⊆ t.db.providerConnections)
    (hauthorizations :
      w.db.providerResourceAuthorizations ⊆ t.db.providerResourceAuthorizations) :
    AccountsMove w t where
  connections old hold hactive := ⟨old, hconnections hold, rfl, hactive, rfl⟩
  authorizations old hold := ⟨old, hauthorizations hold, rfl, rfl⟩

theorem Connected.moved {id externalSubject : String} {w t : World}
    (h : Connected id externalSubject w) (hmoves : AccountsMove w t) :
    Connected id externalSubject t := by
  obtain ⟨old, hold, hid, hactive, hsubject⟩ := h
  obtain ⟨new, hnew, hid', hactive', hsubject'⟩ := hmoves.connections old hold hactive
  exact ⟨new, hnew, hid'.trans hid, hactive', hsubject'.trans hsubject⟩

theorem AuthorizedBy.moved {authorizationId connectionId : String} {w t : World}
    (h : AuthorizedBy authorizationId connectionId w) (hmoves : AccountsMove w t) :
    AuthorizedBy authorizationId connectionId t := by
  obtain ⟨old, hold, hid, hconnection⟩ := h
  obtain ⟨new, hnew, hid', hconnection'⟩ := hmoves.authorizations old hold
  exact ⟨new, hnew, hid'.trans hid, hconnection'.trans hconnection⟩

section Exec

variable [Platform] {account : String → String} {w : World}

open Database

/-- A promised command that executes in time keeps the accounts. -/
theorem accountsKept_access {command : AccessCommand} (h : w.db.AccountsKept account)
    (hintime : ConnectsInTime (.access command) w)
    (hpromise : command.StoresOwnTokens account w) :
    (command.after w.db).AccountsKept account ∧
      AccountsMove w { w with db := command.after w.db } := by
  have hsame : (∀ group ∈ [TableGroup.credentials, .authorizations, .providerConnections],
      group ∉ command.writes) → (command.after w.db).AccountsKept account ∧
        AccountsMove w { w with db := command.after w.db } := by
    intro hgroups
    have hconnections : (command.after w.db).providerConnections = w.db.providerConnections :=
      command.after_same w.db (hgroups .providerConnections (by simp))
    have hauthorizations : (command.after w.db).providerResourceAuthorizations =
        w.db.providerResourceAuthorizations :=
      command.after_same w.db (hgroups .authorizations (by simp))
    have hcredentials : (command.after w.db).providerCredentials = w.db.providerCredentials :=
      command.after_same w.db (hgroups .credentials (by simp))
    have hidentities : SameTables w.db (command.after w.db) .identities := by
      apply command.after_same
      cases command <;> simp [AccessCommand.writes]
    exact ⟨h.same hconnections hauthorizations hcredentials hidentities.2.2.2.2.1,
      .of_subset (hconnections ▸ List.Subset.refl _) (hauthorizations ▸ List.Subset.refl _)⟩
  have hchecks := hintime
  cases command with
  | insertProviderConnection row =>
    apply Statement.after_keeps
      (p := fun db => db.AccountsKept account ∧ AccountsMove w { w with db := db })
      ⟨h, AccountsMove.refl w⟩
    intro inserted db' hok
    refine ⟨h.insert (hchecks row rfl) hok, ?_⟩
    rcases insertProviderConnection_stored hok with ⟨-, rfl⟩ | ⟨-, -, -, rfl⟩
    · exact AccountsMove.refl w
    · exact .of_subset (List.subset_append_left ..) fun _ => id
  | updateProviderConnection input =>
    apply Statement.after_keeps
      (p := fun db => db.AccountsKept account ∧ AccountsMove w { w with db := db })
      ⟨h, AccountsMove.refl w⟩
    intro updated db' hok
    refine ⟨h.update (hchecks input rfl) hok, ?_⟩
    obtain ⟨-, rfl⟩ := updateProviderConnection_stored hok
    constructor
    · intro old hold hactive
      refine ⟨_, Table.mem_updateWhere.mpr ⟨old, hold, rfl⟩, ?_⟩
      split_ifs with hs
      · refine ⟨rfl, hpromise, ?_⟩
        by_contra hother
        simp only [updatesConnection, Bool.and_eq_true, decide_eq_true_eq] at hs
        exact ((hchecks input rfl).2 old hold hs.1 hs.2 (Ne.symm hother)).1 hactive
      · exact ⟨rfl, hactive, rfl⟩
    · exact fun old hold => ⟨old, hold, rfl, rfl⟩
  | upsertProviderCredential authorizationId credential =>
    obtain ⟨connectionId, externalSubject, hconnected, hauthorized, hseals⟩ := hpromise
    apply Statement.after_keeps
      (p := fun db => db.AccountsKept account ∧ AccountsMove w { w with db := db })
      ⟨h, AccountsMove.refl w⟩
    intro u db' hok
    refine ⟨h.upsert hconnected hauthorized hseals hok, ?_⟩
    obtain ⟨credentials, rfl, -⟩ := upsertProviderCredential_ok hok
    constructor
    · exact fun old hold hactive => ⟨old, hold, rfl, hactive, rfl⟩
    · intro old hold
      refine ⟨_, Table.mem_updateWhere.mpr ⟨old, hold, rfl⟩, ?_⟩
      split_ifs
      · exact ⟨rfl, rfl⟩
      · exact ⟨rfl, rfl⟩
  | createResourceAuthorization row credential =>
    obtain ⟨hbelongs, externalSubject, hconnected, hseals⟩ := hpromise
    apply Statement.after_keeps
      (p := fun db => db.AccountsKept account ∧ AccountsMove w { w with db := db })
      ⟨h, AccountsMove.refl w⟩
    intro u db' hok
    refine ⟨h.create hbelongs hconnected hseals hok, ?_⟩
    obtain ⟨-, -, -, rfl⟩ := createResourceAuthorization_ok hok
    exact .of_subset (fun _ => id) (List.subset_append_left ..)
  | _ => exact hsame hpromise

end Exec

/-! ## The programs -/

/-- The commands that write no connection, no authorization and no credential. -/
def Command.LeavesConnections : Command → Prop
  | .read => True
  | .generateId => True
  | .send _ => True
  | .access command => ∀ group ∈ [TableGroup.credentials, .authorizations, .providerConnections],
    group ∉ command.writes
  | _ => False

theorem Command.Outside.leavesConnections (command : Command) (h : command.Outside) :
    command.LeavesConnections := by
  cases command with
  | read => trivial
  | generateId => trivial
  | send request => trivial
  | _ => exact h.elim

section Programs

variable [Platform] {account : String → String} {call : CompletionCall} {w : World}

theorem quiet_leavesConnections :
    Quiet ((accountPromises account).contract call) Command.LeavesConnections where
  refl := AccountsMove.refl
  trans := AccountsMove.trans
  guarantee c hc s _ := by
    cases c with
    | read => trivial
    | generateId => trivial
    | send request => trivial
    | access command =>
      cases command with
      | insertProviderConnection row =>
        exact absurd (hc .providerConnections (by simp)) (by simp [AccessCommand.writes])
      | updateProviderConnection row =>
        exact absurd (hc .providerConnections (by simp)) (by simp [AccessCommand.writes])
      | upsertProviderCredential authorizationId credential =>
        exact absurd (hc .credentials (by simp)) (by simp [AccessCommand.writes])
      | createResourceAuthorization row credential =>
        exact absurd (hc .credentials (by simp)) (by simp [AccessCommand.writes])
      | _ => exact hc
    | _ => exact hc.elim
  moves c hc s _ := by
    cases c with
    | read => exact AccountsMove.refl s
    | generateId => exact .of_subset (fun _ => id) fun _ => id
    | send request => exact AccountsMove.refl s
    | access command =>
      have hconnections : (command.after s.db).providerConnections = s.db.providerConnections :=
        command.after_same s.db (hc .providerConnections (by simp))
      have hauthorizations : (command.after s.db).providerResourceAuthorizations =
          s.db.providerResourceAuthorizations :=
        command.after_same s.db (hc .authorizations (by simp))
      exact .of_subset (hconnections ▸ List.Subset.refl _)
        (hauthorizations ▸ List.Subset.refl _)
    | _ => exact hc.elim

/-- A request that begins with commands that leave the connections alone. -/
theorem leaves_bind {α β : Type} {p : Request α} {next : α → Request β}
    {post : Except Error β → World → Prop} (hp : p.Uses Command.LeavesConnections)
    (hnext : ∀ a t, AccountsMove w t →
      (next a).Meets ((accountPromises account).contract call) post t)
    (herror : ∀ e t, post (.error e) t) :
    (p >>= next).Meets ((accountPromises account).contract call) post w :=
  quiet_leavesConnections.meets_bind hp hnext fun e t _ => herror e t

/-- The tokens that a code is exchanged for belong to the account of the profile. -/
theorem exchangeCode_meets (intent : ResourceConnectionIntent) (code callbackOrigin : String)
    (now : Time) :
    (exchangeCode intent code callbackOrigin now).Meets ((accountPromises account).contract call)
      (fun r _ => match r with
        | .ok granted => account granted.accessToken = granted.profile.externalSubject
        | .error _ => True) w := by
  have houtside := Command.Outside.leavesConnections
  apply leaves_bind (requireActiveConnectorAuthorization_uses (houtside .read trivial) _ _)
  · intro authorization _ _
    apply leaves_bind (uses_query.mpr trivial)
    · intro connector _ _
      apply meets_orThrow fun _ => trivial
      intro driver _
      apply meets_ofResult fun _ _ => trivial
      intro verifier _
      apply leaves_bind (postForm_uses houtside _ _ _ _ _ _)
      · intro token _ _
        apply meets_ofResult fun _ _ => trivial
        intro accessToken _
        apply meets_ofResult fun _ _ => trivial
        intro refreshToken _ t _ _
        refine ⟨trivial, ?_⟩
        intro reply u hreply _
        apply meets_orThrow fun _ => trivial
        intro response hresponse
        apply meets_throwIf fun _ => trivial
        intro _
        apply meets_ofResult fun _ _ => trivial
        intro body hbody
        apply meets_ofResult fun _ _ => trivial
        intro profile hprofile
        apply meets_ofResult fun _ _ => trivial
        intro details _
        have hobject : response.body = some (.obj body) := by
          unfold readObject at hbody
          split at hbody
          · cases hbody
            assumption
          · cases hbody
        exact hreply.profile _ accessToken response body profile rfl hresponse hobject hprofile
      · exact fun _ _ => trivial
    · exact fun _ _ => trivial
  · exact fun _ _ => trivial

/-- The connection that is returned is active, and names the account. -/
theorem ensureProviderConnection_meets (resource : ApiResource) (intent : ResourceConnectionIntent)
    (externalSubject displayName : String) (now : Time) :
    (ensureProviderConnection resource intent externalSubject displayName now).Meets
      ((accountPromises account).contract call)
      (fun r t => match r with
        | .ok provider => Connected provider.id externalSubject t
        | .error _ => True) w := by
  apply meets_orThrow fun _ => trivial
  intro connectorId _
  apply leaves_bind (uses_query.mpr trivial) _ fun _ _ => trivial
  intro found _ _
  apply meets_orThrow fun _ => trivial
  intro connector _
  apply leaves_bind (uses_query.mpr trivial) _ fun _ _ => trivial
  intro claimedIdentity _ _
  apply meets_throwIf fun _ => trivial
  intro _
  apply leaves_bind (uses_query.mpr trivial) _ fun _ _ => trivial
  intro existing _ _
  apply meets_throwIf fun _ => trivial
  intro _
  apply leaves_bind (idOrNew_uses trivial _) _ fun _ _ => trivial
  intro id _ _
  apply meets_execute
  intro t _ _
  refine ⟨rfl, ?_, fun _ _ => trivial⟩
  intro inserted db hok
  rcases Database.insertProviderConnection_stored hok with ⟨rfl, rfl⟩ | ⟨rfl, -, -, rfl⟩
  · apply meets_execute
    intro u _ _
    refine ⟨rfl, ?_, fun _ _ => trivial⟩
    intro updated db hok
    obtain ⟨rfl, rfl⟩ := updateProviderConnection_stored hok
    unfold orThrow
    split
    · rename_i provider hprovider
      obtain ⟨old, hold, rfl⟩ := Option.map_eq_some_iff.mp hprovider
      have hselected := List.find?_some hold
      exact ⟨_, Table.mem_updateWhere_of_pos (List.mem_of_find?_eq_some hold) hselected, rfl, rfl,
        rfl⟩
    · trivial
  · exact ⟨_, List.mem_append_right _ (List.mem_singleton_self _), rfl, rfl, rfl⟩

/-- The authorization that is found belongs to the connection. -/
theorem findConnectionByProviderResource_meets {id externalSubject : String} (resourceId : String)
    (h : Connected id externalSubject w) :
    (findConnectionByProviderResource id resourceId).Meets
      ((accountPromises account).contract call)
      (fun r t => match r with
        | .ok existing => Connected id externalSubject t ∧
          ∀ record ∈ existing, AuthorizedBy record.id id t
        | .error _ => True) w := by
  apply meets_query
  intro t ht _
  refine ⟨trivial, ?_⟩
  cases hrow : t.db.findAuthorizationRowByProvider id resourceId with
  | none =>
    refine ⟨h.moved ht, ?_⟩
    intro record hrecord
    cases hrecord
  | some row =>
    obtain ⟨authorization, connection⟩ := row
    apply meets_query
    intro u hu _
    refine ⟨trivial, (h.moved ht).moved hu, ?_⟩
    intro record hrecord
    cases hrecord
    obtain ⟨found, hfound, hconnection⟩ := Option.bind_eq_some_iff.mp hrow
    obtain ⟨other, -, heq⟩ := Option.map_eq_some_iff.mp hconnection
    cases heq
    have hselected := List.find?_some hfound
    simp only [Bool.and_eq_true, decide_eq_true_eq] at hselected
    have hauthorized : AuthorizedBy authorization.id id t :=
      ⟨authorization, List.mem_of_find?_eq_some hfound, rfl, hselected.1⟩
    exact hauthorized.moved hu

theorem Reply.Identifies.seals {reply : Reply} (hreply : reply.Identifies account)
    (accessToken refreshToken scope context : String) :
    SealsTokensOf account
      (reply.sealing (stringifyTokens accessToken refreshToken scope) context)
      (account accessToken) := by
  intro context' accessToken' refreshToken' scope' hopen
  rw [stringifyTokens_inj (hreply.sealing _ _ _ _ hopen)]

/-- Whatever a completion does after the tokens are stored. -/
theorem revokeUncoveredEntitlements_leaves (connection : ProviderResourceAuthorizationRecord)
    (authorizationDetailsRequired : Bool) (controllerUserId : String) (now : Time) :
    (revokeUncoveredEntitlements connection authorizationDetailsRequired controllerUserId
      now).Uses Command.LeavesConnections := by
  apply revokeUncoveredEntitlements_uses Command.Outside.leavesConnections
  intro id reason leaseIds audit
  simp [Command.LeavesConnections, AccessCommand.writes]

/-- The tokens are stored for an authorization of the connection. -/
theorem upsertProviderCredential_meets {connectionId externalSubject authorizationId : String}
    {credential : ProviderCredential} (hconnected : Connected connectionId externalSubject w)
    (hauthorized : AuthorizedBy authorizationId connectionId w)
    (hseals : SealsTokensOf account credential.encryptedTokens externalSubject) :
    (upsertProviderCredential authorizationId credential).Meets
      ((accountPromises account).contract call) (fun _ _ => True) w := by
  apply leaves_bind (uses_query.mpr trivial) _ fun _ _ => trivial
  intro found t ht
  cases found with
  | false => trivial
  | true =>
    apply meets_execute
    intro u hu _
    have hlater := ht.trans hu
    refine ⟨⟨connectionId, _, hconnected.moved hlater, hauthorized.moved hlater, hseals⟩, ?_,
      fun _ _ => trivial⟩
    intro answer db _
    have hquiet : Quiet ((accountPromises account).contract call) Command.LeavesConnections :=
      quiet_leavesConnections
    exact (hquiet.meets (findConnection_uses trivial _) _).mono fun _ _ _ => trivial

/-- The tokens are stored for a new authorization of the connection. -/
theorem createResourceAuthorization_meets {row : ProviderResourceAuthorization}
    {credential : ProviderCredential} {externalSubject : String}
    (hbelongs : credential.providerResourceAuthorizationId = row.id)
    (hconnected : Connected row.providerConnectionId externalSubject w)
    (hseals : SealsTokensOf account credential.encryptedTokens externalSubject) :
    (createResourceAuthorization row credential).Meets ((accountPromises account).contract call)
      (fun _ _ => True) w := by
  apply meets_execute
  intro t ht _
  refine ⟨⟨hbelongs, _, hconnected.moved ht, hseals⟩, ?_, fun _ _ => trivial⟩
  intro answer db _
  exact (quiet_leavesConnections.meets (findConnection_uses trivial _) _).mono fun _ _ _ => trivial

theorem storeConnection_meets (intent : ResourceConnectionIntent) (granted : GrantedTokens)
    (provider : ProviderConnection) (now : Time)
    (haccount : account granted.accessToken = granted.profile.externalSubject)
    (hconnected : Connected provider.id granted.profile.externalSubject w) :
    (storeConnection intent granted provider now).Meets ((accountPromises account).contract call)
      (fun _ _ => True) w := by
  unfold storeConnection
  rw [Program.bind_eq, meets_bind]
  refine (findConnectionByProviderResource_meets intent.resourceId hconnected).mono ?_
  rintro (e | existing) t ht
  · trivial
  obtain ⟨hconnected, hauthorized⟩ := ht
  apply leaves_bind (idOrNew_uses trivial _) _ fun _ _ => trivial
  intro credentialId u hu
  apply meets_sealSecret
  intro reply v hreply hv
  have hmoves := hu.trans hv
  have hseals := hreply.seals granted.accessToken granted.refreshToken
    (joinWithSpace granted.scopes)
  rw [haccount] at hseals
  split
  · rename_i record
    have hrecord := hauthorized record rfl
    rw [Program.bind_eq, meets_bind]
    refine (upsertProviderCredential_meets (hconnected.moved hmoves) (hrecord.moved hmoves)
      (hseals _)).mono ?_
    rintro (e | stored) x -
    · trivial
    apply meets_orThrow fun _ => trivial
    intro connection _
    exact leaves_bind (revokeUncoveredEntitlements_leaves ..) (fun _ _ _ => trivial)
      fun _ _ => trivial
  · rw [Program.bind_eq, meets_bind]
    refine (createResourceAuthorization_meets rfl (hconnected.moved hmoves) (hseals _)).mono ?_
    rintro (e | stored) x -
    · trivial
    · exact (quiet_leavesConnections.meets uses_orThrow x).mono fun _ _ _ => trivial

theorem completeResourceConnectionIntent_meets (input : ConnectionCallback)
    (callbackOrigin : String) :
    (completeResourceConnectionIntent input callbackOrigin).Meets
      ((accountPromises account).contract call) (fun _ _ => True) w := by
  apply leaves_bind (uses_currentTime.mpr trivial) _ fun _ _ => trivial
  intro now _ _
  apply leaves_bind (uses_perform.mpr (by simp [Command.LeavesConnections, AccessCommand.writes]))
    _ fun _ _ => trivial
  intro consumed _ _
  apply meets_orThrow fun _ => trivial
  intro intent _
  rw [Program.bind_eq, meets_bind]
  refine (exchangeCode_meets intent input.code callbackOrigin now).mono ?_
  rintro (e | granted) t haccount
  · trivial
  apply leaves_bind (requireEnabledResource_uses trivial _) _ fun _ _ => trivial
  intro resource _ _
  apply meets_ofResult fun _ _ => trivial
  intro _ _
  rw [Program.bind_eq, meets_bind]
  refine (ensureProviderConnection_meets resource intent granted.profile.externalSubject
    granted.profile.displayName now).mono ?_
  rintro (e | provider) u hconnected
  · trivial
  · exact storeConnection_meets intent granted provider now haccount hconnected

/-- What the statements of a completion do, and what the others may do. -/
theorem accountPromises_sound : (accountPromises account).Sound accountSystem where
  refl := AccountsMove.refl
  trans := AccountsMove.trans
  stable _ _ _ _ _ _ := trivial
  program call w _ := completeResourceConnectionIntent_meets call.input call.callbackOrigin
  exec call command w hinv hcond hpromise := by
    cases command with
    | read => exact ⟨hinv, AccountsMove.refl w⟩
    | generateId => exact ⟨hinv, .of_subset (fun _ => id) fun _ => id⟩
    | send request => exact ⟨hinv, AccountsMove.refl w⟩
    | access command => exact accountsKept_access hinv hcond hpromise
    | _ => exact hpromise.elim
  environment event w hinv := by
    cases event with
    | elapse milliseconds => exact ⟨hinv, .of_subset (fun _ => id) fun _ => id⟩
    | configure db => exact ⟨hinv.same rfl rfl rfl rfl, .of_subset (fun _ => id) fun _ => id⟩

end Programs

/-! ## Runs -/

section Runs

variable [Platform] {account : String → String} {w : World} {schedule : List CompletionAction}

/-- In every state of a run whose connections are written in time, an account of a provider is
connected by one user, and the stored tokens belong to the account of their connection. -/
theorem accounts_stay_apart (hstart : w.db.AccountsKept account)
    (hreplies : ∀ i reply, .advance i reply ∈ schedule → reply.Identifies account)
    (hintime : ∀ entry ∈ (idle w).history accountSystem schedule,
      ConnectsInTime entry.2.1 entry.2.2) :
    ∀ s ∈ (idle w).states accountSystem schedule,
      s.db.OneUserEach ∧ s.db.TokensMatch account := by
  intro s hs
  have hkept := accountPromises_sound.states hstart hreplies hintime s hs
  exact ⟨hkept.oneUser, hkept.tokens⟩

end Runs

/-! ## An account that two users connect -/

namespace AccountExample

open GenerationExample (platform connector api intent)

attribute [local instance] platform

/-- An intent of another user for the same resource. -/
def other : ResourceConnectionIntent :=
  { intent with
    id := "other", stateHash := "other", ownerUserId := some "bob", initiatedByUserId := "bob" }

def start : World :=
  { db :=
      { identityProviderConnectors := [connector], apiResources := [api]
        resourceConnectionIntents := [intent, other] }
    clock := 0, nextId := 0 }

/-- The tokens are named after the account. -/
def answer (request : PeerRequest) : Option PeerResponse :=
  match request.authentication with
  | .bearer accessToken => some { status := 200, body := some (.obj [("sub", .str accessToken)]) }
  | _ =>
    some
      { status := 200
        body := some (.obj [("access_token", .str "octocat"), ("refresh_token", .str "refresh")]) }

def reply : Reply := { respond := answer, sealing := fun plaintext _ => plaintext }

def ada : CompletionCall :=
  { input := { state := "state", code := "code" }, callbackOrigin := "https://realm" }

def bob : CompletionCall :=
  { input := { state := "other", code := "code" }, callbackOrigin := "https://realm" }

def steps (count i : ℕ) : List CompletionAction := List.replicate count (.advance i reply)

def consecutive : List CompletionAction :=
  [.start ada, .start bob] ++ steps 24 0 ++ steps 24 1

/-- Both users pass the checks before the first connection is written. -/
def interleaved : List CompletionAction :=
  [.start ada, .start bob] ++ steps 15 0 ++ steps 15 1 ++ steps 9 0 ++ steps 9 1

/-- Two users have an active connection with the account. -/
theorem account_shared :
    ((idle start).run accountSystem interleaved).state.db.providerConnections.map
      (fun row => (row.ownerUserId, row.connectorId, row.externalSubject, row.status)) =
      [(some "ada", "connector", "octocat", .active),
        (some "bob", "connector", "octocat", .active)] := by
  decide +kernel

theorem reply_identifies : reply.Identifies id where
  profile := by
    intro request accessToken response body profile hbearer hresponse hbody hprofile
    simp only [reply, answer, hbearer] at hresponse
    cases hresponse
    cases hbody
    unfold parseProfile at hprofile
    split at hprofile
    · cases hprofile
    · rename_i subject hsubject
      cases hprofile
      obtain ⟨hfield, -⟩ := readString_eq_some hsubject
      cases hfield
      rfl
  sealing := by
    intro plaintext context context' secret hopen
    cases hopen
    rfl

theorem accountsKept_start : start.db.AccountsKept id where
  connections := List.nodup_nil
  authorizations := List.nodup_nil
  attached := by simp [start]
  oneOwner := by simp [start]
  oneUser := by simp [start, Database.OneUserEach]
  tokens := by simp [start, Database.TokensMatch]

/-- The second user is refused when the first is done. -/
theorem accounts_stay_apart_consecutive :
    start.db.AccountsKept id ∧
      ∀ s ∈ (idle start).states accountSystem consecutive,
        s.db.OneUserEach ∧ s.db.TokensMatch id := by
  refine ⟨accountsKept_start, ?_⟩
  apply accounts_stay_apart accountsKept_start
  · intro i r hr
    have hreply : ∀ a ∈ consecutive,
        a = .start ada ∨ a = .start bob ∨ ∃ i, a = .advance i reply := by
      intro a ha
      simp only [consecutive, steps, List.mem_append, List.mem_cons, List.mem_replicate] at ha
      tauto
    rcases hreply _ hr with heq | heq | ⟨_, heq⟩
    · cases heq
    · cases heq
    · cases heq
      exact reply_identifies
  · decide +kernel

end AccountExample

end Realmroot
