import Realmroot.CredentialClients
import Realmroot.Library.Ledger

/-!
# The scopes of stored tokens

A credential says which scopes were granted, in a column and in the sealed payload of its tokens.
A completed connection stores both; a refresh stores the payload only, and the provider may grant
other scopes in its answer. A ledger is kept of what the provider last answered.
-/

namespace Realmroot

open AtomicProgram Program

/-- The same scopes, in any order. -/
def SameScopes (scopes scopes' : List String) : Prop := ∀ scope, scope ∈ scopes ↔ scope ∈ scopes'

/-- For each credential, the scopes of the token response that was stored for it last. -/
abbrev ScopeLedger := String → List String

/-! ## Calls -/

/-- A connection is completed, whose intent asks for the given scopes; or the tokens of a
credential are refreshed. -/
inductive ScopeRequest where
  | complete (input : ConnectionCallback) (callbackOrigin : String) (requested : List String)
  | refresh (credential : ProviderCredential) (authorization : ExternalResourceAuthorization)

/-- A call, the body with which the provider answers its request for tokens, and what goes on
around it. -/
structure GrantCall where
  request : ScopeRequest
  token : Record
  around : Surroundings World Reply

/-- A call, or anything else that leaves the credentials alone. -/
inductive GrantStep where
  | call (grant : GrantCall)
  | elsewhere (change : World → World)

/-- The scopes that a command answers for are those of the response, or the given ones when it
has none. -/
def GrantCall.answered (call : GrantCall) (otherwise : List String) : List String :=
  (scopeString (call.token.field "scope")).getD otherwise

section Definitions

variable [Platform]

def ScopeRequest.program : ScopeRequest → Request Unit
  | complete input callbackOrigin _ =>
    (completeResourceConnectionIntent input callbackOrigin).discard
  | refresh credential authorization => (refreshConnectionToken credential authorization).discard

/-- What a call reads: the intent of a completion asks for the requested scopes, and the
credential of a refresh is the stored one, as far as its scopes go. -/
def ScopeRequest.Reads : ScopeRequest → World → Prop
  | complete input _ requested, w =>
    ∀ intent ∈ w.db.resourceConnectionIntents,
      intent.stateHash = Platform.sha256 input.state → intent.scopes = requested
  | refresh credential _, w =>
    ∀ row ∈ w.db.providerCredentials, row.id = credential.id →
      row.grantedScopes = credential.grantedScopes

/-- The credentials for which a command stores tokens. -/
def Command.stores (s : World) : Command → List String
  | .access (.completeRefresh id input) =>
    match Database.completeProviderCredentialRefresh id input s.db with
    | .ok (true, _) => [id]
    | _ => []
  | .access (.upsertProviderCredential authorizationId credential) =>
    match Database.upsertProviderCredential authorizationId credential s.db with
    | .ok (_, db) =>
      (db.providerCredentials.filter fun row =>
        row.providerResourceAuthorizationId = authorizationId).map (·.id)
    | .error _ => []
  | .access (.createResourceAuthorization row credential) =>
    match Database.createResourceAuthorization row credential s.db with
    | .ok _ => [credential.id]
    | .error _ => []
  | _ => []

/-- What is entered for a command of a call: a response without scopes grants what was requested,
and after a refresh what was granted before. -/
def GrantCall.enter (call : GrantCall) (ledger : ScopeLedger) (command : Command) (s : World) :
    ScopeLedger := fun id =>
  if id ∈ command.stores s then
    match call.request with
    | .complete _ _ requested => call.answered requested
    | .refresh _ _ => call.answered (ledger id)
  else ledger id

/-- The states of a step, each with its ledger. -/
def GrantStep.passes : GrantStep → World × ScopeLedger → List (World × ScopeLedger)
  | .call grant, x => grant.request.program.passes grant.enter grant.around 0 x
  | .elsewhere change, x => [x, (change x.1, x.2)]

/-- Where a step ends. -/
def GrantStep.ends : GrantStep → World × ScopeLedger → World × ScopeLedger
  | .call grant, x => grant.request.program.ends grant.enter grant.around 0 x
  | .elsewhere change, x => (change x.1, x.2)

/-- The states of a sequence of steps, each of which begins where the one before it ends. -/
def grantStates : List GrantStep → World × ScopeLedger → List (World × ScopeLedger)
  | [], x => [x]
  | step :: steps, x => step.passes x ++ grantStates steps (step.ends x)

/-- The provider answers requests for tokens with the given body, and what is sealed opens to
nothing but what it was. -/
structure Reply.Grants (token : Record) (reply : Reply) : Prop where
  tokens : ∀ request response body, (request.form.lookup "grant_type").isSome = true →
    reply.respond request = some response → response.body = some (.obj body) → body = token
  sealing : ∀ plaintext context context' secret,
    Platform.openSecret (reply.sealing plaintext context) context' = some secret →
      secret = plaintext

/-- A call can be made in the state: it reads what is there, and what goes on around it does not
touch the credentials or what it reads. -/
structure GrantCall.Possible (call : GrantCall) (w : World) : Prop where
  reads : call.request.Reads w
  replies : ∀ n, (call.around.reply n).Grants call.token
  credentials : ∀ n s,
    (call.around.elapse n s).db.providerCredentials = s.db.providerCredentials
  intents : ∀ n s, call.request.Reads s → call.request.Reads (call.around.elapse n s)

def GrantStep.Possible : GrantStep → World → Prop
  | .call grant, w => grant.Possible w
  | .elsewhere change, w => (change w).db.providerCredentials = w.db.providerCredentials

/-- Every step can be made where the one before it ends. -/
def GrantsPossible : List GrantStep → World × ScopeLedger → Prop
  | [], _ => True
  | step :: steps, x => step.Possible x.1 ∧ GrantsPossible steps (step.ends x)

/-! ## What is to hold -/

/-- Whatever tokens open in the envelope, they are stored with the scopes. -/
def SealsScopes (envelope : String) (scopes : List String) : Prop :=
  ∀ context secret, Platform.openSecret envelope context = some secret →
    ∃ accessToken refreshToken sealed,
      secret = stringifyTokens accessToken refreshToken (joinWithSpace sealed) ∧
        SameScopes sealed scopes

/-- Every credential has the scopes of the response that was stored for it last, in its column
and in its payload. -/
structure ScopesDescribed (ledger : ScopeLedger) (db : Database) : Prop where
  ids : Table.Keyed (·.id) db.providerCredentials
  column : ∀ row ∈ db.providerCredentials, SameScopes row.grantedScopes (ledger row.id)
  payload : ∀ row ∈ db.providerCredentials, SealsScopes row.encryptedTokens row.grantedScopes

/-- When a refresh is answered with scopes, they are those of the credential. -/
def GrantStep.KeepsScopes : GrantStep → Prop
  | .call grant =>
    match grant.request with
    | .complete _ _ _ => True
    | .refresh credential _ =>
      ∀ scopes ∈ scopeString (grant.token.field "scope"),
        SameScopes scopes credential.grantedScopes
  | .elsewhere _ => True

end Definitions

/-! ## The commands of a call -/

/-- The commands on permissions that store no tokens and change no intent. -/
def AccessCommand.SparesScopes : AccessCommand → Prop
  | .claimRefresh _ => True
  | .releaseRefresh _ _ _ _ => True
  | .revokeActiveCredential _ _ => True
  | .consumeConnectionIntent _ _ => True
  | command => TableGroup.credentials ∉ command.writes ∧ TableGroup.intents ∉ command.writes

/-- The commands of a call: what they store is what the call answers for. -/
def GrantCall.Issues [Platform] (call : GrantCall) : Command → Prop
  | .access (.completeRefresh id input) =>
    ∃ credential authorization, call.request = .refresh credential authorization ∧
      id = credential.id ∧
      SealsScopes input.encryptedTokens (call.answered credential.grantedScopes)
  | .access (.upsertProviderCredential _ credential) =>
    ∃ input callbackOrigin requested, call.request = .complete input callbackOrigin requested ∧
      credential.grantedScopes = call.answered requested ∧
      SealsScopes credential.encryptedTokens credential.grantedScopes
  | .access (.createResourceAuthorization _ credential) =>
    ∃ input callbackOrigin requested, call.request = .complete input callbackOrigin requested ∧
      credential.grantedScopes = call.answered requested ∧
      SealsScopes credential.encryptedTokens credential.grantedScopes
  | .access command => command.SparesScopes
  | command => command.Outside

theorem SameScopes.refl (scopes : List String) : SameScopes scopes scopes := fun _ => Iff.rfl

theorem SameScopes.symm {scopes scopes' : List String} (h : SameScopes scopes scopes') :
    SameScopes scopes' scopes := fun scope => (h scope).symm

section Statements

variable [Platform] {db db' : Database} {ledger ledger' : ScopeLedger}

theorem SealsScopes.same {envelope : String} {scopes scopes' : List String}
    (h : SealsScopes envelope scopes) (hsame : SameScopes scopes scopes') :
    SealsScopes envelope scopes' := by
  intro context secret hopen
  obtain ⟨accessToken, refreshToken, sealed, htext, hsealed⟩ := h context secret hopen
  exact ⟨accessToken, refreshToken, sealed, htext, fun scope => (hsealed scope).trans (hsame scope)⟩

/-- Each row has the scopes and the tokens of an old one for which nothing is entered, or those
that are entered for it. -/
theorem ScopesDescribed.step (h : ScopesDescribed ledger db)
    (hids : Table.Keyed (·.id) db'.providerCredentials)
    (hrows : ∀ row ∈ db'.providerCredentials,
      (∃ old ∈ db.providerCredentials, row.id = old.id ∧ row.grantedScopes = old.grantedScopes ∧
        row.encryptedTokens = old.encryptedTokens ∧ ledger' old.id = ledger old.id) ∨
      (SameScopes row.grantedScopes (ledger' row.id) ∧
        SealsScopes row.encryptedTokens row.grantedScopes)) :
    ScopesDescribed ledger' db' := by
  constructor
  · exact hids
  · intro row hrow
    rcases hrows row hrow with ⟨old, hold, hid, hscopes, -, hledger⟩ | ⟨hcolumn, -⟩
    · rw [hid, hscopes, hledger]
      exact h.column old hold
    · exact hcolumn
  · intro row hrow
    rcases hrows row hrow with ⟨old, hold, -, hscopes, htokens, -⟩ | ⟨-, hpayload⟩
    · rw [hscopes, htokens]
      exact h.payload old hold
    · exact hpayload

theorem ScopesDescribed.same (h : ScopesDescribed ledger db)
    (hdb' : db'.providerCredentials = db.providerCredentials) : ScopesDescribed ledger db' := by
  apply h.step
  · rw [hdb']
    exact h.ids
  · intro row hrow
    rw [hdb'] at hrow
    exact Or.inl ⟨row, hrow, rfl, rfl, rfl, rfl⟩

/-- Rows that keep their scopes and their tokens. -/
theorem ScopesDescribed.update (h : ScopesDescribed ledger db) {p : ProviderCredential → Bool}
    {f : ProviderCredential → ProviderCredential}
    (hdb' : db'.providerCredentials = Table.updateWhere p f db.providerCredentials)
    (hid : ∀ row, (f row).id = row.id)
    (hf : ∀ row, (f row).grantedScopes = row.grantedScopes ∧
      (f row).encryptedTokens = row.encryptedTokens) :
    ScopesDescribed ledger db' := by
  apply h.step
  · rw [hdb']
    exact h.ids.updateWhere hid
  · intro row hrow
    rw [hdb'] at hrow
    obtain ⟨old, hold, rfl⟩ := Table.mem_updateWhere.mp hrow
    refine Or.inl ⟨old, hold, ?_⟩
    split_ifs
    · exact ⟨hid old, (hf old).1, (hf old).2, rfl⟩
    · exact ⟨rfl, rfl, rfl, rfl⟩

end Statements

/-! ## What a call stores -/

section Stores

variable {call : GrantCall} {ledger : ScopeLedger} {s : World}

theorem enter_of_stores_nil {command : Command} (h : command.stores s = []) :
    call.enter ledger command s = ledger := by
  funext id
  simp [GrantCall.enter, h]

theorem mem_stores_completeRefresh {id id' : String} {input : ProviderCredentialRefresh} :
    id' ∈ (Command.access (.completeRefresh id input)).stores s ↔
      id' = id ∧ s.db.providerCredentials.any
        (Database.claimed id input.expectedVersion input.claimId) = true := by
  simp only [Command.stores, Database.completeProviderCredentialRefresh]
  cases s.db.providerCredentials.any
    (Database.claimed id input.expectedVersion input.claimId) with
  | false => simp
  | true => simp

variable [Platform]

/-- The tokens of a refreshed credential are stored. -/
theorem described_completeRefresh {credential : ProviderCredential}
    {authorization : ExternalResourceAuthorization} {id : String}
    {input : ProviderCredentialRefresh} (h : ScopesDescribed ledger s.db)
    (hrequest : call.request = .refresh credential authorization)
    (hreads : call.request.Reads s) (hid : id = credential.id)
    (hseals : SealsScopes input.encryptedTokens (call.answered credential.grantedScopes))
    (hkeeps : (GrantStep.call call).KeepsScopes) :
    ScopesDescribed (call.enter ledger (.access (.completeRefresh id input)) s)
      (AccessCommand.after (.completeRefresh id input) s.db) := by
  subst hid
  rw [hrequest] at hreads
  simp only [GrantStep.KeepsScopes, hrequest] at hkeeps
  have hanswered : SameScopes (call.answered credential.grantedScopes)
      credential.grantedScopes := by
    unfold GrantCall.answered
    cases hscopes : scopeString (call.token.field "scope") with
    | none => exact SameScopes.refl _
    | some scopes => exact hkeeps scopes hscopes
  apply h.step
  · exact h.ids.updateWhere fun _ => rfl
  · intro row hrow
    obtain ⟨old, hold, rfl⟩ := Table.mem_updateWhere.mp hrow
    by_cases hclaimed :
        Database.claimed credential.id input.expectedVersion input.claimId old = true
    · right
      rw [if_pos hclaimed]
      have holdid : old.id = credential.id := by
        simp only [Database.claimed, Bool.and_eq_true, decide_eq_true_eq] at hclaimed
        exact hclaimed.1.1.1
      have hscopes := hreads old hold holdid
      refine ⟨?_, hseals.same ?_⟩
      · have hstored : old.id ∈
            (Command.access (.completeRefresh credential.id input)).stores s :=
          mem_stores_completeRefresh.mpr ⟨holdid, List.any_eq_true.mpr ⟨old, hold, hclaimed⟩⟩
        simp only [GrantCall.enter, if_pos hstored, hrequest]
        have hcolumn := h.column old hold
        unfold GrantCall.answered
        cases hanswer : scopeString (call.token.field "scope") with
        | none => exact hcolumn
        | some scopes =>
          dsimp only [Option.getD_some]
          rw [hscopes]
          exact (hkeeps scopes hanswer).symm
      · dsimp only
        rw [hscopes]
        exact hanswered
    · left
      refine ⟨old, hold, ?_⟩
      rw [if_neg hclaimed]
      refine ⟨rfl, rfl, rfl, ?_⟩
      have hunstored : old.id ∉
          (Command.access (.completeRefresh credential.id input)).stores s := by
        intro hstored
        obtain ⟨hid, hany⟩ := mem_stores_completeRefresh.mp hstored
        obtain ⟨row, hrow, hselected⟩ := List.any_eq_true.mp hany
        have hrowid : row.id = credential.id := by
          have hfields := hselected
          simp only [Database.claimed, Bool.and_eq_true, decide_eq_true_eq] at hfields
          exact hfields.1.1.1
        have heq : row = old := h.ids.eq_of_key hrow hold (hrowid.trans hid.symm)
        rw [heq] at hselected
        exact hclaimed hselected
      simp only [GrantCall.enter, if_neg hunstored]

/-- The tokens of a completed connection are stored, in the place of the old ones or as the
first ones. -/
theorem described_stored {input : ConnectionCallback} {callbackOrigin : String}
    {requested : List String} {command : AccessCommand} {db : Database}
    {credential : ProviderCredential} (h : ScopesDescribed ledger s.db)
    (hrequest : call.request = .complete input callbackOrigin requested)
    (hscopes : credential.grantedScopes = call.answered requested)
    (hseals : SealsScopes credential.encryptedTokens credential.grantedScopes)
    (hids : Table.Keyed (·.id) db.providerCredentials)
    (hrows : ∀ row ∈ db.providerCredentials,
      (row ∈ s.db.providerCredentials ∧ row.id ∉ (Command.access command).stores s) ∨
      (row.id ∈ (Command.access command).stores s ∧
        row.grantedScopes = credential.grantedScopes ∧
        row.encryptedTokens = credential.encryptedTokens)) :
    ScopesDescribed (call.enter ledger (.access command) s) db := by
  apply h.step hids
  intro row hrow
  rcases hrows row hrow with ⟨hold, hunstored⟩ | ⟨hstored, hcolumn, htokens⟩
  · left
    refine ⟨row, hold, rfl, rfl, rfl, ?_⟩
    simp only [GrantCall.enter, if_neg hunstored]
  · right
    rw [hcolumn, htokens]
    refine ⟨?_, hseals⟩
    simp only [GrantCall.enter, if_pos hstored, hrequest]
    rw [hscopes]
    exact SameScopes.refl _

theorem described_upsert {input : ConnectionCallback} {callbackOrigin : String}
    {requested : List String} {authorizationId : String} {credential : ProviderCredential}
    (h : ScopesDescribed ledger s.db)
    (hrequest : call.request = .complete input callbackOrigin requested)
    (hscopes : credential.grantedScopes = call.answered requested)
    (hseals : SealsScopes credential.encryptedTokens credential.grantedScopes) :
    ScopesDescribed
      (call.enter ledger (.access (.upsertProviderCredential authorizationId credential)) s)
      (AccessCommand.after (.upsertProviderCredential authorizationId credential) s.db) := by
  cases hok : Database.upsertProviderCredential authorizationId credential s.db with
  | error e =>
    have hafter : AccessCommand.after (.upsertProviderCredential authorizationId credential) s.db =
        s.db := AccessCommand.after_of_error hok
    rw [hafter, enter_of_stores_nil (by simp only [Command.stores, hok])]
    exact h
  | ok result =>
    obtain ⟨⟨⟩, db'⟩ := result
    have hafter : AccessCommand.after (.upsertProviderCredential authorizationId credential) s.db =
        db' := AccessCommand.after_of_ok hok
    have hstores : (Command.access
        (.upsertProviderCredential authorizationId credential)).stores s =
        (db'.providerCredentials.filter fun row =>
          row.providerResourceAuthorizationId = authorizationId).map (·.id) := by
      simp only [Command.stores, hok]
    rw [hafter]
    obtain ⟨credentials, rfl, hcredentials⟩ := Database.upsertProviderCredential_ok hok
    have hids : Table.Keyed (·.id) credentials := by
      rcases hcredentials with rfl | ⟨-, hnew, rfl⟩
      · exact h.ids.updateWhere fun _ => rfl
      · exact h.ids.append_singleton hnew
    -- a row is stored exactly when it belongs to the authorization
    have hmem : ∀ row ∈ credentials,
        row.id ∈ (Command.access (.upsertProviderCredential authorizationId credential)).stores s ↔
          row.providerResourceAuthorizationId = authorizationId := by
      intro row hrow
      rw [hstores]
      constructor
      · intro hid
        obtain ⟨other, hother, hsame⟩ := List.mem_map.mp hid
        obtain ⟨hmember, hauthorization⟩ := List.mem_filter.mp hother
        rw [← hids.eq_of_key hmember hrow hsame]
        simpa using hauthorization
      · intro hauthorization
        exact List.mem_map.mpr
          ⟨row, List.mem_filter.mpr ⟨hrow, by simpa using hauthorization⟩, rfl⟩
    apply described_stored h hrequest hscopes hseals hids
    intro row hrow
    have hstored := hmem row hrow
    rcases hcredentials with rfl | ⟨hother, -, rfl⟩
    · obtain ⟨old, hold, rfl⟩ := Table.mem_updateWhere.mp hrow
      by_cases hauthorization : old.providerResourceAuthorizationId = authorizationId
      · right
        simp only [decide_eq_true hauthorization, if_true] at hstored ⊢
        exact ⟨hstored.mpr hauthorization, rfl, rfl⟩
      · left
        simp only [decide_eq_false hauthorization] at hstored ⊢
        exact ⟨hold, fun hmember => hauthorization (hstored.mp hmember)⟩
    · rcases List.mem_append.mp hrow with hold | hnew
      · left
        exact ⟨hold, fun hmember => hother row hold (hstored.mp hmember)⟩
      · right
        rw [List.mem_singleton.mp hnew] at hstored ⊢
        exact ⟨hstored.mpr rfl, rfl, rfl⟩

theorem described_create {input : ConnectionCallback} {callbackOrigin : String}
    {requested : List String} {authorization : ProviderResourceAuthorization}
    {credential : ProviderCredential} (h : ScopesDescribed ledger s.db)
    (hrequest : call.request = .complete input callbackOrigin requested)
    (hscopes : credential.grantedScopes = call.answered requested)
    (hseals : SealsScopes credential.encryptedTokens credential.grantedScopes) :
    ScopesDescribed
      (call.enter ledger (.access (.createResourceAuthorization authorization credential)) s)
      (AccessCommand.after (.createResourceAuthorization authorization credential) s.db) := by
  cases hok : Database.createResourceAuthorization authorization credential s.db with
  | error e =>
    have hafter : AccessCommand.after (.createResourceAuthorization authorization credential)
        s.db = s.db := AccessCommand.after_of_error hok
    rw [hafter, enter_of_stores_nil (by simp only [Command.stores, hok])]
    exact h
  | ok result =>
    obtain ⟨⟨⟩, db'⟩ := result
    have hafter : AccessCommand.after (.createResourceAuthorization authorization credential)
        s.db = db' := AccessCommand.after_of_ok hok
    have hstores : (Command.access
        (.createResourceAuthorization authorization credential)).stores s = [credential.id] := by
      simp only [Command.stores, hok]
    rw [hafter]
    obtain ⟨-, -, hnew, rfl⟩ := Database.createResourceAuthorization_ok hok
    apply described_stored h hrequest hscopes hseals
    · exact h.ids.append_singleton fun old hold => (hnew old hold).1
    · intro row hrow
      rw [hstores, List.mem_singleton]
      rcases List.mem_append.mp hrow with hold | hlast
      · exact Or.inl ⟨hold, (hnew row hold).1⟩
      · rw [List.mem_singleton.mp hlast]
        exact Or.inr ⟨rfl, rfl, rfl⟩

end Stores

section Exec

variable [Platform] {call : GrantCall} {ledger : ScopeLedger} {s : World}

/-- A command of a call stores no tokens, or those of a refresh or of a completion. -/
theorem GrantCall.Issues.cases {command : AccessCommand} (h : call.Issues (.access command)) :
    command.SparesScopes ∨
    (∃ input credential authorization, command = .completeRefresh credential.id input ∧
      call.request = .refresh credential authorization ∧
      SealsScopes input.encryptedTokens (call.answered credential.grantedScopes)) ∨
    ∃ input callbackOrigin requested credential,
      call.request = .complete input callbackOrigin requested ∧
      ((∃ authorizationId, command = .upsertProviderCredential authorizationId credential) ∨
        ∃ authorization, command = .createResourceAuthorization authorization credential) ∧
      credential.grantedScopes = call.answered requested ∧
      SealsScopes credential.encryptedTokens credential.grantedScopes := by
  cases command with
  | completeRefresh id input =>
    obtain ⟨credential, authorization, hrequest, rfl, hseals⟩ := h
    exact Or.inr (Or.inl ⟨input, credential, authorization, rfl, hrequest, hseals⟩)
  | upsertProviderCredential authorizationId credential =>
    obtain ⟨input, callbackOrigin, requested, hrequest, hscopes, hseals⟩ := h
    exact Or.inr (Or.inr ⟨input, callbackOrigin, requested, credential, hrequest,
      Or.inl ⟨authorizationId, rfl⟩, hscopes, hseals⟩)
  | createResourceAuthorization authorization credential =>
    obtain ⟨input, callbackOrigin, requested, hrequest, hscopes, hseals⟩ := h
    exact Or.inr (Or.inr ⟨input, callbackOrigin, requested, credential, hrequest,
      Or.inr ⟨authorization, rfl⟩, hscopes, hseals⟩)
  | _ => exact Or.inl h

omit [Platform] in
/-- A command that stores no tokens. -/
theorem AccessCommand.SparesScopes.stores {command : AccessCommand} (h : command.SparesScopes) :
    (Command.access command).stores s = [] := by
  cases command with
  | completeRefresh id input => exact absurd h.1 (by simp [AccessCommand.writes])
  | upsertProviderCredential authorizationId credential =>
    exact absurd h.1 (by simp [AccessCommand.writes])
  | createResourceAuthorization authorization credential =>
    exact absurd h.1 (by simp [AccessCommand.writes])
  | _ => rfl

omit [Platform] in
/-- It keeps the id, the scopes and the tokens of every credential. -/
theorem AccessCommand.SparesScopes.credentials {command : AccessCommand}
    (h : command.SparesScopes) :
    (command.after s.db).providerCredentials = s.db.providerCredentials ∨
    ∃ p f, (command.after s.db).providerCredentials =
        Table.updateWhere p f s.db.providerCredentials ∧
      ∀ row : ProviderCredential, (f row).id = row.id ∧
        (f row).grantedScopes = row.grantedScopes ∧
        (f row).encryptedTokens = row.encryptedTokens := by
  cases command with
  | claimRefresh claim => exact Or.inr ⟨_, _, rfl, fun _ => ⟨rfl, rfl, rfl⟩⟩
  | releaseRefresh id expectedVersion claimId now =>
    exact Or.inr ⟨_, _, rfl, fun _ => ⟨rfl, rfl, rfl⟩⟩
  | revokeActiveCredential id now => exact Or.inr ⟨_, _, rfl, fun _ => ⟨rfl, rfl, rfl⟩⟩
  | consumeConnectionIntent stateHash now => exact Or.inl rfl
  | _ => exact Or.inl (AccessCommand.after_same _ s.db h.1)

theorem described_spares {command : AccessCommand} (hspares : command.SparesScopes)
    (h : ScopesDescribed ledger s.db) : ScopesDescribed ledger (command.after s.db) := by
  obtain hsame | ⟨p, f, hrows, hf⟩ := hspares.credentials
  · exact h.same hsame
  · exact h.update hrows (fun row => (hf row).1) fun row => (hf row).2

/-- Every command of a call keeps the credentials described. -/
theorem described_exec {command : Command} (hissues : call.Issues command)
    (hkeeps : (GrantStep.call call).KeepsScopes) (hreads : call.request.Reads s)
    (h : ScopesDescribed ledger s.db) :
    ScopesDescribed (call.enter ledger command s) (exec command s).db := by
  cases command with
  | access command =>
    obtain hspares | ⟨input, credential, authorization, rfl, hrequest, hseals⟩ |
      ⟨input, callbackOrigin, requested, credential, hrequest,
        ⟨authorizationId, rfl⟩ | ⟨authorization, rfl⟩, hscopes, hseals⟩ := hissues.cases
    · rw [enter_of_stores_nil hspares.stores]
      exact described_spares hspares h
    · exact described_completeRefresh h hrequest hreads rfl hseals hkeeps
    · exact described_upsert h hrequest hscopes hseals
    · exact described_create h hrequest hscopes hseals
  | read =>
    rw [enter_of_stores_nil rfl]
    exact h
  | generateId =>
    rw [enter_of_stores_nil rfl]
    exact h
  | send request =>
    rw [enter_of_stores_nil rfl]
    exact h
  | _ => exact hissues.elim

/-- The intents ask for what they did. -/
theorem requested_after {command : AccessCommand} (hissues : call.Issues (.access command)) :
    ∀ intent ∈ (command.after s.db).resourceConnectionIntents,
      ∃ old ∈ s.db.resourceConnectionIntents,
        intent.stateHash = old.stateHash ∧ intent.scopes = old.scopes := by
  intro intent hintent
  by_cases hwrites : TableGroup.intents ∈ command.writes
  · cases command with
    | consumeConnectionIntent stateHash now =>
      obtain ⟨old, hold, rfl⟩ := Table.mem_updateWhere.mp hintent
      refine ⟨old, hold, ?_⟩
      split_ifs
      · exact ⟨rfl, rfl⟩
      · exact ⟨rfl, rfl⟩
    | createConnectionIntent row => exact absurd hwrites hissues.2
    | deleteResource id now audit => exact absurd hwrites hissues.2
    | _ => simp [AccessCommand.writes] at hwrites
  · rw [AccessCommand.after_same command s.db hwrites] at hintent
    exact ⟨intent, hintent, rfl, rfl⟩

theorem ScopeRequest.Reads.congr {request : ScopeRequest} {t : World} (h : request.Reads s)
    (hdb : t.db = s.db) : request.Reads t := by
  cases request with
  | complete input callbackOrigin requested =>
    intro intent hintent
    rw [hdb] at hintent
    exact h intent hintent
  | refresh credential authorization =>
    intro row hrow
    rw [hdb] at hrow
    exact h row hrow

/-- What a call reads stays as it is. -/
theorem reads_exec {command : Command} (hissues : call.Issues command)
    (h : call.request.Reads s) : call.request.Reads (exec command s) := by
  cases command with
  | access command =>
    cases hrequest : call.request with
    | complete input callbackOrigin requested =>
      rw [hrequest] at h
      intro intent hintent hhash
      obtain ⟨old, hold, hsame, hscopes⟩ := requested_after hissues intent hintent
      rw [hscopes]
      exact h old hold (hsame.symm.trans hhash)
    | refresh credential authorization =>
      rw [hrequest] at h
      intro row hrow hid
      obtain hspares | ⟨input, credential', authorization', rfl, -, -⟩ |
        ⟨input, callbackOrigin, requested, credential', hother, -⟩ := hissues.cases
      · obtain hsame | ⟨p, f, hrows, hf⟩ := hspares.credentials
        · exact h row (hsame ▸ hrow) hid
        · change row ∈ (command.after s.db).providerCredentials at hrow
          rw [hrows] at hrow
          obtain ⟨old, hold, rfl⟩ := Table.mem_updateWhere.mp hrow
          split_ifs at hid ⊢
          · rw [(hf old).2.1]
            exact h old hold ((hf old).1.symm.trans hid)
          · exact h old hold hid
      · obtain ⟨old, hold, rfl⟩ := Table.mem_updateWhere.mp hrow
        split_ifs at hid ⊢
        · exact h old hold hid
        · exact h old hold hid
      · rw [hrequest] at hother
        cases hother
  | read => exact h
  | generateId => exact h.congr rfl
  | send request => exact h
  | _ => exact hissues.elim

end Exec

/-! ## The programs of the calls -/

section Programs

variable [Platform] {call : GrantCall}

/-- What a call may do, what it reads, and what is answered. -/
def grantPhases (call : GrantCall) : Phases Command World Reply Unit where
  advance _ _ := ()
  issues _ := call.Issues
  inv := call.request.Reads
  answers := Reply.Grants call.token

theorem GrantCall.issues_outside (call : GrantCall) (c : Command) (h : c.Outside) :
    call.Issues c := by
  cases c with
  | access command => exact h.elim
  | _ => exact h

/-- A call that begins with commands whose answers do not matter. -/
theorem issues_bind {α β : Type} {p : Request α} {next : α → Request β}
    {after : β → Unit → Prop} (hp : p.Uses call.Issues)
    (h : ∀ a, (next a).Conforms (grantPhases call) after ()) :
    (p >>= next).Conforms (grantPhases call) after () := by
  have hconforms : p.Conforms (grantPhases call) (fun _ _ => True) () :=
    hp.conforms_always fun _ _ hc => hc
  exact conforms_bind hconforms fun a _ _ => h a

theorem issues_conforms {α : Type} {p : Request α} (hp : p.Uses call.Issues) :
    p.Conforms (grantPhases call) (fun _ _ => True) () := hp.conforms_always fun _ _ hc => hc

/-- The body of the answer to a request for tokens is that of the call. -/
theorem postForm_grants {url : String} {form : List (String × String)}
    {clientId clientSecret : String} {preserveInvalidGrant : Bool}
    {authentication : ClientAuthentication} (hgrant : (form.lookup "grant_type").isSome = true) :
    (postForm url form clientId clientSecret preserveInvalidGrant authentication).Conforms
      (grantPhases call) (fun token _ => token = call.token) () := by
  apply conforms_fetchPeer trivial
  intro reply hreply
  apply conforms_orThrow
  intro response hresponse
  apply conforms_throwIf
  intro _
  apply conforms_throwIf
  intro _
  unfold ofResult readObject
  split
  · rename_i token htoken
    split at htoken
    · rename_i fields hbody
      cases htoken
      exact hreply.tokens _ response _ hgrant hresponse hbody
    · cases htoken
  · trivial

theorem sealing_scopes {reply : Reply} {token : Record} (hreply : reply.Grants token)
    (accessToken refreshToken context : String) (scopes : List String) :
    SealsScopes (reply.sealing (stringifyTokens accessToken refreshToken (joinWithSpace scopes))
      context) scopes := by
  intro context' secret hopen
  exact ⟨accessToken, refreshToken, scopes, hreply.sealing _ _ _ _ hopen, SameScopes.refl _⟩

/-! ### Refreshing -/

section Refresh

variable {credential : ProviderCredential} {authorization : ExternalResourceAuthorization}

theorem requestRefresh_grants (hrequest : call.request = .refresh credential authorization)
    (refreshToken claimId : String) :
    (requestRefresh credential authorization refreshToken claimId).Conforms (grantPhases call)
      (fun _ _ => True) () := by
  have hread : call.Issues .read := call.issues_outside .read trivial
  apply conforms_bind (postForm_grants rfl)
  rintro token _ rfl
  apply conforms_ofResult
  intro accessToken _
  apply conforms_ofResult
  intro details _
  apply conforms_throwIf
  intro _
  apply conforms_currentTime hread
  intro refreshedAt
  apply conforms_sealSecret
  intro reply hreply
  apply conforms_perform
  · exact ⟨credential, authorization, hrequest, rfl, sealing_scopes hreply _ _ _ _⟩
  · intro s updated db' _ _
    apply conforms_throwIf
    intro _
    trivial

theorem refreshConnectionToken_grants
    (hrequest : call.request = .refresh credential authorization) :
    (refreshConnectionToken credential authorization).Conforms (grantPhases call)
      (fun _ _ => True) () := by
  have hread : call.Issues .read := call.issues_outside .read trivial
  apply conforms_ofResult
  intro payload _
  apply conforms_currentTime hread
  intro start
  split_ifs
  · apply conforms_ofResult
    intro accessToken _
    trivial
  · apply conforms_generateId (call.issues_outside .generateId trivial)
    intro claimId
    apply conforms_currentTime hread
    intro now
    apply conforms_perform trivial
    intro s claimed db' _ _
    apply conforms_throwIf
    intro _
    apply conforms_ofResult
    intro refreshToken _
    apply Conforms.tryCatch (requestRefresh_grants hrequest refreshToken claimId)
    intro error _
    apply issues_conforms
    unfold recoverRefresh
    split
    · apply uses_bind (uses_currentTime.mpr hread)
      intro now
      apply uses_bind
      · apply uses_bind (uses_perform.mpr trivial)
        intro revoked
        split
        · trivial
        · apply uses_bind
          · apply uses_perform.mpr
            exact ⟨by simp [AccessCommand.writes], by simp [AccessCommand.writes]⟩
          · intro _
            trivial
      · intro _
        trivial
    · apply uses_bind (uses_currentTime.mpr hread)
      intro now
      exact uses_bind (uses_perform.mpr trivial) fun _ => trivial

end Refresh

/-! ### Completing -/

section Complete

variable {input : ConnectionCallback} {callbackOrigin : String} {requested : List String}

theorem exchangeCode_grants {intent : ResourceConnectionIntent}
    (hscopes : intent.scopes = requested) (code : String) (now : Time) :
    (exchangeCode intent code callbackOrigin now).Conforms (grantPhases call)
      (fun granted _ => granted.scopes = call.answered requested) () := by
  have hread : call.Issues .read := call.issues_outside .read trivial
  apply issues_bind (requireActiveConnectorAuthorization_uses hread _ _)
  intro authorization
  apply issues_bind (uses_query.mpr hread)
  intro connector
  apply conforms_orThrow
  intro driver _
  apply conforms_ofResult
  intro verifier _
  apply conforms_bind (postForm_grants rfl)
  rintro token _ rfl
  apply conforms_ofResult
  intro accessToken _
  apply conforms_ofResult
  intro refreshToken _
  apply issues_bind (uses_fetchPeer.mpr (call.issues_outside (.send _) trivial))
  intro reply
  apply conforms_orThrow
  intro response _
  apply conforms_throwIf
  intro _
  apply conforms_ofResult
  intro body _
  apply conforms_ofResult
  intro profile _
  apply conforms_ofResult
  intro details _
  change (scopeString (call.token.field "scope")).getD intent.scopes = call.answered requested
  rw [hscopes]
  rfl

theorem storeConnection_grants (hrequest : call.request = .complete input callbackOrigin requested)
    {granted : GrantedTokens} (hscopes : granted.scopes = call.answered requested)
    (intent : ResourceConnectionIntent) (provider : ProviderConnection) (now : Time) :
    (storeConnection intent granted provider now).Conforms (grantPhases call)
      (fun _ _ => True) () := by
  have houtside := call.issues_outside
  have hread : call.Issues .read := houtside .read trivial
  apply issues_bind (findConnectionByProviderResource_uses hread _ _)
  intro existing
  apply issues_bind (idOrNew_uses (houtside .generateId trivial) _)
  intro credentialId
  apply conforms_sealSecret
  intro reply hreply
  have hseals := sealing_scopes hreply granted.accessToken granted.refreshToken
  apply issues_conforms
  split
  · apply uses_bind
    · apply uses_bind (uses_query.mpr hread)
      intro found
      split_ifs
      · apply uses_bind
        · apply uses_perform.mpr
          exact ⟨input, callbackOrigin, requested, hrequest, hscopes, hseals _ _⟩
        · intro _
          exact findConnection_uses hread _
      · trivial
    · intro stored
      apply uses_bind uses_orThrow
      intro connection
      apply uses_bind
      · apply revokeUncoveredEntitlements_uses houtside
        intro id reason leaseIds audit
        exact ⟨by simp [AccessCommand.writes], by simp [AccessCommand.writes]⟩
      · intro _
        trivial
  · apply uses_bind
    · apply uses_bind
      · apply uses_perform.mpr
        exact ⟨input, callbackOrigin, requested, hrequest, hscopes, hseals _ _⟩
      · intro _
        exact findConnection_uses hread _
    · intro stored
      exact uses_orThrow

theorem completeResourceConnectionIntent_grants
    (hrequest : call.request = .complete input callbackOrigin requested) :
    (completeResourceConnectionIntent input callbackOrigin).Conforms (grantPhases call)
      (fun _ _ => True) () := by
  have houtside := call.issues_outside
  have hread : call.Issues .read := houtside .read trivial
  apply conforms_currentTime hread
  intro now
  apply conforms_perform trivial
  intro s consumed db' hreads hok
  apply conforms_orThrow
  intro intent hintent
  have hscopes : intent.scopes = requested := by
    cases hok
    obtain ⟨old, hfound, rfl⟩ := Option.map_eq_some_iff.mp hintent
    have hselected := List.find?_some hfound
    simp only [Bool.and_eq_true, decide_eq_true_eq] at hselected
    change call.request.Reads s at hreads
    rw [hrequest] at hreads
    exact hreads old (List.mem_of_find?_eq_some hfound) hselected.1.1
  apply conforms_bind (exchangeCode_grants hscopes _ _)
  intro granted _ hgranted
  apply issues_bind (requireEnabledResource_uses hread _)
  intro resource
  apply conforms_ofResult
  intro _ _
  apply issues_bind
  · apply ensureProviderConnection_uses hread (houtside .generateId trivial)
    · intro row
      exact ⟨by simp [AccessCommand.writes], by simp [AccessCommand.writes]⟩
    · intro row
      exact ⟨by simp [AccessCommand.writes], by simp [AccessCommand.writes]⟩
  · intro provider
    exact storeConnection_grants hrequest hgranted intent provider now

end Complete

/-- Every call does what a call may do. -/
theorem program_issues (call : GrantCall) :
    call.request.program.Issues call.request.Reads (Reply.Grants call.token) call.Issues := by
  have hconforms : call.request.program.Conforms (grantPhases call) (fun _ _ => True) () := by
    cases hrequest : call.request with
    | complete input callbackOrigin requested =>
      exact (completeResourceConnectionIntent_grants hrequest).discard
    | refresh credential authorization => exact (refreshConnectionToken_grants hrequest).discard
  exact hconforms.issues_any fun _ _ hc => hc

end Programs

/-! ## Sequences -/

section Sequences

variable [Platform] {ledger : ScopeLedger} {w : World}

/-- The states of a call. -/
theorem call_described {call : GrantCall} (hpossible : call.Possible w)
    (hkeeps : (GrantStep.call call).KeepsScopes) (h : ScopesDescribed ledger w.db) :
    ∀ x ∈ (GrantStep.call call).passes (w, ledger), ScopesDescribed x.2 x.1.db := by
  have hall : ∀ x ∈ call.request.program.passes call.enter call.around 0 (w, ledger),
      call.request.Reads x.1 ∧ ScopesDescribed x.2 x.1.db := by
    apply Issues.passes (I := fun s t => call.request.Reads s ∧ ScopesDescribed t s.db)
      (program_issues call) hpossible.replies
    · intro s t hs
      exact hs.1
    · intro n s t hs
      exact ⟨hpossible.intents n s hs.1, hs.2.same (hpossible.credentials n s)⟩
    · intro c s t hc hs
      exact ⟨reads_exec hc hs.1, described_exec hc hkeeps hs.1 hs.2⟩
    · exact ⟨hpossible.reads, h⟩
  intro x hx
  exact (hall x hx).2

theorem GrantStep.described {step : GrantStep} (hpossible : step.Possible w)
    (hkeeps : step.KeepsScopes) (h : ScopesDescribed ledger w.db) :
    (∀ x ∈ step.passes (w, ledger), ScopesDescribed x.2 x.1.db) ∧
      ScopesDescribed (step.ends (w, ledger)).2 (step.ends (w, ledger)).1.db := by
  cases step with
  | call grant =>
    have hall := call_described hpossible hkeeps h
    exact ⟨hall, hall _ ends_mem_passes⟩
  | elsewhere change =>
    have hchanged : ScopesDescribed ledger (change w).db := h.same hpossible
    refine ⟨?_, hchanged⟩
    intro x hx
    rcases List.mem_cons.mp hx with rfl | hx
    · exact h
    · rw [List.mem_singleton.mp hx]
      exact hchanged

/-- In every state of every sequence of completions and refreshes, a credential has the scopes of
the response that was stored for it last, in its column and in its payload, if the answers to
refreshes leave the scopes as they are. -/
theorem granted_scopes_described {steps : List GrantStep} {x : World × ScopeLedger}
    (h : ScopesDescribed x.2 x.1.db) (hpossible : GrantsPossible steps x)
    (hkeeps : ∀ step ∈ steps, step.KeepsScopes) :
    ∀ y ∈ grantStates steps x, ScopesDescribed y.2 y.1.db := by
  induction steps generalizing x with
  | nil =>
    intro y hy
    rw [List.mem_singleton.mp hy]
    exact h
  | cons step steps ih =>
    have hstep := hkeeps step List.mem_cons_self
    obtain ⟨hpasses, hends⟩ := step.described hpossible.1 hstep h
    intro y hy
    rcases List.mem_append.mp hy with hy | hy
    · exact hpasses y hy
    · exact ih hends hpossible.2 (fun step hstep => hkeeps step (List.mem_cons_of_mem _ hstep)) y hy

end Sequences

namespace GrantedScopesExample

open GenerationExample (connector api intent)

/-- Secrets are stored as they are, and stored tokens open to a refresh token. -/
@[reducible] def platform : Platform :=
  { GenerationExample.platform with
    parseJson := fun _ => some (.obj [("accessToken", .str "at"), ("refreshToken", .str "rt")]) }

attribute [local instance] platform

/-- New tokens, with the scopes. -/
def token (scope : String) : Record :=
  [("access_token", .str "at"), ("refresh_token", .str "rt"), ("scope", .str scope)]

/-- Requests for tokens are answered with tokens, and every other request with a profile. -/
def answer (scope : String) (request : PeerRequest) : Option PeerResponse :=
  if (request.form.lookup "grant_type").isSome then
    some { status := 200, body := some (.obj (token scope)) }
  else some { status := 200, body := some (.obj [("sub", .str "subject")]) }

def reply (scope : String) : Reply :=
  { respond := answer scope, sealing := fun plaintext _ => plaintext }

def call (request : ScopeRequest) (scope : String) : GrantCall :=
  { request := request, token := token scope
    around := { elapse := fun _ s => s, reply := fun _ => reply scope } }

theorem reply_grants (scope : String) : (reply scope).Grants (token scope) where
  tokens := by
    intro request response body hgrant hresponse hbody
    simp only [reply, answer, if_pos hgrant, Option.some.injEq] at hresponse
    subst hresponse
    cases hbody
    rfl
  sealing := by
    intro plaintext context context' secret hopen
    cases hopen
    rfl

theorem call_possible {request : ScopeRequest} {scope : String} {w : World}
    (h : request.Reads w) : (call request scope).Possible w where
  reads := h
  replies _ := reply_grants scope
  credentials _ _ := rfl
  intents _ _ h := h

/-- A stored credential for reading and writing. -/
def credential : ProviderCredential :=
  { id := "credential", providerResourceAuthorizationId := "connection"
    encryptedTokens := stringifyTokens "at" "rt" "read write"
    grantedScopes := ["read", "write"], authorizationDetails := [], clientGeneration := 1
    credentialVersion := 1, refreshClaimId := none, refreshClaimExpiresAt := none
    status := .active, credentialExpiresAt := none, revokedAt := none, createdAt := 0
    updatedAt := 0 }

def authorization : ExternalResourceAuthorization :=
  { resourceId := "api", connectorId := "connector", tokenEndpoint := "https://as/token"
    revocationEndpoint := "https://as/revoke", tokenEndpointAuthentication := .basic
    revokeAccessToken := true, authorizationDetailsCatalogEndpoint := none
    authorizationDetailsCatalogScope := none, clientId := "first", clientGeneration := 1
    encryptedClientSecret := "secret", status := .active }

/-- One account is connected, and another one is about to be. -/
def start : World × ScopeLedger :=
  ({ db :=
      { identityProviderConnectors := [connector], apiResources := [api]
        resourceConnectionIntents := [intent], providerCredentials := [credential] }
     clock := 0, nextId := 0 }, fun _ => ["read", "write"])

theorem start_described : ScopesDescribed start.2 start.1.db where
  ids := List.nodup_singleton _
  column := by
    intro row hrow
    rw [List.mem_singleton.mp hrow]
    exact SameScopes.refl _
  payload := by
    intro row hrow context secret hopen
    rw [List.mem_singleton.mp hrow] at hopen ⊢
    cases hopen
    exact ⟨"at", "rt", ["read", "write"], rfl, SameScopes.refl _⟩

def refresh : ScopeRequest := .refresh credential authorization

def complete : ScopeRequest :=
  .complete { state := "state", code := "code" } "https://realm" ["read"]

theorem refresh_reads : refresh.Reads start.1 := by
  intro row hrow _
  rw [List.mem_singleton.mp hrow]

theorem complete_reads (w : World) (h : w.db.resourceConnectionIntents = [intent]) :
    complete.Reads w := by
  intro row hrow _
  rw [h] at hrow
  rw [List.mem_singleton.mp hrow]
  rfl

/-- A refresh grants the same scopes, and a new connection fewer than its intent asked for. -/
theorem scopes_described_same :
    ((grantStates [.call (call refresh "write read"), .call (call complete "openid")] start).getLast
      (by simp [grantStates])).1.db.providerCredentials.map (·.grantedScopes) =
        [["read", "write"], ["openid"]] ∧
    ∀ y ∈ grantStates [.call (call refresh "write read"), .call (call complete "openid")] start,
      ScopesDescribed y.2 y.1.db := by
  refine ⟨by decide +kernel, granted_scopes_described start_described ?_ ?_⟩
  · refine ⟨call_possible refresh_reads, call_possible (complete_reads _ ?_), trivial⟩
    decide +kernel
  · intro step hstep
    simp only [List.mem_cons, List.not_mem_nil, or_false] at hstep
    rcases hstep with rfl | rfl
    · intro scopes hscopes scope
      have hwords : scopes = ["read", "write"] := by
        have hanswer : scopeString (Record.field (token "write read") "scope") =
            some ["read", "write"] := by decide +kernel
        exact Option.some.inj (hscopes.symm.trans hanswer)
      rw [hwords]
      rfl
    · trivial

/-- The provider grants only reading when the tokens are refreshed, and the column says reading
and writing. -/
theorem refresh_narrows :
    ¬ ∀ (steps : List GrantStep) (x : World × ScopeLedger), ScopesDescribed x.2 x.1.db →
      GrantsPossible steps x → ∀ y ∈ grantStates steps x, ScopesDescribed y.2 y.1.db := by
  intro h
  have hall := h [.call (call refresh "read")] start start_described
    ⟨call_possible refresh_reads, trivial⟩
  have hnarrowed : ∃ y ∈ grantStates [.call (call refresh "read")] start,
      ∃ row ∈ y.1.db.providerCredentials, "write" ∈ row.grantedScopes ∧
        "write" ∉ y.2 row.id := by decide +kernel
  obtain ⟨y, hy, row, hrow, hcolumn, hledger⟩ := hnarrowed
  exact hledger (((hall y hy).column row hrow "write").mp hcolumn)

end GrantedScopesExample

end Realmroot
