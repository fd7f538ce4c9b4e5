import Realmroot.MembershipFrames
import Realmroot.Library.Names
import Realmroot.RefreshStore
import Realmroot.Rules
import Realmroot.Usecases.TokenExchange

/-!
# The system of workload token requests

Any number of exchanges and refreshes in progress, between whose commands time
passes, the other tables change, and the tokens of withdrawn credentials are
revoked. Identifiers are the names of this system: they are generated by the
request that uses them, and used once.
-/

namespace Realmroot

open AtomicProgram Program Rotation

inductive TokenRequest where
  | exchange (input : TokenExchangeRequest) (credentials : ClientCredentials)
  | refresh (input : TokenRefreshRequest) (credentials : ClientCredentials)

inductive TokenEvent where
  | elapse (milliseconds : ℕ)
  /-- The tables other than those of the tokens change in any way. -/
  | configure (db : Database)
  /-- The tokens issued under some credentials are revoked, as when their audience is
  deleted. -/
  | withdraw (credentialIds : List String)

def withdrawTokens (credentialIds : List String) (now : Time) (db : Database) : Database :=
  { db with
    tokenExchangeRefreshTokens :=
      Table.updateWhere (fun row => credentialIds.contains row.credentialId && row.revokedAt.isNone)
        (·.revoke now) db.tokenExchangeRefreshTokens
    tokenExchangeAccessTokens :=
      Table.updateWhere (fun row => credentialIds.contains row.credentialId && row.revokedAt.isNone)
        (fun row => { row with revokedAt := some now }) db.tokenExchangeAccessTokens }

def tokenSystem [Platform] (signer : TokenExchangeJwtSigner) :
    System Command World Reply Error TokenExchangeResponse TokenRequest TokenEvent where
  program
    | .exchange input credentials => exchangeAssertion input credentials signer
    | .refresh input credentials => refreshToken input credentials signer
  environment
    | .elapse milliseconds, w => { w with clock := w.clock + milliseconds }
    | .configure db, w =>
      { w with
        db := { db with
          tokenExchangeAccessTokens := w.db.tokenExchangeAccessTokens
          tokenExchangeRefreshTokens := w.db.tokenExchangeRefreshTokens } }
    | .withdraw credentialIds, w => { w with db := withdrawTokens credentialIds w.clock w.db }

abbrev TokenAction := Action Reply TokenRequest TokenEvent

/-- A world in which no token has been issued yet. -/
def World.withoutTokens (w : World) : World :=
  { w with
    db := { w.db with tokenExchangeAccessTokens := [], tokenExchangeRefreshTokens := [] } }

/-! ## Requests that only read -/

section Reads

variable {P : Command → Prop} (hP : P .read)

include hP

theorem authenticateApplicationClient_reads [Platform] (credentials : ClientCredentials) :
    (authenticateApplicationClient credentials).Uses P := by
  unfold authenticateApplicationClient
  refine uses_bind uses_orThrow fun _ => uses_bind (uses_query.mpr hP) fun _ => ?_
  refine uses_bind (uses_query.mpr hP) fun _ => uses_bind uses_orThrow fun _ => ?_
  refine uses_bind uses_orThrow fun _ => uses_bind (uses_query.mpr hP) fun _ => ?_
  exact uses_bind uses_orThrow fun _ => uses_bind uses_throwIf fun _ => trivial

theorem requireApplicationByClientId_reads (clientId : String) :
    (requireApplicationByClientId clientId).Uses P :=
  uses_bind (uses_query.mpr hP) fun _ => uses_orThrow

theorem applicationEffectiveResourceScopes_reads (application : ApplicationAggregate)
    (resource : ApiResource) : (applicationEffectiveResourceScopes application resource).Uses P := by
  unfold applicationEffectiveResourceScopes
  refine uses_bind (uses_currentTime.mpr hP) fun _ => ?_
  split_ifs
  · trivial
  · exact uses_bind (uses_query.mpr hP) fun _ => trivial

theorem memberScopes_reads (memberships : List MemberRecord) (resourceId : String) :
    (Program.mapEach memberships fun membership =>
      resolveOrganizationMembershipScopes membership.organizationId membership.roles
        resourceId).Uses P := by
  apply Uses.mapEach
  intro membership
  unfold resolveOrganizationMembershipScopes
  apply uses_bind (uses_query.mpr hP)
  intro found
  apply uses_bind (uses_query.mpr hP)
  intro dynamicRoles
  split <;> trivial

theorem userEffectiveResourceScopes_reads (userId : String) (resource : ApiResource) (now : Time)
    (tenant : TenantContext) : (userEffectiveResourceScopes userId resource now tenant).Uses P := by
  unfold userEffectiveResourceScopes
  apply uses_bind (uses_query.mpr hP)
  intro memberships
  dsimp only
  split <;> split
  · trivial
  · exact uses_bind (uses_query.mpr hP) fun _ =>
      uses_bind (memberScopes_reads hP ..) fun _ => trivial
  · trivial
  · exact uses_bind (uses_query.mpr hP) fun _ =>
      uses_bind (memberScopes_reads hP ..) fun _ => trivial

theorem resolveApplicationTokenScopesForResource_reads (application : ApplicationAggregate)
    (resource : ApiResource) (scope : Option String) :
    (resolveApplicationTokenScopesForResource application resource scope).Uses P := by
  unfold resolveApplicationTokenScopesForResource
  dsimp only
  split
  · trivial
  · exact uses_bind (applicationEffectiveResourceScopes_reads hP ..) fun _ => trivial

theorem resolveApplicationTokenScopes_reads (application : ApplicationAggregate)
    (audience : String) (scope : Option String) :
    (resolveApplicationTokenScopes application audience scope).Uses P := by
  unfold resolveApplicationTokenScopes
  refine uses_bind (uses_query.mpr hP) fun _ => uses_bind uses_orThrow fun resource => ?_
  exact resolveApplicationTokenScopesForResource_reads hP ..

theorem isEligibleAudience_reads (audience organizationId : String) :
    (isEligibleAudience audience organizationId).Uses P :=
  uses_bind (uses_query.mpr hP) fun _ => trivial

theorem isStillEligible_reads (row : TokenExchangeRefreshToken)
    (credential : ResolvedFederatedCredential) : (isStillEligible row credential).Uses P := by
  unfold isStillEligible
  split_ifs
  · exact isEligibleAudience_reads hP ..
  · trivial

theorem resolveCredential_reads (applicationClientId issuer subject : String) :
    (resolveCredential applicationClientId issuer subject).Uses P :=
  uses_bind (uses_query.mpr hP) fun _ => uses_orThrow

omit hP in
theorem credentialKeys_reads (credential : ResolvedFederatedCredential) :
    (credentialKeys credential).Uses P := by
  unfold credentialKeys
  split
  · trivial
  · split_ifs
    · intro reply
      dsimp only
      split
      · trivial
      · split <;> trivial
    · trivial

omit hP in
theorem verifySignature_reads (credential : ResolvedFederatedCredential) (kid : Option String)
    (alg : String) : (verifySignature credential kid alg).Uses P := by
  unfold verifySignature
  refine uses_bind (credentialKeys_reads credential) fun fetched => ?_
  split
  · trivial
  · refine uses_bind uses_throwIf fun _ => uses_bind uses_orThrow fun _ => ?_
    intro reply
    dsimp only
    split <;> trivial

theorem verifySubjectToken_reads (assertion : Assertion)
    (credential : ResolvedFederatedCredential) :
    (verifySubjectToken assertion credential).Uses P := by
  unfold verifySubjectToken
  refine uses_bind (uses_currentTime.mpr hP) fun _ => uses_bind uses_throwIf fun _ => ?_
  refine uses_bind uses_throwIf fun _ => uses_bind uses_throwIf fun _ => ?_
  refine uses_bind uses_throwIf fun _ => uses_bind uses_orThrow fun alg => ?_
  split_ifs
  · exact verifySignature_reads ..
  · trivial

omit hP in
theorem issueJwtAccessToken_reads (signer : TokenExchangeJwtSigner)
    (input : JwtAccessTokenInput) : (issueJwtAccessToken signer input).Uses P :=
  uses_bind uses_randomString fun _ => trivial

end Reads

/-! ## Identifiers -/

/-- A root stores the name of its family besides its own. -/
def tokenNames [Platform] : Naming Command World String where
  generates
    | .generateId, w, n => n = Platform.generateId w.nextId
    | _, _, _ => False
  stores
    | .storeAccessToken row, n => n = row.id
    | .insertRefreshToken row, n => n = row.id ∨ n = row.familyId
    | .rotateRefreshToken input _, n => n = input.refreshToken.id ∨ n = input.accessToken.id
    | _, _ => False
  used w n := ∃ k < w.nextId, n = Platform.generateId k
  stored w n :=
    (∃ row ∈ w.db.tokenExchangeRefreshTokens,
      n = row.id ∨ (row.parentId = none ∧ n = row.familyId)) ∨
    ∃ row ∈ w.db.tokenExchangeAccessTokens, n = row.id

/-- A command that has nothing to do with identifiers. -/
def Nameless [Platform] (c : Command) : Prop :=
  (∀ n, ¬ tokenNames.stores c n) ∧ ∀ w n, ¬ tokenNames.generates c w n

theorem nameless_read [Platform] : Nameless .read := ⟨fun _ => id, fun _ _ => id⟩

theorem nameless_revokeRefreshTokenFamily [Platform] (familyId : String) (now : Time) :
    Nameless (.revokeRefreshTokenFamily familyId now) := ⟨fun _ => id, fun _ _ => id⟩

theorem nameless_revokeRefreshToken [Platform] (id : String) (now : Time) :
    Nameless (.revokeRefreshToken id now) := ⟨fun _ h => h, fun _ _ h => h⟩

section Linear

variable [Platform] {α β : Type} {own : String → Prop} {post : β → (String → Prop) → Prop}

theorem linear_nameless {p : Request α} {next : α → Request β} (hp : p.Uses Nameless)
    (h : ∀ a, (next a).Linear tokenNames post own) :
    (p >>= next).Linear tokenNames post own := by
  refine Linear.bind ((Uses.linear own hp).mono ?_)
  rintro a own' rfl
  exact h a

theorem linear_generateId {next : String → Request β}
    (h : ∀ id, (next id).Linear tokenNames post fun n => own n ∨ n = id) :
    (generateId >>= next).Linear tokenNames post own := by
  refine ⟨fun n hn => hn.elim, fun w => ?_⟩
  have hafter : tokenNames.after Command.generateId w own =
      fun n => own n ∨ n = Platform.generateId w.nextId := by
    funext n
    simp [Naming.after, tokenNames]
  rw [hafter]
  exact h _

/-- What a command stores, the request gives up. -/
theorem linear_perform {command : Command} {statement : Statement β}
    (hstores : ∀ n, tokenNames.stores command n → own n)
    (h : ∀ a own', (∀ n, own n → ¬ tokenNames.stores command n → own' n) → post a own') :
    (perform command statement).Linear tokenNames post own := by
  refine ⟨hstores, fun w => ?_⟩
  dsimp only
  split
  · exact h _ _ fun n hn hkept => Or.inl ⟨hn, hkept⟩
  · trivial

/-- The identifier of a prepared refresh token belongs to the request. -/
theorem prepareRefreshToken_linear (clientId familyId : String) (parentId : Option String)
    (grant : RefreshTokenGrant) {next : PreparedRefreshToken → Request β}
    (h : ∀ prepared : PreparedRefreshToken, prepared.record.familyId = familyId →
      (next prepared).Linear tokenNames post fun n => own n ∨ n = prepared.record.id) :
    (prepareRefreshToken clientId familyId parentId grant >>= next).Linear tokenNames post own := by
  refine Linear.bind ?_
  unfold prepareRefreshToken
  refine linear_nameless uses_randomString fun random => ?_
  refine linear_nameless (uses_currentTime.mpr nameless_read) fun now => ?_
  exact linear_generateId fun id => h _ rfl

theorem revokeRefreshTokenFamily_nameless (familyId : String) (now : Time) :
    (revokeRefreshTokenFamily familyId now).Uses Nameless :=
  uses_perform.mpr (nameless_revokeRefreshTokenFamily familyId now)

theorem rotate_linear (signer : TokenExchangeJwtSigner) (clientId : String)
    (row : TokenExchangeRefreshToken) (now : Time) (scopes : List String) :
    (rotate signer clientId row now scopes).Linear tokenNames (fun _ _ => True) own := by
  unfold rotate
  refine linear_nameless (issueJwtAccessToken_reads _ _) fun accessToken => ?_
  refine prepareRefreshToken_linear _ _ _ _ fun rotated _ => ?_
  refine linear_generateId fun id => ?_
  refine Linear.bind ?_
  unfold rotateRefreshToken
  refine linear_nameless (uses_currentTime.mpr nameless_read) fun at_ => ?_
  refine linear_perform ?_ fun stored own' _ => ?_
  · rintro n (rfl | rfl)
    · exact Or.inl (Or.inr rfl)
    · exact Or.inr rfl
  · split_ifs
    · exact linear_nameless (revokeRefreshTokenFamily_nameless ..) fun _ => trivial
    · trivial

theorem refreshToken_linear (input : TokenRefreshRequest) (credentials : ClientCredentials)
    (signer : TokenExchangeJwtSigner) :
    (refreshToken input credentials signer).Linear tokenNames (fun _ _ => True) own := by
  unfold refreshToken
  refine linear_nameless uses_throwIf fun _ => ?_
  refine linear_nameless (authenticateApplicationClient_reads nameless_read _) fun ⟨client, _⟩ => ?_
  refine linear_nameless (requireApplicationByClientId_reads nameless_read _) fun _ => ?_
  refine linear_nameless uses_throwIf fun _ => ?_
  refine linear_nameless (uses_query.mpr nameless_read) fun _ => ?_
  refine linear_nameless uses_orThrow fun row => ?_
  refine linear_nameless (uses_currentTime.mpr nameless_read) fun now => ?_
  split_ifs
  · exact linear_nameless (revokeRefreshTokenFamily_nameless ..) fun _ => trivial
  · refine linear_nameless uses_throwIf fun _ => ?_
    refine linear_nameless (uses_query.mpr nameless_read) fun _ => ?_
    refine linear_nameless uses_orThrow fun _ => ?_
    refine linear_nameless (isStillEligible_reads nameless_read ..) fun eligible => ?_
    split_ifs
    · exact linear_nameless (revokeRefreshTokenFamily_nameless ..) fun _ => trivial
    · refine linear_nameless (resolveApplicationTokenScopes_reads nameless_read ..) fun scopes => ?_
      exact rotate_linear signer client.clientId row now scopes

theorem exchangeAssertion_linear (input : TokenExchangeRequest) (credentials : ClientCredentials)
    (signer : TokenExchangeJwtSigner) :
    (exchangeAssertion input credentials signer).Linear tokenNames (fun _ _ => True) own := by
  unfold exchangeAssertion
  refine linear_nameless uses_throwIf fun _ => ?_
  refine linear_nameless (authenticateApplicationClient_reads nameless_read _) fun ⟨client, _⟩ => ?_
  refine linear_nameless uses_throwIf fun _ => ?_
  refine linear_nameless uses_throwIf fun _ => ?_
  refine linear_nameless uses_throwIf fun _ => ?_
  split
  · trivial
  refine linear_nameless uses_orThrow fun _ => ?_
  refine linear_nameless uses_orThrow fun _ => ?_
  refine linear_nameless (resolveCredential_reads nameless_read ..) fun _ => ?_
  refine linear_nameless uses_throwIf fun _ => ?_
  refine linear_nameless uses_throwIf fun _ => ?_
  refine linear_nameless (isEligibleAudience_reads nameless_read ..) fun _ => ?_
  refine linear_nameless uses_throwIf fun _ => ?_
  refine linear_nameless (resolveApplicationTokenScopes_reads nameless_read ..) fun scopes => ?_
  refine linear_nameless uses_throwIf fun _ => ?_
  refine linear_nameless (verifySubjectToken_reads nameless_read _ _) fun _ => ?_
  refine linear_nameless (uses_currentTime.mpr nameless_read) fun _ => ?_
  refine linear_nameless (issueJwtAccessToken_reads _ _) fun _ => ?_
  refine linear_generateId fun accessTokenId => ?_
  refine Linear.bind ?_
  unfold storeAccessToken
  refine linear_nameless (uses_currentTime.mpr nameless_read) fun _ => ?_
  refine linear_perform (fun n hn => Or.inr hn) fun _ own₁ _ => ?_
  split_ifs
  · refine linear_generateId fun familyId => ?_
    refine Linear.bind ?_
    unfold issueRefreshToken
    refine prepareRefreshToken_linear _ _ _ _ fun prepared hfamily => ?_
    refine Linear.bind ?_
    unfold storeRefreshToken
    refine linear_nameless (uses_currentTime.mpr nameless_read) fun _ => ?_
    refine Linear.bind ?_
    refine linear_perform ?_ fun _ own₂ _ => ?_
    · rintro n (rfl | rfl)
      · exact Or.inr rfl
      · exact Or.inl (Or.inr hfamily)
    · refine linear_nameless (uses_query.mpr nameless_read) fun revoked => ?_
      split_ifs
      · exact linear_nameless uses_throwIf fun _ => trivial
      · refine linear_nameless (uses_currentTime.mpr nameless_read) fun _ => ?_
        refine linear_nameless (uses_perform.mpr (nameless_revokeRefreshToken ..)) fun _ => ?_
        exact linear_nameless uses_throwIf fun _ => trivial
  · trivial

end Linear

/-! ## Commands that leave the tokens of exchanges alone -/

/-- Every command but those on refresh tokens, access tokens and permissions. -/
def Command.leavesTokens : Command → Bool
  | .storeAccessToken _ | .insertRefreshToken _ | .revokeRefreshToken .. => false
  | .rotateRefreshToken .. | .revokeRefreshTokenFamily .. | .access _ => false
  | _ => true

theorem sameTokens_exec {command : Command} (h : command.leavesTokens = true) (w : World) :
    SameTables w.db (exec command w).db .exchangeTokens := by
  cases command with
  | storeAccessToken row => cases h
  | insertRefreshToken row => cases h
  | revokeRefreshToken id now => cases h
  | rotateRefreshToken input now => cases h
  | revokeRefreshTokenFamily familyId now => cases h
  | access command => cases h
  | read => exact ⟨rfl, rfl⟩
  | generateId => exact ⟨rfl, rfl⟩
  | send request => exact ⟨rfl, rfl⟩
  | deleteAsset key => exact ⟨rfl, rfl⟩
  | membership command => exact command.exchangeTokens_after w.db
  | connector command =>
    change SameTables w.db (command.after w.db) .exchangeTokens
    rw [command.after_eq]
    exact ⟨rfl, rfl⟩
  | consent command =>
    obtain ⟨_, _, hafter⟩ := command.after_eq w.db
    change SameTables w.db (command.after w.db) .exchangeTokens
    rw [hafter]
    exact ⟨rfl, rfl⟩
  | role command =>
    obtain ⟨_, _, _, hafter⟩ := command.after_eq w.db
    change SameTables w.db (command.after w.db) .exchangeTokens
    rw [hafter]
    exact ⟨rfl, rfl⟩
  | application command =>
    obtain ⟨_, _, hafter⟩ := command.after_eq w.db
    change SameTables w.db (command.after w.db) .exchangeTokens
    rw [hafter]
    exact ⟨rfl, rfl⟩
  | identity command =>
    obtain ⟨_, _, _, _, _, _, _, _, _, hafter⟩ := command.after_eq w.db
    change SameTables w.db (command.after w.db) .exchangeTokens
    rw [hafter]
    exact ⟨rfl, rfl⟩
  | consumeJti row =>
    obtain ⟨_, hafter⟩ := Database.insertJti_after row w.db
    change SameTables w.db ((Database.insertJti row).after w.db) .exchangeTokens
    rw [hafter]
    exact ⟨rfl, rfl⟩
  | createPasswordResetRequest row =>
    obtain ⟨_, hafter⟩ := Database.insertPasswordResetRequest_after row w.db
    change SameTables w.db ((Database.insertPasswordResetRequest row).after w.db) .exchangeTokens
    rw [hafter]
    exact ⟨rfl, rfl⟩
  | agentApproval command =>
    obtain ⟨_, _, _, _, _, hafter⟩ := command.after_eq w.db
    change SameTables w.db (command.after w.db) .exchangeTokens
    rw [hafter]
    exact ⟨rfl, rfl⟩
  | webhook command =>
    obtain ⟨_, _, _, hafter⟩ := command.after_eq w.db
    change SameTables w.db (command.after w.db) .exchangeTokens
    rw [hafter]
    exact ⟨rfl, rfl⟩
  | cleanup command =>
    obtain ⟨_, _, _, hafter⟩ := command.after_eq w.db
    change SameTables w.db (command.after w.db) .exchangeTokens
    rw [hafter]
    exact ⟨rfl, rfl⟩
  | rotateSecret rotation =>
    obtain ⟨_, _, hafter⟩ := Database.rotateSecret_after rotation w.db
    change SameTables w.db ((Database.rotateSecret rotation).after w.db) .exchangeTokens
    rw [hafter]
    exact ⟨rfl, rfl⟩
  | settings command =>
    obtain ⟨_, hafter⟩ := command.after_eq w.db
    change SameTables w.db (command.after w.db) .exchangeTokens
    rw [hafter]
    exact ⟨rfl, rfl⟩

/-! ## The laws of identifiers -/

section Stored

variable [Platform] {w : World} {n : String}

/-- Rows that keep their cores store the names they stored. -/
theorem stored_of_rows {w' : World} (h : tokenNames.stored w' n)
    (hrefresh : ∀ row ∈ w'.db.tokenExchangeRefreshTokens,
      ∃ old ∈ w.db.tokenExchangeRefreshTokens, row.core = old.core)
    (haccess : ∀ row ∈ w'.db.tokenExchangeAccessTokens,
      ∃ old ∈ w.db.tokenExchangeAccessTokens, row.id = old.id) : tokenNames.stored w n := by
  rcases h with ⟨row, hrow, hn⟩ | ⟨row, hrow, hn⟩
  · obtain ⟨old, hold, hcore⟩ := hrefresh row hrow
    obtain ⟨hid, hfamily, hparent, -⟩ := core_eq hcore
    exact Or.inl ⟨old, hold, by rwa [hid, hfamily, hparent] at hn⟩
  · obtain ⟨old, hold, hid⟩ := haccess row hrow
    exact Or.inr ⟨old, hold, hn.trans hid⟩

theorem stored_insertRefreshToken {row : TokenExchangeRefreshToken}
    (h : tokenNames.stored (exec (Command.insertRefreshToken row) w) n) :
    tokenNames.stored w n ∨ tokenNames.stores (.insertRefreshToken row) n := by
  change tokenNames.stored (commit (Database.insertRefreshToken row) w) n at h
  unfold commit Statement.after at h
  split at h
  · rename_i a db hok
    obtain ⟨-, -, rfl⟩ := Database.insertRefreshToken_ok hok
    rcases h with ⟨r, hr, hn⟩ | hn
    · rcases List.mem_append.mp hr with hr | hr
      · exact Or.inl (Or.inl ⟨r, hr, hn⟩)
      · rw [List.mem_singleton.mp hr] at hn
        exact Or.inr (hn.imp id And.right)
    · exact Or.inl (Or.inr hn)
  · exact Or.inl h

theorem stored_storeAccessToken {row : TokenExchangeAccessToken}
    (h : tokenNames.stored (exec (Command.storeAccessToken row) w) n) :
    tokenNames.stored w n ∨ tokenNames.stores (.storeAccessToken row) n := by
  change tokenNames.stored (commit (Database.insertAccessToken row) w) n at h
  unfold commit Statement.after at h
  split at h
  · rename_i a db hok
    rw [Database.insertAccessToken_ok hok] at h
    rcases h with hn | ⟨r, hr, hn⟩
    · exact Or.inl (Or.inl hn)
    · rcases List.mem_append.mp hr with hr | hr
      · exact Or.inl (Or.inr ⟨r, hr, hn⟩)
      · rw [List.mem_singleton.mp hr] at hn
        exact Or.inr hn
  · exact Or.inl h

theorem stored_rotateRefreshToken {input : RotateRefreshTokenInput} {now : Time}
    (h : tokenNames.stored (exec (Command.rotateRefreshToken input now) w) n) :
    tokenNames.stored w n ∨ tokenNames.stores (.rotateRefreshToken input now) n := by
  change tokenNames.stored (commit (Database.rotateRefreshToken input now) w) n at h
  unfold commit Statement.after at h
  split at h
  · rename_i a db hok
    obtain ⟨hrefresh, haccess⟩ := Database.rotateRefreshToken_rows hok
    rcases h with ⟨row, hrow, hn⟩ | ⟨row, hrow, hn⟩
    · rcases hrefresh row hrow with ⟨old, hold, hcore⟩ | ⟨hid, hparent⟩
      · obtain ⟨hid, hfamily, hparent, -⟩ := core_eq hcore
        exact Or.inl (Or.inl ⟨old, hold, by rwa [hid, hfamily, hparent] at hn⟩)
      · rcases hn with hn | ⟨hroot, -⟩
        · exact Or.inr (Or.inl (hn.trans hid))
        · exact absurd hroot hparent
    · rcases haccess row hrow with hold | hid
      · exact Or.inl (Or.inr ⟨row, hold, hn⟩)
      · exact Or.inr (Or.inr (hn.trans hid))
  · exact Or.inl h

/-- Ageing the refresh tokens stores no name. -/
theorem stored_updateRefreshTokens {p : TokenExchangeRefreshToken → Bool}
    {f : TokenExchangeRefreshToken → TokenExchangeRefreshToken} (hf : Ages tokenScheme f)
    (h : tokenNames.stored { w with
      db := { w.db with
        tokenExchangeRefreshTokens := Table.updateWhere p f w.db.tokenExchangeRefreshTokens } } n) :
    tokenNames.stored w n := by
  apply stored_of_rows h
  · exact fun row hrow => core_of_mem_updateWhere hf hrow
  · exact fun row hrow => ⟨row, hrow, rfl⟩

theorem stored_withdrawTokens {credentialIds : List String}
    (h : tokenNames.stored { w with db := withdrawTokens credentialIds w.clock w.db } n) :
    tokenNames.stored w n := by
  apply stored_of_rows h
  · exact fun row hrow => core_of_mem_updateWhere (ages_revoke w.clock) hrow
  · intro row hrow
    obtain ⟨old, hold, rfl⟩ := Table.mem_updateWhere.mp hrow
    refine ⟨old, hold, ?_⟩
    split_ifs <;> rfl

theorem stored_access {command : AccessCommand}
    (h : tokenNames.stored (exec (Command.access command) w) n) : tokenNames.stored w n := by
  apply stored_of_rows h
  · intro row hrow
    obtain ⟨old, hold, hsame⟩ := command.refreshTokens_after w.db row hrow
    refine ⟨old, hold, ?_⟩
    rcases hsame with rfl | ⟨now, rfl⟩
    · rfl
    · exact (ages_revoke now).core old
  · exact command.accessTokens_after w.db

/-- A command that leaves the tokens of exchanges alone stores no name. -/
theorem stored_same {command : Command} (hleaves : command.leavesTokens = true)
    (h : tokenNames.stored (exec command w) n) : tokenNames.stored w n := by
  obtain ⟨haccess, hrefresh⟩ := sameTokens_exec hleaves w
  apply stored_of_rows h
  · intro row hrow
    exact ⟨row, hrefresh ▸ hrow, rfl⟩
  · intro row hrow
    exact ⟨row, haccess ▸ hrow, rfl⟩

end Stored

theorem tokenSystem_lawful [Platform] (signer : TokenExchangeJwtSigner) :
    Pool.Lawful (tokenSystem signer) tokenNames where
  fresh c w n hgenerates := by
    rintro ⟨k, hk, hn⟩
    cases c with
    | generateId =>
      have hsame := Platform.generateId_inj.mp (hgenerates.symm.trans hn)
      omega
    | _ => exact hgenerates
  generated c w n hgenerates := by
    cases c with
    | generateId => exact ⟨w.nextId, Nat.lt_succ_self _, hgenerates⟩
    | _ => exact hgenerates.elim
  used c w n hused := by
    obtain ⟨k, hk, hn⟩ := hused
    exact ⟨k, hk.trans_le (nextId_exec c w), hn⟩
  stored c w n h := by
    cases c with
    | storeAccessToken row => exact stored_storeAccessToken h
    | insertRefreshToken row => exact stored_insertRefreshToken h
    | revokeRefreshToken id now => exact Or.inl (stored_updateRefreshTokens (ages_revoke now) h)
    | rotateRefreshToken input now => exact stored_rotateRefreshToken h
    | revokeRefreshTokenFamily familyId now =>
      exact Or.inl (stored_updateRefreshTokens (ages_revoke now) h)
    | access command => exact Or.inl (stored_access h)
    | _ => exact Or.inl (stored_same rfl h)
  used_environment e w n hused := by
    cases e <;> exact hused
  stored_environment e w n h := by
    cases e with
    | elapse milliseconds => exact h
    | configure db => exact h
    | withdraw credentialIds => exact stored_withdrawTokens h
  linear request := by
    cases request with
    | exchange input credentials => exact exchangeAssertion_linear ..
    | refresh input credentials => exact refreshToken_linear ..

end Realmroot
