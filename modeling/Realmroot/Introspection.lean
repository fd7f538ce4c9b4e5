import Realmroot.RefreshScopes
import Realmroot.Usecases.Introspection

/-!
# Introspection agrees with issuance

Every access token that an exchange or a refresh stores has a row that keeps what was signed: its
claims, and its expiry, of which the token has the whole seconds. So the answer about a token says
what is signed in it, until it is revoked or expires.
-/

namespace Realmroot

open AtomicProgram Program

/-! ## What is signed -/

section Signed

variable [Platform] {signer : TokenExchangeJwtSigner} {row : TokenExchangeAccessToken}
  {input : JwtAccessTokenInput} {jti tenant issuer : String}

/-- The row keeps the claims of the signed token. -/
structure Stamped (signer : TokenExchangeJwtSigner) (row : TokenExchangeAccessToken)
    (input : JwtAccessTokenInput) (jti : String) : Prop where
  clientId : input.clientId = row.clientId
  subject : input.subject = row.subject
  audience : input.audience = row.audience
  scopes : input.scopes = row.scopes
  claims : input.claims = row.claims
  expiresAt : input.expiresAt = row.expiresAt
  actor : input.actor = none
  tenant : ∃ tenant, row.claims.field realmrootOrganizationClaim = some (.str tenant)
  tokenHash : row.tokenHash = Platform.hashProviderSecret
    (signer.sign (accessTokenPayload signer.issuer input jti) "at+jwt")

/-- The token of the row was signed with what it keeps. -/
def IsStamped (signer : TokenExchangeJwtSigner) (row : TokenExchangeAccessToken) : Prop :=
  ∃ input jti, Stamped signer row input jti

omit [Platform] in
/-- The payload of a token without an actor. -/
theorem accessTokenPayload_eq (hactor : input.actor = none)
    (htenant : input.claims.field realmrootOrganizationClaim = some (.str tenant)) :
    accessTokenPayload issuer input jti =
      [("iss", .str issuer), ("sub", .str input.subject), ("aud", .str input.audience),
        ("client_id", .str input.clientId), ("scope", .str (joinWithSpace input.scopes)),
        (realmrootOrganizationClaim, .str tenant), ("iat", .num (toSeconds input.issuedAt)),
        ("exp", .num (toSeconds input.expiresAt)), ("jti", .str jti)] := by
  simp [accessTokenPayload, hactor, htenant]

/-- The payload of a stored token, by its row. -/
theorem Stamped.payload (h : Stamped signer row input jti)
    (htenant : row.claims.field realmrootOrganizationClaim = some (.str tenant)) :
    accessTokenPayload signer.issuer input jti =
      [("iss", .str signer.issuer), ("sub", .str row.subject), ("aud", .str row.audience),
        ("client_id", .str row.clientId), ("scope", .str (joinWithSpace row.scopes)),
        (realmrootOrganizationClaim, .str tenant), ("iat", .num (toSeconds input.issuedAt)),
        ("exp", .num (toSeconds row.expiresAt)), ("jti", .str jti)] := by
  rw [accessTokenPayload_eq h.actor (by rw [h.claims]; exact htenant), h.subject, h.audience,
    h.clientId, h.scopes, h.expiresAt]

theorem Stamped.matches (h : Stamped signer row input jti) :
    tokenExchangeJwtMatches (accessTokenPayload signer.issuer input jti) row signer.issuer =
      true := by
  obtain ⟨tenant, htenant⟩ := h.tenant
  rw [h.payload htenant]
  simp [tokenExchangeJwtMatches, Record.field, List.lookup_cons, realmrootOrganizationClaim]
    at htenant ⊢
  simp [htenant, strictlyEqual]

end Signed

/-! ## What the requests store -/

section Requests

variable [Platform] {signer : TokenExchangeJwtSigner}

/-- The commands of token requests: access tokens are stored with what was signed. -/
def Stamps (signer : TokenExchangeJwtSigner) : Command → Prop
  | .read => True
  | .generateId => True
  | .insertRefreshToken _ => True
  | .revokeRefreshToken .. => True
  | .revokeRefreshTokenFamily .. => True
  | .storeAccessToken row => IsStamped signer row
  | .rotateRefreshToken input now => IsStamped signer (input.accessToken.toRow now)
  | _ => False

omit [Platform] in
theorem uses_issueJwtAccessToken {β : Type} {P : Command → Prop} {input : JwtAccessTokenInput}
    {next : String → Request β}
    (h : ∀ jti,
      (next (signer.sign (accessTokenPayload signer.issuer input jti) "at+jwt")).Uses P) :
    (issueJwtAccessToken signer input >>= next).Uses P := fun reply => h reply.random

theorem prepareRefreshToken_stamps (clientId familyId : String) (parentId : Option String)
    (grant : RefreshTokenGrant) :
    (prepareRefreshToken clientId familyId parentId grant).Uses (Stamps signer) :=
  uses_bind uses_randomString fun _ => uses_bind (uses_currentTime.mpr trivial) fun _ =>
    uses_bind (uses_generateId.mpr trivial) fun _ => trivial

theorem storeRefreshToken_stamps (input : RefreshTokenInput) :
    (storeRefreshToken input).Uses (Stamps signer) := by
  apply uses_bind (uses_currentTime.mpr trivial)
  intro now
  apply uses_bind (uses_perform.mpr trivial)
  intro _
  apply uses_bind (uses_query.mpr trivial)
  intro revoked
  split_ifs
  · trivial
  · apply uses_bind (uses_currentTime.mpr trivial)
    intro now
    exact uses_bind (uses_perform.mpr trivial) fun _ => trivial

theorem issueRefreshToken_stamps (clientId familyId : String) (grant : RefreshTokenGrant) :
    (issueRefreshToken clientId familyId grant).Uses (Stamps signer) :=
  uses_bind (prepareRefreshToken_stamps _ _ _ _) fun _ =>
    uses_bind (storeRefreshToken_stamps _) fun _ => uses_bind uses_throwIf fun _ => trivial

theorem rotate_stamps {row : TokenExchangeRefreshToken} {tenant : String}
    (htenant : row.claims.field realmrootOrganizationClaim = some (.str tenant))
    (clientId : String) (now : Time) (scopes : List String) :
    (rotate signer clientId row now scopes).Uses (Stamps signer) := by
  apply uses_issueJwtAccessToken
  intro jti
  apply uses_bind (prepareRefreshToken_stamps _ _ _ _)
  intro rotated
  apply uses_bind (uses_generateId.mpr trivial)
  intro id
  apply uses_bind
  · apply uses_bind (uses_currentTime.mpr trivial)
    intro now
    exact uses_perform.mpr ⟨_, jti, rfl, rfl, rfl, rfl, rfl, rfl, rfl, ⟨tenant, htenant⟩, rfl⟩
  · intro stored
    split_ifs
    · exact uses_bind (uses_perform.mpr trivial) fun _ => trivial
    · trivial

theorem refreshToken_stamps (input : TokenRefreshRequest) (credentials : ClientCredentials) :
    (refreshToken input credentials signer).Uses (Stamps signer) := by
  apply uses_bind uses_throwIf
  intro _
  apply uses_bind (authenticateApplicationClient_reads trivial _)
  intro client
  apply uses_bind (requireApplicationByClientId_reads trivial _)
  intro application
  apply uses_bind uses_throwIf
  intro _
  apply uses_bind (uses_query.mpr trivial)
  intro _
  apply uses_bind uses_orThrow
  intro row
  apply uses_bind (uses_currentTime.mpr trivial)
  intro now
  split_ifs
  · exact uses_bind (uses_perform.mpr trivial) fun _ => trivial
  · apply uses_bind uses_throwIf
    intro _
    apply uses_bind (uses_query.mpr trivial)
    intro _
    apply uses_bind uses_orThrow
    intro credential
    unfold isStillEligible
    split_ifs with htenant
    · apply uses_bind (isEligibleAudience_reads trivial ..)
      intro eligible
      split_ifs
      · exact uses_bind (uses_perform.mpr trivial) fun _ => trivial
      · apply uses_bind (resolveApplicationTokenScopes_reads trivial ..)
        intro scopes
        exact rotate_stamps htenant.2 _ _ _
    · have hrevoke : (revokeRefreshTokenFamily row.familyId now).Uses (Stamps signer) :=
        uses_perform.mpr trivial
      change (revokeRefreshTokenFamily row.familyId now >>= fun _ =>
        Program.throw (Error.oauthError "invalid_grant"
          "The refresh token tenant or audience is no longer eligible.")).Uses (Stamps signer)
      exact uses_bind hrevoke fun _ => trivial

theorem exchangeAssertion_stamps (input : TokenExchangeRequest) (credentials : ClientCredentials) :
    (exchangeAssertion input credentials signer).Uses (Stamps signer) := by
  apply uses_bind uses_throwIf
  intro _
  apply uses_bind (authenticateApplicationClient_reads trivial _)
  intro client
  apply uses_bind uses_throwIf
  intro _
  apply uses_bind uses_throwIf
  intro _
  apply uses_bind uses_throwIf
  intro _
  split
  · trivial
  · apply uses_bind uses_orThrow
    intro issuer
    apply uses_bind uses_orThrow
    intro subject
    apply uses_bind (resolveCredential_reads trivial ..)
    intro credential
    apply uses_bind uses_throwIf
    intro _
    apply uses_bind uses_throwIf
    intro _
    apply uses_bind (isEligibleAudience_reads trivial ..)
    intro _
    apply uses_bind uses_throwIf
    intro _
    apply uses_bind (resolveApplicationTokenScopes_reads trivial ..)
    intro scopes
    apply uses_bind uses_throwIf
    intro _
    apply uses_bind (verifySubjectToken_reads trivial _ _)
    intro _
    apply uses_bind (uses_currentTime.mpr trivial)
    intro now
    apply uses_issueJwtAccessToken
    intro jti
    apply uses_bind (uses_generateId.mpr trivial)
    intro id
    apply uses_bind
    · apply uses_bind (uses_currentTime.mpr trivial)
      intro _
      exact uses_perform.mpr ⟨_, jti, rfl, rfl, rfl, rfl, rfl, rfl, rfl, ⟨_, rfl⟩, rfl⟩
    · intro _
      split_ifs
      · apply uses_bind (uses_generateId.mpr trivial)
        intro familyId
        exact uses_bind (issueRefreshToken_stamps _ _ _) fun _ => trivial
      · trivial

end Requests

/-! ## The stored tokens -/

namespace Database

variable {db db' : Database}

theorem insertAccessToken_fresh {row : TokenExchangeAccessToken} {u : Unit}
    (h : insertAccessToken row db = .ok (u, db')) :
    ∀ old ∈ db.tokenExchangeAccessTokens, old.tokenHash ≠ row.tokenHash := by
  unfold insertAccessToken at h
  split_ifs at h with hid hhash
  intro old hold hsame
  exact hhash (List.any_eq_true.mpr ⟨old, hold, decide_eq_true hsame⟩)

/-- A rotation stores its access token, or none. -/
theorem rotateRefreshToken_accessTokens {input : RotateRefreshTokenInput} {now : Time} {a : Bool}
    (h : rotateRefreshToken input now db = .ok (a, db')) :
    db'.tokenExchangeAccessTokens = db.tokenExchangeAccessTokens ∨
      (db'.tokenExchangeAccessTokens =
        db.tokenExchangeAccessTokens ++ [input.accessToken.toRow now] ∧
        ∀ old ∈ db.tokenExchangeAccessTokens,
          old.tokenHash ≠ (input.accessToken.toRow now).tokenHash) := by
  obtain ⟨children, withChild, accessTokens, hchild, haccess, -⟩ := rotateRefreshToken_ok h
  have hsame : withChild.tokenExchangeAccessTokens = db.tokenExchangeAccessTokens := by
    rcases insertChild_ok hchild with ⟨-, rfl, -⟩ | ⟨-, -, -, -, rfl⟩ <;> rfl
  unfold insertChildAccessToken at haccess
  split_ifs at haccess with hthere
  · obtain ⟨⟨u, stored⟩, hinsert, hrest⟩ := Statement.bind_ok haccess
    cases hrest
    have hfresh := insertAccessToken_fresh hinsert
    have hstored := congrArg (·.tokenExchangeAccessTokens) (insertAccessToken_ok hinsert)
    right
    constructor
    · rw [← hsame]
      exact hstored
    · rw [← hsame]
      exact hfresh
  · cases haccess
    exact Or.inl hsame

end Database

section Stored

variable [Platform] {signer : TokenExchangeJwtSigner}

/-- The rows keep what was signed, and no two of them are for one token. -/
structure StoresStamped (signer : TokenExchangeJwtSigner)
    (rows : List TokenExchangeAccessToken) : Prop where
  stamped : ∀ row ∈ rows, IsStamped signer row
  hashes : Table.Keyed (·.tokenHash) rows

theorem StoresStamped.append {rows : List TokenExchangeAccessToken}
    {row : TokenExchangeAccessToken} (h : StoresStamped signer rows)
    (hrow : IsStamped signer row) (hfresh : ∀ old ∈ rows, old.tokenHash ≠ row.tokenHash) :
    StoresStamped signer (rows ++ [row]) where
  stamped new hnew := by
    rcases List.mem_append.mp hnew with hold | hnew
    · exact h.stamped new hold
    · rw [List.mem_singleton.mp hnew]
      exact hrow
  hashes := h.hashes.append_singleton hfresh

/-- A revoked row keeps what it kept. -/
theorem IsStamped.revoke {row : TokenExchangeAccessToken} (h : IsStamped signer row)
    (now : Time) : IsStamped signer { row with revokedAt := some now } := by
  obtain ⟨input, jti, hclient, hsubject, haudience, hscopes, hclaims, hexpires, hactor, htenant,
    hhash⟩ := h
  exact ⟨input, jti, hclient, hsubject, haudience, hscopes, hclaims, hexpires, hactor, htenant,
    hhash⟩

theorem StoresStamped.revokeWhere {rows : List TokenExchangeAccessToken}
    (h : StoresStamped signer rows) (p : TokenExchangeAccessToken → Bool) (now : Time) :
    StoresStamped signer
      (Table.updateWhere p (fun row => { row with revokedAt := some now }) rows) where
  stamped new hnew := by
    obtain ⟨old, hold, rfl⟩ := Table.mem_updateWhere.mp hnew
    split_ifs
    · exact (h.stamped old hold).revoke now
    · exact h.stamped old hold
  hashes := h.hashes.updateWhere fun _ => rfl

/-- A command of a token request. -/
theorem StoresStamped.exec {c : Command} {w : World} (hc : Stamps signer c)
    (h : StoresStamped signer w.db.tokenExchangeAccessTokens) :
    StoresStamped signer (AtomicProgram.exec c w).db.tokenExchangeAccessTokens := by
  cases c with
  | read => exact h
  | generateId => exact h
  | insertRefreshToken row =>
    change StoresStamped signer
      (commit (Database.insertRefreshToken row) w).db.tokenExchangeAccessTokens
    unfold commit Statement.after
    split
    · rename_i u db hok
      obtain ⟨-, -, rfl⟩ := Database.insertRefreshToken_ok hok
      exact h
    · exact h
  | revokeRefreshToken id now => exact h
  | revokeRefreshTokenFamily familyId now => exact h
  | storeAccessToken row =>
    change StoresStamped signer
      (commit (Database.insertAccessToken row) w).db.tokenExchangeAccessTokens
    unfold commit Statement.after
    split
    · rename_i u db hok
      rw [Database.insertAccessToken_ok hok]
      exact h.append hc (Database.insertAccessToken_fresh hok)
    · exact h
  | rotateRefreshToken input now =>
    change StoresStamped signer
      (commit (Database.rotateRefreshToken input now) w).db.tokenExchangeAccessTokens
    unfold commit Statement.after
    split
    · rename_i u db hok
      rcases Database.rotateRefreshToken_accessTokens hok with hsame | ⟨hstored, hfresh⟩
      · rw [hsame]
        exact h
      · rw [hstored]
        exact h.append hc hfresh
    · exact h
  | _ => exact hc.elim

def stamping (signer : TokenExchangeJwtSigner) :
    Pool.Stepwise Command World Reply TokenRequest where
  issues _ c := Stamps signer c
  inv w := StoresStamped signer w.db.tokenExchangeAccessTokens
  cond _ _ _ := True

theorem stamping_sound : (stamping signer).Sound (tokenSystem signer) where
  program request := by
    cases request with
    | exchange input credentials => exact (exchangeAssertion_stamps input credentials).issues
    | refresh input credentials => exact (refreshToken_stamps input credentials).issues
  refl _ := trivial
  trans _ _ := trivial
  exec request c w hc _ h := ⟨h.exec hc, trivial⟩
  environment e w h := by
    cases e with
    | elapse milliseconds => exact ⟨h, trivial⟩
    | configure db => exact ⟨h, trivial⟩
    | withdraw credentialIds => exact ⟨h.revokeWhere _ w.clock, trivial⟩

/-- In every state of a run, the rows keep what was signed. -/
theorem storesStamped_of_states {w : World} {schedule : List TokenAction} :
    ∀ t ∈ (Pool.idle w.withoutTokens).states (tokenSystem signer) schedule,
      StoresStamped signer t.db.tokenExchangeAccessTokens :=
  stamping_sound.states ⟨fun _ h => absurd h List.not_mem_nil, List.nodup_nil⟩
    (fun _ _ _ => trivial) fun _ _ => trivial

end Stored

/-! ## What the client is told -/

section Answers

variable [Platform]

/-- The client is known under its secret, and its Application and organization are active. -/
def Database.Authenticates (db : Database) (credentials : ClientCredentials) : Prop :=
  ∃ secret client application organization,
    credentials.clientSecret.filter (fun secret => credentials.clientId ≠ "" && secret ≠ "") =
      some secret ∧
    (db.findClient credentials.clientId).filter (fun client => !client.disabled) = some client ∧
    (db.findApplicationByClientId credentials.clientId).filter
      (fun application => !application.disabled) = some application ∧
    (db.findOrganization application.ownerOrganizationId).filter
      (fun organization => !organization.disabled) = some organization ∧
    client.clientSecret ≠ some "" ∧
      client.clientSecret = some (Platform.hashProviderSecret secret)

variable {t : World} {credentials : ClientCredentials}

theorem authenticateApplicationClient_alone (h : t.db.Authenticates credentials) :
    (authenticateApplicationClient credentials).Meets undisturbed
      (fun result u => Undisturbed t u ∧ ∃ found, result = .ok found) t := by
  obtain ⟨secret, client, application, organization, hsecret, hclient, happlication,
    horganization, hne, hhash⟩ := h
  unfold authenticateApplicationClient
  rw [hsecret]
  apply meets_orThrow_some
  apply meets_query
  intro u htu _
  refine ⟨trivial, ?_⟩
  apply meets_query
  intro v huv _
  refine ⟨trivial, ?_⟩
  have htv := htu.trans huv
  rw [htu.1, htv.1, hclient, happlication]
  apply meets_orThrow_some
  apply meets_orThrow_some
  apply meets_query
  intro x hvx _
  refine ⟨trivial, ?_⟩
  have htx := htv.trans hvx
  rw [htx.1, horganization]
  apply meets_orThrow_some
  apply meets_throwIf
  · rintro (hnone | hempty | hother)
    · rw [hhash] at hnone
      cases hnone
    · exact absurd hempty hne
    · exact absurd hhash hother
  · intro _
    exact ⟨htx, _, rfl⟩

/-- A client that authenticates, at the head of a request. -/
theorem meets_authenticateApplicationClient {β : Type}
    {next : OAuthClient × ApplicationAggregate → Request β} {post : Except Error β → World → Prop}
    (h : t.db.Authenticates credentials)
    (hnext : ∀ found u, Undisturbed t u → (next found).Meets undisturbed post u) :
    (authenticateApplicationClient credentials >>= next).Meets undisturbed post t := by
  rw [Program.bind_eq, meets_bind]
  apply (authenticateApplicationClient_alone h).mono
  rintro _ u ⟨htu, found, rfl⟩
  exact hnext found u htu

variable {token issuer : String} {verifier : Time → TokenExchangeJwtVerifier}

/-- The answer to the client of a signed token, at a moment of the call. -/
theorem introspectToken_row (hclient : t.db.Authenticates credentials)
    {row : TokenExchangeAccessToken}
    (hrow : t.db.findAccessTokenByHash (Platform.hashProviderSecret token) = some row)
    (hown : row.clientId = credentials.clientId)
    (hsigned : opaqueAccessTokenPrefix.toList.isPrefixOf token.toList = false) :
    (introspectToken token credentials issuer verifier).Meets undisturbed
      (fun result u => ∃ answer time, result = .ok answer ∧ t.clock ≤ time ∧ time ≤ u.clock ∧
        ((row.revokedAt = none ∧
          answer = signedResponse ((verifier time).verify token issuer row.audience) row issuer) ∨
        ((row.revokedAt ≠ none ∨ row.expiresAt ≤ time) ∧ answer = inactiveResponse))) t := by
  apply meets_authenticateApplicationClient hclient
  intro found u htu
  apply meets_query
  intro v huv _
  refine ⟨trivial, ?_⟩
  have htv := htu.trans huv
  rw [htv.1, hrow]
  apply meets_currentTime
  intro x hvx _
  refine ⟨trivial, ?_⟩
  have htx := htv.trans hvx
  cases hselected : decide (row.clientId = credentials.clientId) && row.revokedAt.isNone &&
      decide (x.clock < row.expiresAt) with
  | false =>
    rw [Option.filter_some, hselected]
    refine ⟨inactiveResponse, x.clock, rfl, htx.2.2, le_rfl, Or.inr ⟨?_, rfl⟩⟩
    simp only [hown, decide_true, Bool.true_and, Bool.and_eq_false_iff, decide_eq_false_iff_not,
      not_lt] at hselected
    rcases hselected with hrevoked | hexpired
    · left
      intro hnone
      rw [hnone] at hrevoked
      cases hrevoked
    · exact Or.inr hexpired
  | true =>
    rw [Option.filter_some, hselected]
    simp only [Bool.and_eq_true, decide_eq_true_eq, Option.isNone_iff_eq_none] at hselected
    simp only [if_true, hsigned]
    apply meets_currentTime
    intro y hxy _
    refine ⟨trivial, _, y.clock, rfl, (htx.trans hxy).2.2, le_rfl, Or.inl ⟨hselected.1.2, rfl⟩⟩

/-- The answer about a string that is no stored token. -/
theorem introspectToken_none (hclient : t.db.Authenticates credentials)
    (hnone : t.db.findAccessTokenByHash (Platform.hashProviderSecret token) = none) :
    (introspectToken token credentials issuer verifier).Meets undisturbed
      (fun result _ => result = .ok inactiveResponse) t := by
  apply meets_authenticateApplicationClient hclient
  intro found u htu
  apply meets_query
  intro v huv _
  refine ⟨trivial, ?_⟩
  rw [(htu.trans huv).1, hnone]
  apply meets_currentTime
  intro x _ _
  exact ⟨trivial, rfl⟩

end Answers

/-! ## Agreement -/

section Agreement

variable [Platform] {signer : TokenExchangeJwtSigner} {verifier : Time → TokenExchangeJwtVerifier}

/-- The verifier accepts the tokens that were stored until they expire, and answers what was
signed. -/
def Verifies (signer : TokenExchangeJwtSigner) (verifier : Time → TokenExchangeJwtVerifier)
    (db : Database) : Prop :=
  ∀ row ∈ db.tokenExchangeAccessTokens, ∀ payload,
    row.tokenHash = Platform.hashProviderSecret (signer.sign payload "at+jwt") →
    payload.field "iss" = some (.str signer.issuer) →
    payload.field "aud" = some (.str row.audience) →
    ∀ exp, payload.field "exp" = some (.num exp) → ∀ time,
      (verifier time).verify (signer.sign payload "at+jwt") signer.issuer row.audience =
        if (toSeconds time : ℚ) < exp then some payload else none

/-- The answer says that the token is active until it is revoked or its signed expiry has passed,
and it says what was signed. -/
structure AgreesWith (payload : Record) (row : TokenExchangeAccessToken) (time : Time)
    (answer : Record) : Prop where
  active : ∃ exp : ℕ, payload.field "exp" = some (.num exp) ∧
    answer.field "active" = some (.bool (decide (row.revokedAt = none ∧ time < exp * 1000)))
  claims : answer.field "active" = some (.bool true) →
    ∀ claim ∈ ["sub", "client_id", "aud", "scope", realmrootOrganizationClaim],
      answer.field claim = payload.field claim

theorem Stamped.agrees {row : TokenExchangeAccessToken} {input : JwtAccessTokenInput}
    {jti : String} (h : Stamped signer row input jti) {db : Database}
    (hverifies : Verifies signer verifier db) (hrow : row ∈ db.tokenExchangeAccessTokens)
    {time : Time} {answer : Record}
    (hanswer : (row.revokedAt = none ∧ answer = signedResponse
        ((verifier time).verify (signer.sign (accessTokenPayload signer.issuer input jti) "at+jwt")
          signer.issuer row.audience) row signer.issuer) ∨
      ((row.revokedAt ≠ none ∨ row.expiresAt ≤ time) ∧ answer = inactiveResponse)) :
    AgreesWith (accessTokenPayload signer.issuer input jti) row time answer := by
  obtain ⟨tenant, htenant⟩ := h.tenant
  have hpayload := h.payload htenant
  have hexp : (accessTokenPayload signer.issuer input jti).field "exp" =
      some (.num (toSeconds row.expiresAt : ℕ)) := by
    rw [hpayload]
    rfl
  have hverified := hverifies row hrow _ h.tokenHash (by rw [hpayload]; rfl)
    (by rw [hpayload]; rfl) _ hexp time
  have hbefore : (toSeconds time : ℚ) < (toSeconds row.expiresAt : ℕ) ↔
      time < toSeconds row.expiresAt * 1000 := by
    rw [Nat.cast_lt]
    exact Nat.div_lt_iff_lt_mul (by decide)
  have hwhole : toSeconds row.expiresAt * 1000 ≤ row.expiresAt := Nat.div_mul_le_self _ _
  by_cases hactive : row.revokedAt = none ∧ time < toSeconds row.expiresAt * 1000
  · -- The token is verified, and its payload matches the row.
    have hresponse : answer = (accessTokenPayload signer.issuer input jti).spread
        [("active", .bool true), ("token_type", .str "Bearer")] := by
      rcases hanswer with ⟨-, rfl⟩ | ⟨hrevoked | hexpired, -⟩
      · rw [hverified, if_pos (hbefore.mpr hactive.2), signedResponse, Option.filter_some,
          h.matches]
        rfl
      · exact absurd hactive.1 hrevoked
      · exact absurd (hactive.2.trans_le (hwhole.trans hexpired)) (lt_irrefl _)
    constructor
    · refine ⟨_, hexp, ?_⟩
      rw [hresponse, Record.field_spread, decide_eq_true hactive]
      rfl
    · intro _ claim hclaim
      rw [hresponse, Record.field_spread]
      have hnone : Record.field [("active", .bool true), ("token_type", .str "Bearer")] claim =
          none := by
        revert claim
        decide
      rw [hnone]
      rfl
  · have hresponse : answer = inactiveResponse := by
      rcases hanswer with ⟨hnone, rfl⟩ | ⟨-, hinactive⟩
      · have hexpired : ¬ (toSeconds time : ℚ) < (toSeconds row.expiresAt : ℕ) := by
          rw [hbefore]
          exact fun hlt => hactive ⟨hnone, hlt⟩
        rw [hverified, if_neg hexpired]
        rfl
      · exact hinactive
    constructor
    · refine ⟨_, hexp, ?_⟩
      rw [hresponse, decide_eq_false hactive]
      rfl
    · intro htrue
      rw [hresponse] at htrue
      cases htrue

/-- The token was signed and stored. -/
def IsIssued (signer : TokenExchangeJwtSigner) (db : Database) (token : String) : Prop :=
  ∃ row ∈ db.tokenExchangeAccessTokens, ∃ payload, token = signer.sign payload "at+jwt" ∧
    row.tokenHash = Platform.hashProviderSecret token

theorem StoresStamped.find {db : Database} (h : StoresStamped signer db.tokenExchangeAccessTokens)
    {row : TokenExchangeAccessToken} (hrow : row ∈ db.tokenExchangeAccessTokens) :
    db.findAccessTokenByHash row.tokenHash = some row := by
  obtain ⟨found, hfound⟩ := Option.isSome_iff_exists.mp
    (List.find?_isSome (p := fun other : TokenExchangeAccessToken =>
      other.tokenHash = row.tokenHash) |>.mpr ⟨row, hrow, decide_eq_true rfl⟩)
  have hhash := List.find?_some hfound
  have hsame := h.hashes.eq_of_key (List.mem_of_find?_eq_some hfound) hrow (by simpa using hhash)
  rw [← hsame]
  exact hsame ▸ hfound

/-- In every state of a run of exchanges, refreshes and revocations, the client of a stored token
is told that it is active exactly when it is not revoked and its signed expiry has not passed, and
then what was signed; of any other string it is told that it is inactive. -/
theorem introspection_agrees (signer : TokenExchangeJwtSigner)
    (verifier : Time → TokenExchangeJwtVerifier)
    (hhash : Function.Injective Platform.hashProviderSecret)
    (hsigned : ∀ payload,
      opaqueAccessTokenPrefix.toList.isPrefixOf (signer.sign payload "at+jwt").toList = false)
    (w : World) (schedule : List TokenAction) (t : World)
    (ht : t ∈ (Pool.idle w.withoutTokens).states (tokenSystem signer) schedule)
    (hverifies : Verifies signer verifier t.db) (credentials : ClientCredentials)
    (hclient : t.db.Authenticates credentials) (around : Surroundings World Reply)
    (haround : Quiescent around) (n : ℕ) :
    (∀ row ∈ t.db.tokenExchangeAccessTokens, row.clientId = credentials.clientId →
      ∃ payload, row.tokenHash = Platform.hashProviderSecret (signer.sign payload "at+jwt") ∧
        ∃ answer time,
          ((introspectToken (signer.sign payload "at+jwt") credentials signer.issuer
            verifier).execute around n t).1 = .ok answer ∧
          t.clock ≤ time ∧
          time ≤ ((introspectToken (signer.sign payload "at+jwt") credentials signer.issuer
            verifier).execute around n t).2.clock ∧
          AgreesWith payload row time answer) ∧
      ∀ token, ¬ IsIssued signer t.db token →
        ((introspectToken token credentials signer.issuer verifier).execute around n t).1 =
          .ok inactiveResponse := by
  have hstored := storesStamped_of_states t ht
  constructor
  · intro row hrow hown
    obtain ⟨input, jti, hstamped⟩ := hstored.stamped row hrow
    have hfound := hstored.find hrow
    rw [hstamped.tokenHash] at hfound
    obtain ⟨answer, time, hanswer, hafter, hbefore, hcases⟩ :=
      (introspectToken_row hclient hfound hown
        (hsigned _)).execute around haround (fun _ => trivial) n
    exact ⟨_, hstamped.tokenHash, answer, time, hanswer, hafter, hbefore,
      hstamped.agrees hverifies hrow hcases⟩
  · intro token hunknown
    have hnone : t.db.findAccessTokenByHash (Platform.hashProviderSecret token) = none := by
      rw [Database.findAccessTokenByHash, List.find?_eq_none]
      intro row hrow hsame
      obtain ⟨input, jti, hstamped⟩ := hstored.stamped row hrow
      have hrowHash : row.tokenHash = Platform.hashProviderSecret token := by simpa using hsame
      have htoken := hhash (hstamped.tokenHash.symm.trans hrowHash)
      exact hunknown ⟨row, hrow, _, htoken.symm, hrowHash⟩
    exact (introspectToken_none hclient
      hnone).execute around haround (fun _ => trivial) n

end Agreement

namespace IntrospectionExample

attribute [local instance] TokenExample.platform

def payload : Record :=
  [("iss", .str "realmroot"), ("sub", .str "workload"), ("aud", .str "https://api"),
    ("client_id", .str "client"), ("scope", .str "read offline_access"),
    (realmrootOrganizationClaim, .str "org"), ("iat", .num 0), ("exp", .num 1000),
    ("jti", .str "a")]

def signer : TokenExchangeJwtSigner :=
  { issuer := "realmroot", sign := fun signed _ => if signed = payload then "token" else "other" }

def verifier (time : Time) : TokenExchangeJwtVerifier :=
  { verify := fun token _ _ =>
      if token = "token" ∧ toSeconds time < 1000 then some payload else none }

/-- An exchange has stored a token. -/
def schedule : List TokenAction :=
  .start TokenExample.exchange ::
    List.replicate 30 (.advance 0 { random := "a", verified := some true })

def issued : World := (tokenRun signer TokenExample.world schedule).state

theorem issued_hash : ∀ row ∈ issued.db.tokenExchangeAccessTokens, row.tokenHash = "token" := by
  decide +kernel

theorem issued_verifies : Verifies signer verifier issued.db := by
  intro row hrow signed hhash _ _ exp hexp time
  rw [issued_hash row hrow] at hhash
  have hpayload : signed = payload := by
    by_contra hne
    have hother : "token" = "other" := hhash.trans (if_neg hne)
    revert hother
    decide
  subst hpayload
  have hexp' : exp = 1000 := by
    have hvalue : Record.field payload "exp" = some (.num 1000) := by decide +kernel
    rw [hvalue] at hexp
    simpa using hexp.symm
  subst hexp'
  have htoken : signer.sign payload "at+jwt" = "token" := by simp [signer]
  rw [htoken]
  by_cases hbefore : toSeconds time < 1000
  · have hcast : (toSeconds time : ℚ) < 1000 := by exact_mod_cast hbefore
    simp [verifier, hbefore, hcast]
  · have hcast : ¬ (toSeconds time : ℚ) < 1000 := by exact_mod_cast hbefore
    simp [verifier, hbefore, hcast]

theorem issued_authenticates : issued.db.Authenticates TokenExample.credentials := by
  have hclient : issued.db.findClient "client" = TokenExample.world.db.findClient "client" := by
    decide +kernel
  have happlication : issued.db.findApplicationByClientId "client" =
      TokenExample.world.db.findApplicationByClientId "client" := by
    decide +kernel
  have horganization : issued.db.findOrganization "org" =
      TokenExample.world.db.findOrganization "org" := by
    decide +kernel
  unfold Database.Authenticates
  change ∃ secret client application organization, _ ∧
    (issued.db.findClient "client").filter _ = some client ∧
      (issued.db.findApplicationByClientId "client").filter _ = some application ∧ _
  rw [hclient, happlication]
  refine ⟨"secret", _, _, { id := "org", slug := "org", disabled := false }, by decide, rfl, rfl,
    ?_, by decide, rfl⟩
  change (issued.db.findOrganization "org").filter _ = _
  rw [horganization]
  rfl

def still : Surroundings World Reply := { elapse := fun _ s => s, reply := fun _ => {} }

/-- The client of the token is told what was signed in it. -/
theorem introspection_agrees_token :
    issued.db.tokenExchangeAccessTokens ≠ [] ∧
      ∀ row ∈ issued.db.tokenExchangeAccessTokens, row.clientId = "client" →
        ∃ payload, row.tokenHash = Platform.hashProviderSecret (signer.sign payload "at+jwt") ∧
          ∃ answer time,
            ((introspectToken (signer.sign payload "at+jwt") TokenExample.credentials "realmroot"
              verifier).execute still 0 issued).1 = .ok answer ∧
            issued.clock ≤ time ∧
            time ≤ ((introspectToken (signer.sign payload "at+jwt") TokenExample.credentials
              "realmroot" verifier).execute still 0 issued).2.clock ∧
            AgreesWith payload row time answer := by
  refine ⟨by decide +kernel, ?_⟩
  apply (introspection_agrees signer verifier (fun _ _ h => h) ?_
    TokenExample.world schedule issued (Pool.run_mem_states _ _ _) issued_verifies
    TokenExample.credentials issued_authenticates still (fun _ s => Undisturbed.refl s) 0).1
  intro signed
  unfold signer
  dsimp only
  split <;> decide

end IntrospectionExample

end Realmroot
