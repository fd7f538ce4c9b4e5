import Realmroot.AccessFrames
import Realmroot.Rules
import Realmroot.Usecases.TokenIssue

/-!
# Lifetimes of native tokens

A native token ends with the first of its entitlements, or after five minutes. Its times are
whole seconds, rounded down, and what is reported of its lifetime is one second at least.
-/

namespace Realmroot

open AtomicProgram Program Error

/-! ## Seconds -/

/-- Rounding down loses as much of a difference as of its two ends, or less. -/
theorem toSeconds_sub_le (a b : ℕ) : (a - b) / 1000 ≤ toSeconds a - toSeconds b := by
  unfold toSeconds
  omega

theorem toSeconds_mul_le (a : ℕ) : toSeconds a * 1000 ≤ a := by
  unfold toSeconds
  omega

/-- A lifetime of one second at least fits between the two ends when they are in different
seconds. -/
theorem reported_fits_iff (now expiresAt : ℕ) :
    toSeconds now + max 1 ((expiresAt - now) / 1000) ≤ toSeconds expiresAt ↔
      toSeconds now < toSeconds expiresAt := by
  have hsub := toSeconds_sub_le expiresAt now
  omega

theorem five_minutes (now : ℕ) : toSeconds (now + 5 * 60 * 1000) = toSeconds now + 300 := by
  unfold toSeconds
  omega

/-! ## The end of a token -/

section Expiry

variable {entitlements : List ResourceScopeEntitlement} {now : Time}

theorem mem_expiries {expiry : Time} :
    expiry ∈ entitlements.filterMap (·.expiresAt) ↔
      ∃ entitlement ∈ entitlements, expiry ∈ entitlement.expiresAt := by
  simp [List.mem_filterMap, Option.mem_def]

/-- The first end of an entitlement is one of them, and no other comes before it. -/
theorem earliestEntitlementExpiry_some {first : Time}
    (h : earliestEntitlementExpiry entitlements = some first) :
    (∃ entitlement ∈ entitlements, first ∈ entitlement.expiresAt) ∧
      ∀ entitlement ∈ entitlements, ∀ expiry ∈ entitlement.expiresAt, first ≤ expiry := by
  obtain ⟨hmem, hleast⟩ := List.min?_eq_some_iff.mp h
  refine ⟨mem_expiries.mp hmem, ?_⟩
  intro entitlement hentitlement expiry hexpiry
  exact hleast expiry (mem_expiries.mpr ⟨entitlement, hentitlement, hexpiry⟩)

theorem earliestEntitlementExpiry_none (h : earliestEntitlementExpiry entitlements = none) :
    ∀ entitlement ∈ entitlements, ∀ expiry, expiry ∉ entitlement.expiresAt := by
  intro entitlement hentitlement expiry hexpiry
  have hmem := mem_expiries.mpr ⟨entitlement, hentitlement, hexpiry⟩
  rw [List.min?_eq_none_iff.mp h] at hmem
  cases hmem

/-- A token ends with each of its entitlements at the latest. -/
theorem nativeExpiry_le {entitlement : ResourceScopeEntitlement}
    (hentitlement : entitlement ∈ entitlements) {expiry : Time}
    (hexpiry : expiry ∈ entitlement.expiresAt) : nativeExpiry entitlements now ≤ expiry := by
  unfold nativeExpiry
  cases h : earliestEntitlementExpiry entitlements with
  | none => exact absurd hexpiry (earliestEntitlementExpiry_none h entitlement hentitlement expiry)
  | some first =>
    have hfirst := (earliestEntitlementExpiry_some h).2 entitlement hentitlement expiry hexpiry
    exact (min_le_left _ _).trans hfirst

theorem nativeExpiry_le_maximum : nativeExpiry entitlements now ≤ now + 5 * 60 * 1000 := by
  unfold nativeExpiry
  cases earliestEntitlementExpiry entitlements with
  | none => exact le_rfl
  | some first => exact min_le_right _ _

/-- The token ends in a later second than the one in which it is issued exactly when each of its
entitlements does. -/
theorem nativeExpiry_later_iff :
    toSeconds now < toSeconds (nativeExpiry entitlements now) ↔
      ∀ entitlement ∈ entitlements, ∀ expiry ∈ entitlement.expiresAt,
        toSeconds now < toSeconds expiry := by
  constructor
  · intro hlater entitlement hentitlement expiry hexpiry
    have hle : nativeExpiry entitlements now ≤ expiry := nativeExpiry_le hentitlement hexpiry
    have hseconds : toSeconds (nativeExpiry entitlements now) ≤ toSeconds expiry :=
      Nat.div_le_div_right hle
    omega
  · intro hall
    have hmaximum := five_minutes now
    unfold nativeExpiry
    cases h : earliestEntitlementExpiry entitlements with
    | none =>
      dsimp only
      omega
    | some first =>
      obtain ⟨entitlement, hentitlement, hexpiry⟩ := (earliestEntitlementExpiry_some h).1
      have hfirst := hall entitlement hentitlement first hexpiry
      dsimp only
      rcases min_choice first (now + 5 * 60 * 1000) with hmin | hmin
      · rw [hmin]
        exact hfirst
      · rw [hmin]
        omega

end Expiry

/-! ## What is issued -/

/-- The claims that are signed, the stored lease, and what is answered. -/
structure NativeToken where
  claims : Record
  lease : ExternalTokenLease
  answer : TargetAccessToken

namespace NativeToken

variable (token : NativeToken)

/-- The answer carries the signed claims, which begin when the lease was created; the lease is
stored, and is for the answered token and the entitlements. -/
structure Issued [Platform] (context : IssueContext) (signer : AgentAssertionSigner)
    (db : Database) : Prop where
  signed : token.answer.accessToken = signer.sign token.claims "at+jwt"
  claims : ∃ jti groups bindingClaim, token.claims =
    nativeTokenClaims context signer.issuer jti token.lease.confirmationJkt groups bindingClaim
      token.lease.createdAt token.lease.expiresAt
  stored : token.lease ∈ db.externalTokenLeases
  hash : token.lease.tokenHash = Platform.sha256 token.answer.accessToken
  entitlements : token.lease.entitlementIds = context.entitlements.map (·.id)

/-- The token ends with its authority: the signed end comes before the end of each entitlement,
five minutes after the beginning at the latest, and before the end of the lease; and the
reported lifetime is positive and fits between the signed times. -/
def EndsWithAuthority (entitlements : List ResourceScopeEntitlement) : Prop :=
  ∃ iat exp : ℕ, token.claims.field "iat" = some (.num iat) ∧
    token.claims.field "exp" = some (.num exp) ∧
    (∀ entitlement ∈ entitlements, ∀ expiry ∈ entitlement.expiresAt, exp * 1000 ≤ expiry) ∧
    exp ≤ iat + 300 ∧ exp * 1000 ≤ token.lease.expiresAt ∧
    0 < token.answer.expiresIn ∧ iat + token.answer.expiresIn ≤ exp

end NativeToken

section Claims

variable (context : IssueContext) (issuer jti confirmationJkt : String) (groups : List String)
  (bindingClaim : Json) (now expiresAt : Time)

theorem nativeTokenClaims_iat :
    (nativeTokenClaims context issuer jti confirmationJkt groups bindingClaim now
      expiresAt).field "iat" = some (.num (toSeconds now)) := by
  rfl

theorem nativeTokenClaims_exp :
    (nativeTokenClaims context issuer jti confirmationJkt groups bindingClaim now
      expiresAt).field "exp" = some (.num (toSeconds expiresAt)) := by
  rfl

end Claims

/-- A token whose times come from one look at the clock. -/
theorem NativeToken.endsWithAuthority_iff {token : NativeToken}
    {entitlements : List ResourceScopeEntitlement}
    (hiat : token.claims.field "iat" = some (.num (toSeconds token.lease.createdAt)))
    (hexp : token.claims.field "exp" = some (.num (toSeconds token.lease.expiresAt)))
    (hexpiry : token.lease.expiresAt = nativeExpiry entitlements token.lease.createdAt)
    (hanswer : token.answer.expiresIn =
      max 1 ((token.lease.expiresAt - token.lease.createdAt) / 1000)) :
    token.EndsWithAuthority entitlements ↔
      ∀ entitlement ∈ entitlements, ∀ expiry ∈ entitlement.expiresAt,
        toSeconds token.lease.createdAt < toSeconds expiry := by
  rw [← nativeExpiry_later_iff, ← hexpiry, ← reported_fits_iff, ← hanswer]
  constructor
  · rintro ⟨iat, exp, hiat', hexp', -, -, -, -, hfits⟩
    rw [hiat, Option.some.injEq, Json.num.injEq, Nat.cast_inj] at hiat'
    rw [hexp, Option.some.injEq, Json.num.injEq, Nat.cast_inj] at hexp'
    rw [hiat', hexp']
    exact hfits
  · intro hfits
    have hlease := toSeconds_mul_le token.lease.expiresAt
    refine ⟨_, _, hiat, hexp, ?_, ?_, hlease, ?_, hfits⟩
    · intro entitlement hentitlement expiry hmem
      have hle : token.lease.expiresAt ≤ expiry := by
        rw [hexpiry]
        exact nativeExpiry_le hentitlement hmem
      exact hlease.trans hle
    · rw [← five_minutes, hexpiry]
      exact Nat.div_le_div_right nativeExpiry_le_maximum
    · omega

/-- A program whose value does not matter to what is shown. -/
theorem meets_any {α β : Type} {p : Request α} {next : α → Request β}
    {post : Except Error β → World → Prop} {w : World} (herror : ∀ e t, post (.error e) t)
    (hnext : ∀ a t, (next a).Meets (alone Command (fun _ _ => True) fun _ => True) post t) :
    (p >>= next).Meets (alone Command (fun _ _ => True) fun _ => True) post w := by
  rw [bind_eq, meets_bind]
  have huses : p.Uses fun _ => True := by
    induction p with
    | pure a => trivial
    | throw e => trivial
    | call c next ih => exact ⟨trivial, fun s => ih s⟩
    | ask next ih => exact fun r => ih r
  refine huses.meets (fun _ _ _ _ => trivial) ?_ w
  rintro (e | a) t
  · exact herror e t
  · exact hnext a t

/-- A lease that the batch answers is stored. -/
theorem issueTokenLease_stored {lease inserted : ExternalTokenLease}
    {boundary : TokenLeaseAuthorizationBoundary} {consumeEntitlementIds : List String} {now : Time}
    {audit : AgentAuditEvent} {db db' : Database}
    (h : Database.issueTokenLeaseWithAudit lease boundary consumeEntitlementIds now audit db =
      .ok (some inserted, db')) : lease ∈ db'.externalTokenLeases := by
  obtain ⟨db₁, hinsert, rfl⟩ := Database.issueTokenLease_spends h
  obtain ⟨hnone, -, -⟩ | ⟨-, -, rfl⟩ := Database.insertTokenLease_ok hinsert
  · cases hnone
  · unfold Database.spendLease
    split_ifs
    · rw [Database.recordAudit_agentAuditEvents]
      exact List.mem_append_right _ List.mem_cons_self
    · exact List.mem_append_right _ List.mem_cons_self

section Issuing

variable [Platform] {context : IssueContext} {signer : AgentAssertionSigner}

/-- The lease is stored when the batch succeeds. -/
theorem IssueContext.store_meets (connection : Option ProviderResourceAuthorizationRecord)
    (issued : IssuedToken) (now : Time) (w : World) :
    (context.store connection issued now).Meets
      (alone Command (fun _ _ => True) fun _ => True)
      (fun r t => ∀ u, r = .ok u → ∃ id encryptedAccessToken,
        context.lease id encryptedAccessToken issued now ∈ t.db.externalTokenLeases) w := by
  unfold IssueContext.store
  apply meets_any (fun e t u h => by cases h)
  intro leaseId t
  apply meets_any (fun e t u h => by cases h)
  intro encryptedAccessToken t
  apply meets_any (fun e t u h => by cases h)
  intro audit t
  apply meets_execute
  intro s _ _
  refine ⟨trivial, ?_, fun e _ u h => by cases h⟩
  intro inserted db hstatement
  cases inserted with
  | none =>
    intro u h
    cases h
  | some inserted =>
    intro u _
    exact ⟨leaseId, encryptedAccessToken, issueTokenLease_stored hstatement⟩

/-- What is answered is signed and stored, and its times come from one look at the clock. -/
theorem issueNativeAccessToken_meets (input : TargetTokenRequest) (w : World) :
    (issueNativeAccessToken context input signer).Meets
      (alone Command (fun _ _ => True) fun _ => True)
      (fun r t => ∀ answer, r = .ok answer → ∃ token : NativeToken, token.answer = answer ∧
        token.Issued context signer t.db ∧
        (token.EndsWithAuthority context.entitlements ↔
          ∀ entitlement ∈ context.entitlements, ∀ expiry ∈ entitlement.expiresAt,
            toSeconds token.lease.createdAt < toSeconds expiry)) w := by
  unfold issueNativeAccessToken
  apply meets_any (fun e t u h => by cases h)
  intro _ t
  apply meets_any (fun e t u h => by cases h)
  intro _ t
  apply meets_any (fun e t u h => by cases h)
  intro _ t
  apply meets_any (fun e t u h => by cases h)
  intro confirmationJkt t
  apply meets_any (fun e t u h => by cases h)
  intro now t
  apply meets_any (fun e t u h => by cases h)
  intro _ t
  apply meets_any (fun e t u h => by cases h)
  intro groups t
  apply meets_any (fun e t u h => by cases h)
  intro jti t
  apply meets_any (fun e t u h => by cases h)
  intro bindingClaim t
  rw [bind_eq, meets_bind]
  refine (IssueContext.store_meets _ _ _ t).mono ?_
  rintro (e | u) s hstored
  · intro answer h
    cases h
  obtain ⟨id, encryptedAccessToken, hmem⟩ := hstored u rfl
  intro answer h
  cases h
  exact ⟨{ claims := _, lease := _, answer := _ }, rfl,
    ⟨rfl, ⟨jti, groups, bindingClaim, rfl⟩, hmem, rfl, rfl⟩,
    NativeToken.endsWithAuthority_iff (nativeTokenClaims_iat ..) (nativeTokenClaims_exp ..)
      rfl rfl⟩

/-- Whatever goes on around a call, and whenever it looks at the clock: the token that it answers
ends with its authority exactly when each entitlement ends in a later second than the one in
which the token is issued. -/
theorem native_token_ends_iff (context : IssueContext) (input : TargetTokenRequest)
    (signer : AgentAssertionSigner) (around : Surroundings World Reply) (n : ℕ) (w : World)
    (answer : TargetAccessToken)
    (h : ((issueNativeAccessToken context input signer).execute around n w).1 = .ok answer) :
    ∃ token : NativeToken, token.answer = answer ∧
      token.Issued context signer
        ((issueNativeAccessToken context input signer).execute around n w).2.db ∧
      (token.EndsWithAuthority context.entitlements ↔
        ∀ entitlement ∈ context.entitlements, ∀ expiry ∈ entitlement.expiresAt,
          toSeconds token.lease.createdAt < toSeconds expiry) :=
  (issueNativeAccessToken_meets input w).execute around (fun _ _ => trivial) (fun _ => trivial) n
    answer h

end Issuing

namespace NativeTokenExample

attribute [local instance] samplePlatform

def api : ApiResource :=
  { id := "api", identifier := "api", name := "API", description := none
    resourceUrl := "https://api", authorizationModel := .native
    connectorId := none, authorizationDetails := [], enabled := true
    ownerOrganizationId := "acme", visibility := .public, scopeRegistry := none
    availableToAgents := true, deletedAt := none, updatedAt := 0 }

def entitlement (expiresAt : Time) : ResourceScopeEntitlement :=
  { id := "entitlement", userId := none, applicationId := none
    agentIdentityId := some "agent", organizationId := none, resourceServerId := "api"
    connectionId := none, authorizationDetails := [nativeAuthority "user" "ada"]
    authorizationContextHash := contextHash [nativeAuthority "user" "ada"], scope := "read"
    mode := .until, grantedByUserId := some "ada", grantedByAgentIdentityId := none
    sourceAccessRequestId := some "request", expiresAt := some expiresAt, endedAt := none
    endReason := none, createdAt := 0, updatedAt := 0 }

def request : AgentAccessRequest :=
  { id := "request", resourceId := "api", connectionId := none, agentIdentityId := "agent"
    bindingId := "binding", scopes := ["read"]
    authorizationDetails := [nativeAuthority "user" "ada"], status := .approved
    approvedEntitlements := [{ scope := "read", entitlementId := "entitlement" }]
    expiresAt := 0, decidedAt := some 0, createdAt := 0, updatedAt := 0 }

def principal : AgentResourcePrincipal :=
  { issuer := "https://realmroot", subject := "agent", identityId := "agent"
    protocolAgentId := "protocol", hostId := "host", runtime := none, sessionId := none
    identity :=
      { id := "agent", issuer := "https://realmroot", subject := "agent", ownerUserId := "ada"
        status := .active, deletedAt := none }
    binding :=
      { id := "binding", agentIdentityId := "agent", protocolAgentId := "protocol"
        hostId := "host", status := "active", revokedAt := none } }

def signer : AgentAssertionSigner :=
  { issuer := "https://realmroot", sign := fun _ _ => "token" }

def input : TargetTokenRequest :=
  { requestId := "request", dpopProof := "proof", tokenRequestUrl := "https://realmroot/token"
    tokenRequestOrigin := "https://realmroot" }

/-- What goes on around the call: nothing. -/
def quiet : Surroundings World Reply :=
  { elapse := fun _ s => s, reply := fun _ => { header := some "thumbprint" } }

/-- At 1400, with an entitlement that ends at the given time. -/
def world (expiresAt : Time) : World :=
  { db :=
      { apiResources := [api], agentAccessRequests := [request]
        agentIdentities := [principal.identity]
        resourceScopeEntitlements := [entitlement expiresAt] }
    clock := 1400, nextId := 0 }

def context (expiresAt : Time) : IssueContext :=
  { request := request, entitlements := [entitlement expiresAt], resource := api
    principal := principal }

def answer (expiresAt : Time) (expiresIn : ℕ) : TargetAccessToken :=
  { accessToken := "token", expiresIn := expiresIn, expiresAt := expiresAt, scopes := ["read"]
    authorizationDetails := [nativeAuthority "user" "ada"], resourceUrl := "https://api"
    dpopNonce := none }

/-- A token for an entitlement that ends a minute later ends with it. -/
theorem native_token_ends_minute :
    ((issueNativeAccessToken (context 61400) input signer).execute quiet 0
      (world 61400)).1 = .ok (answer 61400 60) ∧
    ∃ token : NativeToken, token.answer = answer 61400 60 ∧
      token.Issued (context 61400) signer
        ((issueNativeAccessToken (context 61400) input signer).execute quiet 0
          (world 61400)).2.db ∧
      (token.EndsWithAuthority (context 61400).entitlements ↔
        ∀ entitlement ∈ (context 61400).entitlements, ∀ expiry ∈ entitlement.expiresAt,
          toSeconds token.lease.createdAt < toSeconds expiry) :=
  have hanswer : ((issueNativeAccessToken (context 61400) input signer).execute quiet 0
      (world 61400)).1 = .ok (answer 61400 60) := by decide +kernel
  ⟨hanswer, native_token_ends_iff (context 61400) input signer quiet 0 (world 61400) _ hanswer⟩

/-- Half a second before the entitlement ends, the signed times are the same, and a lifetime of
one second is reported. -/
theorem reported_beyond_token :
    ¬ ∀ (context : IssueContext) (input : TargetTokenRequest) (signer : AgentAssertionSigner)
        (around : Surroundings World Reply) (n : ℕ) (w : World) (answer : TargetAccessToken),
      ((issueNativeAccessToken context input signer).execute around n w).1 = .ok answer →
        ∃ token : NativeToken, token.answer = answer ∧
          token.Issued context signer
            ((issueNativeAccessToken context input signer).execute around n w).2.db ∧
          token.EndsWithAuthority context.entitlements := by
  intro h
  obtain ⟨token, hanswer, hissued, iat, exp, hiat, hexp, hends, -, -, -, hfits⟩ :=
    h (context 1900) input signer quiet 0 (world 1900) (answer 1900 1) (by decide +kernel)
  have hcreated : ∀ lease ∈ ((issueNativeAccessToken (context 1900) input signer).execute quiet 0
      (world 1900)).2.db.externalTokenLeases, lease.createdAt = 1400 := by decide +kernel
  obtain ⟨jti, groups, bindingClaim, hclaims⟩ := hissued.claims
  rw [hclaims, nativeTokenClaims_iat, hcreated token.lease hissued.stored, Option.some.injEq,
    Json.num.injEq, Nat.cast_inj] at hiat
  have hexpiry : exp * 1000 ≤ 1900 := hends (entitlement 1900) (by simp [context]) 1900 rfl
  have hseconds : toSeconds 1400 = 1 := by decide
  have hreported : token.answer.expiresIn = 1 := by
    rw [hanswer]
    rfl
  omega

end NativeTokenExample

end Realmroot
