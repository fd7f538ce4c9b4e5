import Realmroot.Delegation

/-!
# Chains of delegated exchanges

Every exchange of a chain runs on the token that the exchange before it issued,
each in a world of its own. The delegation stays the same from end to end, the
tokens do not outlive one another, and every scope on the way was let through by
the exchange that issued it.
-/

namespace Realmroot

open AtomicProgram Program Chains

/-- A token and the claims that a verifier reads from it. -/
structure VerifiedToken where
  token : String
  claims : Record

/-- What the verifier returns for a signed token is the payload that was signed. -/
def VerifiesSigned (signer : TokenExchangeJwtSigner) (verifier : TokenExchangeJwtVerifier) :
    Prop :=
  ∀ payload type audience claims,
    verifier.verify (signer.sign payload type) signer.issuer audience = some claims →
      claims = payload

/-- One call of `exchangeDelegatedUserToken`, with the token that it issues. -/
structure ExchangeCall where
  world : World
  around : Surroundings World Reply
  input : TokenExchangeRequest
  clientId : String
  application : ApplicationAggregate
  issued : VerifiedToken

namespace ExchangeCall

variable [Platform] (signer : TokenExchangeJwtSigner) (call : ExchangeCall)

/-- The result of the call and the world in which it ends. -/
def result : Except Error TokenExchangeResponse × World :=
  (exchangeDelegatedUserToken call.input call.clientId call.application signer).execute
    call.around 0 call.world

end ExchangeCall

/-- The call exchanges the previous token for the one it issues. -/
structure Exchanges [Platform] (signer : TokenExchangeJwtSigner)
    (verifier : TokenExchangeJwtVerifier) (previous : VerifiedToken) (call : ExchangeCall) :
    Prop where
  alone : Quiescent call.around
  subjectToken : call.input.subjectToken = previous.token
  subjectClaims : call.input.verifiedSubjectClaims = some previous.claims
  succeeds : ∃ response, (call.result signer).1 = .ok response ∧
    response.accessToken = call.issued.token
  verified : ∃ audience, verifier.verify call.issued.token signer.issuer audience =
    some call.issued.claims

/-- What a call lets through, seen from its subject token. -/
def CallBounded [Platform] (signer : TokenExchangeJwtSigner) (previous : VerifiedToken)
    (call : ExchangeCall) : Prop :=
  ScopesBounded call.world.db call.world.clock (call.result signer).2.clock call.application
    call.input previous.claims call.issued.claims

section Chain

variable [Platform] {signer : TokenExchangeJwtSigner} {verifier : TokenExchangeJwtVerifier}

theorem Exchanges.attenuates (hverifies : VerifiesSigned signer verifier)
    {previous : VerifiedToken} {call : ExchangeCall}
    (h : Exchanges signer verifier previous call) :
    SameDelegation previous.claims call.issued.claims ∧
      ExpiresWithin previous.claims call.issued.claims ∧ CallBounded signer previous call := by
  have hspec := Meets.execute call.around h.alone (fun _ => trivial)
    (exchangeDelegatedUserToken_spec call.input call.clientId call.application signer call.world) 0
  obtain ⟨response, hresult, htoken⟩ := h.succeeds
  obtain ⟨audience, hverify⟩ := h.verified
  unfold ExchangeCall.result at hresult
  rw [hresult] at hspec
  obtain ⟨claims, issued, hclaims, hsigned, hsame, hexpires, hbounded⟩ := hspec
  rw [h.subjectClaims] at hclaims
  cases hclaims
  rw [← htoken, hsigned] at hverify
  have hissued := hverifies _ _ _ _ hverify
  unfold CallBounded ExchangeCall.result
  rw [hissued]
  exact ⟨hsame, hexpires, hbounded⟩

/-- Along every chain of exchanges the delegation stays the same, expiries do not
increase, and each exchange bounds the scopes that it issues. -/
theorem exchange_chain_attenuates (hverifies : VerifiesSigned signer verifier)
    {root : VerifiedToken} {calls : List ExchangeCall}
    (h : Chained (Exchanges signer verifier) ExchangeCall.issued root calls) :
    (∀ call ∈ calls, SameDelegation root.claims call.issued.claims) ∧
      Chained (fun previous call => ExpiresWithin previous.claims call.issued.claims)
        ExchangeCall.issued root calls ∧
      Chained (CallBounded signer) ExchangeCall.issued root calls := by
  refine ⟨?_, ?_, ?_⟩
  · have hsame := h.rel (T := fun a b => SameDelegation a.claims b.claims)
      SameDelegation.trans fun _ _ hstep => (hstep.attenuates hverifies).1
    exact hsame
  · exact h.mono fun _ _ hstep => (hstep.attenuates hverifies).2.1
  · exact h.mono fun _ _ hstep => (hstep.attenuates hverifies).2.2

end Chain

/-! ## A chain of two exchanges -/

namespace DelegationExample

@[reducible] def platform : Platform := samplePlatform

attribute [local instance] platform

def resource (id scope : String) (grantMode : GrantMode) : ApiResource :=
  { id := id, identifier := id, name := id, description := none, resourceUrl := "https://" ++ id
    authorizationModel := .native, connectorId := none, authorizationDetails := []
    enabled := true, ownerOrganizationId := "org", visibility := .private
    scopeRegistry := some { scopes := [{ value := scope, description := none
                                         grantMode := grantMode }] }
    availableToAgents := false, deletedAt := none, updatedAt := 0 }

def grant (id : String) (userId applicationId : Option String) : ResourceScopeEntitlement :=
  { id := id, userId := userId, applicationId := applicationId, agentIdentityId := none
    organizationId := none, resourceServerId := "c", connectionId := none
    authorizationDetails := [], authorizationContextHash := "", scope := "write"
    mode := .persistent, grantedByUserId := some "admin", grantedByAgentIdentityId := none
    sourceAccessRequestId := none, expiresAt := none, endedAt := none, endReason := none
    createdAt := 0, updatedAt := 0 }

def world : World :=
  { db :=
      { users := [{ id := "user", banned := false, deletedAt := none }]
        apiResources := [resource "a" "start" .automatic, resource "b" "read" .automatic,
          resource "c" "write" .assigned]
        resourceScopeEntitlements := [grant "e" (some "user") none, grant "f" none (some "app")] }
    clock := 0, nextId := 0 }

def application : ApplicationAggregate :=
  { id := "app", clientId := "client", disabled := false, ownerOrganizationId := "org"
    visibility := .private, oidcScopes := []
    resourceScopes := [{ resourceServerId := "b", scopes := ["read"] },
      { resourceServerId := "c", scopes := ["write"] }]
    tokenExchangePolicies := [
      .resource "a" "b" [{ sourceScope := "start", targetScope := "read" }],
      .resource "b" "c" [{ sourceScope := "read", targetScope := "write" }]] }

def rootClaims : Record :=
  [("iss", .str "issuer"), ("sub", .str "user"), ("aud", .str "https://a"),
    ("scope", .str "start"), ("exp", .num 1000)]

def jwt (audience scope : String) : JwtAccessTokenInput :=
  { clientId := "client", subject := "user", audience := audience, scopes := [scope], claims := []
    actor := none, issuedAt := 0, expiresAt := 300000 }

def firstClaims : Record := accessTokenPayload "issuer" (jwt "https://b" "read") ""

def secondClaims : Record := accessTokenPayload "issuer" (jwt "https://c" "write") ""

def signer : TokenExchangeJwtSigner where
  issuer := "issuer"
  sign payload _ :=
    if payload = firstClaims then "first" else if payload = secondClaims then "second" else ""

def verifier : TokenExchangeJwtVerifier where
  verify token _ _ :=
    if token = "first" then some firstClaims
    else if token = "second" then some secondClaims else none

def call (token audience scope : String) (claims : Record) (issued : VerifiedToken) :
    ExchangeCall :=
  { world := world, around := { elapse := fun _ s => s, reply := fun _ => {} }
    input :=
      { grantType := tokenExchangeGrantType, subjectToken := token
        subjectTokenType := accessTokenType, audience := audience, scope := some scope
        requestedTokenType := none, verifiedSubjectClaims := some claims }
    clientId := "client", application := application, issued := issued }

def root : VerifiedToken := { token := "root", claims := rootClaims }

def first : ExchangeCall :=
  call "root" "https://b" "read" rootClaims { token := "first", claims := firstClaims }

def second : ExchangeCall :=
  call "first" "https://c" "write" firstClaims { token := "second", claims := secondClaims }

theorem verifiesSigned : VerifiesSigned signer verifier := by
  intro payload type audience claims h
  unfold verifier signer at h
  simp only at h
  split_ifs at h with hfirst hsecond <;> simp_all

theorem exchanges_first : Exchanges signer verifier root first where
  alone _ s := Undisturbed.refl s
  subjectToken := rfl
  subjectClaims := rfl
  succeeds := by
    refine ⟨{ accessToken := "first", issuedTokenType := accessTokenType, expiresIn := 300
              scope := "read", refreshToken := none }, ?_, rfl⟩
    decide +kernel
  verified := ⟨"https://b", by decide⟩

theorem exchanges_second : Exchanges signer verifier first.issued second where
  alone _ s := Undisturbed.refl s
  subjectToken := rfl
  subjectClaims := rfl
  succeeds := by
    refine ⟨{ accessToken := "second", issuedTokenType := accessTokenType, expiresIn := 300
              scope := "write", refreshToken := none }, ?_, rfl⟩
    decide +kernel
  verified := ⟨"https://c", by decide⟩

/-- A user's token is exchanged twice, from resource to resource. -/
theorem exchange_chain_attenuates_twice :
    (∀ call ∈ [first, second], SameDelegation root.claims call.issued.claims) ∧
      Chained (fun previous call => ExpiresWithin previous.claims call.issued.claims)
        ExchangeCall.issued root [first, second] ∧
      Chained (CallBounded signer) ExchangeCall.issued root [first, second] :=
  exchange_chain_attenuates verifiesSigned ⟨exchanges_first, exchanges_second, trivial⟩

end DelegationExample
end Realmroot
