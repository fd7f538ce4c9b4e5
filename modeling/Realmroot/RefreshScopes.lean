import Realmroot.RefreshProtocol

/-!
# The scopes of refreshed tokens

A refresh asks for scopes in place of those stored on the presented token, and
gets those that the Application may have. A run in which no refresh asks for such
a scope that its token does not carry never widens a grant.
-/

namespace Realmroot

open AtomicProgram Program Rotation

namespace Database

variable (db : Database)

/-- Every child carries scopes of its parent only, and every token of a family
scopes of its root only. -/
def NeverWidens : Prop :=
  (∀ child ∈ db.tokenExchangeRefreshTokens, ∀ parent ∈ db.tokenExchangeRefreshTokens,
    child.parentId = some parent.id → child.scopes ⊆ parent.scopes) ∧
  ∀ row ∈ db.tokenExchangeRefreshTokens, ∀ root ∈ db.tokenExchangeRefreshTokens,
    root.parentId = none → row.familyId = root.familyId → row.scopes ⊆ root.scopes

end Database

section Scopes

variable [Platform] (signer : TokenExchangeJwtSigner) (w : World)

/-- Each scope that the request names is stored on the presented token, or is one that
no Application of its client may have at any time. -/
def AsksWithin (states : List World) (input : TokenRefreshRequest) : Prop :=
  ∀ u ∈ states, ∀ row ∈ u.db.tokenExchangeRefreshTokens,
    row.tokenHash = Platform.hashProviderSecret input.refreshToken →
      ∀ scope ∈ requestedScopes input.scope, scope ∈ row.scopes ∨
        ∀ v ∈ states, ∀ application,
          v.db.findApplicationByClientId row.clientId = some application →
            ¬ MayHave (· ∈ states) application row.audience scope

/-- The refresh requests of the schedule ask within what they present. -/
def RefreshesWithin (schedule : List TokenAction) : Prop :=
  ∀ input credentials, .start (.refresh input credentials) ∈ schedule →
    AsksWithin ((Pool.idle w.withoutTokens).states (tokenSystem signer) schedule) input

variable {signer w}

/-- What was granted to a child by requests that ask within, its parent has. -/
theorem Granted.subset {states : List World} {parent : TokenExchangeRefreshToken}
    {scopes : List String} {accepts : TokenRequest → Prop}
    (h : Granted accepts (· ∈ states) parent scopes)
    (haccepts : ∀ input credentials, accepts (.refresh input credentials) → AsksWithin states input)
    {u : World} (hu : u ∈ states)
    (hparent : parent ∈ u.db.tokenExchangeRefreshTokens)
    (hwords : ∀ scope ∈ parent.scopes, IsScopeToken scope) : scopes ⊆ parent.scopes := by
  obtain ⟨input, credentials, haccepted, hhash, v, application, hv, hfind, hgranted⟩ := h
  intro scope hscope
  obtain ⟨hrequested, hmay⟩ := hgranted scope hscope
  unfold refreshScope at hrequested
  cases hparameter : input.scope with
  | none =>
    -- Nothing was asked for, so the stored scopes were requested.
    rw [hparameter, Option.getD_none, requestedScopes, Option.getD_some,
      splitWhiteSpace_joinWithSpace hwords] at hrequested
    exact mem_unique.mp hrequested
  | some text =>
    rw [hparameter, Option.getD_some] at hrequested
    have hasked : scope ∈ requestedScopes input.scope := by
      rw [hparameter]
      exact hrequested
    rcases haccepts input credentials haccepted u hu parent hparent hhash scope hasked with
      hstored | hnever
    · exact hstored
    · exact absurd hmay (hnever v hv application hfind)

omit [Platform] in
/-- In a valid store whose grants are bounded, no family widens. -/
theorem neverWidens_of_children {db : Database}
    (hvalid : Valid tokenScheme db.tokenExchangeRefreshTokens)
    (h : ∀ child ∈ db.tokenExchangeRefreshTokens, ∀ parent ∈ db.tokenExchangeRefreshTokens,
      child.parentId = some parent.id → child.scopes ⊆ parent.scopes) : db.NeverWidens := by
  refine ⟨h, fun row hrow root hroot hnone hfamily => ?_⟩
  have hbounded := hvalid.lineage.root_induction
    (T := fun row root => row.scopes ⊆ root.scopes) (fun _ _ => List.Subset.refl _)
    (fun parent hparent child hchild hid _ hsubset =>
      List.Subset.trans (h child hchild parent hparent hid) hsubset) hroot hnone
  exact hbounded row hrow hfamily

/-- In a run whose refreshes ask within what they present, every state's families
never widen, and every access token that a rotation issues is signed for scopes of
the presented token and of the root of its family. -/
theorem refresh_narrows_within {schedule : List TokenAction}
    (h : RefreshesWithin signer w schedule) (before after : List TokenAction)
    (hschedule : schedule = before ++ after) :
    let P := tokenRun signer w before
    let rows := P.state.db.tokenExchangeRefreshTokens
    P.state.db.NeverWidens ∧
      ∀ (a : TokenAction) input now, P.command? a = some (.rotateRefreshToken input now) →
        SignedFor signer input.accessToken.tokenHash input.accessToken.scopes ∧
          ∃ presented ∈ rows, input.refreshToken.parentId = some presented.id ∧
            input.accessToken.scopes ⊆ presented.scopes ∧
              ∀ root ∈ rows, root.parentId = none → presented.familyId = root.familyId →
                input.accessToken.scopes ⊆ root.scopes := by
  intro P rows
  subst hschedule
  let states := (Pool.idle w.withoutTokens).states (tokenSystem signer) (before ++ after)
  have hstates : ∀ s ∈ (Pool.idle w.withoutTokens).states (tokenSystem signer) before,
      s ∈ states := fun s hs => Pool.states_append (tokenSystem signer) after hs
  have hinv := tokenRun_inv signer w before
    (fun request hrequest => List.mem_append_left after hrequest) hstates
  have hlast : P.state ∈ states := hstates _ (Pool.run_mem_states (tokenSystem signer) _ before)
  have htokens := hinv.state
  have hsubset : ∀ parent ∈ rows, ∀ scopes : List String,
      Granted (fun request => .start request ∈ before ++ after) (· ∈ states) parent scopes →
        scopes ⊆ parent.scopes :=
    fun parent hparent scopes hgranted =>
      hgranted.subset (fun input credentials hstart => h input credentials hstart) hlast hparent
        (htokens.words parent hparent)
  have hnever : P.state.db.NeverWidens :=
    neverWidens_of_children htokens.valid fun child hchild parent hparent hid =>
      hsubset parent hparent _ (htokens.granted child hchild parent hparent hid)
  refine ⟨hnever, fun a input now hc => ?_⟩
  obtain ⟨presented, hpresented, hreplaces⟩ := hinv.promise rotation_sound hc
    ⟨hlast, unstored_of_command signer w hc⟩
  have hpresentedScopes : input.accessToken.scopes ⊆ presented.scopes := by
    rw [hreplaces.accessScopes]
    exact hsubset presented hpresented _ hreplaces.granted
  refine ⟨hreplaces.signed, presented, hpresented, hreplaces.parentId, hpresentedScopes, ?_⟩
  intro root hroot hnone hfamily
  exact List.Subset.trans hpresentedScopes (hnever.2 presented hpresented root hroot hnone hfamily)

end Scopes

/-! ## A family of two tokens -/

namespace TokenExample

@[reducible] def platform : Platform :=
  { samplePlatform with
    base64UrlDecode := fun _ => some []
    readJsonPart := fun part =>
      if part = "header" then some (.obj [("alg", .str "RS256")])
      else some (.obj [("iss", .str "issuer"), ("sub", .str "workload"), ("exp", .num 1000),
        ("aud", .str "https://api")]) }

attribute [local instance] platform

def scope (value : String) : ResourceScope :=
  { value := value, description := none, grantMode := .automatic }

def world : World :=
  { db :=
      { organizations := [{ id := "org", slug := "org", disabled := false }]
        apiResources := [
          { id := "api", identifier := "api", name := "api", description := none
            resourceUrl := "https://api", authorizationModel := .native, connectorId := none
            authorizationDetails := [], enabled := true, ownerOrganizationId := "org"
            visibility := .private
            scopeRegistry := some { scopes := [scope "read", scope "write"] }
            availableToAgents := false, deletedAt := none, updatedAt := 0 }]
        applications := [
          { id := "app", oauthClientId := "client", ownerOrganizationId := "org"
            visibility := .private, oidcScopes := ["offline_access"]
            resourceScopes := [{ resourceServerId := "api", scopes := ["read", "write"] }]
            tokenExchangePolicies := [], disabled := false, updatedAt := 0 }]
        oauthClients := [
          { clientId := "client", clientSecret := some "secret", disabled := false
            grantTypes := [tokenExchangeGrantType, refreshTokenGrantType] }]
        federatedCredentials := [
          { id := "credential", applicationId := "app", issuer := "issuer", subject := "*"
            audienceResourceId := "api", jwksUrl := none, publicKeys := some [[]], enabled := true
            updatedAt := 0 }] }
    clock := 0, nextId := 0 }

def signer : TokenExchangeJwtSigner where
  issuer := "realmroot"
  sign payload _ := ((readString (payload.field "jti")).getD "")

def credentials : ClientCredentials := { clientId := "client", clientSecret := some "secret" }

/-- The exchange gives read access, and a refresh token. -/
def exchange : TokenRequest :=
  .exchange
    { grantType := tokenExchangeGrantType, subjectToken := "header.payload.signature"
      subjectTokenType := jwtTokenType, audience := "https://api"
      scope := some "read offline_access", requestedTokenType := none
      verifiedSubjectClaims := none }
    credentials

def refresh (scope : Option String) : TokenRequest :=
  .refresh { grantType := refreshTokenGrantType, refreshToken := "fatr_a", scope := scope }
    credentials

/-- One request runs to its end after the other. -/
def schedule (scope : Option String) : List TokenAction :=
  .start exchange :: List.replicate 30 (.advance 0 { random := "a", verified := some true }) ++
    .start (refresh scope) :: List.replicate 30 (.advance 1 { random := "b" })

/-- A refresh that asks for write access gets it, on a family that was given read
access. -/
theorem refresh_widens :
    ¬ (tokenRun signer world (schedule (some "read write"))).state.db.NeverWidens := by
  unfold Database.NeverWidens
  decide +kernel

theorem read_is_stored :
    ∀ u ∈ (Pool.idle world.withoutTokens).states (tokenSystem signer) (schedule (some "read")),
      ∀ row ∈ u.db.tokenExchangeRefreshTokens, row.tokenHash = "fatr_a" →
        ∀ scope ∈ requestedScopes (some "read"), scope ∈ row.scopes := by
  decide +kernel

theorem refreshesWithin_read : RefreshesWithin signer world (schedule (some "read")) := by
  intro input credentials hstart u hu row hrow hhash scope hscope
  have hinput : input =
      { grantType := refreshTokenGrantType, refreshToken := "fatr_a", scope := some "read" } := by
    simp [schedule, exchange, refresh] at hstart
    exact hstart.1
  subst hinput
  exact Or.inl (read_is_stored u hu row hrow hhash scope hscope)

/-- A refresh that asks for less narrows the grant. -/
theorem refresh_narrows_read :
    (tokenRun signer world (schedule (some "read"))).state.db.NeverWidens :=
  (refresh_narrows_within refreshesWithin_read (schedule (some "read")) [] (by simp)).1

end TokenExample
end Realmroot
