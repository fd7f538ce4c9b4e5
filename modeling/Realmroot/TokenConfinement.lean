import Realmroot.AuthorityInventory

/-!
# Delegated tokens

A token that an Application gets for a user names the organization in whose
context the user consented. The decisions of the middleware do not look at that
name: the token acts wherever the user holds one of its scopes.
-/

namespace Realmroot

/-- A verified token of an Application that stands for the user, in the context of
the organization. -/
structure DelegatedToken (db : Database) (payload : Record) (principal : PrincipalContext)
    (user : AuthUser) (organizationId : String) : Prop where
  authenticated : authenticateOAuthApplication db payload = .ok (some principal)
  user : principal.user = some user
  organization : ∃ application, principal.application = some application ∧
    application.delegatedOrganizationId = some organizationId

/-- The scopes of a verified token. -/
def tokenScopes (payload : Record) : List String :=
  parseSpaceSeparatedClaim (payload.field "scope")

/-- The token acts in no organization but the given one: not by a decision, not
through platform authority, and not in a list. -/
structure Confined (db : Database) (principal : PrincipalContext) (user : AuthUser)
    (organizationId : String) : Prop where
  organizations : ∀ id scope, id ≠ organizationId →
    authorizeOrganization db principal id scope ≠ .ok ()
  users : ∀ id scope, id ≠ user.id → authorizeUser db principal id scope ≠ .ok ()
  platform : ∀ scope, hasPlatformOrganizationAccess db principal scope ≠ .ok true
  lists : ∀ scope tenants, authorizedTenantInventory db principal scope = .ok tenants →
    ∃ list, tenants = some list ∧ ∀ id, id ≠ organizationId → .organization id ∉ list

/-- Wherever roles can be resolved, the user holds the scopes of the token in the one
organization only. -/
def HoldsOnlyIn (db : Database) (payload : Record) (user : AuthUser) (organizationId : String) :
    Prop :=
  ∀ platform, db.findOrganizationBySlug "realmroot" = some platform →
    db.Resolvable platform.id user.id → ∀ id, id ≠ organizationId → db.Resolvable id user.id →
      ∀ scope ∈ tokenScopes payload, ¬ db.Holds id user.id scope

section Confinement

variable {db : Database} {payload : Record} {principal : PrincipalContext} {user : AuthUser}
  {organizationId scope : String}

theorem applicationPrincipal_application {tokenSubject clientId : String}
    (h : applicationPrincipal db payload tokenSubject clientId = .ok principal) :
    ∃ application, principal.application = some application ∧
      application.scopes = tokenScopes payload := by
  unfold applicationPrincipal at h
  split at h
  · cases h
  · split_ifs at h
    · cases h
      exact ⟨_, rfl, rfl⟩
    · split at h
      · cases h
      · split_ifs at h
        cases h
        exact ⟨_, rfl, rfl⟩

theorem authenticated_application (h : authenticateOAuthApplication db payload =
    .ok (some principal)) : ∃ application, principal.application = some application ∧
      application.scopes = tokenScopes payload := by
  unfold authenticateOAuthApplication at h
  split at h
  · cases h
  · split at h
    · rename_i tokenSubject clientId _ _
      split at h
      · cases h
      · cases hprincipal : applicationPrincipal db payload tokenSubject clientId with
        | error e => simp [hprincipal, Except.map] at h
        | ok result =>
          simp only [hprincipal, Except.map, Except.ok.injEq, Option.some.injEq] at h
          subst h
          exact applicationPrincipal_application hprincipal
    · cases h

theorem DelegatedToken.within_iff (h : DelegatedToken db payload principal user organizationId) :
    principal.Within scope ↔ scope ∈ tokenScopes payload := by
  obtain ⟨application, happlication, hscopes⟩ := authenticated_application h.authenticated
  simp [PrincipalContext.Within, happlication, hscopes]

theorem hasPlatformOrganizationAccess_iff (hu : principal.user = some user) :
    hasPlatformOrganizationAccess db principal scope = .ok true ↔
      ∃ platform, db.findOrganizationBySlug "realmroot" = some platform ∧
        db.Resolvable platform.id user.id ∧ Grants db principal user platform.id scope := by
  unfold hasPlatformOrganizationAccess
  cases hplatform : requirePlatformOrganization db with
  | error e =>
    have hnone : ∀ platform, db.findOrganizationBySlug "realmroot" ≠ some platform := by
      intro platform h
      rw [requirePlatformOrganization_ok.mpr h] at hplatform
      cases hplatform
    simp [bind, Except.bind, hnone]
  | ok platform =>
    have hfind := requirePlatformOrganization_ok.mp hplatform
    obtain ⟨hok, hspec⟩ := @restrictedContext_spec db principal user platform.id
    simp only [bind, Except.bind, hfind, Option.some.injEq, exists_eq_left', hu,
      resolvePlatformOrganizationContext]
    cases hcontext : (resolveOrganizationUserAuthorizationContext db platform.id user.id).map
        (restrictUserContextToApplicationScopes principal) with
    | error e =>
      rw [hcontext] at hok
      simp only [reduceCtorEq, exists_false, false_iff] at hok
      simp [hok]
    | ok context =>
      obtain ⟨htenant, hmem⟩ := hspec context hcontext
      have hresolvable := hok.mp ⟨context, hcontext⟩
      simp [canAuthorize_iff, htenant, hmem, hresolvable]

/-- A delegated token stays within its organization exactly when its user holds none
of its scopes in any other. -/
theorem delegated_token_confined_iff
    (h : DelegatedToken db payload principal user organizationId)
    (hplatform : ∀ platform, db.findOrganizationBySlug "realmroot" = some platform →
      platform.id ≠ organizationId) :
    Confined db principal user organizationId ↔ HoldsOnlyIn db payload user organizationId := by
  have hgrants : ∀ id scope, Grants db principal user id scope ↔
      db.Holds id user.id scope ∧ scope ∈ tokenScopes payload := by
    intro id scope
    rw [Grants, h.within_iff]
  constructor
  · intro hconfined platform hfind hresolvable id hid hresolvableId scope hscope hholds
    have hscopeGrants : Grants db principal user id scope := (hgrants id scope).mpr ⟨hholds, hscope⟩
    by_cases hover : ∃ s, Grants db principal user platform.id s
    · obtain ⟨s, hs⟩ := hover
      exact hconfined.platform s ((hasPlatformOrganizationAccess_iff h.user).mpr
        ⟨platform, hfind, hresolvable, hs⟩)
    · exact hconfined.organizations id scope hid ((user_allows_iff h.user).mpr
        ⟨platform, hfind, hresolvable, Or.inr ⟨hover, hresolvableId, hscopeGrants⟩⟩)
  · intro hholds
    have hnone : ∀ platform, db.findOrganizationBySlug "realmroot" = some platform →
        db.Resolvable platform.id user.id → ∀ scope, ¬ Grants db principal user platform.id scope := by
      intro platform hfind hresolvable scope hg
      obtain ⟨hhold, hscope⟩ := (hgrants platform.id scope).mp hg
      exact hholds platform hfind hresolvable platform.id (hplatform platform hfind) hresolvable scope
        hscope hhold
    have hdenied : ∀ id scope, id ≠ organizationId →
        ¬ Allows db principal (.organization id) scope := by
      intro id scope hid hallows
      obtain ⟨platform, hfind, hresolvable, hg | ⟨-, hresolvableId, hg⟩⟩ :=
        (user_allows_iff h.user).mp hallows
      · exact hnone platform hfind hresolvable scope hg
      · obtain ⟨hhold, hscope⟩ := (hgrants id scope).mp hg
        exact hholds platform hfind hresolvable id hid hresolvableId scope hscope hhold
    refine ⟨hdenied, ?_, ?_, ?_⟩
    · intro id scope hid hallows
      obtain ⟨platform, hfind, hresolvable, hg | ⟨-, hlocal, -⟩⟩ :=
        (user_allows_iff h.user).mp hallows
      · exact hnone platform hfind hresolvable scope hg
      · exact hid hlocal
    · intro scope haccess
      obtain ⟨platform, hfind, hresolvable, hg⟩ :=
        (hasPlatformOrganizationAccess_iff h.user).mp haccess
      exact hnone platform hfind hresolvable scope hg
    · intro scope tenants htenants
      have hcovered : ∀ target, Covers (.ok tenants) target → Allows db principal target scope := by
        intro target hcovers
        rw [← htenants] at hcovers
        obtain ⟨-, -, -, hallows⟩ := (user_covers_iff h.user).mp hcovers
        exact hallows
      cases tenants with
      | none =>
        obtain ⟨id, hid⟩ := exists_ne organizationId
        exact absurd (hcovered (.organization id) trivial) (hdenied id scope hid)
      | some list =>
        refine ⟨list, rfl, fun id hid hmem => ?_⟩
        exact hdenied id scope hid (hcovered (.organization id) hmem)

end Confinement

/-! ## One user, two organizations -/

namespace ConfinementExample

/-- A user who is a member of two organizations, and an Application. -/
def db : Database :=
  { users := [{ id := "ada", banned := false, deletedAt := none }]
    organizations :=
      [{ id := "platform", slug := "realmroot", disabled := false },
        { id := "acme", slug := "acme", disabled := false },
        { id := "other", slug := "other", disabled := false }]
    members :=
      [{ id := "m1", organizationId := "acme", userId := "ada", role := "member", updatedAt := 0 },
        { id := "m2", organizationId := "other", userId := "ada", role := "admin", updatedAt := 0 }]
    apiResources := [
      { id := "management", identifier := "realmroot", name := "Realmroot", description := none
        resourceUrl := "https://realmroot/api", authorizationModel := .native, connectorId := none
        authorizationDetails := [], enabled := true, ownerOrganizationId := "platform"
        visibility := .public, scopeRegistry := none, availableToAgents := true
        deletedAt := none, updatedAt := 0 }]
    applications := [
      { id := "app", oauthClientId := "client", ownerOrganizationId := "acme"
        visibility := .private, oidcScopes := [], resourceScopes := []
        tokenExchangePolicies := [], disabled := false, updatedAt := 0 }]
    oauthClients := [
      { clientId := "client", clientSecret := none, disabled := false, grantTypes := [] }] }

/-- The claims of a token for the context of the first organization. -/
def payload (scope : String) : Record :=
  [("sub", .str "ada"), ("client_id", .str "client"), ("scope", .str scope),
    (realmrootOrganizationClaim, .str "acme")]

def principal (scope : String) : PrincipalContext :=
  { user := some { id := "ada" }
    application := some
      { id := "app", clientId := "client", ownerOrganizationId := "acme"
        delegatedOrganizationId := some "acme", scopes := [scope] } }

/-- A token for the first organization writes Applications of the second. -/
theorem delegated_token_crosses :
    ¬ ∀ (db : Database) (payload : Record) (principal : PrincipalContext) (user : AuthUser)
        (organizationId : String), DelegatedToken db payload principal user organizationId →
          (∀ platform, db.findOrganizationBySlug "realmroot" = some platform →
            platform.id ≠ organizationId) → Confined db principal user organizationId := by
  intro h
  have htoken : DelegatedToken db (payload "applications:write") (principal "applications:write")
      { id := "ada" } "acme" := ⟨by decide +kernel, rfl, _, rfl, rfl⟩
  have hallowed : authorizeOrganization db (principal "applications:write") "other"
      "applications:write" = .ok () := by decide +kernel
  exact (h _ _ _ _ _ htoken (by decide)).organizations "other" "applications:write" (by decide)
    hallowed

/-- A token whose scope the user does not hold elsewhere keeps to its organization. -/
theorem delegated_token_confined_self :
    Confined db (principal "self:read") { id := "ada" } "acme" := by
  have htoken : DelegatedToken db (payload "self:read") (principal "self:read") { id := "ada" }
      "acme" := ⟨by decide +kernel, rfl, _, rfl, rfl⟩
  refine (delegated_token_confined_iff htoken (by decide)).mpr ?_
  intro platform hfind hresolvable id hid hresolvableId scope hscope hholds
  obtain ⟨-, -, -, -, hregistry, -⟩ := hholds
  have hself : scope = "self:read" := by
    have hscopes : tokenScopes (payload "self:read") = ["self:read"] := by decide +kernel
    simpa [hscopes] using hscope
  subst hself
  exact absurd hregistry (by decide)

end ConfinementExample
end Realmroot
