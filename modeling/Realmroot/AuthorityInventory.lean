import Realmroot.Authority

/-!
# Lists and details

The inventory of tenants filters lists; the decision on one tenant guards details.
They agree for all principals but three: an Application of the platform
organization without a user, which may list what it may not open; an agent without
authority; and a user one of whose memberships cannot be resolved.
-/

namespace Realmroot

/-- The inventory covers the tenant; an inventory that is not computed covers none. -/
def Covers (inventory : Except Error (Option (List AuthorizationTenant)))
    (target : AuthorizationTenant) : Prop :=
  match inventory with
  | .ok none => True
  | .ok (some tenants) => target ∈ tenants
  | .error _ => False

section Agreement

variable {db : Database} {principal : PrincipalContext} {user : AuthUser}
  {target : AuthorizationTenant} {scope : String}

/-- The tenants of the memberships, provided that each of them can be resolved. -/
theorem membershipTenants_spec (memberships : List MemberRecord) :
    ((∃ tenants, membershipTenants db principal scope memberships = .ok tenants) ↔
      ∀ membership ∈ memberships, ∃ context, resolveAuthorizationContext db principal
        (.organization membership.organizationId) = .ok context) ∧
      ∀ tenants, membershipTenants db principal scope memberships = .ok tenants →
        ∀ tenant, tenant ∈ tenants ↔ ∃ membership ∈ memberships,
          tenant = .organization membership.organizationId ∧ ∃ context,
            resolveAuthorizationContext db principal tenant = .ok context ∧
              scope ∈ context.scopes := by
  induction memberships with
  | nil => simp [membershipTenants]
  | cons membership memberships ih =>
    obtain ⟨ihok, ihmem⟩ := ih
    rw [membershipTenants]
    cases hcontext : resolveAuthorizationContext db principal
        (.organization membership.organizationId) with
    | error e => simp [bind, Except.bind, hcontext]
    | ok context =>
      cases hrest : membershipTenants db principal scope memberships with
      | error e =>
        rw [hrest] at ihok
        simp only [reduceCtorEq, exists_false, false_iff] at ihok
        simpa [bind, Except.bind, hcontext] using ihok
      | ok rest =>
        rw [hrest] at ihok
        have hrestok := ihok.mp ⟨rest, rfl⟩
        refine ⟨by simpa [bind, Except.bind, hcontext] using hrestok, ?_⟩
        intro tenants htenants tenant
        simp only [bind, Except.bind, Except.ok.injEq] at htenants
        subst htenants
        have hmem := ihmem rest hrest tenant
        by_cases hscope : scope ∈ context.scopes
        · simp only [List.contains_iff_mem, hscope, if_true, List.mem_cons, hmem,
            exists_eq_or_imp]
          constructor
          · rintro (rfl | h)
            · exact Or.inl ⟨rfl, context, hcontext, hscope⟩
            · exact Or.inr h
          · rintro (⟨rfl, -⟩ | h)
            · exact Or.inl rfl
            · exact Or.inr h
        · simp only [List.contains_iff_mem, hscope, if_false, hmem, List.mem_cons,
            exists_eq_or_imp]
          constructor
          · exact Or.inr
          · rintro (⟨rfl, context', hcontext', hscope'⟩ | h)
            · rw [hcontext] at hcontext'
              cases hcontext'
              exact absurd hscope' hscope
            · exact h

theorem mem_memberships {organizationId : String} {member : MemberRecord}
    (h : db.findMemberByOrganizationUser organizationId user.id = some member) :
    ∃ membership ∈ db.listUserMemberships user.id, membership.organizationId = organizationId := by
  obtain ⟨row, hrow, rfl⟩ := Option.map_eq_some_iff.mp h
  have hfound := List.find?_some hrow
  simp only [Bool.and_eq_true, decide_eq_true_eq] at hfound
  refine ⟨row.toMember, List.mem_map.mpr ⟨row, ?_, rfl⟩, hfound.1⟩
  simpa [List.mem_filter, hfound.2] using List.mem_of_find?_eq_some hrow

/-- The memberships of the user can be listed: platform authority stands for all of
them, or each one can be resolved. -/
def Listable (db : Database) (principal : PrincipalContext) (user : AuthUser)
    (platformId : String) : Prop :=
  (∃ scope, Grants db principal user platformId scope) ∨
    ∀ membership ∈ db.listUserMemberships user.id,
      db.Resolvable membership.organizationId user.id

/-- The context of a user in an organization, when the platform context is known. -/
theorem userContext_ok {platformId organizationId : String} {context : AuthorizationContext}
    (hmem : ∀ scope, scope ∈ context.scopes ↔ Grants db principal user platformId scope) :
    (∃ result, userAuthorizationContext db principal user context (.organization organizationId) =
        .ok result) ↔
      (∃ scope, Grants db principal user platformId scope) ∨
        db.Resolvable organizationId user.id := by
  by_cases hnil : context.scopes = []
  · have hnone : ¬ ∃ scope, Grants db principal user platformId scope := by
      rintro ⟨scope, hscope⟩
      have hscope := (hmem scope).mpr hscope
      simp [hnil] at hscope
    simpa [userAuthorizationContext, hnil, hnone] using
      (@restrictedContext_spec db principal user organizationId).1
  · obtain ⟨s, hs⟩ := List.exists_mem_of_ne_nil _ hnil
    have hsome : ∃ scope, Grants db principal user platformId scope := ⟨s, (hmem s).mp hs⟩
    simp [userAuthorizationContext, hnil, hsome]

/-- A user is resolved from the context in the platform organization. -/
theorem resolveAuthorizationContext_user {platform : Organization} {context : AuthorizationContext}
    (hu : principal.user = some user)
    (hplatform : requirePlatformOrganization db = .ok platform)
    (hcontext : (resolveOrganizationUserAuthorizationContext db platform.id user.id).map
      (restrictUserContextToApplicationScopes principal) = .ok context)
    (target : AuthorizationTenant) :
    resolveAuthorizationContext db principal target =
      userAuthorizationContext db principal user context target := by
  simp [resolveAuthorizationContext, resolvePlatformOrganizationContext, hu, hplatform, hcontext,
    bind, Except.bind]

/-- The context of a user in an organization is bound to that organization. -/
theorem userContext_tenant {context result : AuthorizationContext} {organizationId : String}
    (h : userAuthorizationContext db principal user context (.organization organizationId) =
      .ok result) : result.tenant = .organization organizationId := by
  simp only [userAuthorizationContext] at h
  split_ifs at h with hnil
  · cases h
    rfl
  · exact ((@restrictedContext_spec db principal user organizationId).2 result h).1

/-- What a user without the scope in the platform organization may do, is listed. -/
theorem listed_of_actsLocally (h : ActsLocally db principal user target scope) :
    target = .user user.id ∨ ∃ membership ∈ db.listUserMemberships user.id,
      target = .organization membership.organizationId := by
  cases target with
  | user id => exact Or.inl (by rw [h.1])
  | organization id =>
    obtain ⟨-, ⟨member, _, hmember, -⟩, -⟩ := h
    obtain ⟨membership, hmem, rfl⟩ := mem_memberships hmember
    exact Or.inr ⟨membership, hmem, rfl⟩

/-- The listing of the memberships of a user succeeds when they can be listed. -/
theorem membershipTenants_ok {platformId : String} {context : AuthorizationContext}
    (hresolve : ∀ target, resolveAuthorizationContext db principal target =
      userAuthorizationContext db principal user context target)
    (hmem : ∀ scope, scope ∈ context.scopes ↔ Grants db principal user platformId scope) :
    (∃ tenants, membershipTenants db principal scope (db.listUserMemberships user.id) =
      .ok tenants) ↔ Listable db principal user platformId := by
  rw [(membershipTenants_spec _).1, Listable]
  simp only [hresolve, userContext_ok hmem]
  grind

/-- The listing has the organizations of the memberships on which the decision is positive. -/
theorem mem_membershipTenants {context : AuthorizationContext}
    {tenants : List AuthorizationTenant}
    (hresolve : ∀ target, resolveAuthorizationContext db principal target =
      userAuthorizationContext db principal user context target)
    (htenants : membershipTenants db principal scope (db.listUserMemberships user.id) =
      .ok tenants) :
    target ∈ tenants ↔ (∃ membership ∈ db.listUserMemberships user.id,
      target = .organization membership.organizationId) ∧ Allows db principal target scope := by
  rw [(membershipTenants_spec _).2 tenants htenants target, allows_iff]
  constructor
  · rintro ⟨membership, hm, rfl, result, hresult, hscope⟩
    rw [hresolve] at hresult
    exact ⟨⟨membership, hm, rfl⟩, result, by rw [hresolve, hresult], userContext_tenant hresult,
      hscope⟩
  · rintro ⟨⟨membership, hm, rfl⟩, result, hresult, -, hscope⟩
    exact ⟨membership, hm, rfl, result, hresult, hscope⟩

/-- The own tenant and the organizations of the memberships are what is looked at. -/
theorem listed_of_allows {platform : Organization} (hu : principal.user = some user)
    (hfind : db.findOrganizationBySlug "realmroot" = some platform)
    (hgrants : ¬ Grants db principal user platform.id scope)
    (hallows : Allows db principal target scope) :
    target = .user user.id ∨ ∃ membership ∈ db.listUserMemberships user.id,
      target = .organization membership.organizationId := by
  obtain ⟨platform', hfind', -, h⟩ := (user_allows_iff hu).mp hallows
  cases hfind.symm.trans hfind'
  rcases h with h | ⟨-, h⟩
  · exact absurd h hgrants
  · exact listed_of_actsLocally h

/-- The inventory of a user without the scope in the platform organization. -/
theorem user_covers_of_not_grants {platform : Organization} {context : AuthorizationContext}
    (hu : principal.user = some user)
    (hplatform : requirePlatformOrganization db = .ok platform)
    (hcontext : (resolveOrganizationUserAuthorizationContext db platform.id user.id).map
      (restrictUserContextToApplicationScopes principal) = .ok context)
    (hgrants : ¬ Grants db principal user platform.id scope) :
    Covers (authorizedTenantInventory db principal scope) target ↔
      Listable db principal user platform.id ∧ Allows db principal target scope := by
  obtain ⟨htenant, hmem⟩ := (@restrictedContext_spec db principal user platform.id).2 context hcontext
  have hcan : canAuthorize context (.organization platform.id) scope = false := by
    rw [Bool.eq_false_iff]
    intro h
    exact hgrants ((hmem scope).mp (canAuthorize_iff.mp h).2)
  have hresolve := resolveAuthorizationContext_user hu hplatform hcontext
  have hlisted := fun h => @listed_of_allows db principal user target scope platform hu
    (requirePlatformOrganization_ok.mp hplatform) hgrants h
  obtain ⟨own, hown, howntenant⟩ : ∃ own, userAuthorizationContext db principal user context
      (.user user.id) = .ok own ∧ own.tenant = .user user.id := by
    simp [userAuthorizationContext]
  have hself : scope ∈ own.scopes ↔ Allows db principal (.user user.id) scope := by
    rw [allows_iff, hresolve]
    simp [hown, howntenant]
  have hlistable := @membershipTenants_ok db principal user scope platform.id context hresolve hmem
  simp only [authorizedTenantInventory, hplatform, bind, Except.bind, hu,
    resolvePlatformOrganizationContext, hcontext, hcan, Bool.false_eq_true, if_false, hresolve, hown]
  cases htenants : membershipTenants db principal scope (db.listUserMemberships user.id) with
  | error e =>
    rw [htenants] at hlistable
    simp only [reduceCtorEq, exists_false, false_iff] at hlistable
    simp [Covers, hlistable]
  | ok tenants =>
    have hmemtenants := @mem_membershipTenants db principal user target scope context tenants
      hresolve htenants
    simp only [Covers, hlistable.mp ⟨tenants, htenants⟩, List.contains_iff_mem, true_and]
    by_cases hscope : scope ∈ own.scopes
    · simp only [hscope, if_true, List.mem_cons, hmemtenants]
      constructor
      · rintro (rfl | ⟨-, h⟩)
        · exact hself.mp hscope
        · exact h
      · intro h
        exact (hlisted h).imp_right fun hm => ⟨hm, h⟩
    · simp only [hscope, if_false, hmemtenants]
      constructor
      · exact fun h => h.2
      · intro h
        refine ⟨(hlisted h).resolve_left ?_, h⟩
        rintro rfl
        exact hscope (hself.mpr h)

/-- The inventory of a user covers the tenants on which the decision is positive, as
long as the memberships can be listed. -/
theorem user_covers_iff (hu : principal.user = some user) :
    Covers (authorizedTenantInventory db principal scope) target ↔
      ∃ platform, db.findOrganizationBySlug "realmroot" = some platform ∧
        Listable db principal user platform.id ∧ Allows db principal target scope := by
  cases hplatform : requirePlatformOrganization db with
  | error e =>
    have hnone : ∀ platform, db.findOrganizationBySlug "realmroot" ≠ some platform := by
      intro platform h
      rw [requirePlatformOrganization_ok.mpr h] at hplatform
      cases hplatform
    simp [authorizedTenantInventory, hplatform, bind, Except.bind, hnone, Covers]
  | ok platform =>
    have hfind := requirePlatformOrganization_ok.mp hplatform
    simp only [hfind, Option.some.injEq, exists_eq_left']
    obtain ⟨hok, hspec⟩ := @restrictedContext_spec db principal user platform.id
    cases hcontext : (resolveOrganizationUserAuthorizationContext db platform.id user.id).map
        (restrictUserContextToApplicationScopes principal) with
    | error e =>
      rw [hcontext] at hok
      simp only [reduceCtorEq, exists_false, false_iff] at hok
      have hdenied : ¬ Allows db principal target scope := by
        rw [user_allows_iff hu]
        simp [hfind, hok]
      simp [authorizedTenantInventory, hplatform, bind, Except.bind, hu,
        resolvePlatformOrganizationContext, hcontext, Covers, hdenied]
    | ok context =>
      by_cases hgrants : Grants db principal user platform.id scope
      · obtain ⟨htenant, hmem⟩ := hspec context hcontext
        have hallows : Allows db principal target scope :=
          (user_allows_iff hu).mpr ⟨platform, hfind, hok.mp ⟨context, hcontext⟩, Or.inl hgrants⟩
        have hcan : canAuthorize context (.organization platform.id) scope = true :=
          canAuthorize_iff.mpr ⟨htenant, (hmem scope).mpr hgrants⟩
        have hlistable : Listable db principal user platform.id := Or.inl ⟨scope, hgrants⟩
        simp [authorizedTenantInventory, hplatform, bind, Except.bind, hu,
          resolvePlatformOrganizationContext, hcontext, hcan, Covers, hallows, hlistable]
      · exact user_covers_of_not_grants hu hplatform hcontext hgrants

theorem application_covers_iff {application : ApplicationPrincipal} (hu : principal.user = none)
    (ha : principal.application = some application) :
    Covers (authorizedTenantInventory db principal scope) target ↔
      scope ∈ application.scopes ∧
        ∃ platform, db.findOrganizationBySlug "realmroot" = some platform ∧
          (application.ownerOrganizationId = platform.id ∨
            target = .organization application.ownerOrganizationId) := by
  unfold authorizedTenantInventory
  cases hplatform : requirePlatformOrganization db with
  | error e =>
    have hnone : ∀ platform, db.findOrganizationBySlug "realmroot" ≠ some platform := by
      intro platform h
      rw [requirePlatformOrganization_ok.mpr h] at hplatform
      cases hplatform
    simp [bind, Except.bind, hnone, Covers]
  | ok platform =>
    have hfind := requirePlatformOrganization_ok.mp hplatform
    simp only [bind, Except.bind, resolvePlatformOrganizationContext, hu, ha, canAuthorize_iff,
      hfind, Option.some.injEq, exists_eq_left', AuthorizationTenant.organization.injEq]
    by_cases howner : application.ownerOrganizationId = platform.id
    · by_cases hscope : scope ∈ application.scopes <;> simp [howner, hscope, Covers]
    · by_cases hscope : scope ∈ application.scopes <;> simp [howner, hscope, Covers]

theorem agent_covers_iff {agent : AgentPrincipal} (hu : principal.user = none)
    (ha : principal.application = none) (hg : principal.agent = some agent) :
    Covers (authorizedTenantInventory db principal scope) target ↔
      ∃ platform, db.findOrganizationBySlug "realmroot" = some platform ∧
        scope ∈ agent.scopes ∧
          (agent.authority = some (.organization platform.id) ∨
            agent.authority.isSome ∧ AgentAuthority.tenant agent.authority = target) := by
  unfold authorizedTenantInventory
  cases hplatform : requirePlatformOrganization db with
  | error e =>
    have hnone : ∀ platform, db.findOrganizationBySlug "realmroot" ≠ some platform := by
      intro platform h
      rw [requirePlatformOrganization_ok.mpr h] at hplatform
      cases hplatform
    simp [bind, Except.bind, hnone, Covers]
  | ok platform =>
    have hfind := requirePlatformOrganization_ok.mp hplatform
    simp only [bind, Except.bind, resolvePlatformOrganizationContext, hu, ha, hg,
      canAuthorize_iff, hfind, Option.some.injEq, exists_eq_left', true_and]
    by_cases hscope : scope ∈ agent.scopes
    · cases hauthority : agent.authority with
      | none => simp [hscope, hauthority, Covers]
      | some authority =>
        cases authority with
        | organization id =>
          by_cases hid : id = platform.id <;>
            simp [hscope, hauthority, hid, Covers, AgentAuthority.tenant, eq_comm]
        | user id => simp [hscope, hauthority, Covers, AgentAuthority.tenant, eq_comm]
    · have hempty : ∀ condition : Prop, ∀ _ : Decidable condition,
          scope ∉ if condition then agent.scopes else [] := by
        intro condition _
        split_ifs <;> simp [hscope]
      simp [hscope, hempty, Covers]

theorem nobody_not_covers (hu : principal.user = none) (ha : principal.application = none)
    (hg : principal.agent = none) :
    ¬ Covers (authorizedTenantInventory db principal scope) target := by
  unfold authorizedTenantInventory
  cases hplatform : requirePlatformOrganization db <;>
    simp [bind, Except.bind, resolvePlatformOrganizationContext, hu, ha, hg, Covers]

/-- Where the inventory and the decision agree. -/
structure ListsAsItOpens (db : Database) (principal : PrincipalContext)
    (target : AuthorizationTenant) (scope : String) : Prop where
  /-- A user who may act on the tenant has memberships that can be listed. -/
  user : ∀ user platform, principal.user = some user →
    db.findOrganizationBySlug "realmroot" = some platform →
      db.Resolvable platform.id user.id → ActsLocally db principal user target scope →
        ¬ Overruled db principal user platform.id target →
          Listable db principal user platform.id
  /-- The token of an Application of the platform organization that acts for itself is
  used on that organization; without a platform organization, not on its owner. -/
  application : ∀ application, principal.user = none → principal.application = some application →
    scope ∈ application.scopes →
      match db.findOrganizationBySlug "realmroot" with
      | some platform => application.ownerOrganizationId = platform.id →
          target = .organization application.ownerOrganizationId
      | none => target ≠ .organization application.ownerOrganizationId
  /-- An agent without authority is not used on the user whose identifier is empty. -/
  agent : ∀ agent, principal.user = none → principal.application = none →
    principal.agent = some agent → agent.authority = none → scope ∈ agent.scopes →
      target = .user "" → db.findOrganizationBySlug "realmroot" = none

theorem user_lists_iff (hu : principal.user = some user) :
    (Covers (authorizedTenantInventory db principal scope) target ↔
      Allows db principal target scope) ↔
      ∀ platform, db.findOrganizationBySlug "realmroot" = some platform →
        db.Resolvable platform.id user.id → ActsLocally db principal user target scope →
          ¬ Overruled db principal user platform.id target →
            Listable db principal user platform.id := by
  rw [user_covers_iff hu]
  constructor
  · intro hagree platform hfind hresolvable hlocal hnot
    have hallows : Allows db principal target scope :=
      (user_allows_iff hu).mpr ⟨platform, hfind, hresolvable, Or.inr ⟨hnot, hlocal⟩⟩
    obtain ⟨platform', hfind', hlistable, -⟩ := hagree.mpr hallows
    cases hfind.symm.trans hfind'
    exact hlistable
  · intro hlistable
    constructor
    · rintro ⟨platform, -, -, hallows⟩
      exact hallows
    · intro hallows
      obtain ⟨platform, hfind, hresolvable, h⟩ := (user_allows_iff hu).mp hallows
      refine ⟨platform, hfind, ?_, hallows⟩
      rcases h with hgrants | ⟨hnot, hlocal⟩
      · exact Or.inl ⟨scope, hgrants⟩
      · exact hlistable platform hfind hresolvable hlocal hnot

/-- The inventory covers a tenant exactly when the decision on it is positive,
except where a list and its details differ. -/
theorem inventory_agrees_iff :
    (Covers (authorizedTenantInventory db principal scope) target ↔
      Allows db principal target scope) ↔ ListsAsItOpens db principal target scope := by
  cases hu : principal.user with
  | some user =>
    rw [user_lists_iff hu]
    constructor
    · intro h
      refine ⟨?_, by simp [hu], by simp [hu]⟩
      intro user' platform hu'
      cases hu.symm.trans hu'
      exact h platform
    · exact fun h platform => h.user user platform hu
  | none =>
    cases ha : principal.application with
    | some application =>
      rw [application_covers_iff hu ha, application_allows_iff hu ha]
      constructor
      · intro h
        refine ⟨by simp [hu], ?_, by simp [ha]⟩
        intro application' _ ha' hscope
        cases ha.symm.trans ha'
        cases hfind : db.findOrganizationBySlug "realmroot" <;> simp_all
      · intro h
        have happlication := h.application application hu ha
        cases hfind : db.findOrganizationBySlug "realmroot" with
        | none =>
          rw [hfind] at happlication
          constructor
          · rintro ⟨-, _, hnone, -⟩
            cases hnone
          · rintro ⟨htarget, hscope⟩
            exact absurd htarget (happlication hscope)
        | some platform =>
          rw [hfind] at happlication
          constructor
          · rintro ⟨hscope, _, ⟨rfl⟩, howner | htarget⟩
            · exact ⟨happlication hscope howner, hscope⟩
            · exact ⟨htarget, hscope⟩
          · rintro ⟨htarget, hscope⟩
            exact ⟨hscope, platform, rfl, Or.inr htarget⟩
    | none =>
      cases hg : principal.agent with
      | some agent =>
        rw [agent_covers_iff hu ha hg, agent_allows_iff hu ha hg]
        constructor
        · intro h
          refine ⟨by simp [hu], by simp [ha], ?_⟩
          intro agent' _ _ hg' hauthority hscope htarget
          cases hg.symm.trans hg'
          cases hfind : db.findOrganizationBySlug "realmroot" <;>
            simp_all [AgentAuthority.tenant]
        · intro h
          have hagent := h.agent agent hu ha hg
          cases hfind : db.findOrganizationBySlug "realmroot" with
          | none => simp
          | some platform =>
            cases hauthority : agent.authority with
            | some authority => simp
            | none => simp_all [AgentAuthority.tenant, eq_comm]
      | none =>
        refine iff_of_true (iff_of_false (nobody_not_covers hu ha hg)
          (nobody_not_allows hu ha hg)) ⟨by simp [hu], by simp [ha], by simp [hg]⟩

end Agreement

/-! ## An Application of the platform organization -/

namespace InventoryExample

def db : Database :=
  { organizations := [{ id := "platform", slug := "realmroot", disabled := false }] }

/-- A token that an Application of the platform organization gets for itself. -/
def application : PrincipalContext :=
  { application := some
      { id := "app", clientId := "client", ownerOrganizationId := "platform"
        delegatedOrganizationId := some "platform", scopes := ["applications:read"] } }

/-- It may list the Applications of every organization, and read those of none but its own. -/
theorem platform_application_lists_more :
    ¬ ∀ (db : Database) (principal : PrincipalContext) (target : AuthorizationTenant)
        (scope : String), Covers (authorizedTenantInventory db principal scope) target ↔
          Allows db principal target scope := by
  intro h
  have hcovers : Covers (authorizedTenantInventory db application "applications:read")
      (.organization "acme") := trivial
  have hdenied : ¬ Allows db application (.organization "acme") "applications:read" := by decide
  exact hdenied ((h _ _ _ _).mp hcovers)

end InventoryExample
end Realmroot
