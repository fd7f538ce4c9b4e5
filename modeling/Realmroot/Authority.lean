import Realmroot.Middleware.Authz

/-!
# What a principal holds

A user holds a scope in an organization through a role of the membership there.
The decisions of the middleware are restated in these terms: one statement for
each kind of principal, and one for the inventory of tenants.
-/

namespace Realmroot

/-! ## Roles -/

/-- A role key that the table of predefined roles inherits: looking it up yields
something that is no list of scopes. -/
def IsInheritedRole (role : String) : Prop :=
  predefinedOrganizationRoleScopes.lookup role = none ∧ role ∈ objectPrototypeKeys

instance (role : String) : Decidable (IsInheritedRole role) :=
  inferInstanceAs (Decidable (_ ∧ _))

/-- A role key as `roleKeySchema` admits it, `constructor`, is an inherited one. -/
example : IsInheritedRole "constructor" := by decide

/-- The role gives the scope at the Realmroot resource. -/
def RoleGives (dynamicRoles : List (String × List RoleScope)) (resourceId role scope : String) :
    Prop :=
  scope ∈ (predefinedOrganizationRoleScopes.lookup role).getD [] ∨
    { resourceId := resourceId, scope := scope } ∈ (dynamicRoles.lookup role).getD []

theorem mem_dynamicScopes {dynamicRoles : List (String × List RoleScope)} {roles : List String}
    {resource : ApiResource} {scope : String} :
    scope ∈ dynamicScopes dynamicRoles roles (some resource) ↔
      ∃ role ∈ roles, { resourceId := resource.id, scope := scope } ∈
        (dynamicRoles.lookup role).getD [] := by
  simp only [dynamicScopes, List.mem_flatMap, List.mem_map, List.mem_filter]
  constructor
  · rintro ⟨role, hrole, item, ⟨hitem, hid⟩, rfl⟩
    have hid : item.resourceId = resource.id := by simpa using hid
    exact ⟨role, hrole, by rwa [← hid]⟩
  · rintro ⟨role, hrole, hitem⟩
    exact ⟨role, hrole, _, ⟨hitem, by simp⟩, rfl⟩

/-- The predefined scopes are read unless a role is an inherited one. -/
theorem predefinedScopes_spec (roles : List String) :
    ((∃ scopes, predefinedScopes roles = .ok scopes) ↔ ∀ role ∈ roles, ¬ IsInheritedRole role) ∧
      ∀ scopes, predefinedScopes roles = .ok scopes → ∀ scope, scope ∈ scopes ↔
        ∃ role ∈ roles, scope ∈ (predefinedOrganizationRoleScopes.lookup role).getD [] := by
  induction roles with
  | nil => simp [predefinedScopes]
  | cons role roles ih =>
    obtain ⟨ihok, ihmem⟩ := ih
    rw [predefinedScopes]
    cases hlookup : predefinedOrganizationRoleScopes.lookup role with
    | some given =>
      have hrole : ¬ IsInheritedRole role := by simp [IsInheritedRole, hlookup]
      constructor
      · cases hrest : predefinedScopes roles <;> simp_all [Except.map]
      · intro scopes hscopes scope
        cases hrest : predefinedScopes roles with
        | error e => simp [hrest, Except.map] at hscopes
        | ok rest =>
          have hscopes : given ++ rest = scopes := by simpa [hrest, Except.map] using hscopes
          subst hscopes
          simp [hlookup, ihmem rest hrest scope]
    | none =>
      dsimp only
      split_ifs with hinherited
      · have hrole : IsInheritedRole role := ⟨hlookup, by simpa using hinherited⟩
        simp [hrole]
      · have hrole : ¬ IsInheritedRole role := fun h => hinherited (by simpa using h.2)
        constructor
        · simp [ihok, hrole]
        · intro scopes hscopes scope
          simp [hlookup, ihmem scopes hscopes scope]

/-! ## Memberships -/

namespace Database

variable (db : Database)

/-- The user holds the scope in the organization. -/
def Holds (organizationId userId scope : String) : Prop :=
  ∃ member resource, db.findMemberByOrganizationUser organizationId userId = some member ∧
    findRealmrootResourceServer db = some resource ∧ inScopeRegistry scope = true ∧
      ∃ role ∈ member.roles,
        RoleGives (db.listOrganizationRoleScopes organizationId) resource.id role scope

/-- The roles of the user in the organization can be resolved. -/
def Resolvable (organizationId userId : String) : Prop :=
  ∀ member resource, db.findMemberByOrganizationUser organizationId userId = some member →
    findRealmrootResourceServer db = some resource → ∀ role ∈ member.roles, ¬ IsInheritedRole role

end Database

variable {db : Database}

theorem isRealmroot_of_find {resource : ApiResource}
    (h : findRealmrootResourceServer db = some resource) : resource.isRealmroot = true := by
  have hfound := List.find?_some h
  simp only [Bool.and_eq_true, decide_eq_true_eq] at hfound
  simp [ApiResource.isRealmroot, hfound.1]

theorem membershipScopesForResource_realmroot {dynamicRoles : List (String × List RoleScope)}
    {organizationId : String} {roles : List String} {resource : ApiResource}
    (h : resource.isRealmroot = true) :
    membershipScopesForResource dynamicRoles organizationId roles (some resource) =
      (predefinedScopes roles).map fun predefined =>
        sortStrings ((unique (predefined ++ dynamicScopes dynamicRoles roles (some resource))).filter
          inScopeRegistry) := by
  cases hpre : predefinedScopes roles <;>
    simp [membershipScopesForResource, h, hpre, Except.map, bind, Except.bind]

/-- The scopes of a user in an organization are those the user holds; they are not
found when a role cannot be resolved. -/
theorem organizationUserScopes_spec (organizationId userId : String) :
    ((∃ scopes, organizationUserScopes db organizationId userId = .ok scopes) ↔
      db.Resolvable organizationId userId) ∧
      ∀ scopes, organizationUserScopes db organizationId userId = .ok scopes → ∀ scope,
        scope ∈ scopes ↔ db.Holds organizationId userId scope := by
  unfold organizationUserScopes
  cases hmember : db.findMemberByOrganizationUser organizationId userId with
  | none => simp [Database.Resolvable, Database.Holds, hmember]
  | some member =>
    cases hresource : findRealmrootResourceServer db with
    | none => simp [Database.Resolvable, Database.Holds, hmember, hresource]
    | some resource =>
      dsimp only
      rw [membershipScopesForResource_realmroot (isRealmroot_of_find hresource)]
      obtain ⟨hok, hmem⟩ := predefinedScopes_spec member.roles
      constructor
      · cases hpre : predefinedScopes member.roles with
        | error e =>
          simp only [hpre, reduceCtorEq, exists_false, false_iff] at hok
          simpa [Except.map, Database.Resolvable, hmember, hresource] using hok
        | ok predefined =>
          simp only [hpre, Except.ok.injEq, exists_eq', true_iff] at hok
          simpa [Except.map, Database.Resolvable, hmember, hresource] using hok
      · intro scopes hscopes scope
        cases hpre : predefinedScopes member.roles with
        | error e => simp [hpre, Except.map] at hscopes
        | ok predefined =>
          rw [hpre, Except.map, Except.ok.injEq] at hscopes
          subst hscopes
          simp only [mem_sortStrings, List.mem_filter, mem_unique, List.mem_append,
            hmem predefined hpre scope, mem_dynamicScopes, Database.Holds, hmember, hresource,
            Option.some.injEq, RoleGives]
          grind

/-! ## Decisions -/

variable {principal : PrincipalContext} {target : AuthorizationTenant} {scope : String}

/-- The decision of the middleware on the tenant. -/
def Allows (db : Database) (principal : PrincipalContext) (target : AuthorizationTenant)
    (scope : String) : Prop :=
  authorizeTenant db principal target scope = .ok ()

instance : Decidable (Allows db principal target scope) :=
  inferInstanceAs (Decidable (_ = _))

theorem allows_iff : Allows db principal target scope ↔
    ∃ context, resolveAuthorizationContext db principal target = .ok context ∧
      context.tenant = target ∧ scope ∈ context.scopes := by
  unfold Allows authorizeTenant
  cases hcontext : resolveAuthorizationContext db principal target with
  | error e => simp [bind, Except.bind]
  | ok context => simp [bind, Except.bind, authorize_ok]

/-- The token of the Application, if there is one, has the scope. -/
def PrincipalContext.Within (principal : PrincipalContext) (scope : String) : Prop :=
  ∀ application, principal.application = some application → scope ∈ application.scopes

/-- The user holds the scope in the organization, and the token has it. -/
def Grants (db : Database) (principal : PrincipalContext) (user : AuthUser)
    (organizationId scope : String) : Prop :=
  db.Holds organizationId user.id scope ∧ principal.Within scope

/-- What the user may do to the tenant without platform authority. -/
def ActsLocally (db : Database) (principal : PrincipalContext) (user : AuthUser)
    (target : AuthorizationTenant) (scope : String) : Prop :=
  match target with
  | .user id => id = user.id ∧ scope ∈ selfScopes ∧ principal.Within scope
  | .organization id => db.Resolvable id user.id ∧ Grants db principal user id scope

theorem mem_restrict {context : AuthorizationContext} :
    scope ∈ (restrictUserContextToApplicationScopes principal context).scopes ↔
      scope ∈ context.scopes ∧ principal.Within scope := by
  unfold restrictUserContextToApplicationScopes PrincipalContext.Within
  cases principal.application <;> simp

@[simp] theorem restrict_tenant {context : AuthorizationContext} :
    (restrictUserContextToApplicationScopes principal context).tenant = context.tenant := by
  unfold restrictUserContextToApplicationScopes
  cases principal.application <;> rfl

/-- The restricted context of a user in an organization. -/
theorem restrictedContext_spec (user : AuthUser) (organizationId : String) :
    ((∃ context, (resolveOrganizationUserAuthorizationContext db organizationId user.id).map
        (restrictUserContextToApplicationScopes principal) = .ok context) ↔
      db.Resolvable organizationId user.id) ∧
      ∀ context, (resolveOrganizationUserAuthorizationContext db organizationId user.id).map
        (restrictUserContextToApplicationScopes principal) = .ok context →
          context.tenant = .organization organizationId ∧
            ∀ scope, scope ∈ context.scopes ↔ Grants db principal user organizationId scope := by
  obtain ⟨hok, hmem⟩ := @organizationUserScopes_spec db organizationId user.id
  unfold resolveOrganizationUserAuthorizationContext
  cases hscopes : organizationUserScopes db organizationId user.id with
  | error e => simpa [Except.map, hscopes] using hok
  | ok scopes =>
    rw [hscopes] at hok
    constructor
    · simpa [Except.map] using hok
    · intro context hcontext
      simp only [Except.map, Except.ok.injEq] at hcontext
      subst hcontext
      simp [mem_restrict, hmem scopes hscopes, Grants]

/-- Some platform authority takes the place of what the user may do in an organization. -/
def Overruled (db : Database) (principal : PrincipalContext) (user : AuthUser)
    (platformId : String) : AuthorizationTenant → Prop
  | .user _ => False
  | .organization _ => ∃ scope, Grants db principal user platformId scope

theorem requirePlatformOrganization_ok {platform : Organization} :
    requirePlatformOrganization db = .ok platform ↔
      db.findOrganizationBySlug "realmroot" = some platform := by
  unfold requirePlatformOrganization
  cases db.findOrganizationBySlug "realmroot" <;> simp

/-- What the platform context says about a user, in terms of what the user holds. -/
theorem userContext_allows {user : AuthUser} {platformId : String} {context : AuthorizationContext}
    (hmem : ∀ scope, scope ∈ context.scopes ↔ Grants db principal user platformId scope) :
    (∃ result, userAuthorizationContext db principal user context target = .ok result ∧
        result.tenant = target ∧ scope ∈ result.scopes) ↔
      Grants db principal user platformId scope ∨
        ¬ Overruled db principal user platformId target ∧
          ActsLocally db principal user target scope := by
  have hempty : context.scopes = [] ↔ ∀ scope, ¬ Grants db principal user platformId scope := by
    simp only [List.eq_nil_iff_forall_not_mem, hmem]
  cases target with
  | user id =>
    simp only [userAuthorizationContext, Except.ok.injEq, exists_eq_left', restrict_tenant,
      mem_restrict, Overruled, not_false_eq_true, true_and, ActsLocally]
    have hwithin : Grants db principal user platformId scope → principal.Within scope := fun h => h.2
    by_cases hid : user.id = id
    · subst hid
      simp only [ite_self, true_and, if_true, mem_unique, List.mem_append, hmem]
      tauto
    · have hid' : ¬ id = user.id := fun h => hid h.symm
      simp only [hid, hid', if_false, false_and, or_false, hmem]
      constructor
      · rintro ⟨-, h, -⟩
        exact h
      · intro h
        have hne : ¬ context.scopes = [] := fun he => hempty.mp he scope h
        exact ⟨by simp [hne], h, hwithin h⟩
  | organization id =>
    simp only [userAuthorizationContext, Overruled, ActsLocally]
    by_cases hnil : context.scopes = []
    · have hnone := hempty.mp hnil
      obtain ⟨hok, hspec⟩ := @restrictedContext_spec db principal user id
      simp only [hnil, ne_eq, not_true_eq_false, if_false]
      constructor
      · rintro ⟨result, hresult, -, hscope⟩
        have hgrants := ((hspec result hresult).2 scope).mp hscope
        refine Or.inr ⟨?_, hok.mp ⟨result, hresult⟩, hgrants⟩
        rintro ⟨s, hs⟩
        exact hnone s hs
      · rintro (h | ⟨-, hresolvable, hgrants⟩)
        · exact absurd h (hnone scope)
        · obtain ⟨result, hresult⟩ := hok.mpr hresolvable
          obtain ⟨htenant, hscopes⟩ := hspec result hresult
          exact ⟨result, hresult, htenant, (hscopes scope).mpr hgrants⟩
    · have hsome : ∃ s, Grants db principal user platformId s := by
        by_contra hnone
        exact hnil (hempty.mpr fun s hs => hnone ⟨s, hs⟩)
      simp [hnil, hsome, hmem]

/-- The decision on a user: platform authority, or, where that does not take its
place, what the user may do locally. -/
theorem user_allows_iff {user : AuthUser} (hu : principal.user = some user) :
    Allows db principal target scope ↔
      ∃ platform, db.findOrganizationBySlug "realmroot" = some platform ∧
        db.Resolvable platform.id user.id ∧
          (Grants db principal user platform.id scope ∨
            ¬ Overruled db principal user platform.id target ∧
              ActsLocally db principal user target scope) := by
  rw [allows_iff]
  unfold resolveAuthorizationContext
  simp only [hu, resolvePlatformOrganizationContext]
  cases hplatform : requirePlatformOrganization db with
  | error e =>
    have hnone : ∀ platform, db.findOrganizationBySlug "realmroot" ≠ some platform := by
      intro platform h
      rw [requirePlatformOrganization_ok.mpr h] at hplatform
      cases hplatform
    simp [bind, Except.bind, hnone]
  | ok platform =>
    have hfind := requirePlatformOrganization_ok.mp hplatform
    obtain ⟨hok, hspec⟩ := @restrictedContext_spec db principal user platform.id
    simp only [bind, Except.bind, hfind, Option.some.injEq, exists_eq_left']
    cases hcontext : (resolveOrganizationUserAuthorizationContext db platform.id user.id).map
        (restrictUserContextToApplicationScopes principal) with
    | error e =>
      simp only [hcontext, reduceCtorEq, exists_false, false_iff] at hok
      simp [hok]
    | ok context =>
      simp only [hcontext, Except.ok.injEq, exists_eq', true_iff] at hok
      simpa [hok] using userContext_allows (hspec context hcontext).2

/-- The decision on an Application without a user. -/
theorem application_allows_iff {application : ApplicationPrincipal} (hu : principal.user = none)
    (ha : principal.application = some application) :
    Allows db principal target scope ↔
      target = .organization application.ownerOrganizationId ∧ scope ∈ application.scopes := by
  rw [allows_iff]
  simp [resolveAuthorizationContext, hu, ha, eq_comm]

/-- The decision on an agent: its own tenant, and every tenant for an agent of the
platform organization. -/
theorem agent_allows_iff {agent : AgentPrincipal} (hu : principal.user = none)
    (ha : principal.application = none) (hg : principal.agent = some agent) :
    Allows db principal target scope ↔
      ∃ platform, db.findOrganizationBySlug "realmroot" = some platform ∧
        scope ∈ agent.scopes ∧
          (agent.authority = some (.organization platform.id) ∨
            AgentAuthority.tenant agent.authority = target) := by
  rw [allows_iff]
  unfold resolveAuthorizationContext
  simp only [hu, ha, hg]
  cases hplatform : requirePlatformOrganization db with
  | error e =>
    have hnone : ∀ platform, db.findOrganizationBySlug "realmroot" ≠ some platform := by
      intro platform h
      rw [requirePlatformOrganization_ok.mpr h] at hplatform
      cases hplatform
    simp [bind, Except.bind, hnone]
  | ok platform =>
    have hfind := requirePlatformOrganization_ok.mp hplatform
    simp only [bind, Except.bind, hfind, Option.some.injEq, exists_eq_left', Except.ok.injEq]
    by_cases hauthority : agent.authority = some (.organization platform.id)
    · simp [hauthority]
    · simp [hauthority, and_comm]

theorem nobody_not_allows (hu : principal.user = none) (ha : principal.application = none)
    (hg : principal.agent = none) : ¬ Allows db principal target scope := by
  rw [allows_iff]
  simp [resolveAuthorizationContext, hu, ha, hg]

end Realmroot
