import Realmroot.Authority
import Realmroot.OrganizationTokens
import Realmroot.RoleTexts

/-!
# What the roles of a member give

The roles of a member are resolved to scopes of a resource. At the Realmroot resource the tables
of roles and scopes are asked with `in`, which also finds the names that every object inherits.
-/

namespace Realmroot

open AtomicProgram

/-! ## What roles give -/

/-- A dynamic role of the list gives the scope at the resource. -/
def DynamicGives (dynamicRoles : List (String × List RoleScope)) (roles : List String)
    (resourceId scope : String) : Prop :=
  ∃ role ∈ roles, { resourceId := resourceId, scope := scope } ∈
    (dynamicRoles.lookup role).getD []

/-- A predefined role of the list gives the scope. -/
def PredefinedGives (roles : List String) (scope : String) : Prop :=
  ∃ role ∈ roles, scope ∈ (predefinedOrganizationRoleScopes.lookup role).getD []

/-! ## Inherited names -/

/-- The only key of a role that is an inherited name. -/
theorem isInheritedRole_iff {role : String} (h : isRoleKey role = true) :
    IsInheritedRole role ↔ role = "constructor" := by
  constructor
  · rintro ⟨-, hkey⟩
    have hothers : ∀ key ∈ objectPrototypeKeys, key = "constructor" ∨ isRoleKey key = false := by
      decide
    rcases hothers role hkey with heq | hnot
    · exact heq
    · rw [hnot] at h
      cases h
  · rintro rfl
    decide

theorem not_mem_registry_of_inherited {scope : String} (h : scope ∈ objectPrototypeKeys) :
    scope ∉ realmrootOrganizationScopes := by
  have hall : ∀ key ∈ objectPrototypeKeys, key ∉ realmrootOrganizationScopes := by decide
  exact hall scope h

/-- The scopes of the predefined roles are those of the registry. -/
theorem predefinedGives_registered {roles : List String} {scope : String}
    (h : PredefinedGives roles scope) : scope ∈ realmrootOrganizationScopes := by
  obtain ⟨role, -, hscope⟩ := h
  have hall : ∀ entry ∈ predefinedOrganizationRoleScopes, ∀ scope ∈ entry.2,
      scope ∈ realmrootOrganizationScopes := by decide
  cases hlookup : predefinedOrganizationRoleScopes.lookup role with
  | none => simp [hlookup] at hscope
  | some scopes =>
    rw [hlookup] at hscope
    obtain ⟨before, after, htable, -⟩ := List.lookup_eq_some_iff.mp hlookup
    exact hall (role, scopes) (by simp [htable]) scope hscope

theorem inScopeRegistry_iff {scope : String} :
    inScopeRegistry scope = true ↔
      scope ∈ realmrootOrganizationScopes ∨ scope ∈ objectPrototypeKeys := by
  simp [inScopeRegistry]

/-! ## The promise -/

variable {dynamicRoles : List (String × List RoleScope)} {organizationId : String}
  {roles : List String}

/-- The scopes that the roles are meant to give at the resource. -/
def MeansScope (dynamicRoles : List (String × List RoleScope)) (organizationId : String)
    (roles : List String) (resource : ApiResource) (scope : String) : Prop :=
  if resource.isRealmroot then
    scope ∈ realmrootOrganizationScopes ∧
      (PredefinedGives roles scope ∨ DynamicGives dynamicRoles roles resource.id scope)
  else
    scope ∈ resource.scopesWithMode .assigned ∧
      (resource.ownerOrganizationId = organizationId ∧ "owner" ∈ roles ∨
        DynamicGives dynamicRoles roles resource.id scope)

/-- The roles are resolved, and at the Realmroot resource and at every resource that the
organization sees to exactly the scopes that they are meant to give. -/
def ResolvesExactly (dynamicRoles : List (String × List RoleScope)) (organizationId : String)
    (roles : List String) (found : Option ApiResource) (result : Except Error (List String)) :
    Prop :=
  ∃ scopes, result = .ok scopes ∧ scopes.Nodup ∧
    ∀ resource, found = some resource →
      resource.isRealmroot = true ∨ resource.activeVisibleToOrganization organizationId = true →
        ∀ scope, scope ∈ scopes ↔ MeansScope dynamicRoles organizationId roles resource scope

/-- No inherited name is looked up in the tables: the Realmroot resource is not asked for, or the
list has no role `constructor` and no dynamic role of the list gives a scope of such a name. -/
def NoInheritedNames (dynamicRoles : List (String × List RoleScope)) (roles : List String)
    (found : Option ApiResource) : Prop :=
  ∀ resource, found = some resource → resource.isRealmroot = true →
    "constructor" ∉ roles ∧
      ∀ scope ∈ objectPrototypeKeys, ¬ DynamicGives dynamicRoles roles resource.id scope

/-! ## Other resources -/

theorem nodup_sortStrings {values : List String} (h : values.Nodup) : (sortStrings values).Nodup :=
  (List.perm_insertionSort _ values).nodup_iff.mpr h

theorem mem_filterCurrentResourceScopes {resource : ApiResource}
    (hother : resource.isRealmroot = false)
    (hvisible : resource.activeVisibleToOrganization organizationId = true)
    {candidates : List String} {scope : String} :
    scope ∈ filterCurrentResourceScopes resource organizationId candidates ↔
      scope ∈ candidates ∧ scope ∈ resource.scopesWithMode .assigned := by
  unfold filterCurrentResourceScopes
  split_ifs with hempty hhidden
  · simp [hempty]
  · simp [hvisible] at hhidden
  · rename_i hrealmroot
    rw [hother] at hrealmroot
    cases hrealmroot
  · simp

theorem nodup_filterCurrentResourceScopes {resource : ApiResource} {candidates : List String}
    (h : candidates.Nodup) :
    (filterCurrentResourceScopes resource organizationId candidates).Nodup := by
  unfold filterCurrentResourceScopes
  split_ifs
  · simp
  · simp
  · exact nodup_sortStrings (h.filter _)
  · exact nodup_sortStrings (h.filter _)

theorem membershipScopesForResource_other {resource : ApiResource}
    (hother : resource.isRealmroot = false) :
    membershipScopesForResource dynamicRoles organizationId roles (some resource) =
      (let scopes := unique (dynamicScopes dynamicRoles roles (some resource))
      if scopes = [] ∧ "owner" ∉ roles then .ok []
      else if resource.ownerOrganizationId = organizationId ∧ "owner" ∈ roles then
        .ok (filterCurrentResourceScopes resource organizationId
          (unique (scopes ++ resource.scopesWithMode .assigned)))
      else .ok (filterCurrentResourceScopes resource organizationId scopes)) := by
  simp [membershipScopesForResource, hother, bind, Except.bind]

/-- At other resources the roles are always resolved as they are meant. -/
theorem resolvesExactly_other {resource : ApiResource} (hother : resource.isRealmroot = false) :
    ResolvesExactly dynamicRoles organizationId roles (some resource)
      (membershipScopesForResource dynamicRoles organizationId roles (some resource)) := by
  have hdynamic : ∀ scope, scope ∈ unique (dynamicScopes dynamicRoles roles (some resource)) ↔
      DynamicGives dynamicRoles roles resource.id scope := by
    intro scope
    rw [mem_unique, mem_dynamicScopes]
    rfl
  rw [membershipScopesForResource_other hother]
  dsimp only
  split_ifs with hnothing howner
  · refine ⟨[], rfl, List.nodup_nil, ?_⟩
    intro other heq _ scope
    obtain rfl := Option.some.inj heq
    have hnot : ¬ DynamicGives dynamicRoles roles resource.id scope := by
      rw [← hdynamic scope, hnothing.1]
      simp
    simp [MeansScope, hother, hnot, hnothing.2]
  · refine ⟨_, rfl, nodup_filterCurrentResourceScopes (nodup_unique _), ?_⟩
    intro other heq hcase scope
    obtain rfl := Option.some.inj heq
    have hvisible := hcase.resolve_left (by simp [hother])
    rw [mem_filterCurrentResourceScopes hother hvisible, mem_unique, List.mem_append,
      hdynamic scope]
    simp only [MeansScope, hother, howner, Bool.false_eq_true, if_false]
    tauto
  · refine ⟨_, rfl, nodup_filterCurrentResourceScopes (nodup_unique _), ?_⟩
    intro other heq hcase scope
    obtain rfl := Option.some.inj heq
    have hvisible := hcase.resolve_left (by simp [hother])
    rw [mem_filterCurrentResourceScopes hother hvisible, hdynamic scope]
    simp only [MeansScope, hother, howner, Bool.false_eq_true, if_false]
    tauto

theorem resolvesExactly_none :
    ResolvesExactly dynamicRoles organizationId roles none
      (membershipScopesForResource dynamicRoles organizationId roles none) :=
  ⟨[], by simp [membershipScopesForResource, bind, Except.bind], List.nodup_nil,
    fun _ h => nomatch h⟩

/-! ## The Realmroot resource -/

/-- At the Realmroot resource the roles are resolved as they are meant exactly when no inherited
name is looked up. -/
theorem resolvesExactly_realmroot {resource : ApiResource}
    (hrealmroot : resource.isRealmroot = true) :
    ResolvesExactly dynamicRoles organizationId roles (some resource)
        (membershipScopesForResource dynamicRoles organizationId roles (some resource)) ↔
      (∀ role ∈ roles, ¬ IsInheritedRole role) ∧
        ∀ scope ∈ objectPrototypeKeys, ¬ DynamicGives dynamicRoles roles resource.id scope := by
  rw [membershipScopesForResource_realmroot hrealmroot]
  obtain ⟨hok, hmem⟩ := predefinedScopes_spec roles
  cases hpredefined : predefinedScopes roles with
  | error e =>
    simp only [hpredefined, reduceCtorEq, exists_false, false_iff] at hok
    simp [ResolvesExactly, Except.map, hok]
  | ok predefined =>
    have hroles : ∀ role ∈ roles, ¬ IsInheritedRole role := hok.mp ⟨predefined, hpredefined⟩
    -- What is returned is what the roles give, in the registry or of an inherited name.
    have hgiven : ∀ scope, scope ∈ sortStrings ((unique (predefined ++
          dynamicScopes dynamicRoles roles (some resource))).filter inScopeRegistry) ↔
        (PredefinedGives roles scope ∨ DynamicGives dynamicRoles roles resource.id scope) ∧
          (scope ∈ realmrootOrganizationScopes ∨ scope ∈ objectPrototypeKeys) := by
      intro scope
      simp only [mem_sortStrings, List.mem_filter, mem_unique, List.mem_append,
        hmem predefined hpredefined scope, mem_dynamicScopes, inScopeRegistry_iff, PredefinedGives,
        DynamicGives]
    constructor
    · rintro ⟨scopes, heq, -, hexact⟩
      refine ⟨hroles, ?_⟩
      intro scope hinherited hgives
      obtain rfl := Except.ok.inj heq
      have hmeans := (hexact resource rfl (Or.inl hrealmroot) scope).mp
        ((hgiven scope).mpr ⟨Or.inr hgives, Or.inr hinherited⟩)
      simp only [MeansScope, hrealmroot, if_true] at hmeans
      exact not_mem_registry_of_inherited hinherited hmeans.1
    · rintro ⟨-, hscopes⟩
      refine ⟨_, rfl, nodup_sortStrings ((nodup_unique _).filter _), ?_⟩
      intro other heq _ scope
      obtain rfl := Option.some.inj heq
      have hpre := @predefinedGives_registered roles scope
      have hnot := hscopes scope
      simp only [hgiven scope, MeansScope, hrealmroot, if_true]
      tauto

/-! ## Every resource -/

/-- For role keys as they are created, the roles of a member are resolved exactly when no inherited
name is looked up. -/
theorem resolves_roles_exactly (w : World) (organizationId : String) (roles : List String)
    (resourceId : String) (hroles : ∀ role ∈ roles, isRoleKey role = true) :
    ResolvesExactly (w.db.listOrganizationRoleScopes organizationId) organizationId roles
        (w.db.findResource resourceId)
        ((resolveOrganizationMembershipScopes organizationId roles resourceId).settled {} w) ↔
      NoInheritedNames (w.db.listOrganizationRoleScopes organizationId) roles
        (w.db.findResource resourceId) := by
  rw [settled_resolveOrganizationMembershipScopes]
  have hinherited : (∀ role ∈ roles, ¬ IsInheritedRole role) ↔ "constructor" ∉ roles := by
    constructor
    · exact fun h hmem => h _ hmem ((isInheritedRole_iff (hroles _ hmem)).mpr rfl)
    · rintro h role hrole hinherited
      rw [(isInheritedRole_iff (hroles role hrole)).mp hinherited] at hrole
      exact h hrole
  cases w.db.findResource resourceId with
  | none => simp [resolvesExactly_none, NoInheritedNames]
  | some resource =>
    cases hrealmroot : resource.isRealmroot with
    | false => simp [resolvesExactly_other hrealmroot, NoInheritedNames, hrealmroot]
    | true =>
      rw [resolvesExactly_realmroot hrealmroot, hinherited]
      simp [NoInheritedNames, hrealmroot]

namespace RoleResolutionExample

def realmroot : ApiResource :=
  { id := "resource", identifier := "realmroot", name := "Realmroot", description := none
    resourceUrl := "https://realmroot", authorizationModel := .native, connectorId := none
    authorizationDetails := [], enabled := true, ownerOrganizationId := "realm"
    visibility := .public, scopeRegistry := none, availableToAgents := true, deletedAt := none
    updatedAt := 0 }

/-- An organization with a role whose key is an inherited name. -/
def world : World :=
  { db :=
      { apiResources := [realmroot]
        organizationRoles :=
          [{ id := "role", organizationId := "acme", role := "constructor"
             permission := [("scope", ["resource/agents%3Aread"])], updatedAt := 0 }] }
    clock := 0, nextId := 0 }

/-- The scopes of a member with the role are not resolved. -/
theorem constructor_role_throws :
    isRoleKey "constructor" = true ∧
      ¬ ResolvesExactly (world.db.listOrganizationRoleScopes "acme") "acme" ["constructor"]
        (world.db.findResource "resource")
        ((resolveOrganizationMembershipScopes "acme" ["constructor"] "resource").settled {}
          world) := by
  refine ⟨by decide, ?_⟩
  rintro ⟨scopes, hok, -⟩
  have herror : (resolveOrganizationMembershipScopes "acme" ["constructor"] "resource").settled {}
      world = .error (.internal "object is not iterable") := by
    rw [settled_resolveOrganizationMembershipScopes]
    rfl
  rw [herror] at hok
  cases hok

/-- The scopes of a member with the role `owner` are. -/
theorem owner_role_resolves :
    (∀ role ∈ ["owner"], isRoleKey role = true) ∧
      ResolvesExactly (world.db.listOrganizationRoleScopes "acme") "acme" ["owner"]
        (world.db.findResource "resource")
        ((resolveOrganizationMembershipScopes "acme" ["owner"] "resource").settled {} world) := by
  have hkeys : ∀ role ∈ ["owner"], isRoleKey role = true := by decide
  refine ⟨hkeys, (resolves_roles_exactly world "acme" ["owner"] "resource" hkeys).mpr ?_⟩
  intro resource _ _
  refine ⟨by decide, ?_⟩
  rintro scope - ⟨role, hrole, hgives⟩
  obtain rfl := List.mem_singleton.mp hrole
  cases hgives

end RoleResolutionExample

end Realmroot
