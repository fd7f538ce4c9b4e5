import Realmroot.Authority

/-!
# Gaining authority

A principal may gain memberships, roles and token scopes. A decision that allowed
an operation keeps allowing it, except where the branch changes: a first platform
scope takes the place of what the user could do in an organization, and a role
that cannot be resolved makes every decision fail that reads it.
-/

namespace Realmroot

/-- The user gains memberships and roles, the token gains scopes, and all else stays. -/
structure Gains (db db' : Database) (principal principal' : PrincipalContext) : Prop where
  organizations : db'.organizations = db.organizations
  organizationRoles : db'.organizationRoles = db.organizationRoles
  apiResources : db'.apiResources = db.apiResources
  memberships : ∀ user organizationId member, principal.user = some user →
    db.findMemberByOrganizationUser organizationId user.id = some member →
      ∃ member', db'.findMemberByOrganizationUser organizationId user.id = some member' ∧
        member.roles ⊆ member'.roles
  user : principal'.user = principal.user
  application : ∀ application, principal.application = some application →
    ∃ scopes, application.scopes ⊆ scopes ∧
      principal'.application = some { application with scopes := scopes }
  noApplication : principal.application = none → principal'.application = none
  agent : ∀ agent, principal.agent = some agent →
    ∃ scopes, agent.scopes ⊆ scopes ∧ principal'.agent = some { agent with scopes := scopes }

/-- A further membership is a gain. -/
theorem gains_addMember {db : Database} {principal : PrincipalContext} (row : Member) :
    Gains db { db with members := db.members ++ [row] } principal principal where
  organizations := rfl
  organizationRoles := rfl
  apiResources := rfl
  memberships := by
    intro user organizationId member _ hmember
    refine ⟨member, ?_, fun _ h => h⟩
    obtain ⟨row', hrow', rfl⟩ := Option.map_eq_some_iff.mp hmember
    simp [Database.findMemberByOrganizationUser, List.find?_append, hrow']
  user := rfl
  application application h := ⟨application.scopes, fun _ h => h, h⟩
  noApplication h := h
  agent agent h := ⟨agent.scopes, fun _ h => h, h⟩

/-- The member with the identifier has the given roles. -/
def Member.withRole (id role : String) (row : Member) : Member :=
  if row.id = id then { row with role := role } else row

theorem find_withRole {members : List Member} {id role organizationId userId : String} :
    (members.map (Member.withRole id role)).find? (fun row =>
        row.organizationId = organizationId && row.userId = userId) =
      (members.find? fun row => row.organizationId = organizationId && row.userId = userId).map
        (Member.withRole id role) := by
  rw [List.find?_map]
  congr 2
  funext row
  simp only [Function.comp_apply, Member.withRole]
  split_ifs <;> rfl

/-- A further role in an organization is a gain. -/
theorem gains_addRole {db : Database} {principal : PrincipalContext} (id role : String)
    (hroles : ∀ row ∈ db.members, row.id = id → row.toMember.roles ⊆ deserializeRoles role) :
    Gains db { db with members := db.members.map (Member.withRole id role) } principal
      principal where
  organizations := rfl
  organizationRoles := rfl
  apiResources := rfl
  memberships := by
    intro user organizationId member _ hmember
    obtain ⟨row, hrow, rfl⟩ := Option.map_eq_some_iff.mp hmember
    refine ⟨(row.withRole id role).toMember, ?_, ?_⟩
    · rw [Database.findMemberByOrganizationUser, find_withRole, hrow]
      rfl
    · by_cases hid : row.id = id
      · simpa [hid, Member.withRole, Member.toMember] using
          hroles row (List.mem_of_find?_eq_some hrow) hid
      · simp [hid, Member.withRole]
  user := rfl
  application application h := ⟨application.scopes, fun _ h => h, h⟩
  noApplication h := h
  agent agent h := ⟨agent.scopes, fun _ h => h, h⟩

section Gains

variable {db db' : Database} {principal principal' : PrincipalContext} {user : AuthUser}
  {target : AuthorizationTenant} {organizationId scope : String}

theorem Gains.platform (h : Gains db db' principal principal') :
    db'.findOrganizationBySlug "realmroot" = db.findOrganizationBySlug "realmroot" := by
  simp [Database.findOrganizationBySlug, h.organizations]

theorem Gains.within (h : Gains db db' principal principal') (hw : principal.Within scope) :
    principal'.Within scope := by
  intro application happlication
  cases hbefore : principal.application with
  | none =>
    rw [h.noApplication hbefore] at happlication
    cases happlication
  | some before =>
    obtain ⟨scopes, hsub, hafter⟩ := h.application before hbefore
    rw [hafter] at happlication
    cases happlication
    exact hsub (hw before hbefore)

theorem Gains.holds (h : Gains db db' principal principal') (hu : principal.user = some user)
    (hh : db.Holds organizationId user.id scope) : db'.Holds organizationId user.id scope := by
  obtain ⟨member, resource, hmember, hresource, hregistry, role, hrole, hgives⟩ := hh
  obtain ⟨member', hmember', hroles⟩ := h.memberships user organizationId member hu hmember
  refine ⟨member', resource, hmember', ?_, hregistry, role, hroles hrole, ?_⟩
  · rw [← hresource]
    simp [findRealmrootResourceServer, Database.findResourceByIdentifier, h.apiResources]
  · simpa [Database.listOrganizationRoleScopes, h.organizationRoles] using hgives

theorem Gains.grants (h : Gains db db' principal principal') (hu : principal.user = some user)
    (hg : Grants db principal user organizationId scope) :
    Grants db' principal' user organizationId scope :=
  ⟨h.holds hu hg.1, h.within hg.2⟩

/-- The roles that the decision reads can be resolved after the gain, and where the
user acted in an organization without platform authority, there is none after the
gain either, or it includes the scope. -/
def StaysOnBranch (db db' : Database) (principal principal' : PrincipalContext)
    (target : AuthorizationTenant) (scope : String) : Prop :=
  ∀ user platform, principal.user = some user →
    db.findOrganizationBySlug "realmroot" = some platform →
      db'.Resolvable platform.id user.id ∧
        ∀ id, target = .organization id → ¬ Overruled db principal user platform.id target →
          Grants db' principal' user platform.id scope ∨
            ¬ Overruled db' principal' user platform.id target ∧ db'.Resolvable id user.id

/-- The decision on a user after a gain. -/
theorem Gains.user_allows_iff (h : Gains db db' principal principal')
    (hu : principal.user = some user) (hallows : Allows db principal target scope) :
    Allows db' principal' target scope ↔ StaysOnBranch db db' principal principal' target scope := by
  obtain ⟨platform, hplatform, -, hbefore⟩ := (Realmroot.user_allows_iff hu).mp hallows
  rw [Realmroot.user_allows_iff (h.user.trans hu)]
  simp only [h.platform, hplatform, Option.some.injEq, exists_eq_left']
  constructor
  · rintro ⟨hresolvable, hafter⟩ user' platform' hu' hplatform'
    cases hu.symm.trans hu'
    cases hplatform.symm.trans hplatform'
    refine ⟨hresolvable, ?_⟩
    rintro id rfl -
    rcases hafter with hgrants | ⟨hnot, hresolvable', -⟩
    · exact Or.inl hgrants
    · exact Or.inr ⟨hnot, hresolvable'⟩
  · intro hstays
    obtain ⟨hresolvable, hbranch⟩ := hstays user platform hu hplatform
    refine ⟨hresolvable, ?_⟩
    rcases hbefore with hgrants | ⟨hnot, hlocal⟩
    · exact Or.inl (h.grants hu hgrants)
    · cases target with
      | user id => exact Or.inr ⟨fun hf => hf, hlocal.1, hlocal.2.1, h.within hlocal.2.2⟩
      | organization id =>
        rcases hbranch id rfl hnot with hgrants | ⟨hnot', hresolvable'⟩
        · exact Or.inl hgrants
        · exact Or.inr ⟨hnot', hresolvable', h.grants hu hlocal.2⟩

/-- An allowed operation stays allowed after a gain exactly when the decision stays
on its branch. -/
theorem gain_keeps_allowed_iff (h : Gains db db' principal principal')
    (hallows : Allows db principal target scope) :
    Allows db' principal' target scope ↔ StaysOnBranch db db' principal principal' target scope := by
  cases hu : principal.user with
  | some user => exact h.user_allows_iff hu hallows
  | none =>
    have hstays : StaysOnBranch db db' principal principal' target scope := by
      intro user platform hu'
      rw [hu] at hu'
      cases hu'
    refine iff_of_true ?_ hstays
    have hu' := h.user.trans hu
    cases ha : principal.application with
    | some application =>
      obtain ⟨scopes, hsub, ha'⟩ := h.application application ha
      obtain ⟨htarget, hscope⟩ := (application_allows_iff hu ha).mp hallows
      exact (application_allows_iff hu' ha').mpr ⟨htarget, hsub hscope⟩
    | none =>
      cases hg : principal.agent with
      | some agent =>
        obtain ⟨scopes, hsub, hg'⟩ := h.agent agent hg
        obtain ⟨platform, hplatform, hscope, htenant⟩ := (agent_allows_iff hu ha hg).mp hallows
        exact (agent_allows_iff hu' (h.noApplication ha) hg').mpr
          ⟨platform, h.platform.trans hplatform, hsub hscope, htenant⟩
      | none => exact absurd hallows (nobody_not_allows hu ha hg)

end Gains

/-! ## The platform organization takes over -/

namespace GainExample

/-- A developer of one organization, next to the platform organization. -/
def db : Database :=
  { organizations :=
      [{ id := "platform", slug := "realmroot", disabled := false },
        { id := "acme", slug := "acme", disabled := false }]
    members := [{ id := "m1", organizationId := "acme", userId := "ada", role := "developer", updatedAt := 0 }]
    apiResources := [
      { id := "management", identifier := "realmroot", name := "Realmroot", description := none
        resourceUrl := "https://realmroot/api", authorizationModel := .native, connectorId := none
        authorizationDetails := [], enabled := true, ownerOrganizationId := "platform"
        visibility := .public, scopeRegistry := none, availableToAgents := true
        deletedAt := none, updatedAt := 0 }] }

def ada : PrincipalContext := { user := some { id := "ada" } }

def platformMember : Member :=
  { id := "m2", organizationId := "platform", userId := "ada", role := "member", updatedAt := 0 }

/-- A membership of the platform organization takes write access to applications
away from a developer. -/
theorem platform_membership_denies :
    ¬ ∀ (db db' : Database) (principal principal' : PrincipalContext)
        (target : AuthorizationTenant) (scope : String), Gains db db' principal principal' →
          Allows db principal target scope → Allows db' principal' target scope := by
  intro h
  have hdenied : ¬ Allows { db with members := db.members ++ [platformMember] } ada
      (.organization "acme") "applications:write" := by
    decide +kernel
  have hallowed : Allows db ada (.organization "acme") "applications:write" := by decide +kernel
  exact hdenied (h _ _ _ _ _ _ (gains_addMember platformMember) hallowed)

/-- A second role in the same organization leaves the developer what she had. -/
theorem gain_keeps_allowed_role :
    StaysOnBranch db { db with members := db.members.map (Member.withRole "m1" "admin,developer") }
      ada ada (.organization "acme") "applications:write" := by
  have hallowed : Allows db ada (.organization "acme") "applications:write" := by decide +kernel
  have hgains := @gains_addRole db ada "m1" "admin,developer" (by decide +kernel)
  exact (gain_keeps_allowed_iff hgains hallowed).mp (by decide +kernel)

end GainExample
end Realmroot
