import Realmroot.Library.TwoRuns
import Realmroot.MembershipFrames
import Realmroot.Rules
import Realmroot.Usecases.NativeAuthority

/-!
# Isolation of authorization contexts

The scopes of a user in one context depend only on what is granted in that context.
Two databases that agree there, and on the resources, give the same scopes, whatever
else differs between them and whatever else happens meanwhile.
-/

namespace Realmroot

open AtomicProgram Program

/-- What is given for the organization, or for none, is given in the context. -/
def TenantContext.covers : TenantContext → Option String → Bool
  | .unrestricted, _ => true
  | .personal, organizationId => organizationId = none
  | .organization id, organizationId => organizationId = some id

/-- The databases agree on the resources and on what the user is given in the context:
the memberships there, the roles of its organization and the entitlements for it. -/
structure SameContext (userId : String) (context : TenantContext) (db db' : Database) : Prop where
  resources : db'.apiResources = db.apiResources
  memberships :
    (db'.members.filter fun row => row.userId = userId && context.covers (some row.organizationId)) =
      db.members.filter fun row => row.userId = userId && context.covers (some row.organizationId)
  roles :
    (db'.organizationRoles.filter fun row => context.covers (some row.organizationId)) =
      db.organizationRoles.filter fun row => context.covers (some row.organizationId)
  entitlements :
    (db'.resourceScopeEntitlements.filter fun row =>
      row.userId = some userId && context.covers row.organizationId) =
    db.resourceScopeEntitlements.filter fun row =>
      row.userId = some userId && context.covers row.organizationId

/-- The databases agree in the context, and the clocks show the same time. -/
def SameView (userId : String) (context : TenantContext) (s t : World) : Prop :=
  SameContext userId context s.db t.db ∧ t.clock = s.clock

namespace SameContext

variable {userId : String} {context : TenantContext} {db db' : Database}

theorem refl (userId : String) (context : TenantContext) (db : Database) :
    SameContext userId context db db := ⟨rfl, rfl, rfl, rfl⟩

theorem findResource_eq (h : SameContext userId context db db') (id : String) :
    db'.findResource id = db.findResource id := by
  rw [Database.findResource, Database.findResource, h.resources]

theorem tenantMemberships_eq (h : SameContext userId context db db') :
    tenantMemberships (db'.listUserMemberships userId) context =
      tenantMemberships (db.listUserMemberships userId) context := by
  have hrows := congrArg (List.map Member.toMember) h.memberships
  cases context with
  | unrestricted =>
    simpa [tenantMemberships, Database.listUserMemberships, TenantContext.covers] using hrows
  | personal => rfl
  | organization id =>
    have hselect : ∀ rows : List Member,
        ((rows.filter fun row => row.userId = userId).map Member.toMember).filter
            (fun membership => membership.organizationId = id) =
          (rows.filter fun row => row.userId = userId &&
            TenantContext.covers (.organization id) (some row.organizationId)).map
              Member.toMember := by
      intro rows
      rw [List.filter_map, List.filter_filter]
      congr 1
      apply List.filter_congr
      intro row _
      by_cases hrow : row.organizationId = id <;>
        simp [TenantContext.covers, Member.toMember, hrow]
    rw [tenantMemberships, tenantMemberships, Database.listUserMemberships,
      Database.listUserMemberships, hselect, hselect]
    exact hrows

theorem roleScopes_eq (h : SameContext userId context db db') {organizationId : String}
    (hcovers : context.covers (some organizationId) = true) :
    db'.listOrganizationRoleScopes organizationId = db.listOrganizationRoleScopes organizationId := by
  have hcovered : ∀ row : OrganizationRole,
      (decide (row.organizationId = organizationId) && context.covers (some row.organizationId)) =
        decide (row.organizationId = organizationId) := by
    intro row
    by_cases hrow : row.organizationId = organizationId
    · simp [hrow, hcovers]
    · simp [hrow]
  have hrows := congrArg (List.filter fun row => row.organizationId = organizationId) h.roles
  simp only [List.filter_filter, hcovered] at hrows
  rw [Database.listOrganizationRoleScopes, Database.listOrganizationRoleScopes, hrows]

/-- Whether the user is in the organization of the context. -/
theorem isMember_eq {organizationId : String}
    (h : SameContext userId (.organization organizationId) db db') :
    ((db'.listUserMemberships userId).any fun membership =>
        membership.organizationId = organizationId) =
      (db.listUserMemberships userId).any fun membership =>
        membership.organizationId = organizationId := by
  have hany : ∀ memberships : List MemberRecord,
      (memberships.any fun membership => membership.organizationId = organizationId) =
        !(tenantMemberships memberships (.organization organizationId)).isEmpty := by
    intro memberships
    rw [tenantMemberships, Bool.eq_iff_iff]
    simp
  rw [hany, hany, h.tenantMemberships_eq]

theorem matches_iff (row : ResourceScopeEntitlement) :
    userEntitlementMatchesOrganization row context = context.covers row.organizationId := by
  cases context <;> rfl

theorem entitlements_eq (h : SameContext userId context db db') (resourceId : String) (now : Time) :
    ((db'.listActiveUserScopeEntitlements userId resourceId now).filter fun row =>
      userEntitlementMatchesOrganization row context) =
    (db.listActiveUserScopeEntitlements userId resourceId now).filter fun row =>
      userEntitlementMatchesOrganization row context := by
  have hrows := congrArg
    (List.filter fun row => row.resourceServerId = resourceId && row.isActive now) h.entitlements
  simp only [List.filter_filter] at hrows
  simp only [Database.listActiveUserScopeEntitlements, List.filter_filter, matches_iff]
  convert hrows using 2 <;> (ext row; ac_rfl)

end SameContext

/-! ## What is given elsewhere -/

/-- The organization whose members a command changes. -/
def MembershipCommand.organizationId? : MembershipCommand → Option String
  | .createOrganization row _ => some row.id
  | .addMember row => some row.organizationId
  | .replaceMemberRoles organizationId _ _ _ _ => some organizationId
  | .removeMember organizationId _ _ _ _ => some organizationId
  | .eraseAccount _ _ => none

namespace SameContext

variable {userId : String} {context : TenantContext}

/-- A change to the members of an organization is not seen in another context. -/
theorem of_membership {command : MembershipCommand} {organizationId : String}
    (hcommand : command.organizationId? = some organizationId)
    (helsewhere : context.covers (some organizationId) = false) (db : Database) :
    SameContext userId context db (command.after db) := by
  unfold MembershipCommand.after
  apply Statement.after_keeps (p := SameContext userId context db) (refl userId context db)
  intro answer db' hok
  cases command with
  | eraseAccount user now => cases hcommand
  | createOrganization row owner =>
    cases hcommand
    obtain ⟨-, -, -, rfl⟩ := Database.createOrganization_ok hok
    refine ⟨rfl, ?_, rfl, rfl⟩
    simp [List.filter_append, helsewhere]
  | addMember row =>
    cases hcommand
    obtain ⟨-, -, -, rfl⟩ := Database.insertMember_ok hok
    refine ⟨rfl, ?_, rfl, rfl⟩
    simp [List.filter_append, helsewhere]
  | replaceMemberRoles organization memberId roles expectedUpdatedAt audit =>
    cases hcommand
    obtain ⟨-, event, -, rfl⟩ := Database.replaceMemberRoles_ok hok
    refine ⟨rfl, ?_, rfl, rfl⟩
    apply Table.filter_updateWhere
    · intro row hrow
      simp only [Database.replacesRoles, Database.isMember, Bool.and_eq_true, decide_eq_true_eq]
        at hrow
      simp [hrow.1.1.2, helsewhere]
    · exact fun row => rfl
  | removeMember organization memberId expectedUpdatedAt audit now =>
    cases hcommand
    obtain ⟨-, event, teamMembers, tokens, sessions, -, rfl⟩ := Database.removeMember_ok hok
    refine ⟨rfl, ?_, rfl, rfl⟩
    rw [List.filter_filter]
    apply List.filter_congr
    intro row _
    by_cases hrow : Database.removes organizationId memberId expectedUpdatedAt db row = true
    · simp only [Database.removes, Database.isMember, Bool.and_eq_true, decide_eq_true_eq] at hrow
      simp [hrow.1.1.2, helsewhere]
    · simp [hrow]

/-- A grant to another user, or in another context, is not seen. -/
theorem of_grant {row : ResourceScopeEntitlement} (db : Database)
    (helsewhere : row.userId = some userId → context.covers row.organizationId = false) :
    SameContext userId context db ((Database.insertScopeEntitlement row).after db) := by
  apply Statement.after_keeps (p := SameContext userId context db) (refl userId context db)
  intro answer db' hok
  obtain ⟨-, -, rfl⟩ | ⟨-, -, rfl⟩ := Database.insertScopeEntitlement_ok hok
  · exact refl userId context _
  · refine ⟨rfl, rfl, rfl, ?_⟩
    rw [List.filter_append, List.append_right_eq_self, List.filter_eq_nil_iff]
    intro granted hgranted
    rw [List.mem_singleton.mp hgranted]
    by_cases huser : row.userId = some userId
    · simp [helsewhere huser]
    · simp [huser]

end SameContext

/-! ## Programs that read in one context -/

section Alike

variable {α β : Type} {userId : String} {context : TenantContext}

theorem alike_query {select : Database → α} {next next' : α → Request β}
    (h : ∀ s t, SameView userId context s t →
      (next (select s.db)).Alike (SameView userId context) Eq (next' (select t.db))) :
    (query select >>= next).Alike (SameView userId context) Eq (query select >>= next') :=
  fun s t hst => ⟨hst, h s t hst⟩

theorem alike_currentTime {next next' : Time → Request β}
    (h : ∀ now, (next now).Alike (SameView userId context) Eq (next' now)) :
    (currentTime >>= next).Alike (SameView userId context) Eq (currentTime >>= next') := by
  intro s t hst
  refine ⟨hst, ?_⟩
  dsimp only
  rw [hst.2]
  exact h s.clock

theorem alike_bind {p p' : Request α} {next : α → Request β}
    (hp : p.Alike (SameView userId context) Eq p')
    (hnext : ∀ a, (next a).Alike (SameView userId context) Eq (next a)) :
    (p >>= next).Alike (SameView userId context) Eq (p' >>= next) := by
  apply Alike.bind hp
  rintro a _ rfl
  exact hnext a

/-- The scopes of a membership in the context. -/
theorem membershipScopes_alike {organizationId : String} (roles : List String)
    (resourceId : String) (hcovers : context.covers (some organizationId) = true) :
    (resolveOrganizationMembershipScopes organizationId roles resourceId).Alike
      (SameView userId context) Eq
      (resolveOrganizationMembershipScopes organizationId roles resourceId) := by
  unfold resolveOrganizationMembershipScopes
  apply alike_query
  intro s t hst
  rw [hst.1.findResource_eq]
  apply alike_query
  intro s' t' hst'
  rw [hst'.1.roleScopes_eq hcovers]
  split
  · exact rfl
  · exact rfl

/-- The memberships that count in a context are in it. -/
theorem covers_of_mem_tenantMemberships {memberships : List MemberRecord} {membership : MemberRecord}
    (h : membership ∈ tenantMemberships memberships context) :
    context.covers (some membership.organizationId) = true := by
  cases context with
  | unrestricted => rfl
  | personal => simp [tenantMemberships] at h
  | organization id =>
    have hmembership := (List.mem_filter.mp h).2
    simpa [TenantContext.covers] using hmembership

theorem userEffectiveResourceScopes_alike (resource : ApiResource) (now : Time) :
    (userEffectiveResourceScopes userId resource now context).Alike (SameView userId context) Eq
      (userEffectiveResourceScopes userId resource now context) := by
  unfold userEffectiveResourceScopes
  apply alike_query
  intro s t hst
  dsimp only
  rw [hst.1.tenantMemberships_eq]
  have hcovers : ∀ membership ∈ tenantMemberships (s.db.listUserMemberships userId) context,
      context.covers (some membership.organizationId) = true := fun membership =>
    covers_of_mem_tenantMemberships
  obtain ⟨visible, hvisible, heq⟩ : ∃ visible : List MemberRecord,
      (∀ membership ∈ visible, context.covers (some membership.organizationId) = true) ∧
        (if context = .unrestricted ∧ resource.visibility = .private then
          (tenantMemberships (s.db.listUserMemberships userId) context).filter fun membership =>
            membership.organizationId = resource.ownerOrganizationId
        else tenantMemberships (s.db.listUserMemberships userId) context) = visible := by
    refine ⟨_, ?_, rfl⟩
    split_ifs
    · exact fun membership hmembership => hcovers membership (List.mem_filter.mp hmembership).1
    · exact hcovers
  simp only [heq]
  split_ifs
  · exact rfl
  · apply alike_query
    intro s' t' hst'
    rw [hst'.1.entitlements_eq]
    apply alike_bind
    · apply Alike.mapEach
      intro membership hmembership
      exact membershipScopes_alike membership.roles resource.id (hvisible membership hmembership)
    · exact fun memberScopes => rfl

theorem currentUserScopes_alike (resource : ApiResource) :
    (currentUserScopes resource userId context).Alike (SameView userId context) Eq
      (currentUserScopes resource userId context) := by
  unfold currentUserScopes
  apply alike_currentTime
  intro now
  exact userEffectiveResourceScopes_alike resource now

/-- The context in which an agent acts under the authority. -/
def authorityContext (detail : AuthorizationDetail) : TenantContext :=
  match organizationAuthority detail with
  | some organizationId => .organization organizationId
  | none => .personal

theorem resourceAuthorityScopes_alike {detail : AuthorizationDetail}
    (hcontext : authorityContext detail = context) (resource : ApiResource) :
    (resourceAuthorityScopes (some userId) resource detail).Alike (SameView userId context) Eq
      (resourceAuthorityScopes (some userId) resource detail) := by
  unfold resourceAuthorityScopes
  unfold authorityContext at hcontext
  cases huser : truthy (some userId) with
  | none =>
    dsimp only
    split_ifs <;> exact rfl
  | some user =>
    obtain ⟨huser, -⟩ := truthy_eq_some huser
    cases huser
    cases horganization : organizationAuthority detail with
    | some organizationId =>
      rw [horganization] at hcontext
      subst hcontext
      apply alike_bind (currentUserScopes_alike resource)
      exact fun scopes => rfl
    | none =>
      rw [horganization] at hcontext
      subst hcontext
      dsimp only
      split_ifs
      · apply alike_bind (currentUserScopes_alike resource)
        exact fun scopes => rfl
      · exact rfl

theorem realmrootAuthorityScopes_alike {detail : AuthorizationDetail}
    (hcontext : authorityContext detail = context) (resource : ApiResource) :
    (realmrootAuthorityScopes (some userId) resource detail).Alike (SameView userId context) Eq
      (realmrootAuthorityScopes (some userId) resource detail) := by
  unfold realmrootAuthorityScopes
  unfold authorityContext at hcontext
  cases huser : truthy (some userId) with
  | none =>
    cases organizationAuthority detail <;> exact rfl
  | some user =>
    obtain ⟨huser, -⟩ := truthy_eq_some huser
    cases huser
    cases horganization : organizationAuthority detail with
    | some organizationId =>
      rw [horganization] at hcontext
      subst hcontext
      apply alike_query
      intro s t hst
      rw [hst.1.isMember_eq]
      split_ifs
      · apply alike_bind (currentUserScopes_alike resource)
        exact fun scopes => rfl
      · exact rfl
    | none =>
      rw [horganization] at hcontext
      subst hcontext
      dsimp only
      split_ifs
      · apply alike_bind (currentUserScopes_alike resource)
        exact fun scopes => rfl
      · exact rfl

theorem nativeAuthorityEffectiveScopes_alike {detail : AuthorizationDetail}
    (hcontext : authorityContext detail = context) (resource : ApiResource) :
    (nativeAuthorityEffectiveScopes (some userId) resource detail).Alike
      (SameView userId context) Eq
      (nativeAuthorityEffectiveScopes (some userId) resource detail) := by
  unfold nativeAuthorityEffectiveScopes
  split_ifs
  · exact resourceAuthorityScopes_alike hcontext resource
  · exact realmrootAuthorityScopes_alike hcontext resource

end Alike

/-- Two runs that agree in a context resolve the same scopes there, for the user and for
an agent that acts for the user: nothing that is given elsewhere is seen, neither before
nor meanwhile. -/
theorem authorization_contexts_isolated {userId : String} {context : TenantContext}
    {around around' : Surroundings World Reply} (hreply : around'.reply = around.reply)
    (hmoves : ∀ n s t, SameView userId context s t →
      SameView userId context (around.elapse n s) (around'.elapse n t))
    {s t : World} (hst : SameView userId context s t) :
    (∀ resource now,
      ((userEffectiveResourceScopes userId resource now context).execute around 0 s).1 =
        ((userEffectiveResourceScopes userId resource now context).execute around' 0 t).1) ∧
    ∀ resource detail, authorityContext detail = context →
      ((nativeAuthorityEffectiveScopes (some userId) resource detail).execute around 0 s).1 =
        ((nativeAuthorityEffectiveScopes (some userId) resource detail).execute around' 0 t).1 := by
  constructor
  · intro resource now
    exact (userEffectiveResourceScopes_alike resource now).execute hreply hmoves hst 0
  · intro resource detail hcontext
    exact (nativeAuthorityEffectiveScopes_alike hcontext resource).execute hreply hmoves hst 0

/-! ## A user of two organizations -/

namespace IsolationExample

def resource : ApiResource :=
  { id := "files", identifier := "files", name := "Files", description := none
    resourceUrl := "https://files.example", authorizationModel := .native, connectorId := none
    authorizationDetails := [], enabled := true, ownerOrganizationId := "north"
    visibility := .public
    scopeRegistry := some { scopes := [⟨"read", none, .assigned⟩, ⟨"write", none, .assigned⟩] }
    availableToAgents := true, deletedAt := none, updatedAt := 0 }

def granted (id organizationId scope : String) : ResourceScopeEntitlement :=
  { id := id, userId := some "ada", applicationId := none, agentIdentityId := none
    organizationId := some organizationId, resourceServerId := "files", connectionId := none
    authorizationDetails := [], authorizationContextHash := "", scope := scope
    mode := .persistent, grantedByUserId := none, grantedByAgentIdentityId := none
    sourceAccessRequestId := none, expiresAt := none, endedAt := none, endReason := none
    createdAt := 0, updatedAt := 0 }

def member (id organizationId role : String) : Member :=
  { id := id, organizationId := organizationId, userId := "ada", role := role, updatedAt := 0 }

/-- The user is granted a scope in one organization. -/
def south : World where
  db :=
    { members := [member "m1" "south" "member"], apiResources := [resource]
      resourceScopeEntitlements := [granted "e1" "south" "read"] }
  clock := 10
  nextId := 0

/-- The user also owns another organization, and is granted another scope there. -/
def both : World :=
  { south with
    db := { south.db with
      members := south.db.members ++ [member "m2" "north" "owner"]
      resourceScopeEntitlements :=
        south.db.resourceScopeEntitlements ++ [granted "e2" "north" "write"] } }

def still : Surroundings World Reply := { elapse := fun _ s => s, reply := fun _ => {} }

theorem sameView_both : SameView "ada" (.organization "south") south both :=
  ⟨⟨rfl, by decide, by decide, by decide⟩, rfl⟩

/-- What the user has in the other organization does not show in this one. -/
theorem authorization_contexts_isolated_both :
    ((userEffectiveResourceScopes "ada" resource 10 (.organization "south")).execute still 0
      south).1 =
    ((userEffectiveResourceScopes "ada" resource 10 (.organization "south")).execute still 0
      both).1 ∧
    ((userEffectiveResourceScopes "ada" resource 10 (.organization "south")).execute still 0
      both).1 = .ok ["read"] := by
  constructor
  · exact (authorization_contexts_isolated rfl (fun _ _ _ h => h) sameView_both).1 resource 10
  · decide +kernel

end IsolationExample

end Realmroot
