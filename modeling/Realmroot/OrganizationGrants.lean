import Realmroot.DirectGrants
import Realmroot.MembershipSystem
import Realmroot.Usecases.UserPermissions

/-!
# Grants in organizations

A scope that is granted to a user in an organization is granted to a member of it. The grant
reads the membership before it writes, and a removal of the member writes no grant.
-/

namespace Realmroot

open AtomicProgram Program Pool

/-! ## The system -/

inductive GrantingRequest where
  | grant (userId : String) (input : CreateUserPermissionRequest) (actor : MutationActor)
  | addMember (organizationId userId : String) (input : RequestedRoles)
  | removeMember (organizationId memberId : String) (actor : MutationActor)

inductive GrantingEvent where
  | elapse (milliseconds : ℕ)
  /-- The tables other than those of the members and the entitlements change in any way. -/
  | configure (db : Database)

def grantingSystem [Platform] :
    System Command World Reply Error Unit GrantingRequest GrantingEvent where
  program
    | .grant userId input actor => (createUserPermission userId input actor).discard
    | .addMember organizationId userId input => addMember organizationId userId input
    | .removeMember organizationId memberId actor => removeMember organizationId memberId actor
  environment
    | .elapse milliseconds, w => { w with clock := w.clock + milliseconds }
    | .configure db, w =>
      { w with
        db := { db with
          members := w.db.members
          resourceScopeEntitlements := w.db.resourceScopeEntitlements } }

abbrev GrantingAction := Action Reply GrantingRequest GrantingEvent

/-! ## Grants and members -/

namespace Database

variable (db : Database)

def hasMember (organizationId userId : String) : Bool :=
  db.members.any fun row => row.organizationId = organizationId && row.userId = userId

/-- The user of an entitlement in an organization is a member of it. -/
def belongs (row : ResourceScopeEntitlement) : Bool :=
  match row.userId, row.organizationId with
  | some userId, some organizationId => db.hasMember organizationId userId
  | _, _ => true

/-- Every active entitlement of a user in an organization is one of a member. -/
def GrantsFollow (now : Time) : Prop :=
  ∀ row ∈ db.resourceScopeEntitlements, row.isActive now = true → db.belongs row = true

instance (now : Time) : Decidable (db.GrantsFollow now) :=
  inferInstanceAs (Decidable (∀ _ ∈ _, _))

/-- The active entitlements that a user has in an organization. -/
def grantsIn (organizationId userId : String) (now : Time) : List ResourceScopeEntitlement :=
  db.resourceScopeEntitlements.filter fun row =>
    row.userId = some userId && row.organizationId = some organizationId && row.isActive now

end Database

/-- A removal of a member finds no active entitlement of the user in the organization. What a
grant writes, it writes for a member; and it changes the lifetime of active entitlements only. -/
def FollowsMembership : Command → World → Prop
  | .membership (.removeMember organizationId memberId expectedUpdatedAt _ _), w =>
    ∀ row ∈ w.db.members, Database.removes organizationId memberId expectedUpdatedAt w.db row →
      w.db.grantsIn organizationId row.userId w.clock = []
  | .access (.insertScopeEntitlement row), w =>
    w.db.conflicts row = true ∨ w.db.belongs row = true
  | .access (.replaceExpiredEntitlement id row now), w =>
    (Database.replaceExpiredEntitlement id row now).refuses w.db = true ∨
      w.db.belongs row = true
  | .access (.renewEntitlement renewal), w =>
    (Database.renewEntitlement renewal).refuses w.db = true ∨ renewal.lifetime = none ∨
      ∀ row ∈ w.db.resourceScopeEntitlements, row.id = renewal.id → row.endedAt = none →
        w.db.belongs row = true ∧ row.isActive w.clock = true
  | _, _ => True

instance (command : Command) (w : World) : Decidable (FollowsMembership command w) := by
  unfold FollowsMembership
  split <;> infer_instance

/-! ## The commands of the requests -/

/-- The commands of grants and of memberships. -/
def Command.Grants : Command → Prop
  | .read => True
  | .generateId => True
  | .access (.insertScopeEntitlement _) => True
  | .access (.replaceExpiredEntitlement ..) => True
  | .access (.renewEntitlement _) => True
  | .membership (.addMember _) => True
  | .membership (.removeMember ..) => True
  | _ => False

theorem Command.GrantsDirectly.grants {command : Command} (h : command.GrantsDirectly) :
    command.Grants := by
  cases command with
  | read => trivial
  | access command => cases command <;> trivial
  | _ => exact h.elim

theorem createUserPermission_uses [Platform] (userId : String)
    (input : CreateUserPermissionRequest) (actor : MutationActor) :
    (createUserPermission userId input actor).Uses Command.Grants := by
  apply uses_bind (uses_query.mpr trivial)
  intro user
  apply uses_bind uses_orThrow
  intro _
  apply uses_bind (uses_bind (uses_query.mpr trivial) fun _ => uses_orThrow)
  intro resource
  apply uses_bind uses_throwIf
  intro _
  apply uses_bind uses_throwIf
  intro _
  apply uses_bind
  · unfold requireOwnerMember
    split_ifs
    · exact uses_bind (uses_query.mpr trivial) fun _ => uses_throwIf
    · trivial
  intro _
  apply uses_bind
  · unfold requireGrantMember
    split
    · trivial
    · apply uses_bind (uses_query.mpr trivial)
      intro membership
      exact uses_bind uses_throwIf fun _ => uses_throwIf
  intro _
  apply uses_bind (uses_currentTime.mpr trivial)
  intro now
  apply uses_bind uses_throwIf
  intro _
  apply uses_bind uses_throwIf
  intro _
  apply uses_bind uses_throwIf
  intro _
  apply uses_bind (uses_generateId.mpr trivial)
  intro id
  apply uses_bind uses_ofResult
  intro grantor
  exact (createScopeEntitlement_grants _ now).mono fun _ hc => hc.grants

theorem grantingSystem_uses [Platform] (request : GrantingRequest) :
    (grantingSystem.program request).Uses Command.Grants := by
  cases request with
  | grant userId input actor =>
    exact (createUserPermission_uses userId input actor).bind fun _ => trivial
  | addMember organizationId userId input =>
    obtain ⟨insert, heq, hinsert⟩ := addMember_validates (P := Command.Grants) trivial trivial
      organizationId userId input
    change (addMember organizationId userId input).Uses _
    rw [heq]
    apply uses_bind (getOrganization_uses trivial organizationId)
    intro _
    apply uses_bind (validateOrganizationRoleKeys_uses trivial organizationId input.roles)
    intro _
    exact hinsert fun _ _ => trivial
  | removeMember organizationId memberId actor =>
    exact removeMember_uses trivial trivial organizationId memberId actor fun _ _ _ _ => trivial

/-! ## What a step does to the grants -/

/-- An entitlement that is not active stays so, at its place in the table. -/
def KeepsInactive (s t : World) : Prop :=
  s.clock ≤ t.clock ∧ ∀ (i : ℕ) (row : ResourceScopeEntitlement),
    s.db.resourceScopeEntitlements[i]? = some row →
      ∃ later, t.db.resourceScopeEntitlements[i]? = some later ∧
        (row.isActive s.clock = false → later.isActive t.clock = false)

theorem KeepsInactive.refl (s : World) : KeepsInactive s s :=
  ⟨le_rfl, fun _ row hrow => ⟨row, hrow, fun h => h⟩⟩

theorem KeepsInactive.trans {s t u : World} (h : KeepsInactive s t) (h' : KeepsInactive t u) :
    KeepsInactive s u := by
  refine ⟨h.1.trans h'.1, ?_⟩
  intro i row hrow
  obtain ⟨later, hlater, hfirst⟩ := h.2 i row hrow
  obtain ⟨last, hlast, hsecond⟩ := h'.2 i later hlater
  exact ⟨last, hlast, fun hinactive => hsecond (hfirst hinactive)⟩

namespace ResourceScopeEntitlement

variable {row : ResourceScopeEntitlement}

/-- What is not active does not become so in time. -/
theorem isActive_later {now later : Time} (h : row.isActive now = false) (hle : now ≤ later) :
    row.isActive later = false := by
  by_contra hactive
  rw [Bool.not_eq_false] at hactive
  simp only [isActive, Bool.and_eq_true] at hactive
  have hnow : row.isActive now = true := by
    simp only [isActive, Bool.and_eq_true]
    refine ⟨hactive.1, ?_⟩
    cases hexpires : row.expiresAt with
    | none => rfl
    | some time =>
      have hlater := hactive.2
      simp only [hexpires, Option.all_some, decide_eq_true_eq] at hlater ⊢
      exact hle.trans_lt hlater
  rw [hnow] at h
  cases h

theorem isActive_end (reason : EndReason) (ended now : Time) :
    (row.end reason ended).isActive now = false := by
  simp [isActive, ResourceScopeEntitlement.end]

end ResourceScopeEntitlement

/-- A write that only appends rows. -/
theorem KeepsInactive.of_append {s t : World} {rows : List ResourceScopeEntitlement}
    (hclock : s.clock ≤ t.clock)
    (h : t.db.resourceScopeEntitlements = s.db.resourceScopeEntitlements ++ rows) :
    KeepsInactive s t := by
  refine ⟨hclock, ?_⟩
  intro i row hrow
  refine ⟨row, ?_, fun hinactive => ResourceScopeEntitlement.isActive_later hinactive hclock⟩
  rw [h, List.getElem?_append_left (List.getElem?_eq_some_iff.mp hrow).1]
  exact hrow

/-- A write that changes some rows, and makes none of them active, and then appends rows. -/
theorem KeepsInactive.of_update {s t : World} {selects : ResourceScopeEntitlement → Bool}
    {sets : ResourceScopeEntitlement → ResourceScopeEntitlement}
    {rows : List ResourceScopeEntitlement} (hclock : s.clock = t.clock)
    (h : t.db.resourceScopeEntitlements =
      Table.updateWhere selects sets s.db.resourceScopeEntitlements ++ rows)
    (hsets : ∀ row ∈ s.db.resourceScopeEntitlements, selects row = true →
      row.isActive s.clock = false → (sets row).isActive s.clock = false) :
    KeepsInactive s t := by
  refine ⟨hclock.le, ?_⟩
  intro i row hrow
  have hlength : i < s.db.resourceScopeEntitlements.length :=
    (List.getElem?_eq_some_iff.mp hrow).1
  rw [h, List.getElem?_append_left (by simpa using hlength), Table.updateWhere,
    List.getElem?_map, hrow]
  refine ⟨_, rfl, ?_⟩
  intro hinactive
  rw [← hclock]
  dsimp only
  split_ifs with hselected
  · exact hsets row (List.mem_of_getElem? hrow) hselected hinactive
  · exact hinactive

namespace Database

variable {db db' : Database}

theorem belongs_congr (hmembers : db'.members = db.members) (row : ResourceScopeEntitlement) :
    db'.belongs row = db.belongs row := by
  unfold belongs hasMember
  rw [hmembers]

/-- More members. -/
theorem belongs_append {row : ResourceScopeEntitlement} {member : Member}
    (hmembers : db'.members = db.members ++ [member]) (h : db.belongs row = true) :
    db'.belongs row = true := by
  unfold belongs at h ⊢
  split at h
  · rename_i userId organizationId huser horganization
    simp only [hasMember, hmembers, List.any_append, Bool.or_eq_true] at h ⊢
    exact Or.inl h
  · rfl

/-- Fewer members: those of a user without active grants in the organization leave. -/
theorem belongs_filter {row : ResourceScopeEntitlement} {leaves : Member → Bool} {now : Time}
    (hmembers : db'.members = db.members.filter fun member => !leaves member)
    (hleaves : ∀ member ∈ db.members, leaves member = true →
      db.grantsIn member.organizationId member.userId now = [])
    (hrow : row ∈ db.resourceScopeEntitlements) (hactive : row.isActive now = true)
    (h : db.belongs row = true) : db'.belongs row = true := by
  unfold belongs at h ⊢
  split at h
  · rename_i userId organizationId huser horganization
    simp only [hasMember, List.any_eq_true, Bool.and_eq_true, decide_eq_true_eq] at h ⊢
    obtain ⟨member, hmember, hin, hof⟩ := h
    refine ⟨member, ?_, hin, hof⟩
    rw [hmembers, List.mem_filter]
    refine ⟨hmember, ?_⟩
    by_contra hleft
    have hnone := hleaves member hmember (by simpa using hleft)
    have hgrant : row ∈ db.grantsIn member.organizationId member.userId now := by
      unfold grantsIn
      rw [List.mem_filter]
      exact ⟨hrow, by simp [hin, hof, huser, horganization, hactive]⟩
    rw [hnone] at hgrant
    cases hgrant
  · rfl

/-- A renewal and an end leave the subject of an entitlement alone. -/
theorem belongs_of_same {row other : ResourceScopeEntitlement} (huser : other.userId = row.userId)
    (horganization : other.organizationId = row.organizationId) :
    db.belongs other = db.belongs row := by
  unfold belongs
  rw [huser, horganization]

end Database

theorem EntitlementRenewal.apply_isActive_eq {renewal : EntitlementRenewal}
    {row : ResourceScopeEntitlement} {now : Time}
    (h : renewal.lifetime = none ∨ row.endedAt.isSome = true)
    (hinactive : row.isActive now = false) : (renewal.apply row).isActive now = false := by
  unfold ResourceScopeEntitlement.isActive at hinactive ⊢
  rcases h with hlifetime | hended
  · simpa [apply, hlifetime] using hinactive
  · obtain ⟨time, htime⟩ := Option.isSome_iff_exists.mp hended
    simp [apply, htime]

section Steps

variable {w : World} (h : w.db.GrantsFollow w.clock)

include h

theorem grants_access {command : AccessCommand} (hissues : (Command.access command).Grants)
    (hcond : FollowsMembership (.access command) w) :
    (exec (Command.access command) w).db.GrantsFollow w.clock ∧
      KeepsInactive w (exec (Command.access command) w) := by
  cases hs : command.statement w.db with
  | error e =>
    rw [exec_access_of_error hs]
    exact ⟨h, .refl w⟩
  | ok result =>
    rw [exec_access_of_ok hs]
    cases command with
    | insertScopeEntitlement row =>
      obtain ⟨-, -, hdb⟩ | ⟨-, hfree, hdb⟩ := Database.insertScopeEntitlement_ok hs
      · rw [hdb]
        exact ⟨h, .refl w⟩
      · have hbelongs : w.db.belongs row = true := by
          rcases hcond with hconflict | hbelongs
          · rw [hfree] at hconflict
            cases hconflict
          · exact hbelongs
        rw [hdb]
        refine ⟨?_, .of_append le_rfl rfl⟩
        intro old hold hactive
        rcases List.mem_append.mp hold with hold | hnew
        · exact h old hold hactive
        · rw [List.mem_singleton.mp hnew]
          exact hbelongs
    | replaceExpiredEntitlement id row now =>
      have hbelongs : w.db.belongs row = true := by
        rcases hcond with hrefuses | hbelongs
        · have hnot := Statement.not_refuses_of_ok hs
          simp only [AccessCommand.statement] at hnot
          rw [hnot] at hrefuses
          cases hrefuses
        · exact hbelongs
      obtain ⟨-, hdb⟩ := Database.replaceExpiredEntitlement_ok hs
      rw [hdb]
      refine ⟨?_, .of_update rfl rfl fun _ _ _ _ =>
        ResourceScopeEntitlement.isActive_end .expired now w.clock⟩
      intro old hold hactive
      rcases List.mem_append.mp hold with hold | hnew
      · obtain ⟨before, hbefore, rfl⟩ := List.mem_map.mp hold
        dsimp only at hactive ⊢
        split_ifs at hactive ⊢ with hselected
        · rw [ResourceScopeEntitlement.isActive_end] at hactive
          cases hactive
        · exact h before hbefore hactive
      · rw [List.mem_singleton.mp hnew]
        exact hbelongs
    | renewEntitlement renewal =>
      have hrows : renewal.lifetime = none ∨ ∀ row ∈ w.db.resourceScopeEntitlements,
          row.id = renewal.id → row.endedAt = none →
            w.db.belongs row = true ∧ row.isActive w.clock = true := by
        rcases hcond with hrefuses | hrows
        · have hnot := Statement.not_refuses_of_ok hs
          simp only [AccessCommand.statement] at hnot
          rw [hnot] at hrefuses
          cases hrefuses
        · exact hrows
      have hstays : ∀ row ∈ w.db.resourceScopeEntitlements, row.id = renewal.id →
          row.isActive w.clock = false → (renewal.apply row).isActive w.clock = false := by
        intro row hrow hid hinactive
        apply EntitlementRenewal.apply_isActive_eq _ hinactive
        rcases hrows with hlifetime | hrows
        · exact Or.inl hlifetime
        · cases hended : row.endedAt with
          | some time => exact Or.inr rfl
          | none =>
            rw [(hrows row hrow hid hended).2] at hinactive
            cases hinactive
      obtain ⟨-, hdb⟩ := Database.renewEntitlement_ok hs
      rw [hdb]
      refine ⟨?_, .of_update rfl (List.append_nil _).symm fun row hrow hselected =>
        hstays row hrow (by simpa using hselected)⟩
      intro row hrow hactive
      obtain ⟨before, hbefore, rfl⟩ := List.mem_map.mp hrow
      dsimp only at hactive ⊢
      split_ifs at hactive ⊢ with hselected
      · have hwas : before.isActive w.clock = true := by
          by_contra hinactive
          rw [Bool.not_eq_true] at hinactive
          rw [hstays before hbefore (by simpa using hselected) hinactive] at hactive
          cases hactive
        exact h before hbefore hwas
      · exact h before hbefore hactive
    | _ => exact absurd hissues (by simp [Command.Grants])

theorem grants_membership {command : MembershipCommand}
    (hissues : (Command.membership command).Grants)
    (hcond : FollowsMembership (.membership command) w) :
    (exec (Command.membership command) w).db.GrantsFollow w.clock ∧
      KeepsInactive w (exec (Command.membership command) w) := by
  cases hs : command.statement w.db with
  | error e =>
    have hsame : exec (Command.membership command) w = w := by
      change { w with db := command.statement.after w.db } = w
      rw [Statement.after_of_error hs]
    rw [hsame]
    exact ⟨h, .refl w⟩
  | ok result =>
    have hafter : exec (Command.membership command) w = { w with db := result.2 } := by
      change { w with db := command.statement.after w.db } = _
      rw [Statement.after_of_ok hs]
    rw [hafter]
    cases command with
    | addMember row =>
      obtain ⟨-, -, -, hdb⟩ := Database.insertMember_ok hs
      rw [hdb]
      refine ⟨?_, .of_append le_rfl (List.append_nil _).symm⟩
      intro old hold hactive
      exact Database.belongs_append rfl (h old hold hactive)
    | removeMember organizationId memberId expectedUpdatedAt audit now =>
      obtain ⟨-, event, teamMembers, tokens, sessions, -, hdb⟩ := Database.removeMember_ok hs
      rw [hdb]
      refine ⟨?_, .of_append le_rfl (List.append_nil _).symm⟩
      intro old hold hactive
      have hrow : old ∈ w.db.resourceScopeEntitlements := hold
      have hbefore : w.db.belongs old = true := h old hrow hactive
      have hleaves : ∀ member ∈ w.db.members,
          Database.removes organizationId memberId expectedUpdatedAt w.db member = true →
            w.db.grantsIn member.organizationId member.userId w.clock = [] := by
        intro member hmember hremoved
        have hin : member.organizationId = organizationId := by
          simp only [Database.removes, Database.isMember, Bool.and_eq_true,
            decide_eq_true_eq] at hremoved
          exact hremoved.1.1.2
        rw [hin]
        exact hcond member hmember hremoved
      exact Database.belongs_filter rfl hleaves hrow hactive hbefore
    | _ => exact absurd hissues (by simp [Command.Grants])

theorem grants_exec {command : Command} (hissues : command.Grants)
    (hcond : FollowsMembership command w) :
    (exec command w).db.GrantsFollow (exec command w).clock ∧
      KeepsInactive w (exec command w) := by
  rw [exec_clock]
  cases command with
  | access command => exact grants_access h hissues hcond
  | membership command => exact grants_membership h hissues hcond
  | read => exact ⟨h, .refl w⟩
  | generateId => exact ⟨h, .of_append le_rfl (List.append_nil _).symm⟩
  | _ => exact hissues.elim

theorem grants_environment [Platform] (event : GrantingEvent) :
    (grantingSystem.environment event w).db.GrantsFollow
        (grantingSystem.environment event w).clock ∧
      KeepsInactive w (grantingSystem.environment event w) := by
  cases event with
  | elapse milliseconds =>
    refine ⟨?_, .of_append (Nat.le_add_right ..) (List.append_nil _).symm⟩
    intro row hrow hactive
    apply h row hrow
    by_contra hinactive
    rw [Bool.not_eq_true] at hinactive
    have hlater := ResourceScopeEntitlement.isActive_later hinactive
      (Nat.le_add_right w.clock milliseconds)
    simp only [grantingSystem] at hactive
    rw [hlater] at hactive
    cases hactive
  | configure db => exact ⟨h, .of_append le_rfl (List.append_nil _).symm⟩

end Steps

/-! ## Runs -/

/-- In every state, the active entitlements of users in organizations are those of members; and
an entitlement of someone who is not a member is not active in any later state. -/
structure GrantsFollowMembership (states : List World) : Prop where
  follow : ∀ s ∈ states, s.db.GrantsFollow s.clock
  former : states.Pairwise fun s t => ∀ (i : ℕ) (row : ResourceScopeEntitlement),
    s.db.resourceScopeEntitlements[i]? = some row → s.db.belongs row = false →
      ∃ later, t.db.resourceScopeEntitlements[i]? = some later ∧
        later.isActive t.clock = false

/-- The steps of the system, as long as the grants follow the members. -/
def grantingSteps : Stepwise Command World Reply GrantingRequest where
  issues _ := Command.Grants
  inv s := s.db.GrantsFollow s.clock
  cond _ := FollowsMembership
  moves := KeepsInactive

theorem grantingSteps_sound [Platform] : grantingSteps.Sound grantingSystem where
  program request := (grantingSystem_uses request).issues
  refl := .refl
  trans := .trans
  exec _ _ _ hissues hcond h := grants_exec h hissues hcond
  environment event _ h := grants_environment h event

/-- Grants follow the members in every run in which a removal finds no active entitlement of the
member, and the grants write for members only. -/
theorem grants_follow_membership [Platform] (w : World) (schedule : List GrantingAction)
    (hstart : w.db.GrantsFollow w.clock)
    (h : ∀ entry ∈ (idle w).history grantingSystem schedule,
      FollowsMembership entry.2.1 entry.2.2) :
    GrantsFollowMembership ((idle w).states grantingSystem schedule) := by
  have hfollow : ∀ s ∈ (idle w).states grantingSystem schedule, s.db.GrantsFollow s.clock :=
    grantingSteps_sound.states hstart (fun _ _ _ => trivial) h
  refine ⟨hfollow, ?_⟩
  have hpairwise : ((idle w).states grantingSystem schedule).Pairwise KeepsInactive :=
    grantingSteps_sound.states_pairwise hstart (fun _ _ _ => trivial) h
  refine hpairwise.imp_of_mem ?_
  intro s t hs _ hkeeps i row hrow hformer
  obtain ⟨later, hlater, hinactive⟩ := hkeeps.2 i row hrow
  refine ⟨later, hlater, hinactive ?_⟩
  by_contra hactive
  rw [Bool.not_eq_false] at hactive
  have hbelongs := hfollow s hs row (List.mem_of_getElem? hrow) hactive
  rw [hbelongs] at hformer
  cases hformer

/-! ## A member who leaves with a grant -/

namespace LeavingMemberExample

attribute [local instance] samplePlatform

def resource : ApiResource :=
  { id := "files", identifier := "files", name := "Files", description := none
    resourceUrl := "https://files.example", authorizationModel := .native, connectorId := none
    authorizationDetails := [], enabled := true, ownerOrganizationId := "acme"
    visibility := .private
    scopeRegistry := some { scopes := [⟨"write", none, .assigned⟩] }
    availableToAgents := false, deletedAt := none, updatedAt := 0 }

def membership (id userId role : String) : Member :=
  { id := id, organizationId := "acme", userId := userId, role := role, updatedAt := 0 }

def start : World :=
  { db :=
      { users := [
          { id := "bob", banned := false, deletedAt := none },
          { id := "ada", banned := false, deletedAt := none }]
        organizations := [{ id := "acme", slug := "acme", disabled := false }]
        members := [membership "first" "bob" "owner", membership "second" "ada" "member"]
        apiResources := [resource] }
    clock := 10, nextId := 0 }

def bob : MutationActor := { controllerUserId := some "bob", agent := none }

def input (mode : DirectMode) (expiresAt : Option Time) : CreateUserPermissionRequest :=
  { organizationId := some "acme", resourceServerId := "files", scope := "write", mode := mode
    expiresAt := expiresAt, nonEmpty := by decide }

/-- Ada gets the scope, and after some time she is removed. -/
def leaving (mode : DirectMode) (expiresAt : Option Time) : List GrantingAction :=
  .start (.grant "ada" (input mode expiresAt) bob) :: List.replicate 9 (.advance 0 {}) ++
    .environment (.elapse 1000) :: .start (.removeMember "acme" "second" bob) ::
      List.replicate 9 (.advance 1 {})

/-- Ada keeps a permission that does not expire. -/
theorem grants_not_follow_membership :
    ¬ GrantsFollowMembership
      ((idle start).states grantingSystem (leaving .persistent none)) := by
  intro h
  have hend : ∃ s ∈ (idle start).states grantingSystem (leaving .persistent none),
      ¬ s.db.GrantsFollow s.clock := by
    decide +kernel
  obtain ⟨s, hs, hnot⟩ := hend
  exact hnot (h.follow s hs)

/-- A permission that has expired by then is no longer active. -/
theorem grants_follow_membership_expired :
    GrantsFollowMembership
      ((idle start).states grantingSystem (leaving .until (some 500))) :=
  grants_follow_membership start (leaving .until (some 500)) (by decide) (by decide +kernel)

end LeavingMemberExample

end Realmroot
