import Realmroot.Ownership
import Realmroot.Rules
import Realmroot.Usecases.Memberships

/-!
# The system of membership requests

Any number of requests on organizations, members and accounts in progress, between
whose commands time passes, users register and are banned, the dynamic roles change,
and the rest of the database changes in any way. An owner remains in every
organization, and the audit trail has one event for each change of a member.
-/

namespace Realmroot

open AtomicProgram Program

inductive MembershipRequest where
  | createOrganization (slug ownerUserId : String)
  | addMember (organizationId userId : String) (input : RequestedRoles)
  | replaceMemberRoles (organizationId memberId : String) (input : RequestedRoles)
      (actor : MutationActor)
  | removeMember (organizationId memberId : String) (actor : MutationActor)
  | deleteAccount (userId : String)

/-- The actions under which the changes of members are recorded. -/
def memberAuditActions : List String :=
  ["organization.member.roles-replaced", "organization.member.removed"]

inductive MembershipEvent where
  | elapse (milliseconds : ℕ)
  /-- The tables other than those of organizations, members, users, roles and audit events
  change in any way. -/
  | configure (db : Database)
  | registerUser (row : User)
  | setBanned (userId : String) (banned : Bool)
  /-- The dynamic roles are defined anew, under valid keys. -/
  | defineRoles (rows : List { row : OrganizationRole // isRoleKey row.role = true })
  /-- Something else is recorded. -/
  | record (event : { event : AgentAuditEvent // event.action ∉ memberAuditActions })

/-- The tables that `configure` keeps. -/
def keepMemberships (kept db : Database) : Database :=
  { db with
    organizations := kept.organizations, members := kept.members, users := kept.users
    organizationRoles := kept.organizationRoles, agentAuditEvents := kept.agentAuditEvents }

def registerUser (row : User) (db : Database) : Database :=
  if db.users.any fun old => old.id = row.id then db else { db with users := db.users ++ [row] }

def setBanned (userId : String) (banned : Bool) (db : Database) : Database :=
  { db with
    users :=
      Table.updateWhere (fun row => row.id = userId) (fun row => { row with banned := banned })
        db.users }

def membershipSystem [Platform] :
    System Command World Reply Error Unit MembershipRequest MembershipEvent where
  program
    | .createOrganization slug ownerUserId => createOrganization slug ownerUserId
    | .addMember organizationId userId input => addMember organizationId userId input
    | .replaceMemberRoles organizationId memberId input actor =>
      replaceMemberRoles organizationId memberId input actor
    | .removeMember organizationId memberId actor => removeMember organizationId memberId actor
    | .deleteAccount userId => deleteAccount userId
  environment
    | .elapse milliseconds, w => { w with clock := w.clock + milliseconds }
    | .configure db, w => { w with db := keepMemberships w.db db }
    | .registerUser row, w => { w with db := registerUser row w.db }
    | .setBanned userId banned, w => { w with db := setBanned userId banned w.db }
    | .defineRoles rows, w => { w with db := { w.db with organizationRoles := rows.map (·.1) } }
    | .record event, w =>
      { w with db := { w.db with agentAuditEvents := w.db.agentAuditEvents ++ [event.1] } }

abbrev MembershipAction := Action Reply MembershipRequest MembershipEvent

/-! ## The commands of the requests -/

section Uses

variable [Platform] {P : Command → Prop} (hread : P .read) (hid : P .generateId)

include hread

omit [Platform] in
theorem getOrganization_uses (id : String) : (getOrganization id).Uses P :=
  uses_bind (uses_query.mpr hread) fun _ => uses_orThrow

omit [Platform] in
theorem validateOrganizationRoleKeys_uses (organizationId : String) (roles : List String) :
    (validateOrganizationRoleKeys organizationId roles).Uses P := by
  apply uses_bind (uses_query.mpr hread)
  intro dynamic
  split <;> trivial

omit [Platform] in
theorem requireMemberForOrganization_uses (id organizationId : String) :
    (requireMemberForOrganization id organizationId).Uses P := by
  apply uses_bind (uses_query.mpr hread)
  intro found
  exact uses_bind uses_orThrow fun member => uses_bind uses_throwIf fun _ => trivial

omit [Platform] in
theorem rejectLastOwnerMutation_uses (member : MemberRecord) (roles : List String) :
    (rejectLastOwnerMutation member roles).Uses P := by
  unfold rejectLastOwnerMutation
  split_ifs
  · exact uses_bind (uses_query.mpr hread) fun _ => uses_throwIf
  · trivial

omit [Platform] in
theorem deleteAccount_uses (userId : String)
    (herase : ∀ now, P (.membership (.eraseAccount userId now))) : (deleteAccount userId).Uses P := by
  apply uses_bind (uses_currentTime.mpr hread)
  intro now
  apply uses_bind (uses_query.mpr hread)
  intro found
  apply uses_bind uses_orThrow
  intro existing
  split_ifs
  · trivial
  · apply Uses.tryCatch (uses_perform.mpr (herase now))
    intro error
    unfold recoverErasure
    split_ifs
    · trivial
    · exact uses_bind (uses_query.mpr hread) fun _ => uses_throwIf
    · trivial

include hid

theorem createOrganization_uses (slug ownerUserId : String)
    (hcreate : ∀ row owner, owner.role = serializeRoles ["owner"] →
      P (.membership (.createOrganization row owner))) :
    (createOrganization slug ownerUserId).Uses P := by
  apply uses_bind (uses_generateId.mpr hid)
  intro organizationId
  apply uses_bind (uses_generateId.mpr hid)
  intro memberId
  apply uses_bind (uses_currentTime.mpr hread)
  intro now
  exact uses_perform.mpr (hcreate _ _ rfl)

/-- `addMember` validates the roles before it inserts a member that has them. -/
theorem addMember_validates (organizationId userId : String) (input : RequestedRoles) :
    ∃ insert : Request Unit,
      addMember organizationId userId input =
        (getOrganization organizationId >>= fun _ =>
          validateOrganizationRoleKeys organizationId input.roles >>= fun _ => insert) ∧
      ((∀ row : Member, row.role = serializeRoles input.roles →
        P (.membership (.addMember row))) → insert.Uses P) := by
  refine ⟨_, rfl, ?_⟩
  intro hadd
  apply uses_bind (uses_generateId.mpr hid)
  intro id
  apply uses_bind (uses_currentTime.mpr hread)
  intro now
  exact uses_perform.mpr (hadd _ rfl)

theorem removeMember_uses (organizationId memberId : String) (actor : MutationActor)
    (hremove : ∀ version audit now, audit.action = "organization.member.removed" →
      P (.membership (.removeMember organizationId memberId version audit now))) :
    (removeMember organizationId memberId actor).Uses P := by
  apply uses_bind (requireMemberForOrganization_uses hread memberId organizationId)
  intro member
  apply uses_bind (uses_generateId.mpr hid)
  intro auditId
  apply uses_bind (uses_currentTime.mpr hread)
  intro occurredAt
  apply uses_bind (uses_currentTime.mpr hread)
  intro now
  apply uses_bind (uses_perform.mpr (hremove _ _ _ rfl))
  intro removed
  exact uses_throwIf

/-- `replaceMemberRoles` validates the roles before it replaces any. -/
theorem replaceMemberRoles_validates (organizationId memberId : String) (input : RequestedRoles)
    (actor : MutationActor) :
    ∃ replace : MemberRecord → Request Unit,
      replaceMemberRoles organizationId memberId input actor =
        (requireMemberForOrganization memberId organizationId >>= fun target =>
          validateOrganizationRoleKeys organizationId input.roles >>= fun _ => replace target) ∧
      ∀ target, (∀ version audit, audit.action = "organization.member.roles-replaced" →
        P (.membership (.replaceMemberRoles organizationId memberId input.roles version audit))) →
          (replace target).Uses P := by
  refine ⟨_, rfl, ?_⟩
  intro target hreplace
  apply uses_bind (rejectLastOwnerMutation_uses hread target input.roles)
  intro _
  apply uses_bind (uses_currentTime.mpr hread)
  intro now
  apply uses_bind (uses_generateId.mpr hid)
  intro auditId
  apply uses_bind (uses_perform.mpr (hreplace _ _ rfl))
  intro updated
  exact uses_throwIf

end Uses

/-! ## Owners -/

namespace Database

variable {db db' : Database}

theorem Founded.congr (h : db.Founded) (horganizations : db'.organizations = db.organizations)
    (hmembers : db'.members = db.members) (husers : db'.users = db.users)
    (hroles : db'.organizationRoles = db.organizationRoles) : db'.Founded := by
  constructor
  · intro organization horganization
    rw [horganizations] at horganization
    have howner := h.owners organization horganization
    simpa only [HasOwner, hmembers, isLiveUser_congr husers] using howner
  · rw [hmembers]
    exact h.texts
  · intro row hrow
    rw [hmembers] at hrow
    rw [isLiveUser_congr husers]
    exact h.accounts row hrow
  · rw [hroles]
    exact h.keys

/-- The accounts may change as long as live ones stay live. -/
theorem Founded.users (h : db.Founded) {users : List User}
    (hlive : ∀ id, db.isLiveUser id = true →
      ({ db with users := users } : Database).isLiveUser id = true) :
    ({ db with users := users } : Database).Founded := by
  constructor
  · intro organization horganization
    obtain ⟨row, hrow, hin, howner, hrowLive⟩ := h.owners organization horganization
    exact ⟨row, hrow, hin, howner, hlive _ hrowLive⟩
  · exact h.texts
  · exact fun row hrow => hlive _ (h.accounts row hrow)
  · exact h.keys

theorem Founded.registerUser (h : db.Founded) (row : User) : (registerUser row db).Founded := by
  unfold Realmroot.registerUser
  split_ifs
  · exact h
  · apply h.users
    intro id hlive
    obtain ⟨user, huser, hid, hnone⟩ := isLiveUser_iff.mp hlive
    exact isLiveUser_iff.mpr ⟨user, List.mem_append_left _ huser, hid, hnone⟩

theorem Founded.setBanned (h : db.Founded) (userId : String) (banned : Bool) :
    (setBanned userId banned db).Founded := by
  apply h.users
  intro id hlive
  obtain ⟨user, huser, hid, hnone⟩ := isLiveUser_iff.mp hlive
  apply isLiveUser_iff.mpr
  by_cases hsame : user.id = userId
  · exact ⟨_, Table.mem_updateWhere_of_pos huser (by simpa using hsame), hid, hnone⟩
  · exact ⟨user, Table.mem_updateWhere_of_not huser (by simpa using hsame), hid, hnone⟩

end Database

theorem membershipSystem_environment [Platform] (event : MembershipEvent) (w : World)
    (h : w.db.Founded) : (membershipSystem.environment event w).db.Founded := by
  cases event with
  | elapse milliseconds => exact h
  | configure db => exact h.congr rfl rfl rfl rfl
  | registerUser row => exact h.registerUser row
  | setBanned userId banned => exact h.setBanned userId banned
  | record event => exact h.congr rfl rfl rfl rfl
  | defineRoles rows =>
    refine ⟨h.owners, h.texts, h.accounts, ?_⟩
    intro row hrow
    obtain ⟨defined, -, rfl⟩ := List.mem_map.mp hrow
    exact defined.2

/-- What a command has to bring along so that owners remain. -/
def MembershipCommand.Valid : MembershipCommand → Prop
  | .createOrganization _ owner => owner.role = serializeRoles ["owner"]
  | .addMember row => IsRoleText row.role
  | .replaceMemberRoles _ _ roles _ _ => ∀ role ∈ roles, isRoleKey role = true
  | .removeMember .. => True
  | .eraseAccount .. => True

theorem MembershipCommand.Valid.founded {command : MembershipCommand} (hvalid : command.Valid)
    {db : Database} (h : db.Founded) : (command.after db).Founded := by
  rw [MembershipCommand.after]
  cases hok : command.statement db with
  | error e => rwa [Statement.after_of_error hok]
  | ok result =>
    obtain ⟨answer, db'⟩ := result
    rw [Statement.after_of_ok hok]
    cases command with
    | createOrganization row owner => exact h.createOrganization hvalid hok
    | addMember row => exact h.insertMember hvalid hok
    | replaceMemberRoles organizationId memberId roles expectedUpdatedAt audit =>
      exact h.replaceMemberRoles hvalid hok
    | removeMember organizationId memberId expectedUpdatedAt audit now => exact h.removeMember hok
    | eraseAccount userId now => exact h.eraseAccount hok

/-- Owners are there, whatever the others do, before and after each command. -/
def ownership :
    Pool.Discipline Command World Reply Error Unit MembershipRequest MembershipEvent where
  inv w := w.db.Founded
  moves _ _ := True
  accepts _ := True
  allowed _ _ := True
  admits _ _ := True
  promise _ _ := True
  post _ _ _ := True

/-- A command that writes no member, or a valid one on memberships. -/
def KeepsOwners : Command → Prop
  | .read => True
  | .generateId => True
  | .membership command => command.Valid
  | _ => False

theorem ownership_guarantee {command : Command} (hcommand : KeepsOwners command) {w : World}
    (h : w.db.Founded) : ownership.contract.guarantee command w := by
  refine ⟨?_, trivial, trivial⟩
  cases command with
  | read => exact h
  | generateId => exact h
  | membership command => exact MembershipCommand.Valid.founded hcommand h
  | _ => exact hcommand.elim

theorem quiet_keepsOwners : Quiet ownership.contract KeepsOwners where
  refl _ := trivial
  trans _ _ := trivial
  guarantee _ hc _ hallowed := ownership_guarantee hc hallowed.1
  moves _ _ _ _ := trivial

section Requests

variable [Platform] {w : World}

omit [Platform] in
theorem predefinedKeys_isRoleKey :
    ∀ role ∈ predefinedOrganizationRoleKeys, isRoleKey role = true := by decide +kernel

omit [Platform] in
/-- Roles that pass the check are valid keys. -/
theorem validateOrganizationRoleKeys_meets (organizationId : String) (roles : List String) :
    (validateOrganizationRoleKeys organizationId roles).Meets ownership.contract
      (fun r _ => ∀ a, r = .ok a → ∀ role ∈ roles, isRoleKey role = true) w := by
  unfold validateOrganizationRoleKeys
  apply meets_query
  intro t _ hallowed
  refine ⟨ownership_guarantee (show KeepsOwners .read from trivial) hallowed.1, ?_⟩
  split
  · intro a ha
    cases ha
  · rename_i hnone
    intro _ _ role hrole
    have hknown := List.find?_eq_none.mp hnone role hrole
    simp only [Bool.and_eq_true, Bool.not_eq_true', not_and, Bool.not_eq_false] at hknown
    by_cases hpredefined : predefinedOrganizationRoleKeys.contains role = true
    · exact predefinedKeys_isRoleKey role (List.contains_iff_mem.mp hpredefined)
    · have hdynamic := List.contains_iff_mem.mp (hknown (by simpa using hpredefined))
      obtain ⟨row, hrow, rfl⟩ := List.mem_map.mp hdynamic
      exact hallowed.1.keys row (List.mem_filter.mp hrow).1

omit [Platform] in
/-- A request that checks its roles before it writes. -/
theorem validated_meets {organizationId : String} {roles : List String}
    {next : Unit → Request Unit}
    (h : (∀ role ∈ roles, isRoleKey role = true) → (next ()).Uses KeepsOwners) :
    (validateOrganizationRoleKeys organizationId roles >>= next).Meets ownership.contract
      (fun _ _ => True) w := by
  rw [Program.bind_eq, meets_bind]
  refine (validateOrganizationRoleKeys_meets organizationId roles).mono ?_
  rintro (e | ⟨⟩) t ht
  · trivial
  · exact (quiet_keepsOwners.meets (h (ht () rfl)) t).mono fun _ _ _ => trivial

theorem addMember_meets (organizationId userId : String) (input : RequestedRoles) :
    (addMember organizationId userId input).Meets ownership.contract (fun _ _ => True) w := by
  have hfirst := getOrganization_uses (P := KeepsOwners) trivial organizationId
  obtain ⟨insert, heq, hinsert⟩ :=
    addMember_validates (P := KeepsOwners) trivial trivial organizationId userId input
  rw [heq]
  refine quiet_keepsOwners.meets_bind hfirst ?_ fun _ _ _ => trivial
  intro _ t _
  apply validated_meets
  intro hkeys
  exact hinsert fun row hrole => ⟨input.roles, hrole, hkeys⟩

theorem replaceMemberRoles_meets (organizationId memberId : String) (input : RequestedRoles)
    (actor : MutationActor) :
    (replaceMemberRoles organizationId memberId input actor).Meets ownership.contract
      (fun _ _ => True) w := by
  have hfirst := requireMemberForOrganization_uses (P := KeepsOwners) trivial memberId
    organizationId
  obtain ⟨replace, heq, hreplace⟩ :=
    replaceMemberRoles_validates (P := KeepsOwners) trivial trivial organizationId memberId input
      actor
  rw [heq]
  refine quiet_keepsOwners.meets_bind hfirst ?_ fun _ _ _ => trivial
  intro target t _
  apply validated_meets
  intro hkeys
  exact hreplace target fun _ _ _ => hkeys

end Requests

theorem ownership_sound [Platform] : ownership.Sound membershipSystem where
  refl _ := trivial
  trans _ _ := trivial
  stable _ _ _ _ _ _ := trivial
  environment event w h _ := ⟨membershipSystem_environment event w h, trivial⟩
  program request w _ _ := by
    cases request with
    | createOrganization slug ownerUserId =>
      have huses := createOrganization_uses (P := KeepsOwners) trivial trivial slug ownerUserId
        fun _ _ hrole => hrole
      exact (quiet_keepsOwners.meets huses w).mono fun _ _ _ => trivial
    | addMember organizationId userId input => exact addMember_meets organizationId userId input
    | replaceMemberRoles organizationId memberId input actor =>
      exact replaceMemberRoles_meets organizationId memberId input actor
    | removeMember organizationId memberId actor =>
      have huses := removeMember_uses (P := KeepsOwners) trivial trivial organizationId memberId actor
        fun _ _ _ _ => trivial
      exact (quiet_keepsOwners.meets huses w).mono fun _ _ _ => trivial
    | deleteAccount userId =>
      have huses := deleteAccount_uses (P := KeepsOwners) trivial userId fun _ => trivial
      exact (quiet_keepsOwners.meets huses w).mono fun _ _ _ => trivial

/-- Whatever is interleaved, owners remain. -/
theorem founded_run [Platform] {w : World} (h : w.db.Founded) (schedule : List MembershipAction) :
    ((Pool.idle w).run membershipSystem schedule).state.db.Founded :=
  ((Pool.Discipline.inv_idle h).run ownership_sound (Pool.along_true _ _ schedule)).1.state

/-! ## The audit trail -/

/-- The identifiers and actions of the recorded changes of members. -/
def Database.memberTrail (db : Database) : List (String × String) :=
  (db.agentAuditEvents.map fun event => (event.id, event.action)).filter fun entry =>
    memberAuditActions.contains entry.2

/-- What a change of a member that is committed records; a refused one records nothing. -/
def MembershipCommand.records (db : Database) : MembershipCommand → List (String × String)
  | .replaceMemberRoles organizationId memberId roles expectedUpdatedAt audit =>
    match Database.replaceMemberRoles organizationId memberId roles expectedUpdatedAt audit db with
    | .ok (true, _) => [(audit.id, audit.action)]
    | _ => []
  | .removeMember organizationId memberId expectedUpdatedAt audit now =>
    match Database.removeMember organizationId memberId expectedUpdatedAt audit now db with
    | .ok (true, _) => [(audit.id, audit.action)]
    | _ => []
  | _ => []

def Command.records (w : World) : Command → List (String × String)
  | .membership command => command.records w.db
  | _ => []

/-- The changes of members carry audits under their actions. -/
def Audited : Command → Prop
  | .read => True
  | .generateId => True
  | .membership (.replaceMemberRoles _ _ _ _ audit) => audit.action ∈ memberAuditActions
  | .membership (.removeMember _ _ _ audit _) => audit.action ∈ memberAuditActions
  | .membership _ => True
  | _ => False

section Trail

variable {db db' : Database}

theorem memberTrail_congr (h : db'.agentAuditEvents.map (fun event => (event.id, event.action)) =
    db.agentAuditEvents.map fun event => (event.id, event.action)) :
    db'.memberTrail = db.memberTrail := by
  rw [Database.memberTrail, h, Database.memberTrail]

theorem memberTrail_append {event audit : AgentAuditEvent} {recorded : Bool}
    (hevent : (event.id, event.action) = (audit.id, audit.action))
    (haction : audit.action ∈ memberAuditActions)
    (h : db'.agentAuditEvents = db.agentAuditEvents ++ if recorded then [event] else []) :
    db'.memberTrail = db.memberTrail ++ if recorded then [(audit.id, audit.action)] else [] := by
  rw [Database.memberTrail, h, List.map_append, List.filter_append, Database.memberTrail]
  cases recorded with
  | false => simp
  | true => simp [hevent, haction]

/-- The trail grows by what the command records. -/
theorem memberTrail_after {command : MembershipCommand} (h : Audited (.membership command)) :
    (command.after db).memberTrail = db.memberTrail ++ command.records db := by
  rw [MembershipCommand.after]
  cases hok : command.statement db with
  | error e =>
    rw [Statement.after_of_error hok]
    cases command <;> simp_all [MembershipCommand.records, MembershipCommand.statement]
  | ok result =>
    obtain ⟨answer, db'⟩ := result
    rw [Statement.after_of_ok hok]
    cases command with
    | createOrganization row owner =>
      obtain ⟨-, -, -, rfl⟩ := Database.createOrganization_ok hok
      exact (List.append_nil _).symm
    | addMember row =>
      obtain ⟨-, -, -, rfl⟩ := Database.insertMember_ok hok
      exact (List.append_nil _).symm
    | replaceMemberRoles organizationId memberId roles expectedUpdatedAt audit =>
      obtain ⟨-, event, hevent, rfl⟩ := Database.replaceMemberRoles_ok hok
      rw [memberTrail_append hevent h rfl]
      dsimp only [MembershipCommand.statement] at hok
      rw [MembershipCommand.records, hok]
      cases answer <;> rfl
    | removeMember organizationId memberId expectedUpdatedAt audit now =>
      obtain ⟨-, event, _, _, _, hevent, rfl⟩ := Database.removeMember_ok hok
      rw [memberTrail_append hevent h rfl]
      dsimp only [MembershipCommand.statement] at hok
      rw [MembershipCommand.records, hok]
      cases answer <;> rfl
    | eraseAccount userId now =>
      obtain ⟨-, -, -, -, -, haudit, -⟩ := Database.eraseAccount_ok hok
      rw [memberTrail_congr haudit]
      exact (List.append_nil _).symm

end Trail

theorem membershipSystem_audited [Platform] (request : MembershipRequest) :
    (membershipSystem.program request).Uses Audited := by
  cases request with
  | createOrganization slug ownerUserId =>
    exact createOrganization_uses trivial trivial slug ownerUserId fun _ _ _ => trivial
  | addMember organizationId userId input =>
    obtain ⟨insert, heq, hinsert⟩ :=
      addMember_validates (P := Audited) trivial trivial organizationId userId input
    change (addMember organizationId userId input).Uses Audited
    rw [heq]
    apply uses_bind (getOrganization_uses trivial organizationId)
    intro _
    apply uses_bind (validateOrganizationRoleKeys_uses trivial organizationId input.roles)
    intro _
    exact hinsert fun _ _ => trivial
  | replaceMemberRoles organizationId memberId input actor =>
    obtain ⟨replace, heq, hreplace⟩ :=
      replaceMemberRoles_validates (P := Audited) trivial trivial organizationId memberId input actor
    change (replaceMemberRoles organizationId memberId input actor).Uses Audited
    rw [heq]
    apply uses_bind (requireMemberForOrganization_uses trivial memberId organizationId)
    intro target
    apply uses_bind (validateOrganizationRoleKeys_uses trivial organizationId input.roles)
    intro _
    apply hreplace
    intro version audit haction
    simp [Audited, haction, memberAuditActions]
  | removeMember organizationId memberId actor =>
    apply removeMember_uses trivial trivial
    intro version audit now haction
    simp [Audited, haction, memberAuditActions]
  | deleteAccount userId => exact deleteAccount_uses trivial userId fun _ => trivial

theorem memberTrail_exec {command : Command} {w : World} (h : Audited command) :
    (exec command w).db.memberTrail = w.db.memberTrail ++ command.records w := by
  cases command with
  | read => exact (List.append_nil _).symm
  | generateId => exact (List.append_nil _).symm
  | membership command => exact memberTrail_after h
  | _ => exact h.elim

theorem memberTrail_environment [Platform] (event : MembershipEvent) (w : World) :
    (membershipSystem.environment event w).db.memberTrail = w.db.memberTrail := by
  cases event with
  | elapse milliseconds => rfl
  | configure db => rfl
  | registerUser row =>
    apply memberTrail_congr
    dsimp only [membershipSystem, registerUser]
    split_ifs <;> rfl
  | setBanned userId banned => rfl
  | defineRoles rows => rfl
  | record event =>
    have hother : memberAuditActions.contains event.1.action = false := by
      simpa using event.2
    simp only [Database.memberTrail, membershipSystem, List.map_append, List.filter_append,
      List.map_cons, List.map_nil, List.filter_cons, hother, List.filter_nil]
    simp

/-- Whatever is interleaved, every organization keeps an owner with a live account, and
the trail of member changes grows by one event for each change that is committed. -/
theorem organizations_keep_owners [Platform] {w : World} (h : w.db.Founded)
    (schedule : List MembershipAction) :
    let last := ((Pool.idle w).run membershipSystem schedule).state
    (∀ organization ∈ last.db.organizations, last.db.HasOwner organization.id) ∧
      last.db.memberTrail = w.db.memberTrail ++
        ((Pool.idle w).commands membershipSystem schedule).flatMap fun entry =>
          entry.1.records entry.2 := by
  constructor
  · exact (founded_run h schedule).owners
  · let trail (w : World) : List (String × String) := w.db.memberTrail
    have hevents : ∀ event s, trail (membershipSystem.environment event s) = trail s :=
      memberTrail_environment
    exact Pool.run_adds membershipSystem_audited (fun _ _ _ => memberTrail_exec) hevents
      (Pool.allUse_idle w) schedule

namespace MembershipExample

attribute [local instance] samplePlatform

def owner (id userId : String) : Member :=
  { id := id, organizationId := "acme", userId := userId, role := "owner", updatedAt := 0 }

/-- Two owners. -/
def world : World :=
  { db :=
      { users := [{ id := "ada", banned := false, deletedAt := none },
          { id := "bob", banned := false, deletedAt := none }]
        organizations := [{ id := "acme", slug := "acme", disabled := false }]
        members := [owner "m1" "ada", owner "m2" "bob"] }
    clock := 1, nextId := 0 }

theorem world_founded : world.db.Founded where
  owners := by
    intro organization horganization
    rw [List.mem_singleton.mp horganization]
    exact ⟨owner "m1" "ada", by decide, rfl, by decide +kernel, by decide⟩
  texts := by
    intro row hrow
    have hrole : row.role = "owner" := by
      rcases List.mem_cons.mp hrow with rfl | hrow
      · rfl
      · rw [List.mem_singleton.mp hrow]
        rfl
    rw [hrole]
    exact ⟨["owner"], by decide +kernel, by decide⟩
  accounts := by decide
  keys := by decide

def actor (userId : String) : MutationActor := { controllerUserId := some userId, agent := none }

def step (index : ℕ) : MembershipAction := .advance index {}

/-- Each owner removes the other, and the steps of the two requests alternate. -/
def schedule : List MembershipAction :=
  [.start (.removeMember "acme" "m1" (actor "bob")),
    .start (.removeMember "acme" "m2" (actor "ada"))] ++
    (List.replicate 5 [step 0, step 1]).flatten

/-- The first removal is recorded, the second one is refused, and an owner remains. -/
theorem organizations_keep_owners_mutual :
    ((Pool.idle world).run membershipSystem schedule).state.db.memberTrail =
      [("i", "organization.member.removed")] ∧
    let last := ((Pool.idle world).run membershipSystem schedule).state
    (∀ organization ∈ last.db.organizations, last.db.HasOwner organization.id) ∧
      last.db.memberTrail = world.db.memberTrail ++
        ((Pool.idle world).commands membershipSystem schedule).flatMap fun entry =>
          entry.1.records entry.2 :=
  ⟨by decide +kernel, organizations_keep_owners world_founded schedule⟩

end MembershipExample
end Realmroot
