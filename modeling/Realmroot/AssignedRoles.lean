import Realmroot.MembershipSystem
import Realmroot.Usecases.OrganizationRoles

/-!
# The roles that are assigned

A request that assigns roles checks them against the roles of the organization that it reads; the
deletion of a role checks at its own step that nobody holds it. The second check stands, the first
one is out of date when a role is deleted before the assignment is written.
-/

namespace Realmroot

open AtomicProgram Program Pool

/-! ## The system -/

inductive RoleRequest where
  | createRole (organizationId : String) (input : CreateRoleRequest) (actor : MutationActor)
  | deleteRole (organizationId roleKey : String) (actor : MutationActor)
  | replaceMemberRoles (organizationId memberId : String) (input : RequestedRoles)
      (actor : MutationActor)
  | addMember (organizationId userId : String) (input : RequestedRoles)
  | createInvitation (organizationId : String) (input : CreateInvitationRequest)
      (actor : MutationActor)

inductive RoleEvent where
  | elapse (milliseconds : ℕ)
  /-- The tables other than those of members, roles and invitations change in any way. -/
  | configure (db : Database)

/-- The tables that `configure` keeps. -/
def keepRoles (kept db : Database) : Database :=
  { db with
    members := kept.members, organizationRoles := kept.organizationRoles
    invitations := kept.invitations }

def roleSystem [Platform] : System Command World Reply Error Unit RoleRequest RoleEvent where
  program
    | .createRole organizationId input actor => createRole organizationId input actor
    | .deleteRole organizationId roleKey actor => deleteRole organizationId roleKey actor
    | .replaceMemberRoles organizationId memberId input actor =>
      replaceMemberRoles organizationId memberId input actor
    | .addMember organizationId userId input => addMember organizationId userId input
    | .createInvitation organizationId input actor => createInvitation organizationId input actor
  environment
    | .elapse milliseconds, w => { w with clock := w.clock + milliseconds }
    | .configure db, w => { w with db := keepRoles w.db db }

abbrev RoleAction := Action Reply RoleRequest RoleEvent

/-! ## Roles that are held -/

namespace Database

variable (db : Database)

/-- The role is predefined, or one of the organization. -/
def knowsRole (organizationId role : String) : Bool :=
  predefinedOrganizationRoleKeys.contains role ||
    (db.listOrganizationRoleKeys organizationId).contains role

/-- The organizations and roles of members and pending invitations. -/
def heldRoles : List (String × String) :=
  (db.members.flatMap fun row =>
      (deserializeRoles row.role).map fun role => (row.organizationId, role)) ++
    (db.invitations.filter fun row => row.status = "pending").flatMap fun row =>
      (deserializeRoles row.role).map fun role => (row.organizationId, role)

/-- Every role that is held is known. -/
def NoDanglingRole : Prop := ∀ held ∈ db.heldRoles, db.knowsRole held.1 held.2 = true

instance : Decidable db.NoDanglingRole := inferInstanceAs (Decidable (∀ _ ∈ _, _))

/-- The roles that are held are known, and all of them are stored as valid keys. -/
structure RolesAssigned : Prop where
  known : db.NoDanglingRole
  memberTexts : ∀ row ∈ db.members, IsRoleText row.role
  invitationTexts : ∀ row ∈ db.invitations, IsRoleText row.role
  keys : ∀ row ∈ db.organizationRoles, isRoleKey row.role = true

variable {db} {db' : Database}

theorem mem_heldRoles {organizationId role : String} :
    (organizationId, role) ∈ db.heldRoles ↔
      (∃ row ∈ db.members, row.organizationId = organizationId ∧
        role ∈ deserializeRoles row.role) ∨
      ∃ row ∈ db.invitations, row.status = "pending" ∧ row.organizationId = organizationId ∧
        role ∈ deserializeRoles row.role := by
  simp only [heldRoles, List.mem_append, List.mem_flatMap, List.mem_map, List.mem_filter,
    Prod.mk.injEq, decide_eq_true_eq]
  constructor
  · rintro (⟨row, hrow, role, hrole, horganization, rfl⟩ |
      ⟨row, ⟨hrow, hpending⟩, role, hrole, horganization, rfl⟩)
    · exact Or.inl ⟨row, hrow, horganization, hrole⟩
    · exact Or.inr ⟨row, hrow, hpending, horganization, hrole⟩
  · rintro (⟨row, hrow, horganization, hrole⟩ | ⟨row, hrow, hpending, horganization, hrole⟩)
    · exact Or.inl ⟨row, hrow, role, hrole, horganization, rfl⟩
    · exact Or.inr ⟨row, ⟨hrow, hpending⟩, role, hrole, horganization, rfl⟩

theorem knowsRole_iff {organizationId role : String} :
    db.knowsRole organizationId role = true ↔ role ∈ predefinedOrganizationRoleKeys ∨
      ∃ row ∈ db.organizationRoles, row.organizationId = organizationId ∧ row.role = role := by
  simp [knowsRole, listOrganizationRoleKeys, and_assoc]

/-- Roles that are added are known as well as the others were. -/
theorem knowsRole_mono {organizationId role : String}
    (h : ∀ row ∈ db.organizationRoles, row ∈ db'.organizationRoles)
    (hknown : db.knowsRole organizationId role = true) :
    db'.knowsRole organizationId role = true := by
  rw [knowsRole_iff] at hknown ⊢
  rcases hknown with hpredefined | ⟨row, hrow, hsame⟩
  · exact Or.inl hpredefined
  · exact Or.inr ⟨row, h row hrow, hsame⟩

end Database

/-! ## The search for holders -/

theorem likePrefix_of_lower {pattern text : List Char}
    (h : pattern.map Char.toLower <+: text.map Char.toLower) : likePrefix pattern text = true := by
  induction pattern generalizing text with
  | nil => rfl
  | cons p pattern ih =>
    cases text with
    | nil => simp at h
    | cons c text =>
      rw [List.map_cons, List.map_cons, List.cons_prefix_cons] at h
      simp [likePrefix, h.1, ih h.2]

/-- What is found without wildcards is found with them. -/
theorem likeRoleKey_of_likeRole {key role : String} (h : likeRole key role = true) :
    likeRoleKey key role = true := by
  rw [likeRole, decide_eq_true_eq] at h
  obtain ⟨before, after, hsplit⟩ := h
  have hcomma : Char.toLower ',' = ',' := by decide
  have hpattern : (',' :: key.toList ++ [',']).map Char.toLower =
      ',' :: key.toList.map Char.toLower ++ [','] := by simp [hcomma]
  have htext : (',' :: role.toList ++ [',']).map Char.toLower =
      ',' :: role.toList.map Char.toLower ++ [','] := by simp [hcomma]
  rw [likeRoleKey, List.any_eq_true]
  refine ⟨(',' :: role.toList ++ [',']).drop before.length, ?_, ?_⟩
  · rw [List.mem_tails]
    exact List.drop_suffix _ _
  · apply likePrefix_of_lower
    rw [List.map_drop, htext, hpattern, ← hsplit, List.append_assoc, List.drop_left]
    exact List.prefix_append _ _

/-- A role that a stored text names is found in it. -/
theorem IsRoleText.likeRoleKey {text role : String} (h : IsRoleText text)
    (hrole : role ∈ deserializeRoles text) : likeRoleKey role text = true := by
  obtain ⟨roles, rfl, hkeys⟩ := h
  have hmem : role ∈ roles := (mem_deserializeRoles hkeys).mp hrole
  have hsorted : ∀ key ∈ sortStrings (unique roles), isRoleKey key = true := by
    intro key hkey
    exact hkeys key (by simpa using hkey)
  apply likeRoleKey_of_likeRole
  rw [serializeRoles, likeRole_intercalate hsorted (hkeys role hmem)]
  simpa using hmem

/-! ## Assignments -/

/-- The organizations and roles that a command assigns. -/
def Command.assigns (w : World) : Command → List (String × String)
  | .membership (.addMember row) =>
    if (Database.insertMember row).refuses w.db then []
    else (deserializeRoles row.role).map fun role => (row.organizationId, role)
  | .membership (.replaceMemberRoles organizationId memberId roles expectedUpdatedAt _) =>
    if w.db.members.any
        (Database.replacesRoles organizationId memberId roles expectedUpdatedAt w.db) then
      roles.map fun role => (organizationId, role)
    else []
  | .role (.createInvitation row) =>
    if (Database.insertInvitation row).refuses w.db then []
    else (deserializeRoles row.role).map fun role => (row.organizationId, role)
  | _ => []

/-- The roles that a command assigns are known where it executes. -/
def AssignsKnown (command : Command) (w : World) : Prop :=
  ∀ assigned ∈ command.assigns w, w.db.knowsRole assigned.1 assigned.2 = true

instance (command : Command) (w : World) : Decidable (AssignsKnown command w) :=
  inferInstanceAs (Decidable (∀ _ ∈ _, _))

/-- The commands of the system: what they store is stored as valid keys. -/
def Command.StoresKeys : Command → Prop
  | .read => True
  | .generateId => True
  | .membership (.addMember row) => IsRoleText row.role
  | .membership (.replaceMemberRoles _ _ roles _ _) => ∀ role ∈ roles, isRoleKey role = true
  | .role (.createRole row _) =>
    isRoleKey row.role = true ∧ row.role ∉ predefinedOrganizationRoleKeys
  | .role (.deleteRole ..) => True
  | .role (.createInvitation row) => IsRoleText row.role
  | _ => False

namespace Database.RolesAssigned

variable {db db' : Database} (h : db.RolesAssigned)

include h

theorem insertMember {row : Member} (htext : IsRoleText row.role)
    (hknown : ∀ role ∈ deserializeRoles row.role, db.knowsRole row.organizationId role = true)
    (hok : Database.insertMember row db = .ok ((), db')) : db'.RolesAssigned := by
  obtain ⟨-, -, -, rfl⟩ := insertMember_ok hok
  refine ⟨?_, ?_, h.invitationTexts, h.keys⟩
  · rintro ⟨organizationId, role⟩ hheld
    rcases mem_heldRoles.mp hheld with ⟨old, hold, rfl, hrole⟩ | hinvitation
    · rcases List.mem_append.mp hold with hold | hnew
      · exact h.known _ (mem_heldRoles.mpr (Or.inl ⟨old, hold, rfl, hrole⟩))
      · rw [List.mem_singleton.mp hnew] at hrole ⊢
        exact hknown role hrole
    · exact h.known _ (mem_heldRoles.mpr (Or.inr hinvitation))
  · intro old hold
    rcases List.mem_append.mp hold with hold | hnew
    · exact h.memberTexts old hold
    · rw [List.mem_singleton.mp hnew]
      exact htext

theorem replaceMemberRoles {organizationId memberId : String} {roles : List String}
    {expectedUpdatedAt : Time} {audit : AgentAuditEvent} {replaced : Bool}
    (hkeys : ∀ role ∈ roles, isRoleKey role = true)
    (hknown : db.members.any
        (replacesRoles organizationId memberId roles expectedUpdatedAt db) = true →
      ∀ role ∈ roles, db.knowsRole organizationId role = true)
    (hok : Database.replaceMemberRoles organizationId memberId roles expectedUpdatedAt audit db =
      .ok (replaced, db')) : db'.RolesAssigned := by
  obtain ⟨-, event, -, rfl⟩ := replaceMemberRoles_ok hok
  refine ⟨?_, ?_, h.invitationTexts, h.keys⟩
  · rintro ⟨other, role⟩ hheld
    rcases mem_heldRoles.mp hheld with ⟨row, hrow, rfl, hrole⟩ | hinvitation
    · obtain ⟨old, hold, rfl⟩ := Table.mem_updateWhere.mp hrow
      by_cases hreplaces :
          replacesRoles organizationId memberId roles expectedUpdatedAt db old = true
      · have hin : old.organizationId = organizationId := by
          simp only [replacesRoles, isMember, Bool.and_eq_true, decide_eq_true_eq] at hreplaces
          exact hreplaces.1.1.2
        have hany := List.any_eq_true.mpr ⟨old, hold, hreplaces⟩
        rw [if_pos hreplaces] at hrole ⊢
        have hmem := (mem_deserializeRoles hkeys).mp hrole
        change db.knowsRole old.organizationId role = true
        rw [hin]
        exact hknown hany role hmem
      · rw [if_neg hreplaces] at hrole ⊢
        exact h.known _ (mem_heldRoles.mpr (Or.inl ⟨old, hold, rfl, hrole⟩))
    · exact h.known _ (mem_heldRoles.mpr (Or.inr hinvitation))
  · intro row hrow
    obtain ⟨old, hold, rfl⟩ := Table.mem_updateWhere.mp hrow
    split_ifs
    · exact ⟨roles, rfl, hkeys⟩
    · exact h.memberTexts old hold

theorem createOrganizationRole {row : OrganizationRole} {audit : AgentAuditEvent}
    (hkey : isRoleKey row.role = true)
    (hok : Database.createOrganizationRole row audit db = .ok ((), db')) : db'.RolesAssigned := by
  obtain ⟨-, rfl⟩ := createOrganizationRole_ok hok
  refine ⟨?_, h.memberTexts, h.invitationTexts, ?_⟩
  · rintro ⟨organizationId, role⟩ hheld
    exact knowsRole_mono (fun _ hold => List.mem_append_left _ hold) (h.known _ hheld)
  · intro old hold
    rcases List.mem_append.mp hold with hold | hnew
    · exact h.keys old hold
    · rw [List.mem_singleton.mp hnew]
      exact hkey

/-- The search of a deletion finds everyone who holds the role. -/
theorem found {organizationId role : String} (hheld : (organizationId, role) ∈ db.heldRoles) :
    db.assignedMember organizationId role = true ∨
      db.assignedInvitation organizationId role = true := by
  rcases mem_heldRoles.mp hheld with ⟨row, hrow, rfl, hrole⟩ | ⟨row, hrow, hpending, rfl, hrole⟩
  · left
    have hlike := (h.memberTexts row hrow).likeRoleKey hrole
    exact List.any_eq_true.mpr ⟨row, hrow, by simp [hlike]⟩
  · right
    have hlike := (h.invitationTexts row hrow).likeRoleKey hrole
    exact List.any_eq_true.mpr ⟨row, hrow, by simp [hlike, hpending]⟩

theorem deleteOrganizationRole {organizationId roleKey : String} {expectedUpdatedAt : Time}
    {audit : AgentAuditEvent} {deleted : Bool}
    (hok : Database.deleteOrganizationRole organizationId roleKey expectedUpdatedAt audit db =
      .ok (deleted, db')) : db'.RolesAssigned := by
  obtain ⟨events, rfl⟩ := deleteOrganizationRole_ok hok
  refine ⟨?_, h.memberTexts, h.invitationTexts, ?_⟩
  · rintro ⟨other, role⟩ hheld
    have hbefore : (other, role) ∈ db.heldRoles := hheld
    have hfound := h.found hbefore
    rcases knowsRole_iff.mp (h.known _ hbefore) with hpredefined | ⟨row, hrow, rfl, rfl⟩
    · exact knowsRole_iff.mpr (Or.inl hpredefined)
    · refine knowsRole_iff.mpr (Or.inr ⟨row, List.mem_filter.mpr ⟨hrow, ?_⟩, rfl, rfl⟩)
      rw [Bool.not_eq_true', Bool.eq_false_iff]
      intro hdeletes
      simp only [deletesRole, isRole, Bool.and_eq_true, decide_eq_true_eq,
        Bool.not_eq_true'] at hdeletes
      obtain ⟨⟨⟨⟨horganization, hrole⟩, -⟩, hmember⟩, hinvitation⟩ := hdeletes
      rw [horganization, hrole, hmember, hinvitation] at hfound
      rcases hfound with hfound | hfound <;> cases hfound
  · intro row hrow
    exact h.keys row (List.mem_filter.mp hrow).1

theorem insertInvitation {row : Invitation} (htext : IsRoleText row.role)
    (hknown : ∀ role ∈ deserializeRoles row.role, db.knowsRole row.organizationId role = true)
    (hok : Database.insertInvitation row db = .ok ((), db')) : db'.RolesAssigned := by
  obtain rfl := insertInvitation_ok hok
  refine ⟨?_, h.memberTexts, ?_, h.keys⟩
  · rintro ⟨organizationId, role⟩ hheld
    rcases mem_heldRoles.mp hheld with hmember | ⟨old, hold, hpending, rfl, hrole⟩
    · exact h.known _ (mem_heldRoles.mpr (Or.inl hmember))
    · rcases List.mem_append.mp hold with hold | hnew
      · exact h.known _ (mem_heldRoles.mpr (Or.inr ⟨old, hold, hpending, rfl, hrole⟩))
      · rw [List.mem_singleton.mp hnew] at hrole ⊢
        exact hknown role hrole
  · intro old hold
    rcases List.mem_append.mp hold with hold | hnew
    · exact h.invitationTexts old hold
    · rw [List.mem_singleton.mp hnew]
      exact htext

end Database.RolesAssigned

/-- A command that assigns known roles leaves no role dangling. -/
theorem rolesAssigned_exec {command : Command} {w : World} (hstores : command.StoresKeys)
    (hknown : AssignsKnown command w) (h : w.db.RolesAssigned) :
    (exec command w).db.RolesAssigned := by
  have hpairs : ∀ {organizationId : String} {roles : List String},
      (∀ pair ∈ roles.map fun role => (organizationId, role),
        w.db.knowsRole pair.1 pair.2 = true) →
          ∀ role ∈ roles, w.db.knowsRole organizationId role = true := by
    intro organizationId roles hall role hrole
    exact hall (organizationId, role) (List.mem_map_of_mem hrole)
  cases command with
  | read => exact h
  | generateId => exact h
  | membership command =>
    change (command.statement.after w.db).RolesAssigned
    refine Statement.after_keeps (p := Database.RolesAssigned) h ?_
    intro answer db' hok
    cases command with
    | addMember row =>
      refine h.insertMember hstores (hpairs ?_) hok
      have hnot : (Database.insertMember row).refuses w.db = false :=
        Statement.not_refuses_of_ok hok
      simpa only [AssignsKnown, Command.assigns, hnot, Bool.false_eq_true, if_false] using hknown
    | replaceMemberRoles organizationId memberId roles expectedUpdatedAt audit =>
      refine h.replaceMemberRoles hstores ?_ hok
      intro hany
      apply hpairs
      simpa only [AssignsKnown, Command.assigns, hany, if_true] using hknown
    | _ => exact hstores.elim
  | role command =>
    change (command.statement.after w.db).RolesAssigned
    refine Statement.after_keeps (p := Database.RolesAssigned) h ?_
    intro answer db' hok
    cases command with
    | createRole row audit => exact h.createOrganizationRole hstores.1 hok
    | deleteRole organizationId roleKey expectedUpdatedAt audit =>
      exact h.deleteOrganizationRole hok
    | createInvitation row =>
      refine h.insertInvitation hstores (hpairs ?_) hok
      have hnot : (Database.insertInvitation row).refuses w.db = false :=
        Statement.not_refuses_of_ok hok
      simpa only [AssignsKnown, Command.assigns, hnot, Bool.false_eq_true, if_false] using hknown
  | _ => exact hstores.elim

/-! ## The commands of the requests -/

section Programs

variable {answers : Reply → Prop}

/-- Roles that pass the check are valid keys, when the roles of the organization are. -/
theorem validated_issues {organizationId : String} {roles : List String} {next : Request Unit}
    (h : (∀ role ∈ roles, isRoleKey role = true) →
      next.Issues (fun w : World => w.db.RolesAssigned) answers Command.StoresKeys) :
    (validateOrganizationRoleKeys organizationId roles >>= fun _ => next).Issues
      (fun w : World => w.db.RolesAssigned) answers Command.StoresKeys := by
  refine ⟨trivial, ?_⟩
  intro w hw
  dsimp only [Program.bind]
  split
  · trivial
  · rename_i hnone
    apply h
    intro role hrole
    have hknown := List.find?_eq_none.mp hnone role hrole
    simp only [Bool.and_eq_true, Bool.not_eq_true', not_and, Bool.not_eq_false] at hknown
    by_cases hpredefined : predefinedOrganizationRoleKeys.contains role = true
    · exact predefinedKeys_isRoleKey role (List.contains_iff_mem.mp hpredefined)
    · have hdynamic := List.contains_iff_mem.mp (hknown (by simpa using hpredefined))
      obtain ⟨row, hrow, rfl⟩ := List.mem_map.mp hdynamic
      exact hw.keys row (List.mem_filter.mp hrow).1

theorem validateRoleScopes_uses {P : Command → Prop} (hread : P .read) (organizationId : String)
    (scopes : List RoleScope) : (validateRoleScopes organizationId scopes).Uses P := by
  apply Uses.forEach
  intro resourceId
  apply uses_bind (uses_bind (uses_query.mpr hread) fun _ => uses_orThrow)
  intro resource
  exact uses_ofResult

theorem getRole_uses {P : Command → Prop} (hread : P .read) (organizationId roleKey : String) :
    (getRole organizationId roleKey).Uses P := by
  have hpredefined : (findPredefinedRole roleKey).Uses P := by
    apply uses_bind (uses_query.mpr hread)
    intro realmroot
    exact uses_bind uses_orThrow fun resource => trivial
  apply uses_bind hpredefined
  intro predefined
  split
  · trivial
  · apply uses_bind (uses_query.mpr hread)
    intro found
    apply uses_bind uses_orThrow
    intro role
    exact uses_bind (uses_query.mpr hread) fun scopes => trivial

theorem deleteOrganizationRole_uses {P : Command → Prop} (hread : P .read)
    (hdelete : ∀ organizationId roleKey expectedUpdatedAt audit,
      P (.role (.deleteRole organizationId roleKey expectedUpdatedAt audit)))
    (organizationId roleKey : String) (expectedUpdatedAt : Time) (audit : AgentAuditEvent) :
    (deleteOrganizationRole organizationId roleKey expectedUpdatedAt audit).Uses P := by
  apply uses_bind (uses_perform.mpr (hdelete _ _ _ _))
  intro deleted
  split_ifs
  · trivial
  · apply uses_bind (uses_query.mpr hread)
    intro existing
    split
    · trivial
    · apply uses_bind (uses_query.mpr hread)
      intro assignment
      split_ifs
      · trivial
      · exact uses_bind (uses_query.mpr hread) fun _ => trivial

variable [Platform]

theorem createRole_uses (organizationId : String) (input : CreateRoleRequest)
    (actor : MutationActor) : (createRole organizationId input actor).Uses Command.StoresKeys := by
  apply uses_bind (getOrganization_uses trivial organizationId)
  intro _
  by_cases hpredefined : predefinedOrganizationRoleKeys.contains input.key = true
  · rw [throwIf, if_pos hpredefined]
    trivial
  · apply uses_bind uses_throwIf
    intro _
    apply uses_bind (validateRoleScopes_uses trivial organizationId _)
    intro _
    apply uses_bind (uses_currentTime.mpr trivial)
    intro now
    apply uses_bind (uses_generateId.mpr trivial)
    intro auditId
    apply uses_bind (uses_generateId.mpr trivial)
    intro id
    refine uses_perform.mpr ⟨input.validKey, ?_⟩
    intro hmem
    exact hpredefined (List.contains_iff_mem.mpr hmem)

theorem deleteRole_uses (organizationId roleKey : String) (actor : MutationActor) :
    (deleteRole organizationId roleKey actor).Uses Command.StoresKeys := by
  apply uses_bind (getRole_uses trivial organizationId roleKey)
  intro role
  apply uses_bind uses_throwIf
  intro _
  apply uses_bind (uses_currentTime.mpr trivial)
  intro now
  apply uses_bind (uses_generateId.mpr trivial)
  intro auditId
  apply uses_bind (deleteOrganizationRole_uses trivial (fun _ _ _ _ => trivial) ..)
  intro result
  apply uses_bind uses_throwIf
  intro _
  exact uses_throwIf

theorem roleSystem_issues (request : RoleRequest) :
    (roleSystem.program request).Issues (fun w => w.db.RolesAssigned) answers
      Command.StoresKeys := by
  cases request with
  | createRole organizationId input actor => exact (createRole_uses organizationId input actor).issues
  | deleteRole organizationId roleKey actor =>
    exact (deleteRole_uses organizationId roleKey actor).issues
  | replaceMemberRoles organizationId memberId input actor =>
    obtain ⟨replace, heq, hreplace⟩ := replaceMemberRoles_validates (P := Command.StoresKeys)
      trivial trivial organizationId memberId input actor
    change (replaceMemberRoles organizationId memberId input actor).Issues _ _ _
    rw [heq]
    apply Issues.bind (requireMemberForOrganization_uses trivial memberId organizationId).issues
    intro target
    apply validated_issues
    intro hkeys
    exact (hreplace target fun version audit _ => hkeys).issues
  | addMember organizationId userId input =>
    obtain ⟨insert, heq, hinsert⟩ := addMember_validates (P := Command.StoresKeys)
      trivial trivial organizationId userId input
    change (addMember organizationId userId input).Issues _ _ _
    rw [heq]
    apply Issues.bind (getOrganization_uses trivial organizationId).issues
    intro _
    apply validated_issues
    intro hkeys
    exact (hinsert fun row hrow => ⟨input.roles, hrow, hkeys⟩).issues
  | createInvitation organizationId input actor =>
    apply Issues.bind (getOrganization_uses trivial organizationId).issues
    intro _
    apply validated_issues
    intro hkeys
    apply Uses.issues
    apply uses_bind (uses_generateId.mpr trivial)
    intro id
    apply uses_bind (uses_currentTime.mpr trivial)
    intro now
    apply uses_bind (uses_currentTime.mpr trivial)
    intro createdAt
    exact uses_perform.mpr ⟨input.roles.roles, rfl, hkeys⟩

end Programs

/-! ## Runs -/

/-- The steps of the system, as long as the roles are known that it assigns. -/
def roleSteps : Stepwise Command World Reply RoleRequest where
  issues _ := Command.StoresKeys
  inv w := w.db.RolesAssigned
  cond _ := AssignsKnown

theorem roleSteps_sound [Platform] : roleSteps.Sound roleSystem where
  program request := roleSystem_issues request
  refl _ := trivial
  trans _ _ := trivial
  exec _ _ _ hstores hknown h := ⟨rolesAssigned_exec hstores hknown h, trivial⟩
  environment event w h := by
    refine ⟨?_, trivial⟩
    cases event with
    | elapse milliseconds => exact h
    | configure db => exact ⟨h.known, h.memberTexts, h.invitationTexts, h.keys⟩

/-- No state has a role that is held and is not known; and a role that is created is not held by
anybody yet. -/
structure NoRoleDangles (states : List World) (history : List (RoleRequest × Command × World)) :
    Prop where
  known : ∀ w ∈ states, w.db.NoDanglingRole
  created : ∀ entry ∈ history, ∀ row audit, entry.2.1 = .role (.createRole row audit) →
    (Database.createOrganizationRole row audit).refuses entry.2.2.db = false →
      (row.organizationId, row.role) ∉ entry.2.2.db.heldRoles

/-- No role dangles in a run in which every assignment finds its roles known where it is
written. -/
theorem no_role_dangles [Platform] (w : World) (schedule : List RoleAction)
    (hstart : w.db.RolesAssigned)
    (h : ∀ entry ∈ (idle w).history roleSystem schedule, AssignsKnown entry.2.1 entry.2.2) :
    NoRoleDangles ((idle w).states roleSystem schedule)
      ((idle w).history roleSystem schedule) := by
  have hstates : ∀ s ∈ (idle w).states roleSystem schedule, s.db.RolesAssigned :=
    roleSteps_sound.states hstart (fun _ _ _ => trivial) h
  refine ⟨fun s hs => (hstates s hs).known, ?_⟩
  rintro ⟨request, command, s⟩ hentry row audit rfl hnot hheld
  obtain ⟨hstores, hs⟩ := roleSteps_sound.history hstart (fun _ _ _ => trivial) h _ hentry
  have hknown := (show s.db.RolesAssigned from hs).known _ hheld
  rcases Database.knowsRole_iff.mp hknown with hpredefined | ⟨old, hold, hsame⟩
  · exact hstores.2 hpredefined
  · have hrefused : (Database.createOrganizationRole row audit).refuses s.db = true := by
      apply Statement.refuses_of_error
      unfold Database.createOrganizationRole
      rw [if_pos (List.any_eq_true.mpr ⟨old, hold, by simp [hsame.1, hsame.2]⟩)]
    exact absurd hrefused (by simp [hnot])

/-! ## A role that is deleted while it is assigned -/

namespace DeletedRoleExample

attribute [local instance] samplePlatform

def realmroot : ApiResource :=
  { id := "realmroot", identifier := "realmroot", name := "Realmroot", description := none
    resourceUrl := "https://realmroot.example", authorizationModel := .native, connectorId := none
    authorizationDetails := [], enabled := true, ownerOrganizationId := "platform"
    visibility := .public, scopeRegistry := none, availableToAgents := true, deletedAt := none
    updatedAt := 0 }

def start : World :=
  { db :=
      { users := [
          { id := "ada", banned := false, deletedAt := none },
          { id := "bob", banned := false, deletedAt := none }]
        organizations := [{ id := "acme", slug := "acme", disabled := false }]
        members := [{ id := "first", organizationId := "acme", userId := "bob", role := "owner"
                      updatedAt := 0 }]
        organizationRoles := [{ id := "role", organizationId := "acme", role := "support"
                                permission := [("scope", [])], updatedAt := 0 }]
        apiResources := [realmroot] }
    clock := 10, nextId := 0 }

def bob : MutationActor := { controllerUserId := some "bob", agent := none }

def support : RequestedRoles :=
  { roles := ["support"], someRole := by decide, nonEmpty := by decide }

theorem start_rolesAssigned : start.db.RolesAssigned where
  known := by decide +kernel
  memberTexts := by
    intro row hrow
    rw [List.mem_singleton.mp hrow]
    exact ⟨["owner"], by decide +kernel, by decide⟩
  invitationTexts := by
    intro row hrow
    cases hrow
  keys := by decide

/-- Bob deletes the role, after the request that adds Ada has checked it. -/
def overtaken : List RoleAction :=
  .start (.addMember "acme" "ada" support) :: List.replicate 4 (.advance 0 {}) ++
    .start (.deleteRole "acme" "support" bob) :: List.replicate 6 (.advance 1 {}) ++
      [.advance 0 {}]

/-- Ada gets a role that is not there. -/
theorem role_dangles :
    ¬ ∀ (w : World) (schedule : List RoleAction), w.db.RolesAssigned →
      NoRoleDangles ((idle w).states roleSystem schedule)
        ((idle w).history roleSystem schedule) := by
  intro hclaim
  have hknown := (hclaim start overtaken start_rolesAssigned).known
  have hdangles : ∃ w ∈ (idle start).states roleSystem overtaken, ¬ w.db.NoDanglingRole := by
    decide +kernel
  obtain ⟨w, hw, hnot⟩ := hdangles
  exact hnot (hknown w hw)

/-- Ada is added first; the deletion finds her. -/
def consecutive : List RoleAction :=
  .start (.addMember "acme" "ada" support) :: .start (.deleteRole "acme" "support" bob) ::
    List.replicate 5 (.advance 0 {}) ++ List.replicate 8 (.advance 1 {})

theorem no_role_dangles_consecutive :
    NoRoleDangles ((idle start).states roleSystem consecutive)
      ((idle start).history roleSystem consecutive) :=
  no_role_dangles start consecutive start_rolesAssigned (by decide +kernel)

end DeletedRoleExample

end Realmroot
