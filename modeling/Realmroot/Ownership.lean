import Realmroot.MembershipFrames
import Realmroot.RoleTexts

/-!
# Owners of organizations

Every organization has an owner with a live account. Each statement and batch on
memberships keeps that: the statements look for another owner in the texts of the
roles, and members have live accounts.
-/

namespace Realmroot

namespace Database

/-- A member of the organization has the owner role and a live account. -/
def HasOwner (db : Database) (organizationId : String) : Prop :=
  ∃ row ∈ db.members, row.organizationId = organizationId ∧ "owner" ∈ row.toMember.roles ∧
    db.isLiveUser row.userId = true

/-- What the statements on memberships rely on and keep. -/
structure Founded (db : Database) : Prop where
  owners : ∀ organization ∈ db.organizations, db.HasOwner organization.id
  texts : ∀ row ∈ db.members, IsRoleText row.role
  accounts : ∀ row ∈ db.members, db.isLiveUser row.userId = true
  keys : ∀ row ∈ db.organizationRoles, isRoleKey row.role = true

variable {db db' : Database}

theorem isLiveUser_iff {userId : String} :
    db.isLiveUser userId = true ↔ ∃ row ∈ db.users, row.id = userId ∧ row.deletedAt = none := by
  simp [isLiveUser, Option.isNone_iff_eq_none]

/-- An account that is there and not deleted is live. -/
theorem isLiveUser_of_not_deleted {userId : String} (hdeleted : db.isDeletedUser userId = false)
    (huser : ∃ user ∈ db.users, user.id = userId) : db.isLiveUser userId = true := by
  obtain ⟨user, hmem, hid⟩ := huser
  rw [isLiveUser_iff]
  refine ⟨user, hmem, hid, ?_⟩
  simp only [isDeletedUser, List.any_eq_false, Bool.and_eq_true, decide_eq_true_eq, not_and,
    Bool.not_eq_true] at hdeleted
  have hnone := hdeleted user hmem hid
  simpa using hnone

/-- The owner role of a member is what the statements look for. -/
theorem Founded.likeRole_iff (h : db.Founded) {row : Member} (hrow : row ∈ db.members) :
    likeRole "owner" row.role = true ↔ "owner" ∈ row.toMember.roles :=
  (h.texts row hrow).likeRole_iff

/-- A member whom a statement finds to be an owner is one. -/
theorem Founded.hasOwner_of_like (h : db.Founded) {row : Member} (hrow : row ∈ db.members)
    (hlike : likeRole "owner" row.role = true) : db.HasOwner row.organizationId :=
  ⟨row, hrow, rfl, (h.likeRole_iff hrow).mp hlike, h.accounts row hrow⟩

theorem isRoleText_owner : IsRoleText (serializeRoles ["owner"]) := by
  refine ⟨["owner"], rfl, ?_⟩
  intro role hrole
  rw [List.mem_singleton.mp hrole]
  decide

theorem isLiveUser_congr (husers : db'.users = db.users) (userId : String) :
    db'.isLiveUser userId = db.isLiveUser userId := by
  simp [isLiveUser, husers]

/-- An owner stays one when the member table grows. -/
theorem HasOwner.append {organizationId : String} (h : db.HasOwner organizationId)
    (husers : db'.users = db.users) {rows : List Member} (hmembers : db'.members = db.members ++ rows) :
    db'.HasOwner organizationId := by
  obtain ⟨row, hrow, horganization, howner, hlive⟩ := h
  refine ⟨row, ?_, horganization, howner, ?_⟩
  · rw [hmembers]
    exact List.mem_append_left _ hrow
  · rwa [isLiveUser_congr husers]

theorem Founded.insertMember (h : db.Founded) {row : Member} (htext : IsRoleText row.role)
    (hok : insertMember row db = .ok ((), db')) : db'.Founded := by
  obtain ⟨hdeleted, -, huser, rfl⟩ := insertMember_ok hok
  constructor
  · intro organization horganization
    exact (h.owners organization horganization).append rfl rfl
  · intro old hold
    rcases List.mem_append.mp hold with hold | hold
    · exact h.texts old hold
    · rwa [List.mem_singleton.mp hold]
  · intro old hold
    rcases List.mem_append.mp hold with hold | hold
    · exact h.accounts old hold
    · rw [List.mem_singleton.mp hold]
      exact isLiveUser_of_not_deleted hdeleted huser
  · exact h.keys

/-- The user who creates an organization is its owner. -/
theorem Founded.createOrganization (h : db.Founded) {row : Organization} {owner : Member}
    (hrole : owner.role = serializeRoles ["owner"])
    (hok : createOrganization row owner db = .ok ((), db')) : db'.Founded := by
  obtain ⟨hdeleted, -, huser, rfl⟩ := createOrganization_ok hok
  have hlive := isLiveUser_of_not_deleted hdeleted huser
  have howner : "owner" ∈ deserializeRoles owner.role := by
    rw [hrole, mem_deserializeRoles (by decide)]
    simp
  constructor
  · intro organization horganization
    rcases List.mem_append.mp horganization with hold | hnew
    · exact (h.owners organization hold).append rfl rfl
    · rw [List.mem_singleton.mp hnew]
      exact ⟨_, List.mem_append_right _ (List.mem_singleton_self _), rfl, howner, hlive⟩
  · intro old hold
    rcases List.mem_append.mp hold with hold | hold
    · exact h.texts old hold
    · rw [List.mem_singleton.mp hold]
      dsimp only
      rw [hrole]
      exact isRoleText_owner
  · intro old hold
    rcases List.mem_append.mp hold with hold | hold
    · exact h.accounts old hold
    · rw [List.mem_singleton.mp hold]
      exact hlive
  · exact h.keys

/-- Where a member that may go is an owner, another member is one too. -/
theorem Founded.other_owner (h : db.Founded) {organizationId memberId : String} {row : Member}
    (hrow : row ∈ db.members) (howner : "owner" ∈ row.toMember.roles)
    (hguard : db.isNotLastOwner organizationId memberId row = true) :
    ∃ other ∈ db.members, other.organizationId = organizationId ∧ other.id ≠ memberId ∧
      "owner" ∈ other.toMember.roles := by
  have hlike := (h.likeRole_iff hrow).mpr howner
  simp only [isNotLastOwner, hlike, Bool.not_true, Bool.false_or, hasOtherOwner, List.any_eq_true,
    Bool.and_eq_true, decide_eq_true_eq] at hguard
  obtain ⟨other, hother, ⟨horganization, hid⟩, hlikeOther⟩ := hguard
  exact ⟨other, hother, horganization, by simpa using hid, (h.likeRole_iff hother).mp hlikeOther⟩

theorem isMember_iff {organizationId memberId : String} {expectedUpdatedAt : Time} {row : Member} :
    isMember organizationId memberId expectedUpdatedAt row = true ↔
      row.id = memberId ∧ row.organizationId = organizationId ∧
        row.updatedAt = expectedUpdatedAt := by
  simp [isMember, and_assoc]

/-- A member that is removed leaves another owner behind. -/
theorem Founded.removeMember (h : db.Founded) {organizationId memberId : String}
    {expectedUpdatedAt now : Time} {audit : AgentAuditEvent} {removed : Bool}
    (hok : removeMember organizationId memberId expectedUpdatedAt audit now db =
      .ok (removed, db')) : db'.Founded := by
  obtain ⟨-, _, _, _, _, -, rfl⟩ := removeMember_ok hok
  have hkept : ∀ row ∈ db.members,
      removes organizationId memberId expectedUpdatedAt db row = false →
        row ∈ db.members.filter fun row =>
          !removes organizationId memberId expectedUpdatedAt db row := by
    intro row hrow hremoves
    exact List.mem_filter.mpr ⟨hrow, by simp [hremoves]⟩
  constructor
  · intro organization horganization
    obtain ⟨row, hrow, hin, howner, hlive⟩ := h.owners organization horganization
    by_cases hremoves : removes organizationId memberId expectedUpdatedAt db row = true
    · simp only [removes, Bool.and_eq_true] at hremoves
      obtain ⟨other, hother, hotherIn, hotherId, hotherOwner⟩ :=
        h.other_owner hrow howner hremoves.2
      have hsame := (isMember_iff.mp hremoves.1).2.1
      refine ⟨other, hkept other hother ?_, ?_, hotherOwner, h.accounts other hother⟩
      · simp [removes, isMember, hotherId]
      · rw [hotherIn, ← hsame, hin]
    · exact ⟨row, hkept row hrow (by simpa using hremoves), hin, howner, hlive⟩
  · intro row hrow
    exact h.texts row (List.mem_filter.mp hrow).1
  · intro row hrow
    exact h.accounts row (List.mem_filter.mp hrow).1
  · exact h.keys

/-- A member that loses the owner role leaves another owner behind. -/
theorem Founded.replaceMemberRoles (h : db.Founded) {organizationId memberId : String}
    {roles : List String} {expectedUpdatedAt : Time} {audit : AgentAuditEvent} {updated : Bool}
    (hkeys : ∀ role ∈ roles, isRoleKey role = true)
    (hok : replaceMemberRoles organizationId memberId roles expectedUpdatedAt audit db =
      .ok (updated, db')) : db'.Founded := by
  obtain ⟨-, _, -, rfl⟩ := replaceMemberRoles_ok hok
  constructor
  · intro organization horganization
    obtain ⟨row, hrow, hin, howner, hlive⟩ := h.owners organization horganization
    by_cases hreplaces : replacesRoles organizationId memberId roles expectedUpdatedAt db row = true
    · by_cases howns : "owner" ∈ roles
      · have hkept : "owner" ∈ deserializeRoles (serializeRoles roles) :=
          (mem_deserializeRoles hkeys).mpr howns
        exact ⟨_, Table.mem_updateWhere_of_pos hrow hreplaces, hin, hkept, hlive⟩
      · simp only [replacesRoles, Bool.and_eq_true, Bool.or_eq_true, List.contains_iff_mem, howns,
          false_or] at hreplaces
        obtain ⟨other, hother, hotherIn, hotherId, hotherOwner⟩ :=
          h.other_owner hrow howner hreplaces.2
        have hsame := (isMember_iff.mp hreplaces.1).2.1
        refine ⟨other, Table.mem_updateWhere_of_not hother ?_, ?_, hotherOwner,
          h.accounts other hother⟩
        · simp [replacesRoles, isMember, hotherId]
        · rw [hotherIn, ← hsame, hin]
    · exact ⟨row, Table.mem_updateWhere_of_not hrow (by simpa using hreplaces), hin, howner, hlive⟩
  · intro row hrow
    obtain ⟨old, hold, rfl⟩ := Table.mem_updateWhere.mp hrow
    split_ifs
    · exact ⟨roles, rfl, hkeys⟩
    · exact h.texts old hold
  · intro row hrow
    obtain ⟨old, hold, hchanged⟩ := Table.mem_updateWhere.mp hrow
    have huser : row.userId = old.userId := by
      rw [hchanged]
      split_ifs <;> rfl
    rw [huser]
    exact h.accounts old hold
  · exact h.keys

/-- A user other than the erased one stays live. -/
theorem isLiveUser_bury {userId other : String} {now : Time} (hne : other ≠ userId)
    (hlive : db.isLiveUser other = true)
    (husers : db'.users = Table.updateWhere (fun row => row.id = userId && row.deletedAt.isNone)
      (fun row => { row with deletedAt := some now, banned := true, email := none }) db.users) :
    db'.isLiveUser other = true := by
  obtain ⟨user, huser, hid, hnone⟩ := isLiveUser_iff.mp hlive
  rw [isLiveUser_iff, husers]
  refine ⟨user, Table.mem_updateWhere_of_not huser ?_, hid, hnone⟩
  have hne' : user.id ≠ userId := fun he => hne (hid ▸ he)
  simp [hne']

/-- An account that is erased leaves an owner in each of its organizations. -/
theorem Founded.eraseAccount (h : db.Founded) {userId : String} {now : Time}
    (hok : eraseAccount userId now db = .ok ((), db')) : db'.Founded := by
  obtain ⟨hlast, horganizations, hroles, hmembers, husers, -⟩ := eraseAccount_ok hok
  have hkept : ∀ row ∈ db.members, row.userId ≠ userId → row ∈ db'.members := by
    intro row hrow hne
    rw [hmembers]
    exact List.mem_filter.mpr ⟨hrow, by simpa using hne⟩
  constructor
  · intro organization horganization
    rw [horganizations] at horganization
    obtain ⟨row, hrow, hin, howner, hlive⟩ := h.owners organization horganization
    by_cases huser : row.userId = userId
    · have hlike := (h.likeRole_iff hrow).mpr howner
      have hnot := List.any_eq_false.mp (hlast (huser ▸ hlive)) row hrow
      simp only [huser, hlike, decide_true, Bool.true_and, Bool.not_eq_true', Bool.not_eq_false,
        List.any_eq_true, Bool.and_eq_true, decide_eq_true_eq] at hnot
      obtain ⟨other, hother, ⟨⟨hotherIn, hotherUser⟩, hotherLike⟩, -⟩ := hnot
      have hotherUser : other.userId ≠ userId := by simpa using hotherUser
      refine ⟨other, hkept other hother hotherUser, ?_, (h.likeRole_iff hother).mp hotherLike, ?_⟩
      · rw [hotherIn, hin]
      · exact isLiveUser_bury hotherUser (h.accounts other hother) husers
    · exact ⟨row, hkept row hrow huser, hin, howner, isLiveUser_bury huser hlive husers⟩
  · intro row hrow
    rw [hmembers] at hrow
    exact h.texts row (List.mem_filter.mp hrow).1
  · intro row hrow
    rw [hmembers] at hrow
    obtain ⟨hrow, hne⟩ := List.mem_filter.mp hrow
    exact isLiveUser_bury (by simpa using hne) (h.accounts row hrow) husers
  · rw [hroles]
    exact h.keys

end Database
end Realmroot
