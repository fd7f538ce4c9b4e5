import Mathlib
import Realmroot.RoleTexts
import Realmroot.Rules
import Realmroot.Usecases.OrganizationRoles

/-!
# Roles that are held

Which roles of an organization are deleted. Whether somebody holds a role is asked with a pattern
in which an underscore of the key stands for any character, so a role that nobody holds may be kept
because of others.
-/

namespace Realmroot

open AtomicProgram

/-! ## Patterns -/

/-- A character of a pattern without percent signs and a character of a text. -/
def LikeChar (p c : Char) : Prop := p = '_' ∨ p.toLower = c.toLower

/-- The text is one that the key, read as a pattern, stands for. -/
def Resembles (key text : List Char) : Prop := List.Forall₂ LikeChar key text

theorem Resembles.refl (key : List Char) : Resembles key key :=
  List.forall₂_same.mpr fun _ _ => Or.inr rfl

theorem likePrefix_iff {pattern text : List Char} :
    likePrefix pattern text = true ↔ ∃ front, front <+: text ∧ Resembles pattern front := by
  induction pattern generalizing text with
  | nil => simpa [likePrefix] using ⟨[], List.nil_prefix, List.Forall₂.nil⟩
  | cons p pattern ih =>
    cases text with
    | nil =>
      simp only [likePrefix, Bool.false_eq_true, List.prefix_nil, false_iff]
      rintro ⟨front, rfl, h⟩
      cases h
    | cons c text =>
      simp only [likePrefix, Bool.and_eq_true, Bool.or_eq_true, decide_eq_true_eq, ih]
      constructor
      · rintro ⟨hchar, front, hfront, hresembles⟩
        exact ⟨c :: front, by simpa using hfront, .cons hchar hresembles⟩
      · rintro ⟨front, hfront, hresembles⟩
        cases hresembles with
        | cons hchar hresembles =>
          rename_i d front
          obtain ⟨rfl, hrest⟩ := List.cons_prefix_cons.mp hfront
          exact ⟨hchar, front, hrest, hresembles⟩

theorem likeChar_comma {c : Char} : LikeChar ',' c ↔ c = ',' := by
  constructor
  · rintro (h | h)
    · exact absurd h (by decide)
    · have hcomma : c.toLower = ',' := h.symm
      by_cases hupper : c.isUpper = true
      · have halpha := Char.isLower_toLower_eq_isAlpha c
        rw [hcomma, Char.isAlpha, hupper, Bool.true_or] at halpha
        exact absurd halpha (by decide)
      · rwa [Char.toLower_eq_of_not_isUpper hupper] at hcomma
  · rintro rfl
    exact Or.inr rfl

theorem resembles_append_comma {key text : List Char} :
    Resembles (key ++ [',']) text ↔ ∃ middle, text = middle ++ [','] ∧ Resembles key middle := by
  induction key generalizing text with
  | nil =>
    constructor
    · intro h
      cases h with
      | cons hchar hrest =>
        cases hrest
        exact ⟨[], by rw [likeChar_comma.mp hchar]; rfl, .nil⟩
    · rintro ⟨_, rfl, h⟩
      cases h
      exact .cons (likeChar_comma.mpr rfl) .nil
  | cons p key ih =>
    constructor
    · intro h
      cases h with
      | cons hchar hrest =>
        obtain ⟨middle, rfl, hmiddle⟩ := ih.mp hrest
        exact ⟨_ :: middle, rfl, .cons hchar hmiddle⟩
    · rintro ⟨_, rfl, h⟩
      cases h with
      | cons hchar hrest => exact .cons hchar (ih.mpr ⟨_, rfl, hrest⟩)

/-- The pattern of a key stands for texts between two commas. -/
theorem resembles_enclosed {key text : List Char} :
    Resembles (',' :: key ++ [',']) text ↔
      ∃ middle, text = ',' :: middle ++ [','] ∧ Resembles key middle := by
  constructor
  · intro h
    cases h with
    | cons hchar hrest =>
      obtain ⟨middle, rfl, hmiddle⟩ := resembles_append_comma.mp hrest
      exact ⟨middle, by rw [likeChar_comma.mp hchar]; rfl, hmiddle⟩
  · rintro ⟨middle, rfl, hmiddle⟩
    exact .cons (likeChar_comma.mpr rfl) (resembles_append_comma.mpr ⟨middle, rfl, hmiddle⟩)

/-! ## Entries -/

/-- The entries of a role list as it is stored. -/
def roleEntries (text : String) : List (List Char) := text.toList.splitOn ','

/-- Some entries that follow each other in the list, joined by commas, are a text that the key
stands for. -/
def ListResembles (key text : String) : Prop :=
  ∃ run, run <:+: roleEntries text ∧ run ≠ [] ∧
    Resembles key.toList ([','].intercalate run)

theorem comma_not_mem_roleEntries {text : String} : ∀ entry ∈ roleEntries text, ',' ∉ entry := by
  intro entry hentry hcomma
  rw [roleEntries, List.splitOn_eq_splitOnP] at hentry
  have hnot := Words.splitOnP_no_sep text.toList entry hentry ',' hcomma
  simp at hnot

theorem enclosed_roleEntries (text : String) :
    Separated.enclosed ',' (roleEntries text) = ',' :: text.toList ++ [','] := by
  have hne : roleEntries text ≠ [] := List.splitOn_ne_nil _ _
  rw [Separated.enclosed_eq_intercalate hne, roleEntries, List.intercalate_splitOn]

/-- The pattern finds a key in a list exactly when the key stands for entries of the list. -/
theorem likeRoleKey_iff {key text : String} :
    likeRoleKey key text = true ↔ ListResembles key text := by
  have hfound : likeRoleKey key text = true ↔ ∃ middle, Resembles key.toList middle ∧
      ',' :: middle ++ [','] <:+: ',' :: text.toList ++ [','] := by
    simp only [likeRoleKey, List.any_eq_true, List.mem_tails, likePrefix_iff, resembles_enclosed]
    constructor
    · rintro ⟨suffix, hsuffix, front, hfront, middle, rfl, hmiddle⟩
      exact ⟨middle, hmiddle, hfront.isInfix.trans hsuffix.isInfix⟩
    · rintro ⟨middle, hmiddle, hinfix⟩
      obtain ⟨suffix, hfront, hsuffix⟩ := List.infix_iff_prefix_suffix.mp hinfix
      exact ⟨suffix, hsuffix, _, hfront, middle, rfl, hmiddle⟩
  rw [hfound, ← enclosed_roleEntries]
  constructor
  · rintro ⟨middle, hmiddle, hinfix⟩
    have hne : middle.splitOn ',' ≠ [] := List.splitOn_ne_nil _ _
    have hcommas : ∀ word ∈ middle.splitOn ',', ',' ∉ word := by
      simpa [roleEntries] using @comma_not_mem_roleEntries (String.ofList middle)
    rw [← @List.intercalate_splitOn _ middle _ _ ',', ← Separated.enclosed_eq_intercalate hne,
      Separated.infix_enclosed_run_iff hne hcommas comma_not_mem_roleEntries] at hinfix
    exact ⟨middle.splitOn ',', hinfix, hne, by rwa [List.intercalate_splitOn]⟩
  · rintro ⟨run, hrun, hne, hresembles⟩
    have hcommas : ∀ word ∈ run, ',' ∉ word := fun word hword =>
      comma_not_mem_roleEntries word (hrun.subset hword)
    refine ⟨_, hresembles, ?_⟩
    rwa [← Separated.enclosed_eq_intercalate hne,
      Separated.infix_enclosed_run_iff hne hcommas comma_not_mem_roleEntries]

/-- A list in which a key is found as an entry is found by its pattern. -/
theorem ListResembles.of_mem {key text : String} (h : key.toList ∈ roleEntries text) :
    ListResembles key text :=
  ⟨[key.toList], (List.singleton_infix_iff _ _).mpr h, by simp, by
    rw [List.intercalate_singleton]
    exact Resembles.refl _⟩

/-- Of joined keys, a key is an entry exactly when the list that the code reads has it. -/
theorem mem_roleEntries_iff {keys : List String} {key : String}
    (hkeys : ∀ key ∈ keys, isRoleKey key = true) (hkey : isRoleKey key = true) :
    key.toList ∈ roleEntries (String.ofList ([','].intercalate (keys.map String.toList))) ↔
      key ∈ deserializeRoles (String.ofList ([','].intercalate (keys.map String.toList))) := by
  rw [deserializeRoles_intercalate hkeys]
  by_cases hnil : keys = []
  · have hne : key.toList ≠ [] := by simpa using IsRoleKey.ne_empty hkey
    simpa [hnil, roleEntries] using hne
  · rw [roleEntries, String.toList_ofList,
      List.splitOn_intercalate ',' (comma_not_mem_keys hkeys) (by simpa using hnil)]
    simp [String.toList_inj]

/-! ## Deletions -/

variable (db : Database) (organizationId roleKey : String)

/-- The role lists of the members of the organization and of the invitations that are pending
there. -/
def roleLists : List String :=
  (db.members.filter fun row => row.organizationId = organizationId).map (·.role) ++
    (db.invitations.filter fun row =>
      row.organizationId = organizationId && row.status = "pending").map (·.role)

/-- A member or a pending invitation has the key as an element of its role list. -/
def IsHeld : Prop := ∃ text ∈ roleLists db organizationId, roleKey.toList ∈ roleEntries text

/-- The pattern of the key finds something in a role list. -/
def IsResembled : Prop := ∃ text ∈ roleLists db organizationId, ListResembles roleKey text

variable {db organizationId roleKey}

theorem IsHeld.isResembled (h : IsHeld db organizationId roleKey) :
    IsResembled db organizationId roleKey := by
  obtain ⟨text, htext, hmem⟩ := h
  exact ⟨text, htext, .of_mem hmem⟩

theorem isResembled_iff :
    IsResembled db organizationId roleKey ↔
      db.assignedMember organizationId roleKey = true ∨
        db.assignedInvitation organizationId roleKey = true := by
  simp only [IsResembled, roleLists, List.mem_append, List.mem_map, List.mem_filter,
    Database.assignedMember, Database.assignedInvitation, List.any_eq_true, Bool.and_eq_true,
    decide_eq_true_eq, ← likeRoleKey_iff]
  constructor
  · rintro ⟨_, ⟨row, ⟨hrow, horganization⟩, rfl⟩ | ⟨row, ⟨hrow, hpending⟩, rfl⟩, hlike⟩
    · exact Or.inl ⟨row, hrow, horganization, hlike⟩
    · exact Or.inr ⟨row, hrow, hpending, hlike⟩
  · rintro (⟨row, hrow, horganization, hlike⟩ | ⟨row, hrow, hpending, hlike⟩)
    · exact ⟨_, Or.inl ⟨row, ⟨hrow, horganization⟩, rfl⟩, hlike⟩
    · exact ⟨_, Or.inr ⟨row, ⟨hrow, hpending⟩, rfl⟩, hlike⟩

/-- The role of the organization with the key, as it was last changed, is there. -/
def HasRole (db : Database) (organizationId roleKey : String) (updatedAt : Time) : Prop :=
  ∃ row ∈ db.organizationRoles, Database.isRole organizationId roleKey updatedAt row = true

/-- The event that records a deletion. -/
def deletionEvent (organizationId roleKey : String) (audit : AgentAuditEvent) : AgentAuditEvent :=
  let extra : Record := [("organizationId", .str organizationId), ("roleKey", .str roleKey)]
  { audit with metadata := audit.metadata.map (·.spread extra) }

/-- The database without the role, and with the event that says so. -/
def withoutRole (organizationId roleKey : String) (updatedAt : Time) (audit : AgentAuditEvent)
    (db : Database) : Database :=
  { db with
    organizationRoles := db.organizationRoles.filter fun row =>
      !Database.isRole organizationId roleKey updatedAt row
    agentAuditEvents := db.agentAuditEvents ++ [deletionEvent organizationId roleKey audit] }

/-- A role that somebody holds stays and nothing changes; any other is deleted, and nothing else
changes. -/
def DeletesExactly (organizationId roleKey : String) (updatedAt : Time) (audit : AgentAuditEvent)
    (w : World) (result : Except Error RoleDeletion × World) : Prop :=
  (IsHeld w.db organizationId roleKey → result = (.ok .assigned, w)) ∧
    (¬ IsHeld w.db organizationId roleKey →
      result = (.ok .deleted,
        { w with db := withoutRole organizationId roleKey updatedAt audit w.db }))

section Runs

variable {updatedAt : Time} {audit : AgentAuditEvent}

theorem not_assigned (h : ¬ IsResembled db organizationId roleKey) :
    db.assignedMember organizationId roleKey = false ∧
      db.assignedInvitation organizationId roleKey = false := by
  simpa [isResembled_iff] using h

/-- The batch deletes nothing while a list resembles the key. -/
theorem deleteOrganizationRole_kept (h : IsResembled db organizationId roleKey) :
    Database.deleteOrganizationRole organizationId roleKey updatedAt audit db =
      .ok (false, db) := by
  have hcondition : ∀ row,
      Database.deletesRole organizationId roleKey updatedAt db row = false := by
    intro row
    rcases isResembled_iff.mp h with h | h
    · simp [Database.deletesRole, h]
    · simp [Database.deletesRole, h]
  simp [Database.deleteOrganizationRole, Database.recordAudit, hcondition]

/-- Otherwise it deletes the role, and nothing else changes. -/
theorem deleteOrganizationRole_deletes (h : ¬ IsResembled db organizationId roleKey)
    (hrole : HasRole db organizationId roleKey updatedAt) :
    Database.deleteOrganizationRole organizationId roleKey updatedAt audit db =
      .ok (true, withoutRole organizationId roleKey updatedAt audit db) := by
  have hcondition : Database.deletesRole organizationId roleKey updatedAt db =
      Database.isRole organizationId roleKey updatedAt := by
    funext row
    simp [Database.deletesRole, not_assigned h]
  have hany : db.organizationRoles.any (Database.isRole organizationId roleKey updatedAt) = true :=
    List.any_eq_true.mpr hrole
  simp [Database.deleteOrganizationRole, Database.recordAudit, hcondition, hany, withoutRole,
    deletionEvent]

variable {w : World} {around : Program.Surroundings World Reply}

theorem HasRole.found (h : HasRole db organizationId roleKey updatedAt) :
    ∃ row, db.findOrganizationRole organizationId roleKey = some row := by
  obtain ⟨row, hrow, hisrole⟩ := h
  simp only [Database.isRole, Bool.and_eq_true, decide_eq_true_eq] at hisrole
  apply Option.isSome_iff_exists.mp
  rw [Database.findOrganizationRole, List.find?_isSome]
  exact ⟨row, hrow, by simp [hisrole]⟩

/-- What is looked up about a role that is resembled. -/
theorem explainKeptRole_run (hstill : ∀ n s, around.elapse n s = s)
    (h : IsResembled w.db organizationId roleKey)
    (hrole : HasRole w.db organizationId roleKey updatedAt) (n : ℕ) :
    (explainKeptRole organizationId roleKey).execute around n w = (.ok .assigned, w) := by
  obtain ⟨row, hfound⟩ := hrole.found
  rw [explainKeptRole, execute_query, hstill, hfound]
  dsimp only
  rw [execute_query, hstill]
  cases hmember : w.db.assignedMember organizationId roleKey with
  | true => rfl
  | false =>
    have hinvitation : w.db.assignedInvitation organizationId roleKey = true := by
      simpa [hmember] using isResembled_iff.mp h
    rw [if_neg Bool.false_ne_true, execute_query, hstill, hinvitation]
    rfl

/-- What `deleteOrganizationRole` returns and leaves when nothing else happens. -/
theorem deleteOrganizationRole_kept_run (hstill : ∀ n s, around.elapse n s = s)
    (h : IsResembled w.db organizationId roleKey)
    (hrole : HasRole w.db organizationId roleKey updatedAt) :
    (deleteOrganizationRole organizationId roleKey updatedAt audit).execute around 0 w =
      (.ok .assigned, w) := by
  have hbatch : (RoleCommand.deleteRole organizationId roleKey updatedAt audit).statement w.db =
      .ok (false, w.db) := deleteOrganizationRole_kept h
  have hexec :
      exec (.role (.deleteRole organizationId roleKey updatedAt audit) : Command) w = w := by
    change commit _ w = w
    rw [commit, Statement.after_of_ok hbatch]
  rw [deleteOrganizationRole, executeRole, execute_perform (by rw [hstill]; exact hbatch), hstill,
    hexec]
  exact explainKeptRole_run hstill h hrole 1

theorem deleteOrganizationRole_deletes_run (hstill : ∀ n s, around.elapse n s = s)
    (h : ¬ IsResembled w.db organizationId roleKey)
    (hrole : HasRole w.db organizationId roleKey updatedAt) :
    (deleteOrganizationRole organizationId roleKey updatedAt audit).execute around 0 w =
      (.ok .deleted, { w with db := withoutRole organizationId roleKey updatedAt audit w.db }) := by
  have hbatch : (RoleCommand.deleteRole organizationId roleKey updatedAt audit).statement w.db =
      .ok (true, withoutRole organizationId roleKey updatedAt audit w.db) :=
    deleteOrganizationRole_deletes h hrole
  have hexec : exec (.role (.deleteRole organizationId roleKey updatedAt audit) : Command) w =
      { w with db := withoutRole organizationId roleKey updatedAt audit w.db } := by
    change commit _ w = _
    rw [commit, Statement.after_of_ok hbatch]
  rw [deleteOrganizationRole, executeRole, execute_perform (by rw [hstill]; exact hbatch), hstill,
    hexec]
  rfl

/-- A role is deleted exactly when nobody holds it, provided that somebody holds it or no role list
has entries that its key, read as a pattern, stands for. -/
theorem deletes_role_exactly_iff (organizationId roleKey : String) (updatedAt : Time)
    (audit : AgentAuditEvent) (w : World) (around : Program.Surroundings World Reply)
    (hstill : ∀ n s, around.elapse n s = s)
    (hrole : HasRole w.db organizationId roleKey updatedAt) :
    DeletesExactly organizationId roleKey updatedAt audit w
        ((deleteOrganizationRole organizationId roleKey updatedAt audit).execute around 0 w) ↔
      IsHeld w.db organizationId roleKey ∨ ¬ IsResembled w.db organizationId roleKey := by
  by_cases hresembled : IsResembled w.db organizationId roleKey
  · rw [deleteOrganizationRole_kept_run hstill hresembled hrole]
    constructor
    · intro hexactly
      by_contra hnot
      push Not at hnot
      have heq := hexactly.2 hnot.1
      cases heq
    · rintro (hheld | hnot)
      · exact ⟨fun _ => rfl, fun hnot => absurd hheld hnot⟩
      · exact absurd hresembled hnot
  · rw [deleteOrganizationRole_deletes_run hstill hresembled hrole]
    have hheld : ¬ IsHeld w.db organizationId roleKey := fun h => hresembled h.isResembled
    exact iff_of_true ⟨fun h => absurd h hheld, fun _ => rfl⟩ (Or.inr hresembled)

end Runs

namespace RoleDeletionExample

/-- An organization with a role that nobody holds, and a member with another role. -/
def world (role : String) : World :=
  { db :=
      { members :=
          [{ id := "membership", organizationId := "acme", userId := "ada", role := role
             updatedAt := 0 }]
        organizationRoles :=
          [{ id := "role", organizationId := "acme", role := "a_b", permission := []
             updatedAt := 0 }] }
    clock := 0, nextId := 0 }

def audit : AgentAuditEvent :=
  { id := "event", action := "organization.role.deleted", result := "success", realmOwned := false
    ownerUserId := none, ownerOrganizationId := some "acme", controllerUserId := some "bob"
    subjectIssuer := none, subject := none, agentIdentityId := none, hostId := none
    resourceId := none, resourceConnectionId := none, accessRequestId := none, scopes := none
    reasonCode := none, metadata := none, occurredAt := 0 }

/-- Nothing else happens. -/
def still : Program.Surroundings World Reply := { elapse := fun _ s => s, reply := fun _ => {} }

theorem world_hasRole (role : String) : HasRole (world role).db "acme" "a_b" 0 :=
  ⟨_, List.mem_singleton_self _, by decide⟩

theorem not_isHeld {role : String} (h : "a_b".toList ∉ roleEntries role) :
    ¬ IsHeld (world role).db "acme" "a_b" := by
  rintro ⟨text, htext, hmem⟩
  obtain rfl : text = role := by simpa [roleLists, world] using htext
  exact h hmem

/-- The role `a-b` of a member keeps the role `a_b`, which nobody holds, from being deleted. -/
theorem resembling_role_blocks :
    ¬ DeletesExactly "acme" "a_b" 0 audit (world "a-b")
      ((deleteOrganizationRole "acme" "a_b" 0 audit).execute still 0 (world "a-b")) := by
  intro hexactly
  have heq := hexactly.2 (not_isHeld (by decide))
  have hkept : ((deleteOrganizationRole "acme" "a_b" 0 audit).execute still 0 (world "a-b")).1 =
      .ok .assigned := by decide +kernel
  rw [heq] at hkept
  cases hkept

/-- The role `support` of a member does not. -/
theorem other_role_allows :
    (∀ n s, still.elapse n s = s) ∧ HasRole (world "support").db "acme" "a_b" 0 ∧
      DeletesExactly "acme" "a_b" 0 audit (world "support")
        ((deleteOrganizationRole "acme" "a_b" 0 audit).execute still 0 (world "support")) := by
  refine ⟨fun _ _ => rfl, world_hasRole _, ?_⟩
  apply (deletes_role_exactly_iff "acme" "a_b" 0 audit (world "support") still (fun _ _ => rfl)
    (world_hasRole _)).mpr
  right
  rw [isResembled_iff]
  decide

end RoleDeletionExample

end Realmroot
