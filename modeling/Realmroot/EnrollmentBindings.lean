import Realmroot.Library.CallLogs
import Realmroot.MembershipFrames
import Realmroot.RecoveredIdentities
import Realmroot.RefreshStore
import Realmroot.SecretRotations
import Realmroot.Usecases.Memberships

/-!
# Enrollment binds each agent once

Agents of the protocol are bound to identities by logins, by approvals of enrollments and with
new installations. Identities are made inactive, recovered and deleted, and accounts are erased.
The status of an intent and the availability of its agent are read before the batch that binds
the agent; what makes the batch safe are the indexes and triggers of the tables.
-/

namespace Realmroot

open AtomicProgram Program Pool

/-! ## Rows -/

/-- A binding stays that of its agent to its identity, and is not made active again. -/
structure AgentIdentityBinding.LivesOn (row row' : AgentIdentityBinding) : Prop where
  id : row'.id = row.id
  identity : row'.agentIdentityId = row.agentIdentityId
  revoked : row.status ≠ "active" → row'.status ≠ "active"

/-- An identity keeps its subject and its owner, the username that it has got, and the time of
its deletion. -/
structure AgentIdentity.LivesOn (row row' : AgentIdentity) : Prop where
  issuer : row'.issuer = row.issuer
  subject : row'.subject = row.subject
  owner : row'.ownerUserId = row.ownerUserId
  username : row.username.isSome = true → row'.username = row.username
  deleted : row.deletedAt.isSome = true → row'.deletedAt = row.deletedAt

theorem AgentIdentityBinding.LivesOn.refl (row : AgentIdentityBinding) : row.LivesOn row :=
  ⟨rfl, rfl, fun h => h⟩

theorem AgentIdentityBinding.LivesOn.trans (row row' row'' : AgentIdentityBinding)
    (h : row.LivesOn row') (h' : row'.LivesOn row'') : row.LivesOn row'' :=
  ⟨h'.id.trans h.id, h'.identity.trans h.identity, fun hrow => h'.revoked (h.revoked hrow)⟩

theorem AgentIdentity.LivesOn.refl (row : AgentIdentity) : row.LivesOn row :=
  ⟨rfl, rfl, rfl, fun _ => rfl, fun _ => rfl⟩

theorem AgentIdentity.LivesOn.trans (row row' row'' : AgentIdentity)
    (h : row.LivesOn row') (h' : row'.LivesOn row'') : row.LivesOn row'' := by
  refine ⟨h'.issuer.trans h.issuer, h'.subject.trans h.subject, h'.owner.trans h.owner, ?_, ?_⟩
  · intro hrow
    have hsame := h.username hrow
    exact (h'.username (hsame ▸ hrow)).trans hsame
  · intro hrow
    have hsame := h.deleted hrow
    exact (h'.deleted (hsame ▸ hrow)).trans hsame

namespace Database

/-! ## Tables -/

/-- The identity is there, and is not deleted. -/
def IsLiveIdentity (id : String) (db : Database) : Prop :=
  ∃ row ∈ db.agentIdentities, row.id = id ∧ row.deletedAt = none

/-- Each agent is bound at most once, and an active binding is one to an identity that is not
deleted. -/
structure Bound (db : Database) : Prop where
  identities : Table.Keyed (·.id) db.agentIdentities
  agents : Table.Keyed (·.protocolAgentId) db.agentIdentityBindings
  active : ∀ row ∈ db.agentIdentityBindings, row.status = "active" →
    db.IsLiveIdentity row.agentIdentityId

/-- Every binding and every identity lives on. -/
structure KeepsBindings (db db' : Database) : Prop where
  identities : Table.Evolves (·.id) AgentIdentity.LivesOn db.agentIdentities db'.agentIdentities
  bindings : Table.Evolves (·.protocolAgentId) AgentIdentityBinding.LivesOn
    db.agentIdentityBindings db'.agentIdentityBindings

theorem KeepsBindings.refl (db : Database) : db.KeepsBindings db :=
  ⟨Table.Evolves.refl AgentIdentity.LivesOn.refl,
    Table.Evolves.refl AgentIdentityBinding.LivesOn.refl⟩

theorem KeepsBindings.trans {db db' db'' : Database} (h : db.KeepsBindings db')
    (h' : db'.KeepsBindings db'') : db.KeepsBindings db'' :=
  ⟨h.identities.trans AgentIdentity.LivesOn.trans h'.identities,
    h.bindings.trans AgentIdentityBinding.LivesOn.trans h'.bindings⟩

/-- The tables of identities and bindings are as they were. -/
def SameBindings (db db' : Database) : Prop :=
  db'.agentIdentities = db.agentIdentities ∧
    db'.agentIdentityBindings = db.agentIdentityBindings

/-- What one command can make of the two tables. -/
inductive IdentityChange (db db' : Database) : Prop where
  | none (same : SameBindings db db')
  /-- An agent is bound, to a new identity or to one that is there. -/
  | enroll (identity : Option AgentIdentity) (binding : AgentIdentityBinding)
      (identities : db'.agentIdentities = db.agentIdentities ++ identity.toList)
      (bindings : db'.agentIdentityBindings = db.agentIdentityBindings ++ [binding])
      (freshIdentity : ∀ row ∈ identity, ∀ old ∈ db.agentIdentities, old.id ≠ row.id)
      (freshAgent : ∀ old ∈ db.agentIdentityBindings,
        old.protocolAgentId ≠ binding.protocolAgentId)
      (live : binding.status = "active" → db'.IsLiveIdentity binding.agentIdentityId)
  /-- Identities change, and bindings are revoked: all those of an identity that is deleted. -/
  | update (p : AgentIdentity → Bool) (f : AgentIdentity → AgentIdentity)
      (q : AgentIdentityBinding → Bool) (now : Time)
      (identities : db'.agentIdentities = Table.updateWhere p f db.agentIdentities)
      (bindings : db'.agentIdentityBindings = Table.updateWhere q
        (fun row => { row with status := "revoked", revokedAt := some now, updatedAt := now })
        db.agentIdentityBindings)
      (sameId : ∀ row, (f row).id = row.id)
      (livesOn : ∀ row, p row = true → row.LivesOn (f row))
      (retired : ∀ row, p row = true → row.deletedAt = Option.none → (f row).deletedAt ≠ Option.none →
        row ∈ db.agentIdentities → ∀ binding ∈ db.agentIdentityBindings,
          binding.status = "active" → binding.agentIdentityId = row.id → q binding = true)

namespace IdentityChange

variable {db db' : Database}

theorem keepsBindings (h : IdentityChange db db') : db.KeepsBindings db' := by
  cases h with
  | none same =>
    obtain ⟨hidentities, hbindings⟩ := same
    constructor
    · rw [hidentities]
      exact Table.Evolves.refl AgentIdentity.LivesOn.refl
    · rw [hbindings]
      exact Table.Evolves.refl AgentIdentityBinding.LivesOn.refl
  | enroll identity binding identities bindings freshIdentity freshAgent live =>
    constructor
    · rw [identities]
      exact Table.Evolves.append AgentIdentity.LivesOn.refl _
    · rw [bindings]
      exact Table.Evolves.append AgentIdentityBinding.LivesOn.refl _
  | update p f q now identities bindings sameId livesOn retired =>
    constructor
    · rw [identities]
      exact Table.Evolves.updateWhere AgentIdentity.LivesOn.refl sameId livesOn
    · rw [bindings]
      refine Table.Evolves.updateWhere AgentIdentityBinding.LivesOn.refl ?_ ?_
      · exact fun _ => rfl
      · exact fun _ _ => ⟨rfl, rfl, fun _ => by simp⟩

theorem bound (h : IdentityChange db db') (hbound : db.Bound) : db'.Bound := by
  cases h with
  | none same =>
    obtain ⟨hidentities, hbindings⟩ := same
    constructor
    · exact hidentities ▸ hbound.identities
    · exact hbindings ▸ hbound.agents
    · intro row hrow hactive
      obtain ⟨identity, hidentity, hlive⟩ := hbound.active row (hbindings ▸ hrow) hactive
      exact ⟨identity, hidentities ▸ hidentity, hlive⟩
  | enroll identity binding identities bindings freshIdentity freshAgent live =>
    constructor
    · rw [identities]
      cases identity with
      | none => simpa using hbound.identities
      | some row => exact hbound.identities.append_singleton (freshIdentity row rfl)
    · rw [bindings]
      exact hbound.agents.append_singleton freshAgent
    · intro row hrow hactive
      rw [bindings, List.mem_append, List.mem_singleton] at hrow
      rcases hrow with hold | rfl
      · obtain ⟨old, hmem, hlive⟩ := hbound.active row hold hactive
        exact ⟨old, identities ▸ List.mem_append_left _ hmem, hlive⟩
      · exact live hactive
  | update p f q now identities bindings sameId livesOn retired =>
    constructor
    · rw [identities]
      exact hbound.identities.updateWhere sameId
    · rw [bindings]
      exact hbound.agents.updateWhere fun _ => rfl
    · intro row hrow hactive
      rw [bindings] at hrow
      obtain ⟨old, hold, rfl⟩ := Table.mem_updateWhere.mp hrow
      split_ifs at hactive ⊢ with hq
      · simp at hactive
      · obtain ⟨identity, hidentity, hid, hlive⟩ := hbound.active old hold hactive
        unfold IsLiveIdentity
        rw [identities]
        cases hp : p identity with
        | false => exact ⟨identity, Table.mem_updateWhere_of_not hidentity hp, hid, hlive⟩
        | true =>
          refine ⟨f identity, Table.mem_updateWhere_of_pos hidentity hp, (sameId _).trans hid, ?_⟩
          by_contra hdeleted
          exact hq (retired identity hp hlive hdeleted hidentity old hold hactive hid.symm)

/-- Identities change, and none is deleted. -/
theorem of_update {p : AgentIdentity → Bool} {f : AgentIdentity → AgentIdentity}
    (hidentities : db'.agentIdentities = Table.updateWhere p f db.agentIdentities)
    (hbindings : db'.agentIdentityBindings = db.agentIdentityBindings)
    (hid : ∀ row, (f row).id = row.id) (hlivesOn : ∀ row, p row = true → row.LivesOn (f row))
    (hkept : ∀ row, (f row).deletedAt = row.deletedAt) : IdentityChange db db' := by
  refine .update p f (fun _ => false) 0 hidentities ?_ hid hlivesOn ?_
  · rw [hbindings, Table.updateWhere_eq_self (by simp)]
  · intro row _ hlive hdeleted
    exact absurd ((hkept row).trans hlive) hdeleted

/-- The identity that a binding is inserted for is live. -/
theorem live_of_insertBinding {binding : AgentIdentityBinding} {inserted : Database}
    (hok : insertBinding binding db = .ok ((), inserted)) (hactive : binding.status = "active") :
    db.IsLiveIdentity binding.agentIdentityId := by
  obtain ⟨hlive, -, -, ⟨identity, hidentity, hid⟩, -⟩ := insertBinding_ok hok
  refine ⟨identity, hidentity, hid, ?_⟩
  have hnone := List.any_eq_false.mp (hlive hactive) identity hidentity
  simpa [hid] using hnone

end IdentityChange

/-! ## Erasures -/

/-- The batch of an erasure revokes the bindings of the identities that it deletes. -/
theorem eraseAccount_change {userId : String} {now : Time} {db db' : Database}
    (h : eraseAccount userId now db = .ok ((), db')) : IdentityChange db db' := by
  obtain ⟨⟨⟨⟩, db₁⟩, hcleanup, h⟩ := Statement.bind_ok h
  obtain ⟨⟨⟨⟩, db₂⟩, hidentities, h⟩ := Statement.bind_ok h
  obtain ⟨⟨⟨⟩, db₃⟩, hconnections, h⟩ := Statement.bind_ok h
  obtain ⟨-, _, rfl⟩ := enqueueCleanup_ok hcleanup
  unfold retireIdentities at hidentities
  dsimp only at hidentities
  split_ifs at hidentities
  cases hidentities
  obtain ⟨_, rfl⟩ := retireConnections_ok hconnections
  cases h
  refine .update _ _ _ now rfl rfl (fun _ => rfl) ?_ ?_
  · intro row _
    refine ⟨rfl, rfl, rfl, fun _ => rfl, fun hdeleted => ?_⟩
    obtain ⟨time, htime⟩ := Option.isSome_iff_exists.mp hdeleted
    simp [htime]
  · intro row howned _ _ hrow binding _ _ hbinding
    rw [List.contains_iff_mem]
    exact List.mem_map.mpr ⟨row, List.mem_filter.mpr ⟨hrow, howned⟩, hbinding.symm⟩

end Database

/-! ## Commands -/

open Database

theorem IdentityCommand.change_after (command : IdentityCommand) (db : Database) :
    IdentityChange db (command.after db) := by
  unfold IdentityCommand.after
  apply Statement.after_keeps (p := IdentityChange db) (.none ⟨rfl, rfl⟩)
  intro answer db' hok
  cases command with
  | checkInstallation =>
    cases hok
    exact .none ⟨rfl, rfl⟩
  | createIdentity identity binding =>
    obtain ⟨hidentity, hbinding⟩ := createIdentity_ok hok
    have hlive := IdentityChange.live_of_insertBinding hbinding
    obtain ⟨-, -, hagent, -, _, rfl⟩ := insertBinding_ok hbinding
    refine .enroll (some identity) _ rfl rfl ?_ hagent hlive
    rintro row ⟨⟩
    exact (insertAgentIdentity_ok hidentity).1
  | createAgentWithInstallation input =>
    obtain ⟨⟨_, hidentity⟩, ⟨_, hbinding⟩, -, _, rfl⟩ := createAgentWithInstallation_ok hok
    have hlive := IdentityChange.live_of_insertBinding hbinding
    refine .enroll (some input.identity) _ rfl rfl ?_ (insertBinding_ok hbinding).2.2.1 hlive
    rintro row ⟨⟩
    exact (insertAgentIdentity_ok hidentity).1
  | reserveApplicationCreation reservation =>
    obtain ⟨-, rfl⟩ := insertApplicationCreation_ok hok
    exact .none ⟨rfl, rfl⟩
  | claimIdentityProfile id input =>
    obtain ⟨-, rfl⟩ := claimIdentityProfile_ok hok
    refine IdentityChange.of_update rfl rfl (fun _ => rfl) ?_ fun _ => rfl
    intro row hunclaimed
    simp only [isUnclaimed, Bool.and_eq_true] at hunclaimed
    refine ⟨rfl, rfl, rfl, fun hclaimed => ?_, fun _ => rfl⟩
    simp [Option.isNone_iff_eq_none.mp hunclaimed.1.2] at hclaimed
  | createIntent row =>
    simp only [IdentityCommand.statement, insertEnrollmentIntent] at hok
    split_ifs at hok
    · cases hok
      exact .none ⟨rfl, rfl⟩
    · cases hok
      exact .none ⟨rfl, rfl⟩
  | approveIntent input =>
    obtain ⟨hidentity, ⟨_, hbinding⟩, _, _, rfl⟩ := approveIntent_ok hok
    have hlive := IdentityChange.live_of_insertBinding hbinding
    have hagent := (insertBinding_ok hbinding).2.2.1
    cases hnew : input.identity with
    | none =>
      rw [hnew] at hagent hlive
      exact .enroll none _ (by simp [withIdentity]) rfl (by simp) hagent hlive
    | some identity =>
      rw [hnew] at hidentity hagent hlive
      refine .enroll (some identity) _ rfl rfl ?_ hagent hlive
      rintro row ⟨⟩
      exact (insertAgentIdentity_ok hidentity).1
  | revokeProtocolAgents id protocolAgentIds now =>
    obtain rfl := revokeProtocolAgents_ok hok
    refine .update (fun _ => false) (fun row => row) _ now ?_ rfl (fun _ => rfl) ?_ ?_
    · exact (Table.updateWhere_eq_self fun _ _ _ => rfl).symm
    · exact fun row _ => AgentIdentity.LivesOn.refl row
    · exact fun row h => absurd h (by simp)
  | deactivateIdentity id revoked now =>
    obtain ⟨⟨_, db₁⟩, hidentity, hok⟩ := Statement.bind_ok hok
    obtain ⟨-, -, rfl⟩ := updateIdentitiesWhere_ok hidentity
    cases revoked with
    | none =>
      cases hok
      exact IdentityChange.of_update rfl rfl (fun _ => rfl)
        (fun _ _ => ⟨rfl, rfl, rfl, fun _ => rfl, fun _ => rfl⟩) fun _ => rfl
    | some protocolAgentIds =>
      obtain rfl := revokeProtocolAgents_ok hok
      refine .update _ _ _ now rfl rfl (fun _ => rfl) ?_ ?_
      · exact fun _ _ => ⟨rfl, rfl, rfl, fun _ => rfl, fun _ => rfl⟩
      · exact fun row _ hlive hdeleted => absurd hlive hdeleted
  | activateIdentity id now =>
    obtain ⟨-, -, rfl⟩ := updateIdentitiesWhere_ok hok
    exact IdentityChange.of_update rfl rfl (fun _ => rfl)
      (fun _ _ => ⟨rfl, rfl, rfl, fun _ => rfl, fun _ => rfl⟩) fun _ => rfl
  | deleteIdentity id protocolAgentIds now =>
    obtain ⟨⟨_, db₁⟩, hidentity, hok⟩ := Statement.bind_ok hok
    obtain ⟨-, -, rfl⟩ := updateIdentitiesWhere_ok hidentity
    obtain rfl := revokeProtocolAgents_ok hok
    refine .update _ _ _ now rfl rfl (fun _ => rfl) ?_ ?_
    · intro row hselected
      simp only [Bool.and_eq_true, Option.isNone_iff_eq_none] at hselected
      refine ⟨rfl, rfl, rfl, fun _ => rfl, fun hdeleted => ?_⟩
      simp [hselected.2] at hdeleted
    · intro row hselected _ _ _ binding _ hactive hbinding
      simp only [Bool.and_eq_true, decide_eq_true_eq] at hselected ⊢
      exact ⟨hbinding.trans hselected.1, hactive⟩
  | appendAudit event =>
    obtain rfl := insertAuditEvent_ok hok
    exact .none ⟨rfl, rfl⟩

theorem MembershipCommand.change_after (command : MembershipCommand) (db : Database) :
    IdentityChange db (command.after db) := by
  unfold MembershipCommand.after
  apply Statement.after_keeps (p := IdentityChange db) (.none ⟨rfl, rfl⟩)
  intro answer db' hok
  cases command with
  | createOrganization row owner =>
    obtain ⟨-, -, -, rfl⟩ := createOrganization_ok hok
    exact .none ⟨rfl, rfl⟩
  | addMember row =>
    obtain ⟨-, -, -, rfl⟩ := insertMember_ok hok
    exact .none ⟨rfl, rfl⟩
  | replaceMemberRoles organizationId memberId roles expectedUpdatedAt audit =>
    obtain ⟨-, -, -, rfl⟩ := replaceMemberRoles_ok hok
    exact .none ⟨rfl, rfl⟩
  | removeMember organizationId memberId expectedUpdatedAt audit now =>
    obtain ⟨-, -, -, -, -, -, rfl⟩ := removeMember_ok hok
    exact .none ⟨rfl, rfl⟩
  | eraseAccount userId now => exact eraseAccount_change hok

/-- The tokens of an exchange are no identities. -/
theorem rotateRefreshToken_same {input : RotateRefreshTokenInput} {now : Time} {rotated : Bool}
    {db db' : Database} (h : Database.rotateRefreshToken input now db = .ok (rotated, db')) :
    SameBindings db db' := by
  obtain ⟨_, withChild, _, hchild, haccess, -⟩ := rotateRefreshToken_ok h
  have hsame : SameBindings db withChild := by
    rcases insertChild_ok hchild with ⟨-, rfl, -⟩ | ⟨-, -, -, -, rfl⟩ <;> exact ⟨rfl, rfl⟩
  rcases insertChildAccessToken_ok haccess with ⟨-, rfl, -⟩ | ⟨-, rfl⟩ <;> exact hsame

/-- Whatever a command is, it changes the tables of identities and bindings in one of the ways
above. -/
theorem identityChange_exec (command : Command) (w : World) :
    IdentityChange w.db (exec command w).db := by
  have hsame : ∀ {α : Type} (statement : Statement α),
      (∀ a db', statement w.db = .ok (a, db') → SameBindings w.db db') →
      IdentityChange w.db (statement.after w.db) := by
    intro α statement h
    exact Statement.after_keeps (.none ⟨rfl, rfl⟩) fun a db' hok => .none (h a db' hok)
  cases command with
  | read => exact .none ⟨rfl, rfl⟩
  | generateId => exact .none ⟨rfl, rfl⟩
  | deleteAsset key => exact .none ⟨rfl, rfl⟩
  | send request => exact .none ⟨rfl, rfl⟩
  | storeAccessToken row =>
    apply hsame
    rintro ⟨⟩ db' hok
    rw [insertAccessToken_ok hok]
    exact ⟨rfl, rfl⟩
  | insertRefreshToken row =>
    apply hsame
    rintro ⟨⟩ db' hok
    rw [(insertRefreshToken_ok hok).2.2]
    exact ⟨rfl, rfl⟩
  | revokeRefreshToken id now => exact .none ⟨rfl, rfl⟩
  | rotateRefreshToken input now => exact hsame _ fun _ _ => rotateRefreshToken_same
  | revokeRefreshTokenFamily familyId now => exact .none ⟨rfl, rfl⟩
  | access command =>
    have hframe := @AccessCommand.after_same command w.db .identities
      (by cases command <;> simp [AccessCommand.writes])
    exact .none hframe.2.2.2.2.2
  | membership command => exact command.change_after w.db
  | connector command => exact .none (by rw [SameBindings]; simp [exec, command.after_eq])
  | consent command =>
    obtain ⟨_, _, hafter⟩ := command.after_eq w.db
    exact .none (by simp [SameBindings, exec, hafter])
  | role command =>
    obtain ⟨_, _, _, hafter⟩ := command.after_eq w.db
    exact .none (by simp [SameBindings, exec, hafter])
  | application command =>
    obtain ⟨_, _, hafter⟩ := command.after_eq w.db
    exact .none (by simp [SameBindings, exec, hafter])
  | identity command => exact command.change_after w.db
  | consumeJti row =>
    obtain ⟨_, hafter⟩ := insertJti_after row w.db
    exact .none (by simp [SameBindings, exec, commit, hafter])
  | createPasswordResetRequest row =>
    obtain ⟨_, hafter⟩ := insertPasswordResetRequest_after row w.db
    exact .none (by simp [SameBindings, exec, commit, hafter])
  | agentApproval command =>
    obtain ⟨_, _, _, _, _, hafter⟩ := command.after_eq w.db
    exact .none (by simp [SameBindings, exec, hafter])
  | webhook command =>
    obtain ⟨_, _, _, hafter⟩ := command.after_eq w.db
    exact .none (by simp [SameBindings, exec, hafter])
  | cleanup command =>
    obtain ⟨_, _, _, hafter⟩ := command.after_eq w.db
    exact .none (by simp [SameBindings, exec, hafter])
  | rotateSecret rotation =>
    obtain ⟨_, _, hafter⟩ := rotateSecret_after rotation w.db
    exact .none (by simp [SameBindings, exec, commit, hafter])
  | settings command =>
    obtain ⟨_, hafter⟩ := command.after_eq w.db
    exact .none (by simp [SameBindings, exec, hafter])

/-! ## The agents that a command binds -/

namespace Command

/-- The agents that are bound after the command and are not before it. -/
def boundAgents (command : Command) (w : World) : List String :=
  ((exec command w).db.agentIdentityBindings.map (·.protocolAgentId)).filter fun agent =>
    !w.db.agentIdentityBindings.any fun old => old.protocolAgentId = agent

variable {command : Command} {w : World} {agent : String}

theorem mem_boundAgents : agent ∈ command.boundAgents w ↔
    (∃ row ∈ (exec command w).db.agentIdentityBindings, row.protocolAgentId = agent) ∧
      ∀ old ∈ w.db.agentIdentityBindings, old.protocolAgentId ≠ agent := by
  simp [boundAgents]

theorem boundAgents_nodup (hbound : w.db.Bound) : (command.boundAgents w).Nodup :=
  ((identityChange_exec command w).bound hbound).agents.filter _

/-- What a command leaves bound, no later command binds. -/
theorem boundAgents_disjoint {later : Command} {w' : World}
    (h : (exec command w).db.KeepsBindings w'.db) :
    List.Disjoint (command.boundAgents w) (later.boundAgents w') := by
  intro agent hfirst hsecond
  obtain ⟨⟨row, hrow, hagent⟩, -⟩ := mem_boundAgents.mp hfirst
  obtain ⟨row', hrow', hkey, -⟩ := h.bindings row hrow
  exact (mem_boundAgents.mp hsecond).2 row' hrow' (hkey.trans hagent)

theorem boundAgents_of_same (h : (exec command w).db.agentIdentityBindings =
    w.db.agentIdentityBindings) : command.boundAgents w = [] := by
  rw [List.eq_nil_iff_forall_not_mem]
  intro agent hagent
  obtain ⟨⟨row, hrow, rfl⟩, hnew⟩ := mem_boundAgents.mp hagent
  exact hnew row (h ▸ hrow) rfl

/-- The command changes no identity, no binding and no intent. -/
def SparesEnrollments (command : Command) (w : World) : Prop :=
  SameBindings w.db (exec command w).db ∧
    (exec command w).db.agentEnrollmentIntents = w.db.agentEnrollmentIntents

theorem SparesEnrollments.boundAgents (h : command.SparesEnrollments w) :
    command.boundAgents w = [] :=
  boundAgents_of_same h.1.2

/-- Whatever the state, the command spares the enrollments. -/
def Quiet (command : Command) : Prop := ∀ w, command.SparesEnrollments w

theorem quiet_read : Command.read.Quiet := fun _ => ⟨⟨rfl, rfl⟩, rfl⟩

theorem quiet_generateId : Command.generateId.Quiet := fun _ => ⟨⟨rfl, rfl⟩, rfl⟩

theorem quiet_appendAudit (event : AgentAuditEvent) :
    (Command.identity (.appendAudit event)).Quiet := fun _ => ⟨⟨rfl, rfl⟩, rfl⟩

theorem spares_of_refused {input : EnrollmentApproval} {e : Error}
    (h : approveIntent input w.db = .error e) :
    (Command.identity (.approveIntent input)).SparesEnrollments w := by
  have hsame : (exec (Command.identity (.approveIntent input)) w).db = w.db :=
    Statement.after_of_error h
  rw [SparesEnrollments, hsame]
  exact ⟨⟨rfl, rfl⟩, rfl⟩

/-- The batch of an approval binds its agent. -/
theorem boundAgents_approveIntent {input : EnrollmentApproval} {u : Unit} {db' : Database}
    (h : approveIntent input w.db = .ok (u, db')) :
    (Command.identity (.approveIntent input)).boundAgents w =
      [input.binding.protocolAgentId] := by
  have hafter : (exec (Command.identity (.approveIntent input)) w).db = db' :=
    Statement.after_of_ok h
  obtain ⟨-, ⟨_, hbinding⟩, hostId, _, hdb⟩ := approveIntent_ok h
  have hnew := (insertBinding_ok hbinding).2.2.1
  have hsame : (w.db.withIdentity input.identity).agentIdentityBindings =
      w.db.agentIdentityBindings := by
    cases input.identity <;> rfl
  rw [hsame] at hnew
  have hfree : (w.db.agentIdentityBindings.any fun old =>
      old.protocolAgentId = input.binding.protocolAgentId) = false := by
    simpa using hnew
  have hold : (w.db.agentIdentityBindings.map (·.protocolAgentId)).filter (fun agent =>
      !w.db.agentIdentityBindings.any fun old => old.protocolAgentId = agent) = [] := by
    rw [List.filter_eq_nil_iff]
    intro agent hagent
    obtain ⟨row, hrow, rfl⟩ := List.mem_map.mp hagent
    simp only [Bool.not_eq_true, Bool.not_eq_false', List.any_eq_true, decide_eq_true_eq]
    exact ⟨row, hrow, rfl⟩
  rw [boundAgents, hafter, hdb]
  simp only [List.map_append, List.map_cons, List.map_nil, List.filter_append, hold,
    List.nil_append, List.filter_cons, hfree, List.filter_nil]
  rfl

end Command

/-! ## The system -/

inductive EnrollmentRequest where
  | login (protocolAgentId : String) (input : AgentProfile) (issuer controllerUserId : String)
  | approve (intentId issuer actorUserId : String)
  | install (input : CreateAgent) (context : CreationContext)
  | delete (identityId actorUserId : String)
  | erase (userId : String)
  /-- Whatever else is done with the statements of the repositories. -/
  | other (program : Request Unit)

def EnrollmentRequest.program [Platform] : EnrollmentRequest → Request Unit
  | login protocolAgentId input issuer controllerUserId =>
    (createAgentLoginIdentity protocolAgentId input issuer controllerUserId).discard
  | approve intentId issuer actorUserId =>
    (approveAgentEnrollment intentId issuer actorUserId).discard
  | install input context => (createAgentWithInstallation input context).discard
  | delete identityId actorUserId => deleteAgentIdentity identityId actorUserId
  | erase userId => deleteAccount userId
  | other program => program

def enrollmentSystem [Platform] :
    System Command World Reply Error Unit EnrollmentRequest RecoveryEvent where
  program := EnrollmentRequest.program
  environment := recoverySystem.environment

abbrev EnrollmentAction := Action Reply EnrollmentRequest RecoveryEvent

/-! ## Approvals -/

/-- The agents that the commands of a call bind. -/
def boundBy (log : List (Command × World)) : List String :=
  log.flatMap fun entry => entry.1.boundAgents entry.2

/-- The agent of the intent that an approval reads first. -/
def intentAgent (intentId : String) (log : List (Command × World)) : Option String :=
  log.head?.bind fun entry => (entry.2.db.findIntent intentId).map (·.protocolAgentId)

/-- The commands of the call change no identity, no binding and no intent. -/
def SparesAll (log : List (Command × World)) : Prop :=
  ∀ entry ∈ log, entry.1.SparesEnrollments entry.2

/-- An approval that returns has bound the agent of its intent, and nothing else; one that fails
has bound that agent, or has changed nothing. -/
def ApprovalBinds (intentId : String) (log : List (Command × World)) :
    Except Error Unit → Prop
  | .ok _ => ∃ agent, intentAgent intentId log = some agent ∧ boundBy log = [agent]
  | .error _ => SparesAll log ∨ ∃ agent, intentAgent intentId log = some agent ∧
      boundBy log = [agent]

section Approvals

variable {α : Type} {post : List (Command × World) → Except Error α → Prop}
  {intentId : String} {log : List (Command × World)} {w : World} {agents : List String}

/-- The log begins with a read in this state, these agents have been bound, and nothing has
changed as long as none has. -/
structure BegunIn (w : World) (agents : List String) (log : List (Command × World)) : Prop where
  head : log.head? = some (.read, w)
  bound : boundBy log = agents
  spares : agents = [] → SparesAll log

theorem BegunIn.append {more : List (Command × World)} (h : BegunIn w agents log)
    (hmore : boundBy more = [] → SparesAll more) :
    BegunIn w (agents ++ boundBy more) (log ++ more) := by
  constructor
  · rw [List.head?_append, h.head, Option.some_or]
  · rw [boundBy, List.flatMap_append, ← boundBy, ← boundBy, h.bound]
  · intro hnone entry hentry
    obtain ⟨hbound, hnone⟩ := List.append_eq_nil_iff.mp hnone
    rcases List.mem_append.mp hentry with hold | hnew
    · exact h.spares hbound entry hold
    · exact hmore hnone entry hnew

theorem SparesAll.boundBy (h : SparesAll log) : boundBy log = [] :=
  List.flatMap_eq_nil_iff.mpr fun entry hentry => (h entry hentry).boundAgents

/-- Commands that change nothing stand in front. -/
theorem BegunIn.bind {β : Type} {p : Request β} {f : β → Request α} (h : BegunIn w agents log)
    (hp : p.Uses Command.Quiet) (hf : ∀ b log, BegunIn w agents log → (f b).Logs post log)
    (herror : ∀ e log, BegunIn w agents log → post log (.error e)) :
    (p.bind f).Logs post log := by
  apply hp.logs_bind
  intro more hmore
  have hspares : SparesAll more := fun entry hentry => hmore entry hentry entry.2
  have hbegun : BegunIn w (agents ++ boundBy more) (log ++ more) := h.append fun _ => hspares
  rw [hspares.boundBy, List.append_nil] at hbegun
  exact ⟨fun b => hf b _ hbegun, fun e => herror e _ hbegun⟩

theorem findIdentityAggregate_quiet (identityId : String) :
    (findIdentityAggregate identityId).Uses Command.Quiet := by
  apply uses_bind (uses_query.mpr Command.quiet_read)
  intro identity
  split
  · apply Uses.bind
    · exact uses_bind (uses_query.mpr Command.quiet_read) fun _ => trivial
    · intro _
      trivial
  · trivial

variable [Platform]

theorem enrolledIdentity_quiet (intent : AgentEnrollmentIntent) (issuer : String) (now : Time) :
    (enrolledIdentity intent issuer now).Uses Command.Quiet := by
  unfold enrolledIdentity
  split
  · apply uses_bind
    · exact uses_bind (findIdentityAggregate_quiet _) fun _ => uses_orThrow
    · intro existing
      exact uses_bind uses_throwIf fun _ => trivial
  · apply uses_bind (uses_generateId.mpr Command.quiet_generateId)
    intro identityId
    exact uses_bind (uses_generateId.mpr Command.quiet_generateId) fun _ => trivial

omit [Platform] in
theorem assertProtocolAgentCanEnroll_quiet (protocolAgentId actorUserId : String) :
    (assertProtocolAgentCanEnroll protocolAgentId actorUserId).Uses Command.Quiet := by
  apply uses_bind (uses_query.mpr Command.quiet_read)
  intro protocolAgent
  apply uses_bind uses_orThrow
  intro _
  exact uses_bind (uses_query.mpr Command.quiet_read) fun _ => uses_throwIf

theorem appendIdentityAudit_quiet (action : String) (found : AgentIdentityAggregate)
    (controllerUserId : Option String) (metadata : Option Record) :
    (appendIdentityAudit action found controllerUserId metadata).Uses Command.Quiet := by
  apply uses_bind (uses_generateId.mpr Command.quiet_generateId)
  intro id
  apply uses_bind (uses_currentTime.mpr Command.quiet_read)
  intro occurredAt
  exact uses_perform.mpr (Command.quiet_appendAudit _)

omit [Platform] in
/-- The write of an approval binds the agent, or it throws and binds nothing. -/
theorem BegunIn.approve {β : Type} {input : EnrollmentApproval} {f : Unit → Request β}
    {post : List (Command × World) → Except Error β → Prop} (h : BegunIn w [] log)
    (hf : ∀ log, BegunIn w [input.binding.protocolAgentId] log → (f ()).Logs post log)
    (herror : ∀ e log, BegunIn w [] log → post log (.error e)) :
    ((identityKeyWrite (.approveIntent input)).bind f).Logs post log := by
  intro t
  beta_reduce
  cases hok : approveIntent input t.db with
  | error e =>
    have hstatement : (IdentityCommand.approveIntent input).statement t.db = .error e := hok
    have hspares : SparesAll [(Command.identity (.approveIntent input), t)] := by
      simpa [SparesAll] using Command.spares_of_refused hok
    have hbegun : BegunIn w ([] ++ boundBy [(Command.identity (.approveIntent input), t)])
        (log ++ [(Command.identity (.approveIntent input), t)]) := h.append fun _ => hspares
    rw [hspares.boundBy] at hbegun
    rw [hstatement]
    exact herror _ _ hbegun
  | ok result =>
    obtain ⟨⟨⟩, db'⟩ := result
    have hstatement : (IdentityCommand.approveIntent input).statement t.db = .ok ((), db') := hok
    have hbound : boundBy [(Command.identity (.approveIntent input), t)] =
        [input.binding.protocolAgentId] := by
      simpa [boundBy] using Command.boundAgents_approveIntent hok
    have hbegun : BegunIn w ([] ++ boundBy [(Command.identity (.approveIntent input), t)])
        (log ++ [(Command.identity (.approveIntent input), t)]) :=
      h.append fun hnone => absurd (hbound.symm.trans hnone) (by simp)
    rw [hbound] at hbegun
    rw [hstatement]
    exact hf _ hbegun

theorem approve_logs (intentId issuer actorUserId : String) :
    (approveAgentEnrollment intentId issuer actorUserId).discard.Logs (ApprovalBinds intentId)
      [] := by
  unfold Program.discard
  rw [Program.logs_bind]
  intro w
  have hbegun : BegunIn w [] [(Command.read, w)] := by
    have hspares : SparesAll [(Command.read, w)] := by
      simpa [SparesAll] using Command.quiet_read w
    exact ⟨rfl, hspares.boundBy, fun _ => hspares⟩
  have herror : ∀ (e : Error) log, BegunIn w [] log →
      thenLogs (fun _ : AgentIdentity => (.pure () : Request Unit)) (ApprovalBinds intentId) log
        (.error e) :=
    fun e log h => Or.inl (h.spares rfl)
  beta_reduce
  cases hfound : w.db.findIntent intentId with
  | none => exact herror _ _ hbegun
  | some intent =>
    change Logs _ [(Command.read, w)] (Program.bind (throwIf _ _) _)
    apply hbegun.bind uses_throwIf _ herror
    intro _ log hbegun
    apply hbegun.bind (uses_currentTime.mpr Command.quiet_read) _ herror
    intro checkedAt log hbegun
    apply hbegun.bind uses_throwIf _ herror
    intro _ log hbegun
    apply hbegun.bind uses_throwIf _ herror
    intro _ log hbegun
    apply hbegun.bind (assertProtocolAgentCanEnroll_quiet _ _) _ herror
    intro _ log hbegun
    apply hbegun.bind (uses_currentTime.mpr Command.quiet_read) _ herror
    intro now log hbegun
    apply hbegun.bind (enrolledIdentity_quiet _ _ _) _ herror
    intro enrolled log hbegun
    apply hbegun.bind (uses_generateId.mpr Command.quiet_generateId) _ herror
    intro bindingId log hbegun
    apply hbegun.approve _ herror
    intro log hbegun
    have hagent : ∀ log, BegunIn w [intent.protocolAgentId] log →
        ∃ agent, intentAgent intentId log = some agent ∧ boundBy log = [agent] := by
      intro log h
      exact ⟨intent.protocolAgentId, by simp [intentAgent, h.head, hfound], h.bound⟩
    have herror' : ∀ (e : Error) log, BegunIn w [intent.protocolAgentId] log →
        thenLogs (fun _ : AgentIdentity => (.pure () : Request Unit)) (ApprovalBinds intentId) log
          (.error e) :=
      fun e log h => Or.inr (hagent log h)
    apply hbegun.bind (findIdentityAggregate_quiet _) _ herror'
    intro persisted log hbegun
    apply hbegun.bind uses_orThrow _ herror'
    intro result log hbegun
    apply hbegun.bind (appendIdentityAudit_quiet _ _ _ _) _ herror'
    intro _ log hbegun
    exact hagent log hbegun

end Approvals

/-! ## Runs -/

section Runs

variable [Platform]

/-- The invariant, and what every step keeps. -/
def bindingSteps : Stepwise Command World Reply EnrollmentRequest where
  issues _ _ := True
  inv w := w.db.Bound
  cond _ _ _ := True
  moves w w' := w.db.KeepsBindings w'.db

theorem bindingSteps_sound : bindingSteps.Sound enrollmentSystem where
  program request := Uses.issues (uses_any (enrollmentSystem.program request))
  refl w := KeepsBindings.refl w.db
  trans h h' := h.trans h'
  exec _ command w _ _ hbound :=
    ⟨(identityChange_exec command w).bound hbound, (identityChange_exec command w).keepsBindings⟩
  environment event w hbound := by
    cases event with
    | elapse milliseconds => exact ⟨hbound, KeepsBindings.refl w.db⟩
    | configure db =>
      have hsame : IdentityChange w.db (keepIdentities w.db db) := .none ⟨rfl, rfl⟩
      exact ⟨hsame.bound hbound, hsame.keepsBindings⟩

variable {w : World} {schedule : List EnrollmentAction}

/-- No agent is bound by two commands. -/
theorem boundBy_commands_nodup (hbound : w.db.Bound) :
    (boundBy ((idle w).commands enrollmentSystem schedule)).Nodup := by
  rw [boundBy, List.nodup_flatMap]
  constructor
  · intro entry hentry
    apply Command.boundAgents_nodup
    exact bindingSteps_sound.commands hbound (fun _ _ _ => trivial) (fun _ _ => trivial) entry
      hentry
  · have hmoves : ((idle w).commands enrollmentSystem schedule).Pairwise fun first second =>
        (exec first.1 first.2).db.KeepsBindings second.2.db :=
      bindingSteps_sound.commands_pairwise hbound (fun _ _ _ => trivial) fun _ _ => trivial
    exact hmoves.imp fun h => Command.boundAgents_disjoint h

/-- No agent is bound by two calls. -/
theorem boundBy_commandsOf_disjoint (hbound : w.db.Bound) {i j : ℕ} (hne : i ≠ j) :
    List.Disjoint (boundBy ((idle w).commandsOf enrollmentSystem i schedule))
      (boundBy ((idle w).commandsOf enrollmentSystem j schedule)) := by
  have hnodup : (boundBy ((idle w).commands enrollmentSystem schedule)).Nodup :=
    boundBy_commands_nodup hbound
  rw [commands_eq_issued schedule [], boundBy, List.flatMap_map, List.nodup_flatMap] at hnodup
  intro agent hi hj
  rw [commandsOf_eq_issued i schedule [], boundBy, List.flatMap_map, List.mem_flatMap] at hi
  rw [commandsOf_eq_issued j schedule [], boundBy, List.flatMap_map, List.mem_flatMap] at hj
  obtain ⟨x, hx, hxagent⟩ := hi
  obtain ⟨y, hy, hyagent⟩ := hj
  obtain ⟨hx, hxi⟩ := List.mem_filter.mp hx
  obtain ⟨hy, hyj⟩ := List.mem_filter.mp hy
  have hxy : x ≠ y := by
    rintro rfl
    exact hne ((decide_eq_true_eq.mp hxi).symm.trans (decide_eq_true_eq.mp hyj))
  have hsymm : Std.Symm fun x y : Issued Command World EnrollmentRequest =>
      List.Disjoint (x.command.boundAgents x.state) (y.command.boundAgents y.state) :=
    ⟨fun _ _ h => h.symm⟩
  exact hnodup.2.forall hx hy hxy hxagent hyagent

/-- In any interleaving of logins, approvals, installations, deletions and erasures, with
whatever else is done by programs over the repositories: each agent is bound at most once in
every state, an active binding is one to an identity that is not deleted, and bindings and
identities live on. No agent is bound by two commands, or by two calls. An approval that returns
has bound the agent of its intent, and one that fails has done that or changed nothing. -/
theorem agents_bound_once (hbound : w.db.Bound) :
    (∀ t ∈ (idle w).states enrollmentSystem schedule, t.db.Bound) ∧
    ((idle w).states enrollmentSystem schedule).Pairwise (fun t u => t.db.KeepsBindings u.db) ∧
    (boundBy ((idle w).commands enrollmentSystem schedule)).Nodup ∧
    (∀ i j, i ≠ j → List.Disjoint (boundBy ((idle w).commandsOf enrollmentSystem i schedule))
      (boundBy ((idle w).commandsOf enrollmentSystem j schedule))) ∧
    ∀ i intentId issuer actorUserId p r,
      ((idle w).run enrollmentSystem schedule).procs[i]? =
          some (.approve intentId issuer actorUserId, p) →
        p.result? = some r →
          ApprovalBinds intentId ((idle w).commandsOf enrollmentSystem i schedule) r := by
  refine ⟨?_, ?_, boundBy_commands_nodup hbound, ?_, ?_⟩
  · exact bindingSteps_sound.states hbound (fun _ _ _ => trivial) fun _ _ => trivial
  · exact bindingSteps_sound.states_pairwise hbound (fun _ _ _ => trivial) fun _ _ => trivial
  · exact fun i j hne => boundBy_commandsOf_disjoint hbound hne
  · intro i intentId issuer actorUserId p r hget hresult
    have hlogs : ∀ request, (enrollmentSystem.program request).Logs
        (fun log r => ∀ intentId issuer actorUserId,
          request = .approve intentId issuer actorUserId → ApprovalBinds intentId log r) [] := by
      intro request
      cases request with
      | approve intentId issuer actorUserId =>
        apply (approve_logs intentId issuer actorUserId).mono
        rintro log r h _ _ _ ⟨⟩
        exact h
      | _ => exact (uses_any _).logs fun _ _ _ _ _ _ heq => by cases heq
    exact logs_of_started hlogs (Nat.zero_le i) schedule hget hresult intentId issuer
      actorUserId rfl

end Runs

/-! ## Two approvals of one agent -/

namespace RacedApprovalsExample

attribute [local instance] samplePlatform

def intent (id key : String) : AgentEnrollmentIntent :=
  { id := id, agentIdentityId := none, requestedName := some "Bot"
    requestedUsername := some id, requestedRuntime := some "node", ownerUserId := "ada"
    protocolAgentId := "agent", idempotencyKey := some key, status := "pending"
    createdByUserId := "ada", approvedByUserId := none, expiresAt := 100, approvedAt := none
    createdAt := 0, updatedAt := 0 }

def start : World :=
  { db :=
      { users := [{ id := "ada", banned := false, deletedAt := none }]
        agents :=
          [{ id := "agent", name := "Bot", userId := some "ada", hostId := "host"
             status := "active", mode := "delegated", publicKey := "", kid := none
             activatedAt := none, createdAt := 0, updatedAt := 0 }]
        agentEnrollmentIntents := [intent "first" "a", intent "second" "b"] }
    clock := 0, nextId := 0 }

/-- Both approvals have made their checks when the first one binds the agent. -/
def raced : List EnrollmentAction :=
  [.start (.approve "first" "issuer" "ada"), .start (.approve "second" "issuer" "ada")] ++
    List.replicate 8 (.advance 0 {}) ++ List.replicate 8 (.advance 1 {}) ++
      List.replicate 8 (.advance 0 {}) ++ List.replicate 8 (.advance 1 {})

/-- The second approval fails, and the agent has one binding. -/
example : (((idle start).run enrollmentSystem raced).procs.map fun entry =>
      (entry.2.result?.map fun r => r.toOption.isSome)) = [some true, some false] ∧
    ((idle start).run enrollmentSystem raced).state.db.agentIdentityBindings.map
      (·.protocolAgentId) = ["agent"] := by
  decide +kernel

theorem raced_approvals_bind_once :
    start.db.Bound ∧ (boundBy ((idle start).commands enrollmentSystem raced)).Nodup := by
  have hbound : start.db.Bound := by
    refine ⟨List.nodup_nil, List.nodup_nil, ?_⟩
    intro row hrow
    cases hrow
  exact ⟨hbound, (agents_bound_once hbound).2.2.1⟩

end RacedApprovalsExample

end Realmroot
