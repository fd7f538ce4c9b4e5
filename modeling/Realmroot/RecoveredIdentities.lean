import Realmroot.ConnectionSystem
import Realmroot.Library.Chronicle
import Realmroot.Usecases.AgentRecovery

/-!
# Recovered identities

A recovery revokes the bindings of an identity and makes the identity inactive, in one batch.
Activations, deactivations, revocations of hosts and enrollments go on beside it. An activation
reads the active bindings in one statement and makes the identity active in another, whose
condition is not on the bindings.
-/

namespace Realmroot

open AtomicProgram Program Pool

/-! ## The system -/

inductive RecoveryRequest where
  | recover (identityId actorUserId : String)
  | activate (identityId actorUserId : String)
  | deactivate (identityId actorUserId : String)
  | revokeHost (identityId protocolAgentId actorUserId : String)
  /-- An enrollment is approved, which binds an agent. -/
  | enroll (intentId issuer actorUserId : String)
  deriving DecidableEq

def RecoveryRequest.program [Platform] : RecoveryRequest → Request Unit
  | recover identityId actorUserId => recoverAgentIdentity identityId actorUserId
  | activate identityId actorUserId => activateAgentIdentity identityId actorUserId
  | deactivate identityId actorUserId => deactivateAgentIdentity identityId actorUserId
  | revokeHost identityId protocolAgentId actorUserId =>
    revokeAgentIdentityHost identityId protocolAgentId actorUserId
  | enroll intentId issuer actorUserId =>
    (approveAgentEnrollment intentId issuer actorUserId).discard

inductive RecoveryEvent where
  | elapse (milliseconds : ℕ)
  /-- The tables other than those of identities and bindings change in any way. -/
  | configure (db : Database)

/-- The tables that `configure` keeps. -/
def keepIdentities (kept db : Database) : Database :=
  { db with
    agentIdentities := kept.agentIdentities, agentIdentityBindings := kept.agentIdentityBindings }

def recoverySystem [Platform] :
    System Command World Reply Error Unit RecoveryRequest RecoveryEvent where
  program := RecoveryRequest.program
  environment
    | .elapse milliseconds, w => { w with clock := w.clock + milliseconds }
    | .configure db, w => { w with db := keepIdentities w.db db }

abbrev RecoveryAction := Action Reply RecoveryRequest RecoveryEvent

/-! ## What a recovery is -/

/-- An activation makes this row active. -/
def AgentIdentity.isActivatable (identityId : String) (row : AgentIdentity) : Bool :=
  row.id = identityId && row.status = .inactive && row.deletedAt.isNone

namespace Command

variable (identityId : String) (w : World)

/-- The command is the batch of a recovery, and commits. -/
def recovers : Command → Bool
  | .identity (.deactivateIdentity id (some revoked) now) =>
    id = identityId && (w.db.agentIdentities.any fun row => row.id = identityId) &&
      (Database.deactivateIdentity id (some revoked) now w.db).toOption.isSome
  | _ => false

/-- The command creates a binding of the identity. -/
def binds (command : Command) : Bool :=
  (exec command w).db.agentIdentityBindings.any fun row =>
    row.agentIdentityId = identityId &&
      !w.db.agentIdentityBindings.any fun old => old.id = row.id

/-- The command is the write of an activation, and finds the identity inactive, not deleted and
of a live account. -/
def activates : Command → Bool
  | .identity (.activateIdentity id _) =>
    id = identityId && w.db.agentIdentities.any (·.isActivatable identityId) &&
      !w.db.agentIdentities.any fun row =>
        row.isActivatable identityId && w.db.isDeletedUser row.ownerUserId
  | _ => false

end Command

/-- Whether the identity has been recovered, and not been bound since. -/
def enterRecovery (identityId : String) (recovered : Bool) (command : Command) (w : World) :
    Bool :=
  command.recovers identityId w || (recovered && !command.binds identityId w)

/-- The identity needs a new installation, and is not active without it. -/
def StaysInactive (identityId : String) (recovered : Bool) (w : World) : Prop :=
  recovered = true → ∀ row ∈ w.db.agentIdentities, row.id = identityId → row.status ≠ .active

instance (identityId : String) (recovered : Bool) (w : World) :
    Decidable (StaysInactive identityId recovered w) :=
  inferInstanceAs (Decidable (recovered = true → _))

/-- A recovered identity is made active. -/
def ActivatesRecovered (identityId : String) (recovered : Bool) (command : Command) (w : World) :
    Prop :=
  recovered = true ∧ command.activates identityId w = true

/-! ## What commands on identities do -/

namespace Database

/-- The identity is there, and is not active. -/
structure Dormant (identityId : String) (db : Database) : Prop where
  there : ∃ row ∈ db.agentIdentities, row.id = identityId
  inactive : ∀ row ∈ db.agentIdentities, row.id = identityId → row.status ≠ .active

/-- The identity has no active binding. -/
def Unbound (identityId : String) (db : Database) : Prop :=
  ∀ row ∈ db.agentIdentityBindings, row.agentIdentityId = identityId → row.status ≠ "active"

variable {identityId : String} {db db' : Database}

theorem Dormant.congr (h : Dormant identityId db)
    (hsame : db'.agentIdentities = db.agentIdentities) : Dormant identityId db' :=
  ⟨hsame ▸ h.there, hsame ▸ h.inactive⟩

/-- An update of identities that makes none active. -/
theorem Dormant.update (h : Dormant identityId db) {p : AgentIdentity → Bool}
    {f : AgentIdentity → AgentIdentity}
    (hrows : db'.agentIdentities = Table.updateWhere p f db.agentIdentities)
    (hid : ∀ row, (f row).id = row.id)
    (hstatus : ∀ row, p row = true → row.id = identityId → row.status ≠ .active →
      (f row).status ≠ .active) :
    Dormant identityId db' := by
  constructor
  · obtain ⟨row, hrow, hrowId⟩ := h.there
    rw [hrows]
    cases hp : p row with
    | true => exact ⟨f row, Table.mem_updateWhere_of_pos hrow hp, (hid row).trans hrowId⟩
    | false => exact ⟨row, Table.mem_updateWhere_of_not hrow hp, hrowId⟩
  · intro row hrow hrowId
    rw [hrows] at hrow
    obtain ⟨old, hold, rfl⟩ := Table.mem_updateWhere.mp hrow
    split_ifs at hrowId ⊢ with hp
    · have holdId := (hid old).symm.trans hrowId
      exact hstatus old hp holdId (h.inactive old hold holdId)
    · exact h.inactive old hold hrowId

/-- An insert of an identity with another identifier. -/
theorem Dormant.insert (h : Dormant identityId db) {identity : AgentIdentity}
    (hrows : db'.agentIdentities = db.agentIdentities ++ [identity])
    (hnew : ∀ old ∈ db.agentIdentities, old.id ≠ identity.id) : Dormant identityId db' := by
  obtain ⟨row, hrow, hrowId⟩ := h.there
  constructor
  · exact ⟨row, by simp [hrows, hrow], hrowId⟩
  · intro other hother hotherId
    rw [hrows, List.mem_append, List.mem_singleton] at hother
    rcases hother with hold | rfl
    · exact h.inactive other hold hotherId
    · exact absurd (hrowId.trans hotherId.symm) (hnew row hrow)

/-- The batch of a recovery. -/
theorem deactivateIdentity_recovers {revoked : List String} {now : Time} {u : Unit}
    (hthere : ∃ row ∈ db.agentIdentities, row.id = identityId)
    (hok : deactivateIdentity identityId (some revoked) now db = .ok (u, db')) :
    Dormant identityId db' ∧ Unbound identityId db' := by
  obtain ⟨⟨_, db₁⟩, hidentity, hok⟩ := Statement.bind_ok hok
  obtain ⟨-, -, rfl⟩ := updateIdentitiesWhere_ok hidentity
  obtain rfl := revokeProtocolAgents_ok hok
  refine ⟨⟨?_, ?_⟩, ?_⟩
  · obtain ⟨row, hrow, hrowId⟩ := hthere
    exact ⟨_, Table.mem_updateWhere_of_pos hrow (by simpa using hrowId), hrowId⟩
  · intro row hrow hrowId
    obtain ⟨old, hold, rfl⟩ := Table.mem_updateWhere.mp hrow
    split_ifs at hrowId ⊢ with hp
    · simp
    · exact absurd hrowId (by simpa using hp)
  · intro row hrow hrowId
    obtain ⟨old, hold, rfl⟩ := Table.mem_updateWhere.mp hrow
    split_ifs at hrowId ⊢ with hp
    · simp
    · intro hactive
      exact hp (by simp [hrowId, hactive])

/-- An update of bindings that only revokes. -/
theorem Unbound.update (h : Unbound identityId db) {p : AgentIdentityBinding → Bool} {now : Time}
    (hrows : db'.agentIdentityBindings = Table.updateWhere p
      (fun row => { row with status := "revoked", revokedAt := some now, updatedAt := now })
      db.agentIdentityBindings) : Unbound identityId db' := by
  intro row hrow hrowId
  rw [hrows] at hrow
  obtain ⟨old, hold, rfl⟩ := Table.mem_updateWhere.mp hrow
  split_ifs at hrowId ⊢
  · simp
  · exact h old hold hrowId

/-- An insert of a binding that is not one of the identity. -/
theorem Unbound.insert (h : Unbound identityId db) {binding : AgentIdentityBinding}
    (hrows : db'.agentIdentityBindings = db.agentIdentityBindings ++ [binding])
    (hnew : ∀ old ∈ db.agentIdentityBindings, old.id ≠ binding.id)
    (hknown : ∀ row ∈ db'.agentIdentityBindings, row.agentIdentityId = identityId →
      ∃ old ∈ db.agentIdentityBindings, old.id = row.id) : Unbound identityId db' := by
  intro row hrow hrowId
  obtain ⟨old, hold, hid⟩ := hknown row hrow hrowId
  rw [hrows, List.mem_append, List.mem_singleton] at hrow
  rcases hrow with hkept | rfl
  · exact h row hkept hrowId
  · exact absurd hid (hnew old hold)

/-- An activation of rows of live accounts is not refused. -/
theorem activateIdentity_live {now : Time}
    (hlive : (db.agentIdentities.any fun row =>
      row.isActivatable identityId && db.isDeletedUser row.ownerUserId) = false) :
    activateIdentity identityId now db =
      .ok (db.agentIdentities.any (·.isActivatable identityId), { db with
        agentIdentities :=
          Table.updateWhere (·.isActivatable identityId)
            (fun row => { row with status := .active, updatedAt := now })
            db.agentIdentities }) := by
  change (refuseIf "account_deleted" (db.agentIdentities.any fun row =>
    row.isActivatable identityId && db.isDeletedUser row.ownerUserId) >>= _) = _
  rw [hlive]
  rfl

end Database

namespace IdentityCommand

open Database

variable {identityId : String} {w : World} {command : IdentityCommand}

/-- Only the write of an activation makes an identity active that was not. -/
theorem dormant_after (h : w.db.Dormant identityId)
    (hno : (Command.identity command).activates identityId w = false) :
    (command.after w.db).Dormant identityId := by
  unfold after
  apply Statement.after_keeps (p := fun db => db.Dormant identityId) h
  intro answer db hok
  cases command with
  | checkInstallation =>
    cases hok
    exact h
  | createIdentity identity binding =>
    obtain ⟨hidentity, hbinding⟩ := createIdentity_ok hok
    obtain ⟨-, -, -, -, _, rfl⟩ := insertBinding_ok hbinding
    exact h.insert rfl (insertAgentIdentity_ok hidentity).1
  | createAgentWithInstallation input =>
    obtain ⟨⟨_, hidentity⟩, -, -, _, rfl⟩ := createAgentWithInstallation_ok hok
    exact h.insert rfl (insertAgentIdentity_ok hidentity).1
  | reserveApplicationCreation reservation =>
    obtain ⟨-, rfl⟩ := insertApplicationCreation_ok hok
    exact h.congr rfl
  | claimIdentityProfile id input =>
    obtain ⟨-, rfl⟩ := claimIdentityProfile_ok hok
    exact h.update rfl (fun _ => rfl) fun _ _ _ hstatus => hstatus
  | createIntent row =>
    simp only [statement, insertEnrollmentIntent] at hok
    split_ifs at hok
    · cases hok
      exact h
    · cases hok
      exact h.congr rfl
  | approveIntent input =>
    obtain ⟨hidentity, -, _, _, rfl⟩ := approveIntent_ok hok
    cases hnew : input.identity with
    | none => exact h.congr rfl
    | some identity =>
      rw [hnew] at hidentity
      exact h.insert rfl (insertAgentIdentity_ok hidentity).1
  | revokeProtocolAgents id protocolAgentIds now =>
    obtain rfl := revokeProtocolAgents_ok hok
    exact h.congr rfl
  | deactivateIdentity id revoked now =>
    obtain ⟨_, _, _, _, rfl⟩ := deactivateIdentity_ok hok
    exact h.update rfl (fun _ => rfl) fun _ _ _ _ => by simp
  | activateIdentity id now =>
    obtain ⟨-, hlive, rfl⟩ := updateIdentitiesWhere_ok hok
    by_cases hid : id = identityId
    · subst hid
      have hnone : w.db.agentIdentities.any (·.isActivatable id) = false := by
        by_contra hsome
        rw [Bool.not_eq_false] at hsome
        have hlive' : (w.db.agentIdentities.any fun row =>
          row.isActivatable id && w.db.isDeletedUser row.ownerUserId) = false := hlive
        simp [Command.activates, hsome, hlive'] at hno
      apply h.congr
      apply Table.updateWhere_eq_self
      intro row hrow hselected
      rw [List.any_eq_false] at hnone
      exact absurd hselected (hnone row hrow)
    · refine h.update rfl (fun _ => rfl) ?_
      intro row hselected hrowId
      simp only [Bool.and_eq_true, decide_eq_true_eq] at hselected
      exact absurd (hselected.1.1.symm.trans hrowId) hid
  | deleteIdentity id protocolAgentIds now =>
    obtain ⟨_, _, _, _, rfl⟩ := deleteIdentity_ok hok
    exact h.update rfl (fun _ => rfl) fun _ _ _ _ => by simp
  | appendAudit event =>
    obtain rfl := insertAuditEvent_ok hok
    exact h.congr rfl

/-- What does not bind an identity does not make a binding of it active. -/
theorem unbound_after (h : w.db.Unbound identityId)
    (hno : (Command.identity command).binds identityId w = false) :
    (command.after w.db).Unbound identityId := by
  have hknown : ∀ row ∈ (command.after w.db).agentIdentityBindings,
      row.agentIdentityId = identityId → ∃ old ∈ w.db.agentIdentityBindings, old.id = row.id := by
    intro row hrow hrowId
    have hold := List.any_eq_false.mp hno row hrow
    simpa [hrowId] using hold
  revert hknown
  unfold after
  apply Statement.after_keeps (p := fun db => (∀ row ∈ db.agentIdentityBindings,
    row.agentIdentityId = identityId → ∃ old ∈ w.db.agentIdentityBindings, old.id = row.id) →
      db.Unbound identityId) fun _ => h
  intro answer db hok hknown
  cases command with
  | checkInstallation =>
    cases hok
    exact h
  | createIdentity identity binding =>
    obtain ⟨-, hbinding⟩ := createIdentity_ok hok
    obtain ⟨-, hnew, -, -, _, rfl⟩ := insertBinding_ok hbinding
    exact h.insert rfl hnew hknown
  | createAgentWithInstallation input =>
    obtain ⟨-, ⟨_, hbinding⟩, -, _, rfl⟩ := createAgentWithInstallation_ok hok
    exact h.insert rfl (insertBinding_ok hbinding).2.1 hknown
  | approveIntent input =>
    obtain ⟨-, ⟨_, hbinding⟩, _, _, rfl⟩ := approveIntent_ok hok
    have hsame : (w.db.withIdentity input.identity).agentIdentityBindings =
        w.db.agentIdentityBindings := by
      cases input.identity <;> rfl
    have hnew := (insertBinding_ok hbinding).2.1
    rw [hsame] at hnew
    exact h.insert rfl hnew hknown
  | revokeProtocolAgents id protocolAgentIds now =>
    obtain rfl := revokeProtocolAgents_ok hok
    exact h.update rfl
  | deactivateIdentity id revoked now =>
    obtain ⟨⟨_, db₁⟩, hidentity, hok⟩ := Statement.bind_ok hok
    obtain ⟨-, -, rfl⟩ := updateIdentitiesWhere_ok hidentity
    cases revoked with
    | some protocolAgentIds =>
      obtain rfl := revokeProtocolAgents_ok hok
      exact h.update rfl
    | none =>
      cases hok
      exact h
  | deleteIdentity id protocolAgentIds now =>
    obtain ⟨⟨_, db₁⟩, hidentity, hok⟩ := Statement.bind_ok hok
    obtain ⟨-, -, rfl⟩ := updateIdentitiesWhere_ok hidentity
    obtain rfl := revokeProtocolAgents_ok hok
    exact h.update rfl
  | createIntent row =>
    simp only [statement, insertEnrollmentIntent] at hok
    split_ifs at hok
    · cases hok
      exact h
    · cases hok
      exact h
  | reserveApplicationCreation reservation =>
    obtain ⟨-, rfl⟩ := insertApplicationCreation_ok hok
    exact h
  | claimIdentityProfile id input =>
    obtain ⟨-, rfl⟩ := claimIdentityProfile_ok hok
    exact h
  | activateIdentity id now =>
    obtain ⟨-, -, rfl⟩ := updateIdentitiesWhere_ok hok
    exact h
  | appendAudit event =>
    obtain rfl := insertAuditEvent_ok hok
    exact h

end IdentityCommand

/-! ## Commands -/

/-- The commands of the system. -/
def Command.Recovers : Command → Prop
  | .read => True
  | .generateId => True
  | .send _ => True
  | .access _ => True
  | .identity _ => True
  | _ => False

section Commands

open Database

variable {identityId : String} {w : World} {command : Command}

/-- Without new bindings the identity is not bound. -/
theorem binds_of_same (hsame : (exec command w).db.agentIdentityBindings =
    w.db.agentIdentityBindings) : command.binds identityId w = false := by
  rw [Command.binds, hsame, List.any_eq_false]
  intro row hrow
  have htaken : (w.db.agentIdentityBindings.any fun old => old.id = row.id) = true :=
    List.any_eq_true.mpr ⟨row, hrow, by simp⟩
  simp [htaken]

theorem recovered_of_recovers (h : command.recovers identityId w = true) :
    (exec command w).db.Dormant identityId ∧ (exec command w).db.Unbound identityId := by
  unfold Command.recovers at h
  split at h
  · rename_i id revoked now
    simp only [Bool.and_eq_true, decide_eq_true_eq, List.any_eq_true] at h
    obtain ⟨⟨rfl, hthere⟩, hsome⟩ := h
    cases hok : Database.deactivateIdentity id (some revoked) now w.db with
    | error e => simp [hok, Except.toOption] at hsome
    | ok result =>
      have hafter : (exec (Command.identity (.deactivateIdentity id (some revoked) now)) w).db =
          result.2 := Statement.after_of_ok hok
      rw [hafter]
      exact deactivateIdentity_recovers hthere hok
  · cases h

theorem dormant_exec (huses : command.Recovers) (h : w.db.Dormant identityId)
    (hno : command.activates identityId w = false) : (exec command w).db.Dormant identityId := by
  cases command with
  | read => exact h
  | generateId => exact h
  | send request => exact h
  | access command =>
    have hsame := @AccessCommand.after_same command w.db .identities
      (by cases command <;> simp [AccessCommand.writes])
    exact h.congr hsame.2.2.2.2.2.1
  | identity command => exact IdentityCommand.dormant_after h hno
  | _ => exact huses.elim

theorem unbound_exec (huses : command.Recovers) (h : w.db.Unbound identityId)
    (hno : command.binds identityId w = false) : (exec command w).db.Unbound identityId := by
  cases command with
  | read => exact h
  | generateId => exact h
  | send request => exact h
  | access command =>
    have hsame := @AccessCommand.after_same command w.db .identities
      (by cases command <;> simp [AccessCommand.writes])
    intro row hrow
    have hrow' : row ∈ (command.after w.db).agentIdentityBindings := hrow
    rw [hsame.2.2.2.2.2.2] at hrow'
    exact h row hrow'
  | identity command => exact IdentityCommand.unbound_after h hno
  | _ => exact huses.elim

/-- The write of an activation creates no binding, and the identity is active after it. -/
theorem activates_breaks {recovered : Bool}
    (h : ActivatesRecovered identityId recovered command w) :
    ¬ StaysInactive identityId (enterRecovery identityId recovered command w)
      (exec command w) := by
  obtain ⟨hrecovered, hactivates⟩ := h
  unfold Command.activates at hactivates
  split at hactivates
  · rename_i id now
    simp only [Bool.and_eq_true, decide_eq_true_eq, Bool.not_eq_true'] at hactivates
    obtain ⟨⟨rfl, hsome⟩, hlive⟩ := hactivates
    have hafter := Statement.after_of_ok (@activateIdentity_live id w.db now hlive)
    have hexec : exec (Command.identity (.activateIdentity id now)) w =
        { w with db := (Database.activateIdentity id now).after w.db } := rfl
    have hkept : enterRecovery id recovered (Command.identity (.activateIdentity id now)) w =
        true := by
      have hbinds := @binds_of_same id w (.identity (.activateIdentity id now))
        (by rw [hexec, hafter])
      simp [enterRecovery, hrecovered, hbinds]
    intro hstays
    obtain ⟨row, hrow, hselected⟩ := List.any_eq_true.mp hsome
    have hid : row.id = id := by
      simp only [AgentIdentity.isActivatable, Bool.and_eq_true, decide_eq_true_eq] at hselected
      exact hselected.1.1
    rw [hexec, hafter] at hstays
    exact hstays hkept _ (Table.mem_updateWhere_of_pos hrow hselected) hid rfl
  · cases hactivates

end Commands

/-! ## Programs -/

section Programs

theorem recovers_of_outside (c : Command) (h : c.Outside) : c.Recovers := by
  cases c with
  | read => trivial
  | generateId => trivial
  | send request => trivial
  | _ => exact h.elim

theorem findIdentityAggregate_recovers (identityId : String) :
    (findIdentityAggregate identityId).Uses Command.Recovers := by
  apply uses_bind (uses_query.mpr trivial)
  intro identity
  split
  · apply Uses.bind
    · exact uses_bind (uses_query.mpr trivial) fun _ => trivial
    · intro _
      trivial
  · trivial

theorem requireIdentity_recovers (identityId : String) :
    (requireIdentity identityId).Uses Command.Recovers :=
  uses_bind (findIdentityAggregate_recovers _) fun _ => uses_orThrow

theorem requireControlledIdentity_recovers (identityId actorUserId : String) :
    (requireControlledIdentity identityId actorUserId).Uses Command.Recovers := by
  apply uses_bind (requireIdentity_recovers _)
  intro found
  apply uses_bind uses_throwIf
  intro _
  trivial

theorem changed_recovers {error : Error} {change : Time → Request Bool}
    (hchange : ∀ now, (change now).Uses Command.Recovers) :
    (changed error change).Uses Command.Recovers := by
  apply uses_bind (uses_currentTime.mpr trivial)
  intro now
  exact uses_bind (hchange now) fun _ => uses_throwIf

theorem revokeBinding_recovers (identityId protocolAgentId : String) (now : Time) :
    (revokeBinding identityId protocolAgentId now).Uses Command.Recovers := by
  apply uses_bind (uses_query.mpr trivial)
  intro binding
  split
  · trivial
  · exact uses_bind (uses_perform.mpr trivial) fun _ => trivial

theorem recoveredAgents_recovers (identityId : String) (revokeBindings : Bool) :
    (recoveredAgents identityId revokeBindings).Uses Command.Recovers :=
  uses_bind (uses_query.mpr trivial) fun _ => trivial

theorem identityKeyWrite_recovers (command : IdentityCommand) :
    (identityKeyWrite command).Uses Command.Recovers :=
  Uses.tryCatch (uses_perform.mpr trivial) fun _ => trivial

theorem deactivateIdentity_recovers (identityId : String) (now : Time) (revokeBindings : Bool) :
    (deactivateIdentity identityId now revokeBindings).Uses Command.Recovers := by
  apply uses_bind (uses_query.mpr trivial)
  intro identity
  split
  · trivial
  · split_ifs
    · trivial
    · apply uses_bind (recoveredAgents_recovers _ _)
      intro revoked
      exact uses_bind (uses_perform.mpr trivial) fun _ => trivial

theorem activateIdentity_recovers (identityId : String) (now : Time) :
    (activateIdentity identityId now).Uses Command.Recovers := by
  apply uses_bind (uses_query.mpr trivial)
  intro protocolAgentIds
  split_ifs
  · trivial
  · exact uses_perform.mpr trivial

variable [Platform]

theorem appendIdentityAudit_recovers (action : String) (found : AgentIdentityAggregate)
    (controllerUserId : Option String) (metadata : Option Record) :
    (appendIdentityAudit action found controllerUserId metadata).Uses Command.Recovers := by
  apply uses_bind (uses_generateId.mpr trivial)
  intro id
  apply uses_bind (uses_currentTime.mpr trivial)
  intro occurredAt
  exact uses_perform.mpr trivial

theorem revokeLeases_recovers (leases : List ExternalTokenLease) (now : Time) :
    (forEach leases fun lease => revokeTokenLeaseAtTarget lease now true).Uses
      Command.Recovers :=
  Uses.forEach fun lease => revokeTokenLeaseAtTarget_uses recovers_of_outside lease now
    fun _ => trivial

theorem revokeLeasesOf_recovers (binding : Option AgentIdentityBinding) :
    (revokeLeasesOf binding).Uses Command.Recovers := by
  cases binding with
  | none => trivial
  | some binding =>
    apply uses_bind (uses_currentTime.mpr trivial)
    intro now
    apply uses_bind (uses_query.mpr trivial)
    intro leases
    exact revokeLeases_recovers leases now

theorem revokeAgentResourceAccess_recovers (agentIdentityId : String) :
    (revokeAgentResourceAccess agentIdentityId).Uses Command.Recovers := by
  apply uses_bind (uses_currentTime.mpr trivial)
  intro now
  apply uses_bind (uses_query.mpr trivial)
  intro entitlements
  apply Uses.forEach
  intro entitlement
  apply uses_bind
  · exact uses_bind (uses_query.mpr trivial) fun leases => revokeLeases_recovers leases now
  · intro _
    exact Uses.discard (uses_perform.mpr trivial)

theorem enrolledIdentity_recovers (intent : AgentEnrollmentIntent) (issuer : String)
    (now : Time) : (enrolledIdentity intent issuer now).Uses Command.Recovers := by
  unfold enrolledIdentity
  split
  · apply uses_bind (requireIdentity_recovers _)
    intro existing
    apply uses_bind uses_throwIf
    intro _
    trivial
  · apply uses_bind (uses_generateId.mpr trivial)
    intro identityId
    exact uses_bind (uses_generateId.mpr trivial) fun _ => trivial

theorem approveAgentEnrollment_recovers (intentId issuer actorUserId : String) :
    (approveAgentEnrollment intentId issuer actorUserId).Uses Command.Recovers := by
  apply uses_bind (uses_query.mpr trivial)
  intro found
  apply uses_bind uses_orThrow
  intro intent
  apply uses_bind uses_throwIf
  intro _
  apply uses_bind (uses_currentTime.mpr trivial)
  intro checkedAt
  apply uses_bind uses_throwIf
  intro _
  apply uses_bind uses_throwIf
  intro _
  apply uses_bind
  · apply uses_bind (uses_query.mpr trivial)
    intro protocolAgent
    apply uses_bind uses_orThrow
    intro _
    exact uses_bind (uses_query.mpr trivial) fun _ => uses_throwIf
  intro _
  apply uses_bind (uses_currentTime.mpr trivial)
  intro now
  apply uses_bind (enrolledIdentity_recovers _ _ _)
  intro enrolled
  apply uses_bind (uses_generateId.mpr trivial)
  intro bindingId
  apply uses_bind (identityKeyWrite_recovers _)
  intro _
  apply uses_bind (findIdentityAggregate_recovers _)
  intro persisted
  apply uses_bind uses_orThrow
  intro result
  exact uses_bind (appendIdentityAudit_recovers _ _ _ _) fun _ => trivial

theorem RecoveryRequest.recovers (request : RecoveryRequest) :
    (recoverySystem.program request).Uses Command.Recovers := by
  cases request with
  | recover identityId actorUserId =>
    apply uses_bind (requireControlledIdentity_recovers _ _)
    intro found
    apply uses_bind uses_throwIf
    intro _
    apply uses_bind (changed_recovers fun now => deactivateIdentity_recovers _ now true)
    intro _
    apply uses_bind (revokeAgentResourceAccess_recovers _)
    intro _
    exact appendIdentityAudit_recovers _ _ _ _
  | activate identityId actorUserId =>
    apply uses_bind (requireControlledIdentity_recovers _ _)
    intro found
    split_ifs
    · trivial
    · apply uses_bind (changed_recovers fun now => activateIdentity_recovers _ now)
      intro _
      exact appendIdentityAudit_recovers _ _ _ _
  | deactivate identityId actorUserId =>
    apply uses_bind (requireControlledIdentity_recovers _ _)
    intro found
    apply uses_bind (changed_recovers fun now => deactivateIdentity_recovers _ now false)
    intro _
    exact appendIdentityAudit_recovers _ _ _ _
  | revokeHost identityId protocolAgentId actorUserId =>
    apply uses_bind (requireControlledIdentity_recovers _ _)
    intro found
    apply uses_bind (changed_recovers fun now => revokeBinding_recovers _ _ now)
    intro _
    apply uses_bind (revokeLeasesOf_recovers _)
    intro _
    exact appendIdentityAudit_recovers _ _ _ _
  | enroll intentId issuer actorUserId =>
    exact (approveAgentEnrollment_recovers _ _ _).discard

end Programs

/-! ## Runs -/

section Runs

variable [Platform] (identityId : String)

/-- A recovered identity is made active by the write of an activation only. -/
def recoveryFaults : Faults recoverySystem (enterRecovery identityId) Command.Recovers
    (StaysInactive identityId) (ActivatesRecovered identityId) where
  inv recovered w := recovered = true → w.db.Dormant identityId
  program := RecoveryRequest.recovers
  good_of_inv hinv hrecovered := (hinv hrecovered).inactive
  exec := by
    intro recovered command w huses hinv hfault hentered
    rw [enterRecovery, Bool.or_eq_true, Bool.and_eq_true] at hentered
    rcases hentered with hrecovers | ⟨hrecovered, -⟩
    · exact (recovered_of_recovers hrecovers).1
    · apply dormant_exec huses (hinv hrecovered)
      exact Bool.eq_false_iff.mpr fun hactivates => hfault ⟨hrecovered, hactivates⟩
  breaks _ _ hfault := activates_breaks hfault
  environment := by
    intro recovered w event hinv hrecovered
    cases event with
    | elapse milliseconds => exact hinv hrecovered
    | configure db => exact (hinv hrecovered).congr rfl

/-- A recovered identity has no active binding, whatever is done. -/
def bindingFaults : Faults recoverySystem (enterRecovery identityId) Command.Recovers
    (fun recovered w => recovered = true → w.db.Unbound identityId) (fun _ _ _ => False) where
  inv recovered w := recovered = true → w.db.Unbound identityId
  program := RecoveryRequest.recovers
  good_of_inv hinv := hinv
  exec := by
    intro recovered command w huses hinv _ hentered
    rw [enterRecovery, Bool.or_eq_true, Bool.and_eq_true, Bool.not_eq_true'] at hentered
    rcases hentered with hrecovers | ⟨hrecovered, hbinds⟩
    · exact (recovered_of_recovers hrecovers).2
    · exact unbound_exec huses (hinv hrecovered) hbinds
  breaks _ _ hfault := hfault.elim
  environment := by
    intro recovered w event hinv
    cases event <;> exact hinv

end Runs

/-! ## An activation that has read the bindings -/

namespace RecoveryExample

attribute [local instance] samplePlatform

def start : World :=
  { db :=
      { users := [{ id := "ada", banned := false, deletedAt := none }]
        agentIdentities :=
          [newAgentIdentityRecord "identity" "subject" "issuer" "bot" "Bot" "node" "ada" 0]
        agentIdentityBindings := [newAgentIdentityBinding "binding" "identity" "agent" 0] }
    clock := 0, nextId := 0 }

def steps (count i : ℕ) : List RecoveryAction := List.replicate count (.advance i {})

/-- A recovery finds the identity active; it is then made inactive, an activation reads its
binding, and the recovery goes on before the activation does. -/
def overtaken : List RecoveryAction :=
  [.start (.recover "identity" "ada")] ++ steps 2 0 ++
    [.start (.deactivate "identity" "ada")] ++ steps 9 1 ++
      [.start (.activate "identity" "ada")] ++ steps 4 2 ++ steps 4 0 ++ steps 1 2

end RecoveryExample

end Realmroot
