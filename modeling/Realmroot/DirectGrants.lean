import Realmroot.AccessFrames
import Realmroot.Library.Promises
import Realmroot.Rules
import Realmroot.Usecases.Permissions

/-!
# Direct grants and revocations

A grant reads the equivalent entitlement and then writes by its id. A revocation in between
is overwritten, unless the row that the write names is still the one that was read.
-/

namespace Realmroot

open AtomicProgram Program Pool

/-! ## The system -/

/-- What every caller of `createScopeEntitlement` makes sure of: the entitlement has not ended,
its mode says whether it expires, and it expires later than the time of the call. -/
structure DirectGrant where
  input : ResourceScopeEntitlement
  now : Time
  unended : input.endedAt = none
  lifetime : input.mode = .until ↔ input.expiresAt.isSome
  unexpired : input.expiresAt.all (now < ·)

inductive GrantRequest where
  | grant (grant : DirectGrant)
  | revoke (id : String) (reason : EndReason) (now : Time)

inductive GrantAnswer where
  | granted (row : ResourceScopeEntitlement)
  | revoked (ended : Bool)

/-- Time passes, so that entitlements expire; and any other statement executes. -/
inductive GrantEvent where
  | elapse (time : Time)
  | statement (command : Command)

def GrantEvent.apply : GrantEvent → World → World
  | .elapse time, w => { w with clock := w.clock + time }
  | .statement command, w => exec command w

def GrantRequest.program : GrantRequest → Request GrantAnswer
  | .grant given => do
    let row ← createScopeEntitlement given.input given.now
    .pure (.granted row)
  | .revoke id reason now => do
    let ended ← endScopeEntitlement id reason now
    .pure (.revoked ended)

def grantSystem : System Command World Reply Error GrantAnswer GrantRequest GrantEvent where
  program := GrantRequest.program
  environment := GrantEvent.apply

/-! ## The commands of a grant -/

/-- The commands of a direct grant. -/
def Command.GrantsDirectly : Command → Prop
  | .read => True
  | .access (.insertScopeEntitlement _) => True
  | .access (.replaceExpiredEntitlement ..) => True
  | .access (.renewEntitlement renewal) =>
    ∀ lifetime, renewal.lifetime = some lifetime → lifetime.mode ≠ .once
  | _ => False

theorem strongerLifetime_lasts {current requested : ResourceScopeEntitlement}
    {lifetime : EntitlementLifetime} (h : strongerLifetime current requested = some lifetime) :
    lifetime.mode ≠ .once := by
  unfold strongerLifetime at h
  split_ifs at h <;> cases h <;> exact EntitlementMode.noConfusion

theorem strengthenEntitlement_grants (existing input : ResourceScopeEntitlement) (now : Time) :
    (strengthenEntitlement existing input now).Uses Command.GrantsDirectly := by
  unfold strengthenEntitlement
  split_ifs
  · exact uses_bind (uses_perform.mpr trivial) fun _ => trivial
  · dsimp only
    split_ifs
    · trivial
    · apply uses_bind (uses_perform.mpr fun _ h => strongerLifetime_lasts h)
      intro updated
      exact uses_orThrow

theorem createScopeEntitlement_grants (input : ResourceScopeEntitlement) (now : Time) :
    (createScopeEntitlement input now).Uses Command.GrantsDirectly := by
  apply uses_bind (uses_query.mpr trivial)
  intro found
  cases found with
  | some existing => exact strengthenEntitlement_grants existing input now
  | none =>
    apply uses_bind (uses_perform.mpr trivial)
    intro inserted
    cases inserted with
    | some row => trivial
    | none =>
      apply uses_bind (uses_query.mpr trivial)
      intro competing
      apply uses_bind uses_orThrow
      intro existing
      exact strengthenEntitlement_grants existing input now

/-! ## What a grant promises -/

namespace ResourceScopeEntitlement

/-- A renewal leaves what an entitlement says about its own end and lifetime. -/
def SameEnd (row old : ResourceScopeEntitlement) : Prop :=
  row.id = old.id ∧ row.endedAt = old.endedAt ∧ row.endReason = old.endReason ∧
    row.mode = old.mode ∧ row.expiresAt = old.expiresAt

instance (row old : ResourceScopeEntitlement) : Decidable (row.SameEnd old) :=
  inferInstanceAs (Decidable (_ ∧ _))

theorem isActive_iff {row : ResourceScopeEntitlement} {now : Time} :
    row.isActive now = true ↔ row.endedAt = none ∧ row.expiresAt.all (now < ·) = true := by
  simp [isActive]

end ResourceScopeEntitlement

/-- The rows that a write of a grant names, and that are no longer as it read them: the row has
ended, or it has expired by the time of the grant and the write does not say when it expires. -/
def Command.overwrites : Command → Database → List ResourceScopeEntitlement
  | .access (.replaceExpiredEntitlement id _ _), db =>
    db.resourceScopeEntitlements.filter fun row => row.id = id && row.endedAt.isSome
  | .access (.renewEntitlement renewal), db =>
    db.resourceScopeEntitlements.filter fun row =>
      row.id = renewal.id &&
        (row.endedAt.isSome ||
          (renewal.lifetime.isNone && row.expiresAt.any (· ≤ renewal.updatedAt)))
  | _, _ => []

/-- The unique indexes stand against a write. -/
def Command.refused : Command → Database → Bool
  | .access command, db => command.statement.refuses db
  | _, _ => false

def GrantRequest.isGrant : GrantRequest → Bool
  | .grant _ => true
  | .revoke .. => false

/-- A write of a grant that goes through finds the row that it names as it was read. -/
def GrantCurrent (request : GrantRequest) (command : Command) (w : World) : Prop :=
  request.isGrant = true → command.refused w.db = true ∨ command.overwrites w.db = []

instance (request : GrantRequest) (command : Command) (w : World) :
    Decidable (GrantCurrent request command w) :=
  inferInstanceAs (Decidable (_ = true → _ ∨ _))

/-- The commands of a grant. -/
def DirectGrant.Issues (grant : DirectGrant) : Command → Prop
  | .read => True
  | .access (.insertScopeEntitlement row) => row = grant.input
  | .access (.replaceExpiredEntitlement _ row now) => row = grant.input ∧ now = grant.now
  | .access (.renewEntitlement renewal) =>
    renewal.updatedAt = grant.now ∧
      ∀ lifetime, renewal.lifetime = some lifetime → lifetime.expiresAt.all (grant.now < ·) = true
  | _ => False

/-- The record that a grant returns is a row of the table, and active. -/
def DirectGrant.Ends (grant : DirectGrant) (row : ResourceScopeEntitlement) (w : World) : Prop :=
  row ∈ w.db.resourceScopeEntitlements ∧ row.isActive grant.now = true

def grantPromises : Promises Command World Reply Error GrantAnswer GrantRequest where
  inv _ := True
  moves _ _ := True
  cond := GrantCurrent
  promise request command _ :=
    match request with
    | .grant grant => grant.Issues command
    | .revoke .. => True
  post _ _ _ := True
  ends request result w :=
    match request, result with
    | .grant grant, .ok (.granted row) => grant.Ends row w
    | _, _ => True

/-! ## The programs -/

theorem strongerLifetime_expires (grant : DirectGrant) {current : ResourceScopeEntitlement}
    {lifetime : EntitlementLifetime} (h : strongerLifetime current grant.input = some lifetime) :
    lifetime.expiresAt.all (grant.now < ·) = true := by
  have hexpires := grant.unexpired
  unfold strongerLifetime at h
  split_ifs at h <;> cases h <;> first | rfl | exact hexpires

theorem findEquivalentEntitlement_some {input row : ResourceScopeEntitlement} {db : Database}
    (h : db.findEquivalentEntitlement input = some row) :
    row ∈ db.resourceScopeEntitlements ∧ row.endedAt = none := by
  have hselects := List.find?_some h
  simp only [activeEquivalentEntitlement, Bool.and_eq_true, Option.isNone_iff_eq_none] at hselects
  exact ⟨List.mem_of_find?_eq_some h, hselects.2⟩

theorem EntitlementRenewal.apply_isActive {renewal : EntitlementRenewal}
    {row : ResourceScopeEntitlement} {now : Time} (hended : row.endedAt = none)
    (hlifetime : ∀ lifetime, renewal.lifetime = some lifetime →
      lifetime.expiresAt.all (now < ·) = true)
    (hrow : renewal.lifetime.isNone → row.expiresAt.all (now < ·) = true) :
    (renewal.apply row).isActive now = true := by
  rw [ResourceScopeEntitlement.isActive_iff]
  refine ⟨hended, ?_⟩
  cases hl : renewal.lifetime with
  | some lifetime =>
    have hexpires := hlifetime lifetime hl
    simpa [apply, hl] using hexpires
  | none =>
    have hexpires := hrow (by simp [hl])
    simpa [apply, hl] using hexpires

theorem replaces_open {id : String} {input row : ResourceScopeEntitlement} {now : Time}
    {db : Database}
    (h : Command.overwrites (.access (.replaceExpiredEntitlement id input now)) db = [])
    (hrow : row ∈ db.resourceScopeEntitlements) (hid : row.id = id) : row.endedAt = none := by
  have hnot := List.filter_eq_nil_iff.mp h row hrow
  simpa [hid] using hnot

theorem renews_active {renewal : EntitlementRenewal} {row : ResourceScopeEntitlement}
    {db : Database} (h : Command.overwrites (.access (.renewEntitlement renewal)) db = [])
    (hrow : row ∈ db.resourceScopeEntitlements) (hid : row.id = renewal.id) :
    row.endedAt = none ∧
      (renewal.lifetime.isNone → row.expiresAt.all (renewal.updatedAt < ·) = true) := by
  have hnot := List.filter_eq_nil_iff.mp h row hrow
  simp only [hid, decide_true, Bool.true_and, Bool.or_eq_true, Bool.and_eq_true, not_or,
    not_and, Bool.not_eq_true, Option.isSome_eq_false_iff, Option.isNone_iff_eq_none] at hnot
  refine ⟨hnot.1, ?_⟩
  intro hlifetime
  have hexpires := hnot.2 (Option.isNone_iff_eq_none.mp hlifetime)
  cases htime : row.expiresAt with
  | none => rfl
  | some time =>
    rw [htime] at hexpires
    simpa using hexpires

section Programs

variable {grant : DirectGrant} {w : World}

/-- The postcondition of a grant, before its answer is wrapped. -/
def DirectGrant.onGranted (grant : DirectGrant) :
    Except Error ResourceScopeEntitlement → World → Prop
  | .ok row, w => grant.Ends row w
  | .error _, _ => True

theorem strengthenEntitlement_meets {existing : ResourceScopeEntitlement}
    (hmem : existing ∈ w.db.resourceScopeEntitlements) (hended : existing.endedAt = none) :
    (strengthenEntitlement existing grant.input grant.now).Meets
      (grantPromises.contract (.grant grant)) grant.onGranted w := by
  unfold strengthenEntitlement
  split_ifs with hexpired
  · apply meets_execute
    intro t _ _
    refine ⟨⟨rfl, rfl⟩, ?_, fun _ _ => trivial⟩
    intro a db hok
    obtain ⟨-, rfl⟩ := Database.replaceExpiredEntitlement_ok hok
    have hactive := ResourceScopeEntitlement.isActive_iff.mpr ⟨grant.unended, grant.unexpired⟩
    exact ⟨by simp, hactive⟩
  · have hunexpired : existing.expiresAt.all (grant.now < ·) = true := by
      cases hexpires : existing.expiresAt with
      | none => rfl
      | some time =>
        rw [hexpires] at hexpired
        simpa using hexpired
    dsimp only
    split_ifs with hsame
    · exact ⟨hmem, ResourceScopeEntitlement.isActive_iff.mpr ⟨hended, hunexpired⟩⟩
    · apply meets_execute
      intro t _ hallowed
      have hlifetime : ∀ lifetime, strongerLifetime existing grant.input = some lifetime →
          lifetime.expiresAt.all (grant.now < ·) = true :=
        fun _ h => strongerLifetime_expires grant h
      refine ⟨⟨rfl, hlifetime⟩, ?_, fun _ _ => trivial⟩
      intro renewed db hok
      have hnot := Statement.not_refuses_of_ok hok
      obtain ⟨rfl, rfl⟩ := Database.renewEntitlement_ok hok
      cases hfind : t.db.resourceScopeEntitlements.find? (fun row => row.id = existing.id) with
      | none => trivial
      | some row =>
        have hrow : row ∈ t.db.resourceScopeEntitlements := List.mem_of_find?_eq_some hfind
        have hid : row.id = existing.id := by simpa using List.find?_some hfind
        have hcurrent := (hallowed.2 rfl).resolve_left (by simp [Command.refused, hnot])
        obtain ⟨hopen, hexpiry⟩ := renews_active hcurrent hrow hid
        refine ⟨?_, EntitlementRenewal.apply_isActive hopen hlifetime hexpiry⟩
        exact Table.mem_updateWhere_of_pos hrow (by simpa using hid)

theorem createScopeEntitlement_meets :
    (createScopeEntitlement grant.input grant.now).Meets
      (grantPromises.contract (.grant grant)) grant.onGranted w := by
  unfold createScopeEntitlement
  apply meets_query
  intro t _ _
  refine ⟨trivial, ?_⟩
  cases hfound : t.db.findEquivalentEntitlement grant.input with
  | some existing =>
    obtain ⟨hmem, hended⟩ := findEquivalentEntitlement_some hfound
    exact strengthenEntitlement_meets hmem hended
  | none =>
    apply meets_execute
    intro u _ _
    refine ⟨rfl, ?_, fun _ _ => trivial⟩
    intro inserted db hok
    obtain ⟨rfl, -, rfl⟩ | ⟨rfl, -, rfl⟩ := Database.insertScopeEntitlement_ok hok
    · apply meets_query
      intro v _ _
      refine ⟨trivial, ?_⟩
      apply meets_orThrow
      · exact fun _ => trivial
      · intro existing hcompeting
        obtain ⟨hmem, hended⟩ := findEquivalentEntitlement_some hcompeting
        exact strengthenEntitlement_meets hmem hended
    · have hactive := ResourceScopeEntitlement.isActive_iff.mpr ⟨grant.unended, grant.unexpired⟩
      exact ⟨by simp, hactive⟩

end Programs

theorem grantPromises_sound : grantPromises.Sound grantSystem where
  refl _ := trivial
  trans _ _ := trivial
  stable _ _ _ _ _ _ := trivial
  remains _ _ _ _ := trivial
  program request w _ := by
    cases request with
    | grant given =>
      change Meets _ _ (Program.bind (createScopeEntitlement given.input given.now) _) w
      rw [Program.meets_bind]
      apply createScopeEntitlement_meets.mono
      rintro (e | row) t ht
      · trivial
      · exact ht
    | revoke id reason now =>
      change Meets _ _ (endScopeEntitlement id reason now >>= _) w
      unfold endScopeEntitlement
      apply meets_execute
      intro t _ _
      exact ⟨trivial, fun _ _ _ => trivial, fun _ _ => trivial⟩
  exec _ _ _ _ _ _ := ⟨trivial, trivial⟩
  environment _ _ _ := ⟨trivial, trivial⟩

/-! ## What grants leave alone -/

/-- A row that has ended still says how it ended, what its mode was and when it was to expire,
at its place in the table. -/
def KeepsEnded (before after : Database) : Prop :=
  ∀ (i : ℕ) (row : ResourceScopeEntitlement),
    before.resourceScopeEntitlements[i]? = some row → row.endedAt.isSome →
      ∃ later, after.resourceScopeEntitlements[i]? = some later ∧ later.SameEnd row

theorem ResourceScopeEntitlement.SameEnd.refl (row : ResourceScopeEntitlement) :
    row.SameEnd row := ⟨rfl, rfl, rfl, rfl, rfl⟩

theorem KeepsEnded.of_append {before after : Database} {rows : List ResourceScopeEntitlement}
    (h : after.resourceScopeEntitlements = before.resourceScopeEntitlements ++ rows) :
    KeepsEnded before after := by
  intro i row hget _
  refine ⟨row, ?_, .refl row⟩
  rw [h, List.getElem?_append_left (List.getElem?_eq_some_iff.mp hget).1]
  exact hget

/-- An update that selects no row that has ended keeps the ended rows. -/
theorem KeepsEnded.of_update {before after : Database}
    {selects : ResourceScopeEntitlement → Bool}
    {sets : ResourceScopeEntitlement → ResourceScopeEntitlement}
    {rows : List ResourceScopeEntitlement}
    (h : after.resourceScopeEntitlements =
      Table.updateWhere selects sets before.resourceScopeEntitlements ++ rows)
    (hselects : ∀ row ∈ before.resourceScopeEntitlements, selects row = true →
      row.endedAt = none) : KeepsEnded before after := by
  intro i row hget hended
  have hmem : row ∈ before.resourceScopeEntitlements := List.mem_of_getElem? hget
  have hlength : i < before.resourceScopeEntitlements.length :=
    (List.getElem?_eq_some_iff.mp hget).1
  have hnot : ¬ selects row = true := by
    intro hsel
    rw [hselects row hmem hsel] at hended
    cases hended
  refine ⟨row, ?_, .refl row⟩
  rw [h, List.getElem?_append_left (by simpa using hlength), Table.updateWhere,
    List.getElem?_map, hget]
  simp [hnot]

theorem DirectGrant.Issues.keepsEnded {grant : DirectGrant} {command : Command} {w : World}
    (h : grant.Issues command) (hcurrent : GrantCurrent (.grant grant) command w) :
    KeepsEnded w.db (exec command w).db := by
  have hsame : KeepsEnded w.db w.db := .of_append (List.append_nil _).symm
  cases command with
  | read => exact hsame
  | access command =>
    cases hs : command.statement w.db with
    | error e =>
      rw [exec_access_of_error hs]
      exact hsame
    | ok result =>
      have hnamed := (hcurrent rfl).resolve_left
        (by simp [Command.refused, Statement.not_refuses_of_ok hs])
      rw [exec_access_of_ok hs]
      cases command with
      | insertScopeEntitlement row =>
        obtain ⟨-, -, hdb⟩ | ⟨-, -, hdb⟩ := Database.insertScopeEntitlement_ok hs
        · rw [hdb]
          exact hsame
        · rw [hdb]
          exact .of_append rfl
      | replaceExpiredEntitlement id row now =>
        obtain ⟨-, hdb⟩ := Database.replaceExpiredEntitlement_ok hs
        rw [hdb]
        apply KeepsEnded.of_update rfl
        intro old hold hsel
        exact replaces_open hnamed hold (by simpa using hsel)
      | renewEntitlement renewal =>
        obtain ⟨-, hdb⟩ := Database.renewEntitlement_ok hs
        rw [hdb]
        apply KeepsEnded.of_update (List.append_nil _).symm
        intro old hold hsel
        exact (renews_active hnamed hold (by simpa using hsel)).1
      | _ => exact absurd h (by simp [DirectGrant.Issues])
  | _ => exact absurd h (by simp [DirectGrant.Issues])

/-! ## Grants are not lost -/

/-- When a grant returns a record, the row that it returns is active after its last step; and
no step of a grant changes a row that has ended. -/
def GrantsHold (endings : List (GrantRequest × Except Error GrantAnswer × World))
    (history : List (GrantRequest × Command × World)) : Prop :=
  (∀ grant row w, (.grant grant, .ok (.granted row), w) ∈ endings →
    row ∈ w.db.resourceScopeEntitlements ∧ row.isActive grant.now = true) ∧
  ∀ grant command w, (.grant grant, command, w) ∈ history →
    KeepsEnded w.db (exec command w).db

namespace LostGrantExample

def lasting : ResourceScopeEntitlement :=
  { id := "first", userId := some "ada", applicationId := none, agentIdentityId := none
    organizationId := none, resourceServerId := "files", connectionId := none
    authorizationDetails := [], authorizationContextHash := "none", scope := "read"
    mode := .until, grantedByUserId := some "root", grantedByAgentIdentityId := none
    sourceAccessRequestId := none, expiresAt := some 100, endedAt := none, endReason := none
    createdAt := 0, updatedAt := 0 }

def start : World :=
  { db := { resourceScopeEntitlements := [lasting] }, clock := 10, nextId := 0 }

/-- The same permission, without an end. -/
def permanent : DirectGrant where
  input := { lasting with id := "second", mode := .persistent, expiresAt := none }
  now := 10
  unended := rfl
  lifetime := by decide
  unexpired := rfl

def request : List (Action Reply GrantRequest GrantEvent) :=
  [.start (.grant permanent), .start (.revoke "first" .revoked 11)]

/-- The grant reads, the permission is revoked, and the grant renews it. -/
def overtaken : List (Action Reply GrantRequest GrantEvent) :=
  request ++ [.advance 0 {}, .advance 1 {}, .advance 0 {}]

/-- The permission is revoked after the grant. -/
def revokedLater : List (Action Reply GrantRequest GrantEvent) :=
  request ++ [.advance 0 {}, .advance 0 {}, .advance 1 {}]

/-- A grant that answers an entitlement that is not active. -/
def answersLost : GrantRequest × Except Error GrantAnswer × World → Bool
  | (.grant grant, .ok (.granted row), _) => !row.isActive grant.now
  | _ => false

end LostGrantExample

end Realmroot
