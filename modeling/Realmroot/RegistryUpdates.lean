import Realmroot.Library.Issued
import Realmroot.RegistrySync

/-!
# Concurrent changes of a scope registry

A refresh and an administrator write the whole registry of a resource, made of the one that they
read when they began. What another call changed in between is lost, unless the write changes it
too.
-/

namespace Realmroot

open AtomicProgram Program

/-! ## The fields of a registry -/

/-- What two calls may change apart from each other. -/
inductive RegistryField where
  | description (scope : String)
  | grantMode (scope : String)
  deriving DecidableEq

inductive RegistryValue where
  | description (description : Option String)
  | grantMode (grantMode : GrantMode)
  deriving DecidableEq

/-- The entry of a scope; of two the last one counts. -/
def entryOf (registry : Option ResourceScopeRegistry) (scope : String) : Option ResourceScope :=
  registry.bind fun registry => registry.scopes.reverse.find? fun entry => entry.value = scope

/-- What a registry has in a field: nothing where it does not declare the scope. -/
def RegistryField.valueIn (registry : Option ResourceScopeRegistry) :
    RegistryField → Option RegistryValue
  | description scope => (entryOf registry scope).map fun entry => .description entry.description
  | grantMode scope => (entryOf registry scope).map fun entry => .grantMode entry.grantMode

/-- The registry of a resource as it is stored. -/
def storedRegistry (id : String) (w : World) : Option ResourceScopeRegistry :=
  (w.db.findResource id).bind (·.scopeRegistry)

/-- The registry that a command writes for a resource. -/
def Command.registryFor (id : String) : Command → Option ResourceScopeRegistry
  | .access (.replaceResourceDiscovery other discovery _ _) =>
    if other = id then some discovery.scopeRegistry else none
  | _ => none

/-! ## The system -/

inductive RegistryRequest where
  | refresh (id : String)
  | update (id : String) (input : UpdateApiResourceRequest)

/-- Time passes, and other requests change what is not a resource. -/
inductive RegistryEvent where
  | elapse (duration : Time)
  | others (db : Database)

def registrySystem [Platform] :
    System Command World Reply Error ApiResource RegistryRequest RegistryEvent where
  program
    | .refresh id => refreshResourceScopeRegistry id
    | .update id input => updateResource id input
  environment
    | .elapse duration, w => { w with clock := w.clock + duration }
    | .others db, w => { w with db := { db with apiResources := w.db.apiResources } }

/-- A command of a refresh or an update. -/
abbrev RegistryIssue := Issued Command World RegistryRequest

namespace RegistryIssue

variable (id : String) (x : RegistryIssue)

/-- The registry that the call read when it began. -/
def read : Option ResourceScopeRegistry := x.past.head?.bind (storedRegistry id)

/-- The request names the field. -/
def asksFor (field : RegistryField) : Bool :=
  match x.request, field with
  | .update _ input, .grantMode scope =>
    (requestedMode (input.scopeGrantModes.getD []) scope).isSome
  | _, _ => false

/-- The command changes the field: what it writes is not what the call read, or the request
names the field. -/
def Changes (field : RegistryField) : Prop :=
  (x.command.registryFor id).isSome = true ∧
    (field.valueIn (x.command.registryFor id) ≠ field.valueIn (x.read id) ∨
      x.asksFor field = true)

instance (field : RegistryField) : Decidable (x.Changes id field) :=
  inferInstanceAs (Decidable (_ ∧ (_ ∨ _)))

/-- Where the command writes the registry, every field that it does not change is stored as the
call read it. -/
def Current : Prop :=
  (x.command.registryFor id).isSome = true → ∀ field, ¬ x.Changes id field →
    field.valueIn (storedRegistry id x.state) = field.valueIn (x.read id)

end RegistryIssue

/-- Every change that was acknowledged is there, unless a later one replaced it. -/
def NoRegistryChangeLost [Platform] (id : String)
    (P : Pool Command World Reply Error ApiResource RegistryRequest)
    (issued : List RegistryIssue) : Prop :=
  ∀ earlier x later, issued = earlier ++ x :: later → P.Acknowledged x →
    ∀ field, RegistryIssue.Changes id x field →
      (∀ y ∈ later, ¬ RegistryIssue.Changes id y field) →
        field.valueIn (storedRegistry id P.state) = field.valueIn (x.command.registryFor id)

/-! ## What a command writes -/

/-- The commands of the system. -/
def RegistryCommand : Command → Prop
  | .read | .send _ | .connector _ | .access (.updateResource ..)
  | .access (.replaceResourceDiscovery ..) => True
  | _ => False

theorem Besides.registryCommand {c : Command} (h : Besides c) : RegistryCommand c := by
  cases c <;> trivial

section Writes

variable {id : String} {c : Command} {w : World}

/-- A change of the resources that keeps what they are found by and their registries. -/
theorem storedRegistry_updateWhere {db' : Database} {p : ApiResource → Bool}
    {f : ApiResource → ApiResource}
    (hresources : db'.apiResources = Table.updateWhere p f w.db.apiResources)
    (hkey : ∀ row, (f row).id = row.id ∧ (f row).deletedAt = row.deletedAt ∧
      (f row).scopeRegistry = row.scopeRegistry) :
    (db'.findResource id).isSome = (w.db.findResource id).isSome ∧
      storedRegistry id { w with db := db' } = storedRegistry id w := by
  have hfind : db'.findResource id =
      (w.db.findResource id).map fun row => if p row then f row else row := by
    rw [Database.findResource, hresources]
    refine Table.find?_updateWhere fun row => ?_
    rw [(hkey row).1, (hkey row).2.1]
  refine ⟨by rw [hfind, Option.isSome_map], ?_⟩
  have hstored : storedRegistry id { w with db := db' } =
      (db'.findResource id).bind (·.scopeRegistry) := rfl
  rw [hstored, hfind, storedRegistry]
  cases w.db.findResource id with
  | none => rfl
  | some row =>
    simp only [Option.map_some, Option.bind_some]
    split_ifs
    · exact (hkey row).2.2
    · rfl

theorem storedRegistry_updateResource (other : String) (patch : ResourcePatch)
    (narrowing : ResourceNarrowing) (now : Time) :
    (((Database.updateResource other patch narrowing now).after w.db).findResource id).isSome =
        (w.db.findResource id).isSome ∧
      storedRegistry id { w with
        db := (Database.updateResource other patch narrowing now).after w.db } =
        storedRegistry id w := by
  refine Statement.after_keeps (p := fun db' => (db'.findResource id).isSome =
    (w.db.findResource id).isSome ∧ storedRegistry id { w with db := db' } = storedRegistry id w)
    ⟨rfl, rfl⟩ ?_
  intro answer db' hok
  unfold Database.updateResource at hok
  split_ifs at hok
  cases hok
  exact storedRegistry_updateWhere (f := patch.apply now) rfl fun _ => ⟨rfl, rfl, rfl⟩

theorem storedRegistry_replaceResourceDiscovery (other : String) (discovery : ResourceDiscovery)
    (narrowing : ResourceNarrowing) (now : Time)
    (hthere : (w.db.findResource id).isSome = true) :
    storedRegistry id { w with
      db := (Database.replaceResourceDiscovery other discovery narrowing now).after w.db } =
      if other = id then some discovery.scopeRegistry else storedRegistry id w := by
  have hfind : ((Database.replaceResourceDiscovery other discovery narrowing now).after
      w.db).findResource id = (w.db.findResource id).map fun row =>
        if Database.isUndeleted other row then
          { row with
            name := discovery.name, description := discovery.description
            scopeRegistry := some discovery.scopeRegistry, updatedAt := now }
        else row :=
    Table.find?_updateWhere fun _ => rfl
  have hstored : storedRegistry id { w with
      db := (Database.replaceResourceDiscovery other discovery narrowing now).after w.db } =
      (((Database.replaceResourceDiscovery other discovery narrowing now).after
        w.db).findResource id).bind (·.scopeRegistry) := rfl
  obtain ⟨row, hrow⟩ := Option.isSome_iff_exists.mp hthere
  have hfound := List.find?_some hrow
  simp only [Bool.and_eq_true, decide_eq_true_eq] at hfound
  rw [hstored, hfind, storedRegistry, hrow, Option.map_some, Option.bind_some, Option.bind_some,
    Database.isUndeleted, hfound.1, hfound.2, Bool.and_true]
  by_cases hid : other = id
  · simp [hid]
  · have hne : ¬ id = other := fun h => hid h.symm
    simp [hid, hne]

/-- A command writes the registry of the resource, or leaves it alone; the resource stays. -/
theorem storedRegistry_exec (hc : RegistryCommand c)
    (hthere : (w.db.findResource id).isSome = true) :
    ((exec c w).db.findResource id).isSome = true ∧
      storedRegistry id (exec c w) = (c.registryFor id).orElse fun _ => storedRegistry id w := by
  cases c with
  | read | send => exact ⟨hthere, rfl⟩
  | connector command =>
    have hexec : exec (Command.connector command) w = { w with db := command.after w.db } := rfl
    rw [hexec, command.after_eq]
    exact ⟨hthere, rfl⟩
  | access command =>
    cases command with
    | updateResource other patch narrowing now =>
      have hkept := @storedRegistry_updateResource id w other patch narrowing now
      exact ⟨hkept.1.trans hthere, hkept.2⟩
    | replaceResourceDiscovery other discovery narrowing now =>
      refine ⟨?_, ?_⟩
      · exact (Database.isSome_findResource_replaceResourceDiscovery other discovery narrowing now
          w.db id).trans hthere
      · refine (storedRegistry_replaceResourceDiscovery other discovery narrowing now
          hthere).trans ?_
        simp only [Command.registryFor]
        split_ifs <;> rfl
    | _ => exact hc.elim
  | _ => exact hc.elim

end Writes

section Uses

variable [Platform]

theorem getResource_uses {P : Command → Prop} (hread : P .read) (id : String) :
    (getResource id).Uses P :=
  uses_bind (uses_query.mpr hread) fun _ => uses_orThrow

theorem replaceResourceDiscovery_registry (id : String) (discovery : ResourceDiscovery) :
    (replaceResourceDiscovery id discovery).Uses RegistryCommand := by
  unfold replaceResourceDiscovery
  apply uses_bind (uses_currentTime.mpr trivial)
  intro now
  apply uses_bind (uses_query.mpr trivial)
  intro applications
  apply uses_bind (uses_query.mpr trivial)
  intro entitlementIds
  apply uses_bind (uses_query.mpr trivial)
  intro roles
  apply uses_bind (uses_query.mpr trivial)
  intro consents
  unfold execute
  exact uses_perform.mpr trivial

theorem readProtectedResourceMetadata_uses (resourceUrl : String) :
    (readProtectedResourceMetadata resourceUrl).Uses Besides := by
  unfold readProtectedResourceMetadata
  apply uses_bind uses_ofResult
  intro sourceUrl
  apply uses_bind (uses_fetchPeer.mpr trivial)
  intro reply
  exact uses_bind uses_orThrow fun _ => uses_ofResult

theorem refreshRegistry_uses (resource : ApiResource) :
    (refreshRegistry resource).Uses RegistryCommand := by
  unfold refreshRegistry
  split_ifs
  · unfold refreshRealmroot
    apply uses_bind uses_ofResult
    intro sourceUrl
    apply uses_bind (uses_currentTime.mpr trivial)
    intro now
    exact replaceResourceDiscovery_registry _ _
  · refine Uses.tryCatch ?_ fun e => ?_
    · unfold synchronizeResource
      apply uses_bind ((readProtectedResourceMetadata_uses _).mono fun _ => Besides.registryCommand)
      intro metadata
      apply uses_bind ((refreshConnector_uses _ _).mono fun _ => Besides.registryCommand)
      intro _
      apply uses_bind
        ((synchronizeResourceDiscovery_uses _ _).mono fun _ => Besides.registryCommand)
      intro discovery
      exact replaceResourceDiscovery_registry _ _
    · unfold recordSynchronizationError
      split
      · exact uses_bind (replaceResourceDiscovery_registry _ _) fun _ => trivial
      · trivial

theorem refreshResourceScopeRegistry_uses (id : String) :
    (refreshResourceScopeRegistry id).Uses RegistryCommand := by
  unfold refreshResourceScopeRegistry
  apply uses_bind (getResource_uses trivial id)
  intro resource
  apply uses_bind uses_throwIf
  intro _
  apply uses_bind (refreshRegistry_uses resource)
  intro _
  exact getResource_uses trivial id

theorem readBoundary_uses (resource : ApiResource) (input : UpdateApiResourceRequest) :
    (readBoundary resource input).Uses Besides := by
  unfold readBoundary
  split_ifs
  · apply uses_bind (readProtectedResourceMetadata_uses _)
    intro metadata
    exact uses_bind (validateResourceProviderBoundary_uses ..) fun _ => trivial
  · trivial

theorem synchronizeUpdate_uses (resource : ApiResource) (input : UpdateApiResourceRequest)
    (metadata : Option ProtectedResourceMetadata) :
    (synchronizeUpdate resource input metadata).Uses Besides := by
  unfold synchronizeUpdate
  split
  · split_ifs
    · exact uses_bind (synchronizeResourceDiscovery_uses _ _) fun _ => trivial
    · trivial
  · trivial

theorem storeResource_uses (id : String) (patch : ResourcePatch) :
    (storeResource id patch).Uses RegistryCommand := by
  have hexecute : ∀ narrowing now,
      (execute (.updateResource id patch narrowing now)).Uses RegistryCommand :=
    fun narrowing now => uses_perform.mpr trivial
  unfold storeResource
  apply uses_bind (uses_currentTime.mpr trivial)
  intro now
  split_ifs
  · unfold storePrivateResource
    apply uses_bind (uses_query.mpr trivial)
    intro resource
    cases resource with
    | none => trivial
    | some resource =>
      dsimp only
      apply uses_bind (uses_query.mpr trivial)
      intro members
      apply uses_bind (uses_query.mpr trivial)
      intro applications
      apply uses_bind (uses_query.mpr trivial)
      intro entitlements
      apply uses_bind (uses_query.mpr trivial)
      intro roles
      apply uses_bind (uses_query.mpr trivial)
      intro consents
      apply uses_bind (uses_query.mpr trivial)
      intro identities
      exact hexecute _ _
  · exact hexecute _ _

theorem updateResource_uses (id : String) (input : UpdateApiResourceRequest) :
    (updateResource id input).Uses RegistryCommand := by
  unfold updateResource
  apply uses_bind (getResource_uses trivial id)
  intro resource
  apply uses_bind uses_throwIf
  intro _
  apply uses_bind uses_ofResult
  intro _
  have hactive : (requireActiveOwner input.ownerOrganizationId).Uses RegistryCommand := by
    unfold requireActiveOwner
    split
    · refine uses_bind ?_ fun _ => uses_throwIf
      exact uses_bind (uses_query.mpr trivial) fun _ => uses_orThrow
    · trivial
  apply uses_bind hactive
  intro _
  have hplatform : (requirePlatformOwner resource
      (input.ownerOrganizationId.getD resource.ownerOrganizationId)).Uses RegistryCommand := by
    unfold requirePlatformOwner
    split_ifs
    · apply uses_bind (uses_query.mpr trivial)
      intro platform
      exact uses_bind uses_ofResult fun _ => uses_throwIf
    · trivial
  apply uses_bind hplatform
  intro _
  apply uses_bind ((readBoundary_uses resource input).mono fun _ => Besides.registryCommand)
  intro metadata
  apply uses_bind
    ((synchronizeUpdate_uses resource input metadata).mono fun _ => Besides.registryCommand)
  intro synchronized
  apply uses_bind uses_ofResult
  intro registry
  apply uses_bind (storeResource_uses id _)
  intro updated
  apply uses_bind uses_throwIf
  intro _
  have hstore : (storeRegistry resource synchronized registry).Uses RegistryCommand := by
    unfold storeRegistry
    split
    · exact replaceResourceDiscovery_registry _ _
    · trivial
  apply uses_bind hstore
  intro _
  exact getResource_uses trivial id

end Uses

/-! ## Runs -/

/-- In every run in which no write of a registry finds a field changed that its call read and
does not change, no change is lost. -/
theorem no_registry_change_lost [Platform] (id : String) (start : World)
    (hthere : (start.db.findResource id).isSome = true)
    (schedule : List (Action Reply RegistryRequest RegistryEvent))
    (hcurrent : ∀ x ∈ (Pool.idle start).issued registrySystem [] schedule,
      RegistryIssue.Current id x) :
    NoRegistryChangeLost id ((Pool.idle start).run registrySystem schedule)
      ((Pool.idle start).issued registrySystem [] schedule) := by
  have hsound := Pool.issued_sound (S := registrySystem) (Q := fun _ => RegistryCommand)
    (I := fun w : World => (w.db.findResource id).isSome = true)
    (by
      rintro (id | ⟨id, input⟩)
      · exact refreshResourceScopeRegistry_uses id
      · exact updateResource_uses id input)
    (fun _ c w hc hw => (storedRegistry_exec hc hw).1)
    (by
      rintro (duration | db) w hw
      · exact hw
      · exact hw)
    schedule [] (Pool.idle start) (Pool.allUse_idle start) hthere
  intro earlier x later hsplit _ field hchanges hlater
  have hmem : x ∈ (Pool.idle start).issued registrySystem [] schedule := by
    rw [hsplit]
    exact List.mem_append_right _ List.mem_cons_self
  have hwritten : field.valueIn (storedRegistry id x.after) =
      field.valueIn (x.command.registryFor id) := by
    obtain ⟨hcommand, hstate⟩ := hsound x hmem
    obtain ⟨registry, hregistry⟩ := Option.isSome_iff_exists.mp hchanges.1
    have hafter : storedRegistry id x.after = _ := (storedRegistry_exec hcommand hstate).2
    rw [hafter, hregistry]
    rfl
  rw [← hwritten]
  refine Pool.view_after (fun w => field.valueIn (storedRegistry id w)) ?_ schedule [] _ hsplit ?_
  · rintro (duration | db) w
    · rfl
    · rfl
  · intro y hy
    have hymem : y ∈ (Pool.idle start).issued registrySystem [] schedule := by
      rw [hsplit]
      exact List.mem_append_right _ (List.mem_cons_of_mem _ hy)
    obtain ⟨hcommand, hstate⟩ := hsound y hymem
    have hafter : storedRegistry id y.after = _ := (storedRegistry_exec hcommand hstate).2
    rw [hafter]
    cases hregistry : y.command.registryFor id with
    | none => rfl
    | some registry =>
      have hsome : (y.command.registryFor id).isSome = true := by rw [hregistry]; rfl
      have hnot := hlater y hy
      have hsame : field.valueIn (y.command.registryFor id) =
          field.valueIn (RegistryIssue.read id y) := by
        by_contra hne
        exact hnot ⟨hsome, Or.inl hne⟩
      rw [hcurrent y hymem hsome field hnot, ← hsame, hregistry]
      rfl

/-! ## A grant mode that is lost -/

namespace LostModeExample

open RefreshExample

attribute [local instance] platform

def reply : Reply := { respond := respond }

/-- An administrator makes the scope automatic. -/
def automatic : UpdateApiResourceRequest :=
  { scopeGrantModes := some [{ scope := "read", grantMode := .automatic }] }

/-- The administrator's update begins and ends while a refresh waits for the resource. -/
def overtaken : List (Action Reply RegistryRequest RegistryEvent) :=
  .start (.refresh "api") :: List.replicate 3 (.advance 0 reply) ++
    .start (.update "api" automatic) :: List.replicate 10 (.advance 1 reply) ++
      List.replicate 12 (.advance 0 reply)

def overtakenPool : Pool Command World Reply Error ApiResource RegistryRequest :=
  (Pool.idle (world .assigned)).run registrySystem overtaken

def overtakenIssued : List RegistryIssue :=
  (Pool.idle (world .assigned)).issued registrySystem [] overtaken

theorem overtakenIssued_length : 10 < overtakenIssued.length := by
  decide +kernel

/-- The batch of the administrator's update. -/
def modeWrite : RegistryIssue := overtakenIssued.get ⟨10, overtakenIssued_length⟩

theorem overtakenIssued_split :
    overtakenIssued = overtakenIssued.take 10 ++ modeWrite :: overtakenIssued.drop 11 := by
  rw [modeWrite, List.get_eq_getElem, ← List.drop_eq_getElem_cons, List.take_append_drop]

/-- The refresh writes the mode that it read, after the update was acknowledged. -/
theorem registry_change_lost :
    ¬ ∀ (id : String) (start : World), (start.db.findResource id).isSome = true →
      ∀ schedule : List (Action Reply RegistryRequest RegistryEvent),
        NoRegistryChangeLost id ((Pool.idle start).run registrySystem schedule)
          ((Pool.idle start).issued registrySystem [] schedule) := by
  intro hclaim
  have hkept : (RegistryField.grantMode "read").valueIn
      (storedRegistry "api" overtakenPool.state) = _ :=
    hclaim "api" (world .assigned) rfl overtaken (overtakenIssued.take 10) modeWrite
      (overtakenIssued.drop 11)
      overtakenIssued_split
      (by decide +kernel) (.grantMode "read") (by decide +kernel) (by decide +kernel)
  revert hkept
  decide +kernel

/-- The same update, after the refresh has ended. -/
def consecutive : List (Action Reply RegistryRequest RegistryEvent) :=
  .start (.refresh "api") :: .start (.update "api" automatic) ::
    List.replicate 15 (.advance 0 reply) ++ List.replicate 10 (.advance 1 reply)

theorem no_registry_change_lost_consecutive :
    NoRegistryChangeLost "api"
      ((Pool.idle (world .assigned)).run registrySystem consecutive)
      ((Pool.idle (world .assigned)).issued registrySystem [] consecutive) := by
  refine no_registry_change_lost "api" (world .assigned) rfl consecutive ?_
  have hread : ∀ x ∈ (Pool.idle (world .assigned)).issued registrySystem [] consecutive,
      (x.command.registryFor "api").isSome = true →
        storedRegistry "api" x.state = RegistryIssue.read "api" x := by
    decide +kernel
  intro x hx hwrites field _
  rw [hread x hx hwrites]

end LostModeExample

end Realmroot
