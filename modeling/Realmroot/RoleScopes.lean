import Realmroot.Rules
import Realmroot.Usecases.OrganizationRoles
import Realmroot.Usecases.ResourceDiscovery

/-!
# Scopes of a role

A role stores each of its scopes as one text, which names the resource and the scope. The texts
read back, in the code that is shared and in the repository alike, and what a role stores
decodes to the scopes with which it was created.
-/

namespace Realmroot

open AtomicProgram Program

/-! ## One scope -/

theorem encodeURIComponent_injective : Function.Injective encodeURIComponent := by
  intro value value' h
  have hread := congrArg decodeURIComponent h
  rw [decodeURIComponent_encodeURIComponent, decodeURIComponent_encodeURIComponent] at hread
  exact Option.some.inj hread

theorem encodeURIComponent_ne_empty {value : String} (h : value ≠ "") :
    (encodeURIComponent value).toList ≠ [] := by
  intro hempty
  apply h
  apply encodeURIComponent_injective
  have hencoded : encodeURIComponent "" = "" := rfl
  rw [hencoded, ← String.toList_inj, hempty]
  rfl

theorem encodeRoleScope_toList (resourceId scope : String) :
    (encodeRoleScope resourceId scope).toList =
      (encodeURIComponent resourceId).toList ++ '/' :: (encodeURIComponent scope).toList := by
  simp [encodeRoleScope, String.toList_append]

/-- An encoded resource has no separator of its own. -/
theorem takeWhile_encodeURIComponent (value : String) (rest : List Char) :
    ((encodeURIComponent value).toList ++ '/' :: rest).takeWhile (· ≠ '/') =
        (encodeURIComponent value).toList ∧
      ((encodeURIComponent value).toList ++ '/' :: rest).dropWhile (· ≠ '/') = '/' :: rest := by
  have hfree : ∀ c ∈ (encodeURIComponent value).toList, decide (c ≠ '/') = true := by
    intro c hc
    apply decide_eq_true
    rintro rfl
    exact slash_not_mem_encodeURIComponent value hc
  rw [List.takeWhile_append_of_pos hfree, List.dropWhile_append_of_pos hfree]
  simp

theorem decodeRoleScope_encodeRoleScope {resourceId scope : String} (hresource : resourceId ≠ "")
    (hscope : scope ≠ "") :
    decodeRoleScope (encodeRoleScope resourceId scope) =
      some { resourceId := resourceId, scope := scope } := by
  obtain ⟨hbefore, hafter⟩ :=
    takeWhile_encodeURIComponent resourceId (encodeURIComponent scope).toList
  unfold decodeRoleScope
  simp only [encodeRoleScope_toList, hbefore, hafter, List.drop_succ_cons, List.drop_zero]
  simp [encodeURIComponent_ne_empty hresource, encodeURIComponent_ne_empty hscope,
    decodeURIComponent_encodeURIComponent]

theorem encodeRoleScope_inj {resourceId scope resourceId' scope' : String}
    (h : encodeRoleScope resourceId scope = encodeRoleScope resourceId' scope') :
    resourceId = resourceId' ∧ scope = scope' := by
  have hlist := congrArg String.toList h
  rw [encodeRoleScope_toList, encodeRoleScope_toList] at hlist
  obtain ⟨hbefore, hafter⟩ :=
    takeWhile_encodeURIComponent resourceId (encodeURIComponent scope).toList
  obtain ⟨hbefore', hafter'⟩ :=
    takeWhile_encodeURIComponent resourceId' (encodeURIComponent scope').toList
  rw [hlist, hbefore'] at hbefore
  rw [hlist, hafter'] at hafter
  obtain ⟨-, hscope⟩ := List.cons.inj hafter
  exact ⟨(encodeURIComponent_injective (String.toList_injective hbefore)).symm,
    (encodeURIComponent_injective (String.toList_injective hscope)).symm⟩

/-- Slicing at the first separator is reading up to it. -/
theorem findIdx?_slash (chars : List Char) :
    match chars.findIdx? (· = '/') with
    | none => chars.dropWhile (· ≠ '/') = []
    | some separator => chars.takeWhile (· ≠ '/') = chars.take separator ∧
        chars.dropWhile (· ≠ '/') = chars.drop separator ∧ separator < chars.length := by
  induction chars with
  | nil => simp
  | cons c chars ih =>
    rw [List.findIdx?_cons]
    by_cases hc : c = '/'
    · simp [hc]
    · simp only [hc, decide_false, Bool.false_eq_true, ↓reduceIte]
      cases hfound : chars.findIdx? (· = '/') with
      | none =>
        rw [hfound] at ih
        simpa [hc] using ih
      | some separator =>
        rw [hfound] at ih
        simpa [hc] using ih

/-- The decoder of the repository and the one that is shared agree on every text. -/
theorem decodePermissionScope_eq (value : String) :
    decodePermissionScope value = (decodeRoleScope value).toList := by
  have hslice := findIdx?_slash value.toList
  unfold decodePermissionScope decodeRoleScope
  cases hfound : value.toList.findIdx? (· = '/') with
  | none =>
    rw [hfound] at hslice
    dsimp only at hslice
    simp only [hslice, List.drop_nil, or_true, ↓reduceIte]
    rfl
  | some separator =>
    rw [hfound] at hslice
    obtain ⟨hbefore, hafter, hlt⟩ := hslice
    have hdrop : (value.toList.drop separator).drop 1 = value.toList.drop (separator + 1) := by
      rw [List.drop_drop]
    have hempty : (separator < 1 ∨ separator = value.toList.length - 1) ↔
        value.toList.take separator = [] ∨ value.toList.drop (separator + 1) = [] := by
      rw [List.take_eq_nil_iff, List.drop_eq_nil_iff]
      have hne : value.toList ≠ [] := List.ne_nil_of_length_pos (by omega)
      simp only [hne, or_false]
      omega
    simp only [hbefore, hafter, hdrop, hempty]
    split_ifs
    · rfl
    · split <;> simp_all

/-! ## The record of a role -/

section Records

variable [Platform] {scopes : List RoleScope}

/-- The request schema: both texts are not empty. -/
def RoleScope.Named (scope : RoleScope) : Prop := scope.resourceId ≠ "" ∧ scope.scope ≠ ""

omit [Platform] in
theorem decodePermissionScopes_toBetterAuthPermission (h : ∀ scope ∈ scopes, scope.Named) :
    decodePermissionScopes (toBetterAuthPermission scopes) = scopes := by
  have hlookup : (toBetterAuthPermission scopes).lookup "scope" =
      some (scopes.map fun item => encodeRoleScope item.resourceId item.scope) := rfl
  unfold decodePermissionScopes
  rw [hlookup, Option.getD_some]
  induction scopes with
  | nil => rfl
  | cons scope scopes ih =>
    obtain ⟨hresource, hscope⟩ := h scope List.mem_cons_self
    rw [List.map_cons, List.flatMap_cons, decodePermissionScope_eq,
      decodeRoleScope_encodeRoleScope hresource hscope,
      ih (fun item hitem => h item (List.mem_cons_of_mem _ hitem)) rfl]
    rfl

/-- No scope is dropped for another one: two scopes under one key are the same. -/
def DistinctKeys (scopes : List RoleScope) : Prop :=
  ∀ scope ∈ scopes, ∀ other ∈ scopes, scope.text = other.text → scope = other

theorem normalizeRoleScopes_subset : normalizeRoleScopes scopes ⊆ scopes := by
  intro scope hscope
  obtain ⟨text, -, hfind⟩ := List.mem_filterMap.mp ((List.mem_insertionSort _).mp hscope)
  exact List.mem_reverse.mp (List.mem_of_find?_eq_some hfind)

/-- Each scope has one under its key that is kept. -/
theorem exists_mem_normalizeRoleScopes {scope : RoleScope} (h : scope ∈ scopes) :
    ∃ kept ∈ normalizeRoleScopes scopes, kept.text = scope.text := by
  have hfound : (scopes.reverse.find? fun item => item.text = scope.text).isSome := by
    rw [List.find?_isSome]
    exact ⟨scope, List.mem_reverse.mpr h, by simp⟩
  obtain ⟨kept, hkept⟩ := Option.isSome_iff_exists.mp hfound
  refine ⟨kept, ?_, by simpa using List.find?_some hkept⟩
  apply (List.mem_insertionSort _).mpr
  exact List.mem_filterMap.mpr ⟨scope.text, mem_unique.mpr (List.mem_map_of_mem h), hkept⟩

/-- The scope holds no separator of keys. -/
def RoleScope.Plain (scope : RoleScope) : Prop :=
  '\x00' ∉ scope.resourceId.toList ∧ '\x00' ∉ scope.scope.toList

omit [Platform] in
/-- A key with one separator belongs to one scope. -/
theorem RoleScope.eq_of_text_eq {scope other : RoleScope} (hplain : scope.Plain)
    (h : other.text = scope.text) : other = scope := by
  have hlist : scope.resourceId.toList ++ '\x00' :: scope.scope.toList =
      other.resourceId.toList ++ '\x00' :: other.scope.toList := by
    simpa [RoleScope.text, String.toList_append] using congrArg String.toList h.symm
  obtain ⟨hresource, -, hscope⟩ :=
    (List.append_cons_inj_of_notMem hplain.1 hplain.2).mp hlist
  cases other
  cases scope
  simp_all [String.toList_inj]

/-- Where the scopes that are kept hold no separator, none is dropped for another one. -/
theorem mem_normalizeRoleScopes (hplain : ∀ scope ∈ normalizeRoleScopes scopes, scope.Plain)
    {scope : RoleScope} : scope ∈ normalizeRoleScopes scopes ↔ scope ∈ scopes := by
  constructor
  · intro h
    exact normalizeRoleScopes_subset h
  · intro h
    obtain ⟨kept, hkept, htext⟩ := exists_mem_normalizeRoleScopes h
    obtain rfl := RoleScope.eq_of_text_eq (hplain kept hkept) htext.symm
    exact hkept

end Records

/-! ## Creating a role -/

/-- What the registries are made of: `scopeArray` lets only scopes of the scope grammar in, and
the identifiers come from the generator. -/
structure Database.RegistriesStored (db : Database) : Prop where
  ids : ∀ resource ∈ db.apiResources, '\x00' ∉ resource.id.toList
  scopes : ∀ resource ∈ db.apiResources, ∀ scope ∈ resource.declaredScopes,
    scope.toList.all isScopeCharacter = true

/-- The scopes that a synchronization stores are of the scope grammar. -/
theorem synchronizedScopes_isScopeCharacter [Platform] {sourceUrl resourceUrl : String}
    {response : PeerResponse} {metadata : ProtectedResourceMetadata}
    (h : protectedResourceMetadata sourceUrl resourceUrl response = .ok metadata)
    (registry : Option ResourceScopeRegistry) (described : List ResourceScopeDefinition) :
    ∀ scope ∈ synchronizedScopes registry described metadata.scopesSupported,
      scope.value.toList.all isScopeCharacter = true := by
  intro scope hscope
  obtain ⟨value, hvalue, rfl⟩ := List.mem_map.mp hscope
  obtain ⟨found, hfound⟩ : ∃ found, scopeArray found = some metadata.scopesSupported := by
    unfold protectedResourceMetadata at h
    dsimp only at h
    split_ifs at h
    split at h
    · split_ifs at h
      split at h
      · cases h
      · rename_i scopesSupported hscopes
        cases h
        exact ⟨_, hscopes⟩
    · cases h
  unfold scopeArray at hfound
  split at hfound
  · split_ifs at hfound
    obtain ⟨scopes, hscopes, heq⟩ := Option.map_eq_some_iff.mp hfound
    have hall := (Option.filter_eq_some_iff.mp hscopes).2
    rw [← heq, mem_sortStrings, mem_unique] at hvalue
    have hone := List.all_eq_true.mp hall value hvalue
    simp only [Bool.and_eq_true] at hone
    exact hone.2
  · cases hfound

/-- Anything may happen between two commands of a request that leaves the registries so. -/
def registriesStored : Contract Command World Reply :=
  alone Command (fun _ t => t.db.RegistriesStored) fun _ => True

theorem not_mem_of_isScopeCharacter {scope : String}
    (h : scope.toList.all isScopeCharacter = true) : '\x00' ∉ scope.toList := by
  intro hmem
  have hchar := List.all_eq_true.mp h _ hmem
  revert hchar
  decide

theorem not_mem_of_inScopeRegistry {scope : String} (h : inScopeRegistry scope = true) :
    '\x00' ∉ scope.toList := by
  have hall : ∀ key ∈ realmrootOrganizationScopes ++ objectPrototypeKeys,
      '\x00' ∉ key.toList := by
    decide
  apply hall
  simpa [inScopeRegistry] using h

/-- A scope that is accepted holds no separator of keys. -/
theorem plain_of_validateScopesAt {organizationId : String} {requestedScopes : List String}
    {resource : ApiResource} {db : Database} (hstored : db.RegistriesStored)
    (hresource : resource ∈ db.apiResources)
    (h : validateScopesAt organizationId requestedScopes resource = .ok ()) :
    ∀ scope ∈ requestedScopes, '\x00' ∉ scope.toList := by
  intro scope hscope
  unfold validateScopesAt at h
  split_ifs at h with _ _ hall hany
  · exact not_mem_of_inScopeRegistry (List.all_eq_true.mp hall scope hscope)
  · have hdeclared : scope ∈ resource.declaredScopes := by
      by_contra hnot
      exact hany (List.any_eq_true.mpr ⟨scope, hscope, by simp [hnot]⟩)
    exact not_mem_of_isScopeCharacter (hstored.scopes resource hresource scope hdeclared)

section Creation

variable {organizationId : String} {w : World}

theorem validateRoleScopes_meets {scopes : List RoleScope} :
    (validateRoleScopes organizationId scopes).Meets registriesStored (fun result _ =>
      match result with
      | .ok _ => ∀ scope ∈ scopes, scope.Plain
      | .error _ => True) w := by
  let pending : List String → World → Prop := fun resourceIds _ =>
    ∀ scope ∈ scopes, scope.resourceId ∈ resourceIds ∨ scope.Plain
  refine (meets_forEach ?_ ?_ _ w (?_ : pending _ w))
  · intro resourceId resourceIds s hinv
    change (query (·.findResource resourceId) >>= fun found =>
      (orThrow (Error.notFound "API resource was not found.") found >>= fun resource =>
        ofResult (validateScopesAt organizationId
          ((scopes.filter fun item => item.resourceId = resourceId).map (·.scope)) resource))
      ).Meets _ _ s
    apply meets_query
    intro t hstored _
    refine ⟨trivial, ?_⟩
    apply meets_orThrow
    · intro _
      trivial
    intro resource hfound
    have hresource : resource ∈ t.db.apiResources := List.mem_of_find?_eq_some hfound
    have hid : resource.id = resourceId := by
      have hfields := List.find?_some hfound
      simp only [Bool.and_eq_true, decide_eq_true_eq] at hfields
      exact hfields.1
    cases hvalid : validateScopesAt organizationId
        ((scopes.filter fun item => item.resourceId = resourceId).map (·.scope)) resource with
    | error e => trivial
    | ok u =>
      intro scope hscope
      rcases hinv scope hscope with hnext | hplain
      · rcases List.mem_cons.mp hnext with heq | hlater
        · right
          refine ⟨?_, ?_⟩
          · rw [heq, ← hid]
            exact hstored.ids resource hresource
          · apply plain_of_validateScopesAt hstored hresource hvalid
            exact List.mem_map.mpr ⟨scope, List.mem_filter.mpr ⟨hscope, by simp [heq]⟩, rfl⟩
        · exact Or.inl hlater
      · exact Or.inr hplain
  · intro s hinv scope hscope
    simpa using hinv scope hscope
  · intro scope hscope
    left
    exact mem_unique.mpr (List.mem_map_of_mem hscope)

variable [Platform] {input : CreateRoleRequest} {actor : MutationActor}

/-- The role is stored with exactly the scopes. -/
def StoresRole (organizationId key : String) (scopes : List RoleScope) (db : Database) : Prop :=
  ∃ row ∈ db.organizationRoles, row.organizationId = organizationId ∧ row.role = key ∧
    ∀ scope, scope ∈ decodePermissionScopes row.permission ↔ scope ∈ scopes

theorem createRole_meets (hnamed : ∀ scope ∈ input.scopes, scope.Named) :
    (createRole organizationId input actor).Meets registriesStored (fun result t =>
      result = .ok () → StoresRole organizationId input.key input.scopes t.db) w := by
  have hfound : (getOrganization organizationId).Meets registriesStored (fun _ _ => True) w := by
    apply meets_query
    intro t _ _
    refine ⟨trivial, ?_⟩
    cases t.db.findOrganization organizationId <;> trivial
  apply (meets_bind _ _ _ _).mpr
  apply hfound.mono
  rintro (e | organization) t -
  · intro h
    cases h
  apply meets_throwIf
  · intro _ h
    cases h
  intro _
  apply (meets_bind _ _ _ _).mpr
  apply validateRoleScopes_meets.mono
  rintro (e | u) v hplain
  · intro h
    cases h
  apply meets_currentTime
  intro now _ _
  refine ⟨trivial, ?_⟩
  apply meets_generateId
  intro auditId _ _
  refine ⟨trivial, ?_⟩
  apply meets_generateId
  intro id _ _
  refine ⟨trivial, ?_⟩
  apply meets_perform_last
  intro s _ _
  refine ⟨trivial, ?_⟩
  split
  · rename_i answer db hok
    intro _
    have hafter : (exec (Command.role (.createRole _ _)) s).db = db := Statement.after_of_ok hok
    obtain ⟨-, hdb⟩ := Database.createOrganizationRole_ok hok
    have hrows : ∀ scope ∈ normalizeRoleScopes input.scopes, scope.Named := fun scope hscope =>
      hnamed scope (normalizeRoleScopes_subset hscope)
    rw [hafter, hdb]
    refine ⟨_, List.mem_append_right _ (List.mem_singleton_self _), rfl, rfl, ?_⟩
    intro scope
    rw [decodePermissionScopes_toBetterAuthPermission hrows]
    exact mem_normalizeRoleScopes hplain
  · intro h
    cases h

end Creation

/-- Role scopes read back: one by one, through both decoders, and as the record of a role. -/
theorem roleScopes_read_back [Platform] :
    (∀ resourceId scope, resourceId ≠ "" → scope ≠ "" →
      decodeRoleScope (encodeRoleScope resourceId scope) =
        some { resourceId := resourceId, scope := scope }) ∧
    (∀ resourceId scope resourceId' scope',
      encodeRoleScope resourceId scope = encodeRoleScope resourceId' scope' →
        resourceId = resourceId' ∧ scope = scope') ∧
    (∀ value, decodePermissionScope value = (decodeRoleScope value).toList) ∧
    ∀ organizationId input actor w, (∀ scope ∈ input.scopes, scope.Named) →
      (createRole organizationId input actor).Meets registriesStored (fun result t =>
        result = .ok () → StoresRole organizationId input.key input.scopes t.db) w :=
  ⟨fun _ _ hresource hscope => decodeRoleScope_encodeRoleScope hresource hscope,
    fun _ _ _ _ => encodeRoleScope_inj, decodePermissionScope_eq,
    fun _ _ _ _ hnamed => createRole_meets hnamed⟩

namespace RoleScopesExample

/-- A resource whose scope holds the separator and a percent sign. -/
def resource : ApiResource :=
  { id := "a/b", identifier := "files", name := "Files", description := none
    resourceUrl := "https://files.example", authorizationModel := .native, connectorId := none
    authorizationDetails := [], enabled := true, ownerOrganizationId := "acme"
    visibility := .private
    scopeRegistry := some
      { scopes := [{ value := "read/100%", description := none, grantMode := .assigned }] }
    availableToAgents := false, deletedAt := none, updatedAt := 0 }

def world : World :=
  { db :=
      { organizations := [{ id := "acme", slug := "acme", disabled := false }]
        apiResources := [resource] }
    clock := 0, nextId := 0 }

def input : CreateRoleRequest :=
  { key := "reader", scopes := [{ resourceId := "a/b", scope := "read/100%" }]
    validKey := by decide }

def actor : MutationActor := { controllerUserId := some "bob", agent := none }

/-- Between two commands the registries are as they were. -/
def restoring : Surroundings World Reply :=
  { elapse := fun _ s => { s with db := { s.db with apiResources := [resource] } }
    reply := fun _ => {} }

theorem restoring_moves (n : ℕ) (s : World) : (restoring.elapse n s).db.RegistriesStored where
  ids := by
    change ∀ r ∈ [resource], _
    decide
  scopes := by
    change ∀ r ∈ [resource], _
    decide

attribute [local instance] samplePlatform

theorem input_named : ∀ scope ∈ input.scopes, scope.Named := by
  intro scope hscope
  obtain rfl := List.mem_singleton.mp hscope
  constructor <;> simp

/-- The role is created, and stores the scope. -/
theorem reader_stored :
    StoresRole "acme" "reader" input.scopes
      ((createRole "acme" input actor).execute restoring 0 world).2.db := by
  have hmeets := roleScopes_read_back.2.2.2 "acme" input actor world input_named
  have hpost := hmeets.execute restoring restoring_moves (fun _ => trivial) 0
  exact hpost (by decide +kernel)

end RoleScopesExample

end Realmroot
