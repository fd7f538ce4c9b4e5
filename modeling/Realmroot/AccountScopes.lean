import Realmroot.Rules
import Realmroot.Usecases.TokenIssue

/-!
# Scopes of an account for chosen details

The catalog of a provider may say of each detail which scopes are granted there. The scopes that
are accepted for several details are those that all of them grant; when one detail does not say,
the scopes of the whole account are accepted instead.
-/

namespace Realmroot

open AtomicProgram Program

section Catalog

variable [Platform]

/-- The items of the pages, in the order in which they are read. -/
def itemsOf (pages : List AuthorizationDetailCatalog) : List AuthorizationDetailCatalogItem :=
  pages.flatMap (·.items)

/-- What the items say last about the detail with the text: nothing, no scopes, or which ones. -/
def said (items : List AuthorizationDetailCatalogItem) (key : String) :
    Option (Option (List String)) :=
  (items.reverse.find? fun item => canonicalDetail item.authorizationDetail = key).map
    (·.grantedScopes)

/-- What the catalog says about a detail. -/
def saidOf (pages : List AuthorizationDetailCatalog) (detail : AuthorizationDetail) :
    Option (Option (List String)) :=
  said (itemsOf pages) (canonicalDetail detail)

/-- The texts of the requested details. -/
def requestedTexts (details : List AuthorizationDetail) : List String :=
  unique (details.map canonicalDetail)

/-- What `accountScopesForAuthorizationDetails` makes of the pages that it reads. -/
def contextualScopes (details : List AuthorizationDetail)
    (pages : List AuthorizationDetailCatalog) : Option (List String) :=
  commonScopes (requestedTexts details) (recordGrants (requestedTexts details) (itemsOf pages) [])

/-- The loop of `accountScopesForAuthorizationDetails`, with the pages that it reads. -/
def readPages (resource : ApiResource) (connection : ProviderResourceAuthorizationRecord)
    (requested : List String) :
    ℕ → ℕ → GrantedByDetail → Request (List AuthorizationDetailCatalog)
  | 0, _, _ => .throw (Error.badGateway "Authorization detail catalog could not be reached.")
  | pages + 1, page, granted =>
    (readResourceCatalog resource connection page).bind fun catalog =>
      if (recordGrants requested catalog.items granted).length = requested.length ∨
          catalog.totalPages ≤ catalog.page then .pure [catalog]
      else
        (readPages resource connection requested pages (page + 1)
          (recordGrants requested catalog.items granted)).bind fun rest => .pure (catalog :: rest)

/-- The pages that `accountScopesForAuthorizationDetails` reads. -/
def catalogPages (resource : ApiResource) (connection : ProviderResourceAuthorizationRecord)
    (details : List AuthorizationDetail) : Request (List AuthorizationDetailCatalog) :=
  readPages resource connection (requestedTexts details) (lastCatalogPage connection) 1 []

theorem recordGrants_append (requested : List String)
    (first second : List AuthorizationDetailCatalogItem) (granted : GrantedByDetail) :
    recordGrants requested (first ++ second) granted =
      recordGrants requested second (recordGrants requested first granted) :=
  List.foldl_append

theorem readGrants_eq (resource : ApiResource) (connection : ProviderResourceAuthorizationRecord)
    (requested : List String) (fuel page : ℕ) (granted : GrantedByDetail) :
    readGrants resource connection requested fuel page granted =
      (readPages resource connection requested fuel page granted).bind fun pages =>
        .pure (recordGrants requested (itemsOf pages) granted) := by
  induction fuel generalizing page granted with
  | zero => rfl
  | succ fuel ih =>
    rw [readPages, Program.bind_assoc]
    change (readResourceCatalog resource connection page).bind _ = _
    congr 1
    funext catalog
    dsimp only
    split_ifs with hstop
    · simp [itemsOf]
    · rw [ih, Program.bind_assoc]
      congr 1
      funext rest
      simp [itemsOf, recordGrants_append]

theorem accountScopes_eq (resource : ApiResource)
    (connection : ProviderResourceAuthorizationRecord) (details : List AuthorizationDetail) :
    accountScopesForAuthorizationDetails resource connection details =
      (catalogPages resource connection details).bind fun pages =>
        .pure (contextualScopes details pages) := by
  rw [catalogPages]
  change (readGrants resource connection (requestedTexts details) _ 1 []).bind _ = _
  rw [readGrants_eq, Program.bind_assoc]
  rfl

/-! ## What is recorded -/

theorem said_append (items : List AuthorizationDetailCatalogItem)
    (item : AuthorizationDetailCatalogItem) (key : String) :
    said (items ++ [item]) key =
      if canonicalDetail item.authorizationDetail = key then some item.grantedScopes
      else said items key := by
  simp only [said, List.reverse_append, List.reverse_singleton, List.singleton_append,
    List.find?_cons]
  split_ifs with hkey
  · simp [hkey]
  · simp [hkey]

/-- The entries are those of the requested details that were found, each once. -/
structure Records (requested : List String) (items : List AuthorizationDetailCatalogItem)
    (granted : GrantedByDetail) : Prop where
  keys : (granted.map (·.1)).Nodup
  entries : ∀ key value, (key, value) ∈ granted ↔ key ∈ requested ∧ said items key = some value

omit [Platform] in
theorem mem_setEntry {α : Type} {entries : List (String × α)} {key other : String}
    {value value' : α} :
    (other, value') ∈ setEntry entries key value ↔
      (other = key ∧ value' = value) ∨ (other ≠ key ∧ (other, value') ∈ entries) := by
  unfold setEntry
  split_ifs with hany
  · obtain ⟨⟨key', old⟩, hold, hkey⟩ := List.any_eq_true.mp hany
    have hkey' : key' = key := by simpa using hkey
    subst hkey'
    simp only [List.mem_map]
    constructor
    · rintro ⟨⟨name, entry⟩, hentry, heq⟩
      by_cases hname : name = key'
      · rw [if_pos hname] at heq
        cases heq
        exact Or.inl ⟨rfl, rfl⟩
      · rw [if_neg hname] at heq
        cases heq
        exact Or.inr ⟨hname, hentry⟩
    · rintro (⟨rfl, rfl⟩ | ⟨hne, hentry⟩)
      · exact ⟨(other, old), hold, by simp⟩
      · exact ⟨(other, value'), hentry, by simp [hne]⟩
  · have hnone : ∀ entry ∈ entries, entry.1 ≠ key := fun entry hentry hkey =>
      hany (List.any_eq_true.mpr ⟨entry, hentry, by simp [hkey]⟩)
    simp only [List.mem_append, List.mem_singleton, Prod.mk.injEq]
    constructor
    · rintro (hentry | ⟨rfl, rfl⟩)
      · exact Or.inr ⟨hnone _ hentry, hentry⟩
      · exact Or.inl ⟨rfl, rfl⟩
    · rintro (⟨rfl, rfl⟩ | ⟨-, hentry⟩)
      · exact Or.inr ⟨rfl, rfl⟩
      · exact Or.inl hentry

omit [Platform] in
theorem setEntry_keys {α : Type} {entries : List (String × α)} {key : String} {value : α}
    (h : (entries.map (·.1)).Nodup) : ((setEntry entries key value).map (·.1)).Nodup := by
  unfold setEntry
  split_ifs with hany
  · have hsame : (entries.map fun entry => if entry.1 = key then (key, value) else entry).map
        (·.1) = entries.map (·.1) := by
      rw [List.map_map]
      apply List.map_congr_left
      intro entry _
      by_cases hkey : entry.1 = key <;> simp [hkey]
    rw [hsame]
    exact h
  · have hnone : ∀ entry ∈ entries, entry.1 ≠ key := fun entry hentry hkey =>
      hany (List.any_eq_true.mpr ⟨entry, hentry, by simp [hkey]⟩)
    rw [List.map_append, List.map_singleton]
    refine h.append (List.nodup_singleton _) ?_
    intro name hname hkey
    obtain ⟨entry, hentry, rfl⟩ := List.mem_map.mp hname
    exact hnone entry hentry (List.mem_singleton.mp hkey)

theorem records_nil (requested : List String) : Records requested [] [] :=
  ⟨List.nodup_nil, by simp [said]⟩

/-- One more item is recorded. -/
theorem Records.item {requested : List String} {items : List AuthorizationDetailCatalogItem}
    {granted : GrantedByDetail} (h : Records requested items granted)
    (item : AuthorizationDetailCatalogItem) :
    Records requested (items ++ [item]) (recordGrants requested [item] granted) := by
  change Records requested (items ++ [item])
    (if requested.contains (canonicalDetail item.authorizationDetail) then
      setEntry granted (canonicalDetail item.authorizationDetail) item.grantedScopes else granted)
  split_ifs with hrequested
  · have hmem : canonicalDetail item.authorizationDetail ∈ requested := by simpa using hrequested
    refine ⟨setEntry_keys h.keys, ?_⟩
    intro key value
    rw [mem_setEntry, said_append, h.entries]
    by_cases hkey : key = canonicalDetail item.authorizationDetail
    · subst hkey
      simp [hmem, eq_comm]
    · simp [hkey, Ne.symm hkey]
  · have hmem : canonicalDetail item.authorizationDetail ∉ requested := by simpa using hrequested
    refine ⟨h.keys, ?_⟩
    intro key value
    rw [said_append, h.entries]
    split_ifs with hkey
    · subst hkey
      simp [hmem]
    · rfl

/-- The items are recorded one after the other. -/
theorem records_recordGrants (requested : List String)
    (items : List AuthorizationDetailCatalogItem) :
    Records requested items (recordGrants requested items []) := by
  induction items using List.reverseRecOn with
  | nil => exact records_nil requested
  | append_singleton items item ih =>
    rw [recordGrants_append]
    exact ih.item item

/-! ## What is accepted -/

omit [Platform] in
/-- The values of entries that all have one. -/
theorem mapM_values {granted : GrantedByDetail} {scopes : List (List String)}
    (h : granted.mapM (·.2) = some scopes) :
    ∀ key value, (key, some value) ∈ granted → value ∈ scopes := by
  induction granted generalizing scopes with
  | nil => simp
  | cons entry granted ih =>
    rw [List.mapM_cons] at h
    obtain ⟨first, hfirst, h⟩ := Option.bind_eq_some_iff.mp h
    obtain ⟨rest, hrest, h⟩ := Option.bind_eq_some_iff.mp h
    cases h
    intro key value hmem
    rcases List.mem_cons.mp hmem with heq | hmem
    · subst heq
      cases hfirst
      exact List.mem_cons_self
    · exact List.mem_cons_of_mem _ (ih hrest key value hmem)

omit [Platform] in
theorem mapM_values_none {granted : GrantedByDetail} :
    granted.mapM (·.2) = none ↔ ∃ key, (key, none) ∈ granted := by
  induction granted with
  | nil => simp
  | cons entry granted ih =>
    obtain ⟨name, value⟩ := entry
    rw [List.mapM_cons]
    cases value with
    | none => simp
    | some scopes =>
      cases hrest : granted.mapM (·.2) with
      | none =>
        obtain ⟨key, hkey⟩ := ih.mp hrest
        simp only [Option.bind_eq_bind, Option.bind_some, Option.bind_none, true_iff]
        exact ⟨key, List.mem_cons_of_mem _ hkey⟩
      | some rest =>
        have hnone : ¬ ∃ key, (key, none) ∈ granted := fun h => by simp [ih.mpr h] at hrest
        simpa using hnone

omit [Platform] in
/-- What all entries grant, each of them grants. -/
theorem commonScopes_subset {requested : List String} {granted : GrantedByDetail}
    {scopes : List String} (h : commonScopes requested granted = some scopes) :
    ∀ scope ∈ scopes, ∀ key value, (key, some value) ∈ granted → scope ∈ value := by
  intro scope hscope key value hentry
  unfold commonScopes at h
  split_ifs at h with hlength
  · cases h
    cases hscope
  split at h
  · cases h
  · cases h
    cases hscope
  · rename_i first rest hvalues
    cases h
    have hmem := mapM_values hvalues key value hentry
    simp only [mem_sortStrings, List.mem_filter, List.all_eq_true, List.contains_iff_mem] at hscope
    rcases List.mem_cons.mp hmem with rfl | hmem
    · exact hscope.1
    · exact hscope.2 value hmem

/-- The requested details that are found are as many as the requested ones when all are found. -/
theorem Records.length_eq_iff {requested : List String}
    {items : List AuthorizationDetailCatalogItem} {granted : GrantedByDetail}
    (h : Records requested items granted) (hrequested : requested.Nodup) :
    granted.length = requested.length ↔ ∀ key ∈ requested, (said items key).isSome = true := by
  have hsubset : granted.map (·.1) ⊆ requested := by
    intro key hkey
    obtain ⟨⟨name, value⟩, hentry, rfl⟩ := List.mem_map.mp hkey
    exact ((h.entries name value).mp hentry).1
  have hkeys : ∀ key, key ∈ granted.map (·.1) ↔ key ∈ requested ∧ (said items key).isSome := by
    intro key
    constructor
    · intro hkey
      obtain ⟨⟨name, value⟩, hentry, rfl⟩ := List.mem_map.mp hkey
      obtain ⟨hmem, hsaid⟩ := (h.entries name value).mp hentry
      exact ⟨hmem, by simp [hsaid]⟩
    · rintro ⟨hmem, hsaid⟩
      obtain ⟨value, hvalue⟩ := Option.isSome_iff_exists.mp hsaid
      exact List.mem_map.mpr ⟨(key, value), (h.entries key value).mpr ⟨hmem, hvalue⟩, rfl⟩
  constructor
  · intro hlength key hkey
    have hperm : (granted.map (·.1)).Perm requested :=
      (h.keys.subperm hsubset).perm_of_length_le (by simp [hlength])
    exact ((hkeys key).mp (hperm.mem_iff.mpr hkey)).2
  · intro hall
    have hperm : (granted.map (·.1)).Perm requested :=
      (List.perm_ext_iff_of_nodup h.keys hrequested).mpr fun key =>
        (hkeys key).trans ⟨fun h => h.1, fun hkey => ⟨hkey, hall key hkey⟩⟩
    simpa using hperm.length_eq

/-- Every requested detail is in the catalog. -/
def AllFound (details : List AuthorizationDetail) (pages : List AuthorizationDetailCatalog) :
    Prop :=
  ∀ detail ∈ details, (saidOf pages detail).isSome = true

/-- The catalog does not say of some requested detail which scopes are granted. -/
def SomeUnstated (details : List AuthorizationDetail) (pages : List AuthorizationDetailCatalog) :
    Prop :=
  ∃ detail ∈ details, saidOf pages detail = some none

theorem contextualScopes_records (details : List AuthorizationDetail)
    (pages : List AuthorizationDetailCatalog) :
    Records (requestedTexts details) (itemsOf pages)
      (recordGrants (requestedTexts details) (itemsOf pages) []) :=
  records_recordGrants _ _

theorem mem_requestedTexts {details : List AuthorizationDetail} {key : String} :
    key ∈ requestedTexts details ↔ ∃ detail ∈ details, canonicalDetail detail = key := by
  simp [requestedTexts]

theorem allFound_iff {details : List AuthorizationDetail}
    {pages : List AuthorizationDetailCatalog} :
    (recordGrants (requestedTexts details) (itemsOf pages) []).length =
      (requestedTexts details).length ↔ AllFound details pages := by
  rw [(contextualScopes_records details pages).length_eq_iff (nodup_unique _)]
  constructor
  · exact fun h detail hdetail => h _ (mem_requestedTexts.mpr ⟨detail, hdetail, rfl⟩)
  · intro h key hkey
    obtain ⟨detail, hdetail, rfl⟩ := mem_requestedTexts.mp hkey
    exact h detail hdetail

/-- The account's own scopes are taken when all details are found and one does not say. -/
theorem contextualScopes_none {details : List AuthorizationDetail}
    {pages : List AuthorizationDetailCatalog} :
    contextualScopes details pages = none ↔
      AllFound details pages ∧ SomeUnstated details pages := by
  have hrecords := contextualScopes_records details pages
  have hunstated : (recordGrants (requestedTexts details) (itemsOf pages) []).mapM (·.2) = none ↔
      SomeUnstated details pages := by
    rw [mapM_values_none]
    constructor
    · rintro ⟨key, hkey⟩
      obtain ⟨hmem, hsaid⟩ := (hrecords.entries key none).mp hkey
      obtain ⟨detail, hdetail, rfl⟩ := mem_requestedTexts.mp hmem
      exact ⟨detail, hdetail, hsaid⟩
    · rintro ⟨detail, hdetail, hsaid⟩
      exact ⟨_, (hrecords.entries _ none).mpr
        ⟨mem_requestedTexts.mpr ⟨detail, hdetail, rfl⟩, hsaid⟩⟩
  unfold contextualScopes commonScopes
  split_ifs with hlength
  · simp only [false_iff]
    exact fun h => hlength (allFound_iff.mpr h.1)
  · have hfound : AllFound details pages := allFound_iff.mp (not_not.mp hlength)
    simp only [hfound, true_and, ← hunstated]
    split
    · simp [*]
    · simp [*]
    · simp [*]

/-- The permission check accepts the scopes. -/
def PermissionAccepts (connection : ProviderResourceAuthorizationRecord)
    (contextual : Option (List String)) (scopes : List String) : Prop :=
  assertScopeSubset scopes (contextual.getD connection.grantedScopes) "connected account" = .ok ()

/-- The checks at issue time accept a request for the scopes. -/
def IssueAccepts (connection : ProviderResourceAuthorizationRecord)
    (contextual : Option (List String)) (scopes : List String) : Prop :=
  ∃ context credential, context.request.scopes = scopes ∧
    (match contextual with
      | none => requireProviderCredential connection scopes context.request.authorizationDetails
      | some _ => requireProviderCredential connection [] []) = .ok credential ∧
    checkExternalGrant context
      { connection := connection, credential := credential
        contextualScopes := contextual } = .ok ()

/-- What the checks accept, each requested detail grants of which the catalog says so. -/
def AccountScopesBounded (connection : ProviderResourceAuthorizationRecord)
    (details : List AuthorizationDetail) (pages : List AuthorizationDetailCatalog) : Prop :=
  ∀ scopes, PermissionAccepts connection (contextualScopes details pages) scopes ∨
      IssueAccepts connection (contextualScopes details pages) scopes →
    ∀ scope ∈ scopes, ∀ detail ∈ details, ∀ granted, saidOf pages detail = some (some granted) →
      scope ∈ granted

/-- When a requested detail is unstated, every stated one grants all scopes of the account. -/
def StatedCoverAccount (connection : ProviderResourceAuthorizationRecord)
    (details : List AuthorizationDetail) (pages : List AuthorizationDetailCatalog) : Prop :=
  AllFound details pages → SomeUnstated details pages → ∀ detail ∈ details, ∀ granted,
    saidOf pages detail = some (some granted) → ∀ scope ∈ connection.grantedScopes, scope ∈ granted

omit [Platform] in
theorem assertScopeSubset_ok {requested allowed : List String} {boundary : String} :
    assertScopeSubset requested allowed boundary = .ok () ↔
      ∀ scope ∈ requested, scope ∈ allowed := by
  have hmissing : (requested.filter fun scope => !allowed.contains scope) = [] ↔
      ∀ scope ∈ requested, scope ∈ allowed := by simp [List.filter_eq_nil_iff]
  unfold assertScopeSubset
  dsimp only
  split_ifs with h
  · exact iff_of_true rfl (hmissing.mp h)
  · exact iff_of_false (fun h => by cases h) fun hall => h (hmissing.mpr hall)

theorem IssueAccepts.permission {connection : ProviderResourceAuthorizationRecord}
    {contextual : Option (List String)} {scopes : List String}
    (h : IssueAccepts connection contextual scopes) :
    PermissionAccepts connection contextual scopes := by
  obtain ⟨context, credential, hscopes, -, hcheck⟩ := h
  obtain ⟨⟨⟩, hsubset, -⟩ := Statement.bind_ok hcheck
  rw [hscopes] at hsubset
  exact hsubset

/-- The use case reads pages of the catalog and answers what `contextualScopes` makes of them; for
every list of pages, the accepted scopes are bounded by every stated detail exactly when the
stated details grant all scopes of the account wherever another detail is unstated. -/
theorem account_scopes_bounded (resource : ApiResource)
    (connection : ProviderResourceAuthorizationRecord) (details : List AuthorizationDetail) :
    (accountScopesForAuthorizationDetails resource connection details =
      (catalogPages resource connection details).bind fun pages =>
        .pure (contextualScopes details pages)) ∧
      ∀ pages, AccountScopesBounded connection details pages ↔
        StatedCoverAccount connection details pages := by
  refine ⟨accountScopes_eq resource connection details, fun pages => ⟨?_, ?_⟩⟩
  · intro hbounded hfound hunstated detail hdetail granted hsaid scope hscope
    have hnone := contextualScopes_none.mpr ⟨hfound, hunstated⟩
    have haccepts : PermissionAccepts connection (contextualScopes details pages) [scope] := by
      rw [hnone]
      exact assertScopeSubset_ok.mpr (by simpa using hscope)
    exact hbounded [scope] (Or.inl haccepts) scope List.mem_cons_self detail hdetail granted hsaid
  · intro hcover scopes haccepts scope hscope detail hdetail granted hsaid
    have hpermission : PermissionAccepts connection (contextualScopes details pages) scopes :=
      haccepts.elim id IssueAccepts.permission
    have hallowed := assertScopeSubset_ok.mp hpermission scope hscope
    cases hcontextual : contextualScopes details pages with
    | none =>
      rw [hcontextual] at hallowed
      obtain ⟨hfound, hunstated⟩ := contextualScopes_none.mp hcontextual
      exact hcover hfound hunstated detail hdetail granted hsaid scope hallowed
    | some common =>
      rw [hcontextual] at hallowed
      exact commonScopes_subset hcontextual scope hallowed _ _
        (((contextualScopes_records details pages).entries _ _).mpr
          ⟨mem_requestedTexts.mpr ⟨detail, hdetail, rfl⟩, hsaid⟩)

end Catalog

namespace AccountScopesExample

attribute [local instance] samplePlatform

def project (id : String) : AuthorizationDetail := [("type", .str "project"), ("id", .str id)]

/-- The catalog says of the first project that only reading is granted, and nothing of the
second. -/
def page : AuthorizationDetailCatalog :=
  { items := [{ authorizationDetail := project "a", grantedScopes := some ["read"] },
      { authorizationDetail := project "b", grantedScopes := none }]
    page := 1, totalPages := 1 }

def connection : ProviderResourceAuthorizationRecord :=
  { id := "connection", providerConnectionId := "account", resourceId := "resource"
    status := .active, ownerUserId := some "ada", ownerOrganizationId := none
    externalSubject := "ada", displayName := "Ada", credentials := []
    grantedScopes := ["read", "write"], authorizationDetails := [project "a", project "b"]
    createdAt := 0, updatedAt := 0 }

/-- Writing is accepted for both projects, although the first one grants reading only. -/
theorem unstated_lifts_bound :
    ¬ ∀ connection details pages, AccountScopesBounded connection details pages := by
  intro h
  have hbounded := h connection [project "a", project "b"] [page]
  have haccepts : PermissionAccepts connection
      (contextualScopes [project "a", project "b"] [page]) ["write"] := by
    unfold PermissionAccepts
    decide +kernel
  have hwrite := hbounded ["write"] (Or.inl haccepts) "write" (by simp) (project "a") (by simp)
    ["read"] (by decide +kernel)
  exact absurd hwrite (by decide)

end AccountScopesExample

end Realmroot
