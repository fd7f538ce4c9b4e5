import Realmroot.ContractFailures
import Realmroot.RoleTexts
import Mathlib.Data.String.Basic

/-!
# Callable operations

The security of an OpenAPI operation is a choice between alternatives, each of which asks for
several schemes at once. The operations that are projected carry exactly the sets of scopes that
an alternative asks for and that are advertised.
-/

namespace Realmroot

/-! ## What a document says -/

/-- The grammar of a scope. -/
def IsScope (scope : String) : Prop :=
  scope ≠ "" ∧ scope.toList.all isScopeCharacter = true

/-- Lists of scopes under the names of schemes. -/
def ListsScopes (alternative : Record) : Prop :=
  ∀ entry ∈ alternative, ∃ scopes : List String, entry.2 = .arr (scopes.map .str) ∧
    ∀ scope ∈ scopes, IsScope scope

/-- A list of alternatives. -/
def IsSecurity (value : Json) : Prop :=
  ∃ alternatives : List Record, value = .arr (alternatives.map .obj) ∧
    ∀ alternative ∈ alternatives, ListsScopes alternative

/-- An operation that is given inline and is not empty. -/
def IsInlineOperation (value : Json) : Prop :=
  ∃ operation : Record, value = .obj operation ∧ operation ≠ [] ∧
    ∀ security, operation.field "security" = some security → IsSecurity security

/-- Path items that are given inline, one for each path. -/
def AreInlinePaths (value : Json) : Prop :=
  ∃ paths : Record, value = .obj paths ∧ (paths.map (·.1)).Nodup ∧
    ∀ entry ∈ paths, ∃ item : Record, entry.2 = .obj item ∧
      ∀ method ∈ operationMethods, ∀ operation, item.field method = some operation →
        IsInlineOperation operation

/-- What is asked of a document: it is one of OpenAPI 3, with the root, its references to security
schemes decode, its scopes are scopes and its path items are given inline. -/
structure ValidDocument (document : Json) (root : Record) : Prop where
  isRoot : openApiRoot document = .ok root
  references : ReferencesDecode document
  security : ∀ value, root.field "security" = some value → IsSecurity value
  paths : ∀ value, root.field "paths" = some value → AreInlinePaths value

/-- The document has the operation under the method of the path. -/
def HasOperation (root : Record) (path method : String) (operation : Record) : Prop :=
  ∃ paths item : Record, root.field "paths" = some (.obj paths) ∧ (path, .obj item) ∈ paths ∧
    method ∈ operationMethods ∧ item.field method = some (.obj operation)

/-- The security of an operation: its own, or that of the document. -/
def effectiveSecurity (root operation : Record) : Option Json :=
  (operation.field "security").or (root.field "security")

/-- One of the alternatives of the security of an operation. -/
def IsAlternative (root operation alternative : Record) : Prop :=
  ∃ entries, effectiveSecurity root operation = some (.arr entries) ∧ .obj alternative ∈ entries

/-- The scheme that a candidate stands for: itself, or the one that its reference names. -/
inductive StandsFor (schemes : Record) : Json → Record → Prop
  | itself {scheme : Record} (h : ∀ ref, scheme.field "$ref" ≠ some (.str ref)) :
    StandsFor schemes (.obj scheme) scheme
  | reference {candidate scheme : Record} {encoded name : String}
    (href : candidate.field "$ref" = some (.str (schemeReferencePrefix ++ encoded)))
    (hname : decodeURIComponent encoded = some name)
    (hscheme : schemes.field name = some (.obj scheme)) :
    StandsFor schemes (.obj candidate) scheme

section Specification

variable [Platform]

/-- `oauth2`, `openIdConnect`, or `http` with DPoP. -/
def BearsScopes (scheme : Record) : Prop :=
  scheme.field "type" = some (.str "oauth2") ∨
    scheme.field "type" = some (.str "openIdConnect") ∨
      scheme.field "type" = some (.str "http") ∧
        ∃ name, scheme.field "scheme" = some (.str name) ∧ Platform.toLowerCase name = "dpop"

/-- A scheme of the document with the name bears scopes, directly or through one reference. -/
def NamesScopeScheme (root : Record) (name : String) : Prop :=
  ∃ candidate scheme, (name, candidate) ∈ securitySchemes root ∧
    StandsFor (securitySchemes root) candidate scheme ∧ BearsScopes scheme

/-- The alternative names a scheme that bears scopes, and lists exactly these scopes for all such
schemes together. -/
structure AsksFor (root alternative : Record) (scopes : Finset String) : Prop where
  names : ∃ entry ∈ alternative, NamesScopeScheme root entry.1
  lists : ∀ scope, scope ∈ scopes ↔ ∃ entry ∈ alternative, NamesScopeScheme root entry.1 ∧
    ∃ values, entry.2 = .arr values ∧ .str scope ∈ values

theorem isScopeBearingSecurityScheme_iff (scheme : Record) :
    isScopeBearingSecurityScheme scheme = true ↔ BearsScopes scheme := by
  simp only [isScopeBearingSecurityScheme, BearsScopes, Bool.or_eq_true, Bool.and_eq_true,
    decide_eq_true_eq, or_assoc]
  refine or_congr_right (or_congr_right (and_congr_right fun _ => ?_))
  split
  · rename_i name hscheme
    simp [hscheme]
  · rename_i hnone
    constructor
    · intro h
      cases h
    · rintro ⟨name, hscheme, -⟩
      exact absurd hscheme (hnone name)

theorem not_bearsScopes_nil : ¬ BearsScopes ([] : Record) := by
  rintro (h | h | ⟨h, -⟩) <;> cases h

/-! ## The schemes that bear scopes -/

omit [Platform] in
/-- A node with a field is an object. -/
theorem eq_obj_of_field {value field : Json} {key : String}
    (h : Record.field (objectValueOrEmpty (some value)) key = some field) :
    ∃ fields : Record, value = .obj fields ∧ fields.field key = some field := by
  cases value with
  | obj fields => exact ⟨fields, rfl, h⟩
  | _ => cases h

/-- A candidate resolves to a scheme that bears scopes exactly when it stands for one. -/
theorem resolves_iff (candidate : Json) (schemes : Record) :
    (∃ scheme, resolveSecurityScheme candidate schemes = .ok (some scheme) ∧
        BearsScopes scheme) ↔
      ∃ scheme, StandsFor schemes candidate scheme ∧ BearsScopes scheme := by
  constructor
  · rintro ⟨scheme, hresolve, hbears⟩
    rcases resolveSecurityScheme_eq candidate schemes with
      ⟨encoded, name, href, hname, hok⟩ | ⟨-, herror⟩ | ⟨-, hok⟩ | ⟨hnone, hok⟩
    · rw [hok] at hresolve
      cases hresolve
      obtain ⟨fields, rfl, hfield⟩ := eq_obj_of_field href
      cases hscheme : Record.field schemes name with
      | none =>
        rw [hscheme] at hbears
        exact absurd hbears not_bearsScopes_nil
      | some value =>
        cases value with
        | obj scheme =>
          rw [hscheme] at hbears
          exact ⟨scheme, .reference hfield hname hscheme, hbears⟩
        | _ =>
          rw [hscheme] at hbears
          exact absurd hbears not_bearsScopes_nil
    · rw [herror] at hresolve
      cases hresolve
    · rw [hok] at hresolve
      cases hresolve
    · rw [hok] at hresolve
      cases hresolve
      cases candidate with
      | obj scheme => exact ⟨scheme, .itself hnone, hbears⟩
      | _ => exact absurd hbears not_bearsScopes_nil
  · rintro ⟨scheme, hstands, hbears⟩
    cases hstands with
    | itself hnone => exact ⟨scheme, resolveSecurityScheme_itself hnone, hbears⟩
    | reference href hname hscheme =>
      refine ⟨scheme, ?_, hbears⟩
      rename_i candidate _ _
      have hresolve := @resolveSecurityScheme_reference (.obj candidate) schemes _ _ href hname
      rw [hresolve, hscheme]
      rfl

/-- The names that a loop over the schemes collects. -/
theorem mem_of_foldlM_addScopeScheme {schemes entries : Record} {before names : List String}
    (h : entries.foldlM (addScopeScheme schemes) before = .ok names) {name : String} :
    name ∈ names ↔ name ∈ before ∨ ∃ candidate, (name, candidate) ∈ entries ∧
      ∃ scheme, StandsFor schemes candidate scheme ∧ BearsScopes scheme := by
  induction entries generalizing before with
  | nil =>
    cases h
    simp
  | cons entry entries ih =>
    rw [List.foldlM_cons] at h
    obtain ⟨middle, hround, hrest⟩ := Statement.bind_ok h
    obtain ⟨scheme, hscheme, hmiddle⟩ := Statement.bind_ok hround
    have hbears : scheme.any isScopeBearingSecurityScheme = true ↔
        ∃ found, StandsFor schemes entry.2 found ∧ BearsScopes found := by
      rw [← resolves_iff, hscheme]
      cases scheme with
      | none => simp
      | some scheme => simp [isScopeBearingSecurityScheme_iff]
    rw [ih hrest]
    obtain ⟨key, candidate⟩ := entry
    by_cases hany : scheme.any isScopeBearingSecurityScheme = true
    · rw [if_pos hany] at hmiddle
      cases hmiddle
      have hfound := hbears.mp hany
      simp only [List.mem_append, List.mem_cons, List.not_mem_nil, or_false, Prod.mk.injEq]
      constructor
      · rintro ((hold | rfl) | ⟨other, hother, hstands⟩)
        · exact Or.inl hold
        · exact Or.inr ⟨candidate, Or.inl ⟨rfl, rfl⟩, hfound⟩
        · exact Or.inr ⟨other, Or.inr hother, hstands⟩
      · rintro (hold | ⟨other, ⟨rfl, rfl⟩ | hother, hstands⟩)
        · exact Or.inl (Or.inl hold)
        · exact Or.inl (Or.inr rfl)
        · exact Or.inr ⟨other, hother, hstands⟩
    · rw [if_neg hany] at hmiddle
      cases hmiddle
      have hnone := hbears.not.mp hany
      simp only [List.mem_cons, Prod.mk.injEq]
      constructor
      · rintro (hold | ⟨other, hother, hstands⟩)
        · exact Or.inl hold
        · exact Or.inr ⟨other, Or.inr hother, hstands⟩
      · rintro (hold | ⟨other, ⟨rfl, rfl⟩ | hother, hstands⟩)
        · exact Or.inl hold
        · exact absurd hstands hnone
        · exact Or.inr ⟨other, hother, hstands⟩

/-- The names that are collected are those of the schemes that bear scopes. -/
theorem mem_scopeSchemeNames {root : Record} {names : List String}
    (h : scopeSchemeNames (securitySchemes root) = .ok names) {name : String} :
    name ∈ names ↔ NamesScopeScheme root name := by
  rw [mem_of_foldlM_addScopeScheme h]
  simp only [List.not_mem_nil, false_or, NamesScopeScheme]
  constructor
  · rintro ⟨candidate, hmem, scheme, hstands⟩
    exact ⟨candidate, scheme, hmem, hstands⟩
  · rintro ⟨candidate, scheme, hmem, hstands⟩
    exact ⟨candidate, hmem, scheme, hstands⟩

end Specification

/-! ## Scope sets -/

theorem isWhiteSpace_of_isScopeCharacter {c : Char} (h : isScopeCharacter c = true) :
    isWhiteSpace c = false := by
  simp only [isScopeCharacter, Bool.or_eq_true, Bool.and_eq_true, decide_eq_true_eq,
    UInt32.le_iff_toNat_le, ← UInt32.toNat_inj] at h
  simp [isWhiteSpace, UInt32.le_iff_toNat_le, ← UInt32.toNat_inj] at *
  omega

theorem stringValue_scope {scope : String} (h : IsScope scope) :
    stringValue (some (.str scope)) = some scope := by
  have htrim : trim scope = scope := trim_eq_self fun c hc =>
    isWhiteSpace_of_isScopeCharacter (List.all_eq_true.mp h.2 c hc)
  simp [stringValue, htrim, h.1]

section Sets

variable {names : List String} {alternative : Record}

theorem mem_matchedValues {values : List Json} :
    values ∈ matchedValues names alternative ↔
      ∃ entry ∈ alternative, entry.1 ∈ names ∧ entry.2 = .arr values := by
  unfold matchedValues
  rw [List.mem_filterMap]
  apply exists_congr
  intro entry
  apply and_congr_right
  intro _
  cases hvalue : entry.2 with
  | arr found => by_cases hname : entry.1 ∈ names <;> simp [hname]
  | _ => simp

/-- A requirement has a scope set when it names a scheme. -/
theorem requirementScopeSet_isSome (h : ListsScopes alternative) :
    (requirementScopeSet names alternative).isSome ↔ ∃ entry ∈ alternative, entry.1 ∈ names := by
  have hmatched : matchedValues names alternative ≠ [] ↔
      ∃ entry ∈ alternative, entry.1 ∈ names := by
    constructor
    · intro hne
      obtain ⟨values, hvalues⟩ := List.exists_mem_of_ne_nil _ hne
      obtain ⟨entry, hentry, hname, -⟩ := mem_matchedValues.mp hvalues
      exact ⟨entry, hentry, hname⟩
    · rintro ⟨entry, hentry, hname⟩
      obtain ⟨scopes, hscopes, -⟩ := h entry hentry
      exact List.ne_nil_of_mem (mem_matchedValues.mpr ⟨entry, hentry, hname, hscopes⟩)
  rw [← hmatched]
  unfold requirementScopeSet
  dsimp only
  split_ifs with hnone <;> simp [hnone]

/-- The scopes of a requirement are those that it lists for the schemes. -/
theorem mem_requirementScopeSet (h : ListsScopes alternative) {scopeSet : List String}
    (hset : requirementScopeSet names alternative = some scopeSet) {scope : String} :
    scope ∈ scopeSet ↔ ∃ entry ∈ alternative, entry.1 ∈ names ∧
      ∃ values, entry.2 = .arr values ∧ .str scope ∈ values := by
  unfold requirementScopeSet at hset
  dsimp only at hset
  split_ifs at hset
  cases hset
  rw [mem_sortStrings, mem_unique, List.mem_filterMap]
  constructor
  · rintro ⟨value, hvalue, htext⟩
    obtain ⟨values, hvalues, hmem⟩ := List.mem_flatten.mp hvalue
    obtain ⟨entry, hentry, hname, heq⟩ := mem_matchedValues.mp hvalues
    obtain ⟨scopes, hscopes, hall⟩ := h entry hentry
    rw [heq] at hscopes
    cases hscopes
    obtain ⟨listed, hlisted, rfl⟩ := List.mem_map.mp hmem
    rw [stringValue_scope (hall listed hlisted)] at htext
    cases htext
    exact ⟨entry, hentry, hname, _, heq, hmem⟩
  · rintro ⟨entry, hentry, hname, values, heq, hmem⟩
    obtain ⟨scopes, hscopes, hall⟩ := h entry hentry
    have hvalues := mem_matchedValues.mpr ⟨entry, hentry, hname, heq⟩
    rw [heq] at hscopes
    cases hscopes
    obtain ⟨listed, hlisted, hstr⟩ := List.mem_map.mp hmem
    cases hstr
    exact ⟨.str scope, List.mem_flatten.mpr ⟨_, hvalues, hmem⟩,
      stringValue_scope (hall scope hlisted)⟩

theorem isScope_of_mem (h : ListsScopes alternative) {scopeSet : List String}
    (hset : requirementScopeSet names alternative = some scopeSet) :
    ∀ scope ∈ scopeSet, IsScope scope := by
  intro scope hscope
  obtain ⟨entry, hentry, -, values, heq, hmem⟩ := (mem_requirementScopeSet h hset).mp hscope
  obtain ⟨scopes, hscopes, hall⟩ := h entry hentry
  rw [heq] at hscopes
  cases hscopes
  obtain ⟨listed, hlisted, hstr⟩ := List.mem_map.mp hmem
  cases hstr
  exact hall scope hlisted

/-- A scope set is sorted and has each scope once. -/
theorem sorted_requirementScopeSet {scopeSet : List String}
    (hset : requirementScopeSet names alternative = some scopeSet) :
    scopeSet.Pairwise (· ≤ ·) ∧ scopeSet.Nodup := by
  unfold requirementScopeSet at hset
  dsimp only at hset
  split_ifs at hset
  cases hset
  constructor
  · exact List.pairwise_insertionSort (· ≤ ·) _
  · exact (List.perm_insertionSort (· ≤ ·) _).nodup_iff.mpr (nodup_unique _)

end Sets

/-! ## The map of scope sets -/

theorem not_nul_of_isScope {scope : String} (h : IsScope scope) : '\x00' ∉ scope.toList := by
  intro hmem
  have hchar := List.all_eq_true.mp h.2 _ hmem
  revert hchar
  decide

theorem scopeSetKey_toList (scopeSet : List String) :
    (scopeSetKey scopeSet).toList = ['\x00'].intercalate (scopeSet.map String.toList) := by
  simp [scopeSetKey, String.toList_intercalate]

/-- Sets of scopes under one key are one set. -/
theorem scopeSetKey_inj {scopeSet other : List String} (h : ∀ scope ∈ scopeSet, IsScope scope)
    (hother : ∀ scope ∈ other, IsScope scope) (hkey : scopeSetKey scopeSet = scopeSetKey other) :
    scopeSet = other := by
  have htexts := congrArg String.toList hkey
  rw [scopeSetKey_toList, scopeSetKey_toList] at htexts
  have hread : ∀ list : List String, (∀ scope ∈ list, IsScope scope) → list ≠ [] →
      (['\x00'].intercalate (list.map String.toList)).splitOn '\x00' =
        list.map String.toList := by
    intro list hlist hne
    apply List.splitOn_intercalate
    · intro text htext
      obtain ⟨scope, hscope, rfl⟩ := List.mem_map.mp htext
      exact not_nul_of_isScope (hlist scope hscope)
    · simpa using hne
  have hbegin : ∀ list : List String, (∀ scope ∈ list, IsScope scope) →
      ['\x00'].intercalate (list.map String.toList) = [] → list = [] := by
    intro list hlist hempty
    cases list with
    | nil => rfl
    | cons scope list =>
      have hscope : scope.toList = [] := by
        cases list with
        | nil => simpa using hempty
        | cons next list =>
          rw [List.map_cons, List.map_cons, List.intercalate_cons_cons] at hempty
          simp at hempty
      exact absurd (String.toList_inj.mp (by simpa using hscope))
        (hlist scope List.mem_cons_self).1
  by_cases hempty : scopeSet = []
  · subst hempty
    symm
    apply hbegin other hother
    rw [← htexts]
    rfl
  · have hne : other ≠ [] := by
      rintro rfl
      exact hempty (hbegin scopeSet h (by rw [htexts]; rfl))
    have hsplit := congrArg (List.splitOn '\x00') htexts
    rw [hread scopeSet h hempty, hread other hother hne] at hsplit
    exact List.map_injective_iff.mpr (fun _ _ h => String.toList_injective h) hsplit

/-- What the map holds: each set once, under its key. -/
structure HoldsSets (found : List (String × List String)) : Prop where
  keys : ∀ entry ∈ found, entry.1 = scopeSetKey entry.2
  scopes : ∀ entry ∈ found, ∀ scope ∈ entry.2, IsScope scope
  nodup : (found.map (·.2)).Nodup

/-- A set that is there is not added again, and replaces nothing else. -/
theorem setScopeSet_spec {found : List (String × List String)} (hfound : HoldsSets found)
    {scopeSet : List String} (hscopes : ∀ scope ∈ scopeSet, IsScope scope) :
    HoldsSets (setScopeSet found scopeSet) ∧
      ∀ other, other ∈ (setScopeSet found scopeSet).map (·.2) ↔
        other ∈ found.map (·.2) ∨ other = scopeSet := by
  have hsame : ∀ entry ∈ found, entry.1 = scopeSetKey scopeSet → entry.2 = scopeSet := by
    intro entry hentry hkey
    rw [hfound.keys entry hentry] at hkey
    exact scopeSetKey_inj (hfound.scopes entry hentry) hscopes hkey
  unfold setScopeSet
  split_ifs with hany
  · obtain ⟨entry, hentry, hkey⟩ := List.any_eq_true.mp hany
    have hset : scopeSet ∈ found.map (·.2) :=
      List.mem_map.mpr ⟨entry, hentry, hsame entry hentry (of_decide_eq_true hkey)⟩
    have hunchanged : (found.map fun entry =>
        if entry.1 = scopeSetKey scopeSet then (entry.1, scopeSet) else entry) = found := by
      calc
        _ = found.map id := by
          apply List.map_congr_left
          intro entry hentry
          split_ifs with hkey
          · rw [← hsame entry hentry hkey]
            rfl
          · rfl
        _ = found := List.map_id found
    rw [hunchanged]
    refine ⟨hfound, fun other => ?_⟩
    constructor
    · exact Or.inl
    · rintro (hother | rfl)
      · exact hother
      · exact hset
  · have hnew : scopeSet ∉ found.map (·.2) := by
      intro hmem
      obtain ⟨entry, hentry, heq⟩ := List.mem_map.mp hmem
      apply hany
      apply List.any_eq_true.mpr
      refine ⟨entry, hentry, decide_eq_true ?_⟩
      rw [hfound.keys entry hentry, heq]
    constructor
    · constructor
      · intro entry hentry
        rcases List.mem_append.mp hentry with hold | hlast
        · exact hfound.keys entry hold
        · rw [List.mem_singleton.mp hlast]
      · intro entry hentry
        rcases List.mem_append.mp hentry with hold | hlast
        · exact hfound.scopes entry hold
        · rw [List.mem_singleton.mp hlast]
          exact hscopes
      · rw [List.map_append]
        exact hfound.nodup.append (List.nodup_singleton _) (by simpa using hnew)
    · intro other
      simp

/-- The sets of a list of requirements, each once. -/
theorem foldl_setScopeSet_spec {sets : List (List String)} {found : List (String × List String)}
    (hfound : HoldsSets found) (hsets : ∀ scopeSet ∈ sets, ∀ scope ∈ scopeSet, IsScope scope) :
    HoldsSets (sets.foldl setScopeSet found) ∧
      ∀ other, other ∈ (sets.foldl setScopeSet found).map (·.2) ↔
        other ∈ found.map (·.2) ∨ other ∈ sets := by
  induction sets generalizing found with
  | nil => exact ⟨hfound, fun other => by simp⟩
  | cons scopeSet sets ih =>
    obtain ⟨hholds, hmem⟩ := setScopeSet_spec hfound (hsets scopeSet List.mem_cons_self)
    obtain ⟨hall, hmems⟩ := ih hholds fun other hother =>
      hsets other (List.mem_cons_of_mem scopeSet hother)
    refine ⟨hall, fun other => ?_⟩
    rw [List.foldl_cons, hmems other, hmem other, List.mem_cons, or_assoc]

/-- The alternatives that name a scheme, each with the scopes that it lists. -/
theorem operationScopeSets_spec {names : List String} {requirements : List Record}
    (h : ∀ requirement ∈ requirements, ListsScopes requirement) :
    (operationScopeSets requirements names).Nodup ∧
      ∀ scopeSet, scopeSet ∈ operationScopeSets requirements names ↔
        ∃ requirement ∈ requirements, requirementScopeSet names requirement = some scopeSet := by
  have hsets : ∀ scopeSet ∈ requirements.filterMap (requirementScopeSet names),
      ∀ scope ∈ scopeSet, IsScope scope := by
    intro scopeSet hscopeSet
    obtain ⟨requirement, hrequirement, hset⟩ := List.mem_filterMap.mp hscopeSet
    exact isScope_of_mem (h requirement hrequirement) hset
  have hempty : HoldsSets [] := ⟨by simp, by simp, by simp⟩
  obtain ⟨hholds, hmem⟩ := foldl_setScopeSet_spec hempty hsets
  refine ⟨hholds.nodup, fun scopeSet => ?_⟩
  rw [operationScopeSets, hmem, List.mem_filterMap]
  simp

/-! ## Alternatives -/

section Alternatives

variable {root operation : Record}

theorem securityRequirements_spec {value : Option Json}
    (h : ∀ security, value = some security → IsSecurity security) :
    (∀ requirement ∈ securityRequirements value, ListsScopes requirement) ∧
      ∀ requirement, requirement ∈ securityRequirements value ↔
        ∃ entries, value = some (.arr entries) ∧ .obj requirement ∈ entries := by
  cases value with
  | none => exact ⟨by simp [securityRequirements], by simp [securityRequirements]⟩
  | some security =>
    obtain ⟨alternatives, rfl, hall⟩ := h security rfl
    have hsame : securityRequirements (some (.arr (alternatives.map .obj))) = alternatives := by
      unfold securityRequirements
      dsimp only
      rw [List.map_map]
      exact List.map_id alternatives
    rw [hsame]
    refine ⟨hall, fun requirement => ?_⟩
    simp

/-- The requirements that are read for an operation. -/
def requirementsOf (root operation : Record) : List Record :=
  securityRequirements (effectiveSecurity root operation)

/-- The security of an operation of a valid document is one. -/
def HasSecurity (root operation : Record) : Prop :=
  ∀ security, effectiveSecurity root operation = some security → IsSecurity security

theorem mem_requirementsOf (h : HasSecurity root operation) {alternative : Record} :
    alternative ∈ requirementsOf root operation ↔ IsAlternative root operation alternative :=
  (securityRequirements_spec h).2 alternative

variable [Platform] {names : List String}

/-- The sets of an operation are those for which its alternatives ask. -/
theorem exists_scopeSet_iff (hnames : ∀ name, name ∈ names ↔ NamesScopeScheme root name)
    (h : HasSecurity root operation) (scopes : Finset String) :
    (∃ scopeSet ∈ operationScopeSets (requirementsOf root operation) names,
        scopeSet.toFinset = scopes) ↔
      ∃ alternative, IsAlternative root operation alternative ∧
        AsksFor root alternative scopes := by
  have hlists := (securityRequirements_spec h).1
  have hspec := (@operationScopeSets_spec names _ hlists).2
  constructor
  · rintro ⟨scopeSet, hmem, rfl⟩
    obtain ⟨alternative, halternative, hset⟩ := (hspec scopeSet).mp hmem
    refine ⟨alternative, (mem_requirementsOf h).mp halternative, ?_, ?_⟩
    · have hsome := (@requirementScopeSet_isSome names _ (hlists _ halternative)).mp
        (by rw [hset]; rfl)
      simpa only [hnames] using hsome
    · intro scope
      rw [List.mem_toFinset, mem_requirementScopeSet (hlists _ halternative) hset]
      simp only [hnames]
  · rintro ⟨alternative, halternative, hasks⟩
    have hmem := (mem_requirementsOf h).mpr halternative
    have hsome : (requirementScopeSet names alternative).isSome := by
      apply (requirementScopeSet_isSome (hlists _ hmem)).mpr
      simpa only [hnames] using hasks.names
    obtain ⟨scopeSet, hset⟩ := Option.isSome_iff_exists.mp hsome
    refine ⟨scopeSet, (hspec scopeSet).mpr ⟨alternative, hmem, hset⟩, ?_⟩
    ext scope
    rw [List.mem_toFinset, mem_requirementScopeSet (hlists _ hmem) hset, hasks.lists]
    simp only [hnames]

omit [Platform] in
/-- Lists of one set are one list. -/
theorem scopeSets_nodup (h : HasSecurity root operation) :
    ((operationScopeSets (requirementsOf root operation) names).map List.toFinset).Nodup ∧
      ∀ scopeSet ∈ operationScopeSets (requirementsOf root operation) names, scopeSet.Nodup := by
  obtain ⟨hnodup, hspec⟩ := @operationScopeSets_spec names _ (securityRequirements_spec h).1
  have hsorted : ∀ scopeSet ∈ operationScopeSets (requirementsOf root operation) names,
      scopeSet.Pairwise (· ≤ ·) ∧ scopeSet.Nodup := by
    intro scopeSet hmem
    obtain ⟨alternative, -, hset⟩ := (hspec scopeSet).mp hmem
    exact sorted_requirementScopeSet hset
  constructor
  · apply List.Nodup.map_on _ hnodup
    intro scopeSet hmem other hother heq
    obtain ⟨hle, honce⟩ := hsorted scopeSet hmem
    obtain ⟨hle', honce'⟩ := hsorted other hother
    have hperm : scopeSet.Perm other := by
      rw [List.perm_ext_iff_of_nodup honce honce']
      intro scope
      rw [← List.mem_toFinset, heq, List.mem_toFinset]
    exact hperm.eq_of_pairwise (fun _ _ _ _ => le_antisymm) hle hle'
  · exact fun scopeSet hmem => (hsorted scopeSet hmem).2

end Alternatives

/-! ## Operations -/

section Operations

variable [Platform] {document : Json} {root : Record} {names : List String}

omit [Platform] in
/-- What is said of an operation that the document has. -/
theorem ValidDocument.operation (hvalid : ValidDocument document root) {path method : String}
    {operation : Record} (h : HasOperation root path method operation) :
    operation ≠ [] ∧ HasSecurity root operation := by
  obtain ⟨paths, item, hpaths, hitem, hmethod, hfield⟩ := h
  obtain ⟨paths', heq, -, hitems⟩ := hvalid.paths _ hpaths
  cases heq
  obtain ⟨item', heq, hoperations⟩ := hitems _ hitem
  cases heq
  obtain ⟨operation', heq, hne, hsecurity⟩ := hoperations method hmethod _ hfield
  cases heq
  refine ⟨hne, ?_⟩
  intro security hsome
  cases hown : operation.field "security" with
  | some own =>
    rw [effectiveSecurity, hown] at hsome
    cases hsome
    exact hsecurity _ hown
  | none =>
    rw [effectiveSecurity, hown] at hsome
    exact hvalid.security security hsome

/-- What is read of an operation. -/
def operationDefinition (names : List String) (root : Record) (path method : String)
    (operation : Record) : ResourceOperationDefinition :=
  { method := upperCaseMethod method
    path := path
    operationId := stringValue (operation.field "operationId")
    summary := stringValue (operation.field "summary")
    description := stringValue (operation.field "description")
    requiredScopeSets := operationScopeSets (requirementsOf root operation) names }

omit [Platform] in
theorem protectedOperation_eq {path method : String} {item operation : Record}
    (hfield : item.field method = some (.obj operation)) (hne : operation ≠ []) :
    protectedOperation names (securityRequirements (root.field "security")) path item method =
      if operationScopeSets (requirementsOf root operation) names = [] then none
      else some (operationDefinition names root path method operation) := by
  have hobject : objectValueOrEmpty (item.field method) = operation := by rw [hfield]; rfl
  unfold protectedOperation
  dsimp only
  rw [hobject, if_neg hne]
  cases hown : operation.field "security" with
  | none =>
    have hrequirements : requirementsOf root operation =
        securityRequirements (root.field "security") := by
      simp [requirementsOf, effectiveSecurity, hown]
    rw [operationDefinition, hrequirements]
  | some security =>
    have hrequirements : requirementsOf root operation =
        securityRequirements (some security) := by
      simp [requirementsOf, effectiveSecurity, hown]
    rw [operationDefinition, hrequirements]

omit [Platform] in
theorem protectedOperation_none {documentSecurity : List Record} {path method : String}
    {item : Record} (h : item.field method = none) :
    protectedOperation names documentSecurity path item method = none := by
  simp [protectedOperation, h, objectValueOrEmpty]

/-- The operations that are extracted, path by path. -/
def documentOperations (names : List String) (root : Record) : List ResourceOperationDefinition :=
  (objectValueOrEmpty (root.field "paths")).flatMap fun entry =>
    operationMethods.filterMap (protectedOperation names (securityRequirements
      (root.field "security")) entry.1 (objectValueOrEmpty (some entry.2)))

omit [Platform] in
/-- The operations that are extracted are those that the document has, where they need scopes. -/
theorem mem_documentOperations (hvalid : ValidDocument document root)
    {found : ResourceOperationDefinition} :
    found ∈ documentOperations names root ↔ ∃ path method operation,
      HasOperation root path method operation ∧
        operationScopeSets (requirementsOf root operation) names ≠ [] ∧
          found = operationDefinition names root path method operation := by
  unfold documentOperations
  simp only [List.mem_flatMap, List.mem_filterMap]
  constructor
  · rintro ⟨⟨path, value⟩, hentry, method, hmethod, hsome⟩
    cases hpaths : root.field "paths" with
    | none =>
      rw [hpaths] at hentry
      cases hentry
    | some node =>
      obtain ⟨paths, rfl, -, hitems⟩ := hvalid.paths node hpaths
      rw [hpaths] at hentry
      obtain ⟨item, hitem, hoperations⟩ := hitems _ hentry
      dsimp only at hitem
      subst hitem
      cases hfield : item.field method with
      | none =>
        have hnone := @protectedOperation_none names (securityRequirements (root.field "security"))
          path method item hfield
        have hsame : protectedOperation names (securityRequirements (root.field "security"))
          path item method = some found := hsome
        rw [hnone] at hsame
        cases hsame
      | some operation =>
        obtain ⟨operation, rfl, -, -⟩ := hoperations method hmethod _ hfield
        have hhas : HasOperation root path method operation :=
          ⟨paths, item, hpaths, hentry, hmethod, hfield⟩
        have hsame : protectedOperation names (securityRequirements (root.field "security"))
          path item method = some found := hsome
        rw [protectedOperation_eq hfield (hvalid.operation hhas).1] at hsame
        split_ifs at hsame with hempty
        cases hsame
        exact ⟨path, method, operation, hhas, hempty, rfl⟩
  · rintro ⟨path, method, operation, hhas, hne, rfl⟩
    obtain ⟨paths, item, hpaths, hitem, hmethod, hfield⟩ := hhas
    refine ⟨(path, .obj item), ?_, method, hmethod, ?_⟩
    · rw [hpaths]
      exact hitem
    · have hhas : HasOperation root path method operation :=
        ⟨paths, item, hpaths, hitem, hmethod, hfield⟩
      have heq := @protectedOperation_eq root names path method item operation hfield
        (hvalid.operation hhas).1
      rw [if_neg hne] at heq
      exact heq

omit [Platform] in
/-- A path and a method belong to one operation. -/
theorem HasOperation.unique (hvalid : ValidDocument document root) {path method : String}
    {operation other : Record} (h : HasOperation root path method operation)
    (h' : HasOperation root path method other) : operation = other := by
  obtain ⟨paths, item, hpaths, hitem, -, hfield⟩ := h
  obtain ⟨paths', item', hpaths', hitem', -, hfield'⟩ := h'
  rw [hpaths] at hpaths'
  cases hpaths'
  obtain ⟨paths', heq, hnodup, -⟩ := hvalid.paths _ hpaths
  cases heq
  have hsame : (path, Json.obj item) = (path, Json.obj item') :=
    List.inj_on_of_nodup_map hnodup hitem hitem' rfl
  cases hsame
  rw [hfield] at hfield'
  cases hfield'
  rfl

omit [Platform] in
theorem upperCaseMethod_inj : ∀ method ∈ operationMethods, ∀ other ∈ operationMethods,
    upperCaseMethod method = upperCaseMethod other → method = other := by
  decide

omit [Platform] in
theorem protectedOperation_some {documentSecurity : List Record} {path method : String}
    {item : Record} {found : ResourceOperationDefinition}
    (h : protectedOperation names documentSecurity path item method = some found) :
    found.path = path ∧ found.method = upperCaseMethod method := by
  unfold protectedOperation at h
  dsimp only at h
  split_ifs at h
  cases h
  exact ⟨rfl, rfl⟩

omit [Platform] in
/-- Each path and method is extracted once. -/
theorem documentOperations_nodup (hvalid : ValidDocument document root) :
    ((documentOperations names root).map fun found => (found.path, found.method)).Nodup := by
  have hpaths : ((objectValueOrEmpty (root.field "paths")).map (·.1)).Nodup := by
    cases hpaths : root.field "paths" with
    | none => simp [objectValueOrEmpty]
    | some node =>
      obtain ⟨paths, rfl, hnodup, -⟩ := hvalid.paths node hpaths
      exact hnodup
  unfold documentOperations
  generalize objectValueOrEmpty (root.field "paths") = entries at hpaths
  generalize securityRequirements (root.field "security") = security
  rw [List.Nodup, List.pairwise_map, List.pairwise_flatMap]
  constructor
  · intro entry _
    rw [List.pairwise_filterMap]
    have hmethods : operationMethods.Pairwise fun method other =>
        upperCaseMethod method ≠ upperCaseMethod other := by
      decide
    apply hmethods.imp
    intro method other hne found hfound found' hfound' heq
    have hmethod := (protectedOperation_some hfound).2
    have hother := (protectedOperation_some hfound').2
    rw [Prod.mk.injEq, hmethod, hother] at heq
    exact hne heq.2
  · rw [List.Nodup, List.pairwise_map] at hpaths
    apply hpaths.imp
    intro entry other hne found hfound found' hfound' heq
    obtain ⟨method, -, hsome⟩ := List.mem_filterMap.mp hfound
    obtain ⟨method', -, hsome'⟩ := List.mem_filterMap.mp hfound'
    rw [Prod.mk.injEq, (protectedOperation_some hsome).1, (protectedOperation_some hsome').1] at heq
    exact hne heq.1

/-! ## The projection -/

/-- The projected operations are exactly the callable ones of the document. -/
structure CallableExactly (root : Record) (advertised : List String)
    (projected : List ResourceOperationDefinition) : Prop where
  /-- An operation appears with a set of scopes exactly when one of its alternatives asks for the
  set and the set is advertised. -/
  appears : ∀ path method operation, HasOperation root path method operation →
    ∀ scopes : Finset String,
      (∃ found ∈ projected, found.path = path ∧ found.method = upperCaseMethod method ∧
          ∃ scopeSet ∈ found.requiredScopeSets, scopeSet.toFinset = scopes) ↔
        (∃ alternative, IsAlternative root operation alternative ∧
          AsksFor root alternative scopes) ∧ ∀ scope ∈ scopes, scope ∈ advertised
  /-- Nothing appears that is not an operation of the document. -/
  found : ∀ found ∈ projected, found.requiredScopeSets ≠ [] ∧
    ∃ path method operation, HasOperation root path method operation ∧ found.path = path ∧
      found.method = upperCaseMethod method ∧
        found.operationId = stringValue (operation.field "operationId") ∧
          found.summary = stringValue (operation.field "summary") ∧
            found.description = stringValue (operation.field "description")
  /-- Each set appears once in an operation, and lists each scope once. -/
  sets : ∀ found ∈ projected, (found.requiredScopeSets.map List.toFinset).Nodup ∧
    ∀ scopeSet ∈ found.requiredScopeSets, scopeSet.Nodup
  /-- Each operation appears once. -/
  once : (projected.map fun found => (found.path, found.method)).Nodup

omit [Platform] in
theorem mem_projectResourceOperations {operations : List ResourceOperationDefinition}
    {advertised : List String} {found : ResourceOperationDefinition} :
    found ∈ projectResourceOperations operations advertised ↔ ∃ operation ∈ operations,
      found = { operation with
        requiredScopeSets := operation.requiredScopeSets.filter fun scopeSet =>
          scopeSet.all advertised.contains } ∧ found.requiredScopeSets ≠ [] := by
  unfold projectResourceOperations
  rw [List.mem_filterMap]
  apply exists_congr
  intro operation
  apply and_congr_right
  intro _
  dsimp only
  split_ifs with hempty
  · constructor
    · intro h
      cases h
    · rintro ⟨rfl, hne⟩
      exact absurd hempty hne
  · constructor
    · intro h
      cases h
      exact ⟨rfl, hempty⟩
    · rintro ⟨rfl, -⟩
      rfl

omit [Platform] in
theorem projected_nodup {operations : List ResourceOperationDefinition} (advertised : List String)
    (h : (operations.map fun found => (found.path, found.method)).Nodup) :
    ((projectResourceOperations operations advertised).map fun found =>
      (found.path, found.method)).Nodup := by
  rw [List.Nodup, List.pairwise_map] at h ⊢
  unfold projectResourceOperations
  rw [List.pairwise_filterMap]
  apply h.imp
  intro operation other hne found hfound found' hfound'
  dsimp only at hfound hfound'
  split_ifs at hfound hfound'
  cases hfound
  cases hfound'
  exact hne

theorem callableExactly (hvalid : ValidDocument document root)
    (hnames : ∀ name, name ∈ names ↔ NamesScopeScheme root name) (advertised : List String) :
    CallableExactly root advertised
      (projectResourceOperations (documentOperations names root) advertised) where
  appears := by
    intro path method operation hhas scopes
    have hscopes := exists_scopeSet_iff hnames (hvalid.operation hhas).2 scopes
    rw [← hscopes]
    constructor
    · rintro ⟨found, hfound, hpath, hmethod, scopeSet, hset, rfl⟩
      obtain ⟨extracted, hextracted, rfl, -⟩ := mem_projectResourceOperations.mp hfound
      obtain ⟨path', method', other, hother, -, rfl⟩ :=
        (mem_documentOperations hvalid).mp hextracted
      obtain rfl : path' = path := hpath
      obtain rfl : method' = method :=
        upperCaseMethod_inj method' hother.choose_spec.choose_spec.2.2.1 method
          hhas.choose_spec.choose_spec.2.2.1 hmethod
      obtain rfl := hother.unique hvalid hhas
      obtain ⟨hmem, hall⟩ := List.mem_filter.mp hset
      refine ⟨⟨scopeSet, hmem, rfl⟩, ?_⟩
      intro scope hscope
      simpa using List.all_eq_true.mp hall scope (List.mem_toFinset.mp hscope)
    · rintro ⟨⟨scopeSet, hmem, rfl⟩, hadvertised⟩
      have hextracted : operationDefinition names root path method operation ∈
          documentOperations names root :=
        (mem_documentOperations hvalid).mpr
          ⟨path, method, operation, hhas, List.ne_nil_of_mem hmem, rfl⟩
      have hall : scopeSet.all advertised.contains = true := by
        apply List.all_eq_true.mpr
        intro scope hscope
        simpa using hadvertised scope (List.mem_toFinset.mpr hscope)
      have hset : scopeSet ∈ (operationDefinition names root path method
          operation).requiredScopeSets.filter fun scopeSet => scopeSet.all advertised.contains :=
        List.mem_filter.mpr ⟨hmem, hall⟩
      exact ⟨_, mem_projectResourceOperations.mpr
        ⟨_, hextracted, rfl, List.ne_nil_of_mem hset⟩, rfl, rfl, scopeSet, hset, rfl⟩
  found := by
    intro found hfound
    obtain ⟨extracted, hextracted, rfl, hne⟩ := mem_projectResourceOperations.mp hfound
    obtain ⟨path, method, operation, hhas, -, rfl⟩ :=
      (mem_documentOperations hvalid).mp hextracted
    exact ⟨hne, path, method, operation, hhas, rfl, rfl, rfl, rfl, rfl⟩
  sets := by
    intro found hfound
    obtain ⟨extracted, hextracted, rfl, -⟩ := mem_projectResourceOperations.mp hfound
    obtain ⟨path, method, operation, hhas, -, rfl⟩ :=
      (mem_documentOperations hvalid).mp hextracted
    obtain ⟨hnodup, honce⟩ := @scopeSets_nodup root operation names (hvalid.operation hhas).2
    refine ⟨hnodup.sublist (List.filter_sublist.map _), ?_⟩
    intro scopeSet hset
    exact honce scopeSet (List.mem_filter.mp hset).1
  once := projected_nodup advertised (documentOperations_nodup hvalid)

/-- What is extracted from a valid document and projected to some scopes is exactly what can be
called with them. -/
theorem projection_exact (hvalid : ValidDocument document root) :
    ∃ operations, extractProtectedOperations document = .ok operations ∧
      ∀ advertised, CallableExactly root advertised
        (projectResourceOperations operations advertised) := by
  have hnames : ∃ names, scopeSchemeNames (securitySchemes root) = .ok names := by
    cases hresult : scopeSchemeNames (securitySchemes root) with
    | ok names => exact ⟨names, rfl⟩
    | error error =>
      obtain ⟨entry, hentry, before, hround⟩ := exists_error_of_foldlM hresult
      obtain ⟨scheme, hscheme⟩ := @exists_resolved entry.2 (securitySchemes root)
        (hvalid.references root hvalid.isRoot entry hentry)
      rw [addScopeScheme, hscheme] at hround
      cases hround
  obtain ⟨names, hnames⟩ := hnames
  refine ⟨documentOperations names root, ?_, ?_⟩
  · rw [extractProtectedOperations, hvalid.isRoot]
    change (scopeSchemeNames (securitySchemes root) >>= _) = _
    rw [hnames]
    rfl
  · intro advertised
    exact callableExactly hvalid (fun _ => mem_scopeSchemeNames hnames) advertised

end Operations

namespace OperationScopesExample

/-- A scheme, and a reference to it. -/
def schemes : Record :=
  [("oauth", .obj [("type", .str "oauth2")]),
    ("alias", .obj [("$ref", .str "#/components/securitySchemes/oauth")])]

def listFiles : Record := [("summary", .str "List files")]

def writeSecurity : Json := .arr [.obj [("oauth", .arr [.str "write", .str "read"])]]

def createFile : Record := [("security", writeSecurity)]

def paths : Record := [("/files", .obj [("get", .obj listFiles), ("post", .obj createFile)])]

def readSecurity : Json := .arr [.obj [("alias", .arr [.str "read"])]]

def root : Record :=
  [("openapi", .str "3.1.0"), ("components", .obj [("securitySchemes", .obj schemes)]),
    ("security", readSecurity), ("paths", .obj paths)]

theorem isScope_read : IsScope "read" := by
  constructor <;> decide

theorem isScope_write : IsScope "write" := by
  constructor <;> decide

theorem readSecurity_isSecurity : IsSecurity readSecurity := by
  refine ⟨[[("alias", .arr [.str "read"])]], rfl, ?_⟩
  intro alternative halternative entry hentry
  obtain rfl := List.mem_singleton.mp halternative
  obtain rfl := List.mem_singleton.mp hentry
  refine ⟨["read"], rfl, ?_⟩
  intro scope hscope
  rw [List.mem_singleton.mp hscope]
  exact isScope_read

theorem writeSecurity_isSecurity : IsSecurity writeSecurity := by
  refine ⟨[[("oauth", .arr [.str "write", .str "read"])]], rfl, ?_⟩
  intro alternative halternative entry hentry
  obtain rfl := List.mem_singleton.mp halternative
  obtain rfl := List.mem_singleton.mp hentry
  refine ⟨["write", "read"], rfl, ?_⟩
  intro scope hscope
  rcases List.mem_pair.mp hscope with rfl | rfl
  · exact isScope_write
  · exact isScope_read

theorem references_decode : ReferencesDecode (.obj root) := by
  intro found hfound entry hentry hmalformed
  have hroot : openApiRoot (.obj root) = .ok root := by decide +kernel
  rw [hroot] at hfound
  cases hfound
  have hschemes : ∀ entry ∈ schemes,
      ∃ scheme, resolveSecurityScheme entry.2 schemes = .ok scheme := by
    intro entry hentry
    rcases List.mem_pair.mp hentry with rfl | rfl
    · exact ⟨some [("type", .str "oauth2")], by decide +kernel⟩
    · exact ⟨some [("type", .str "oauth2")], by decide +kernel⟩
  obtain ⟨scheme, hscheme⟩ := hschemes entry hentry
  exact resolveSecurityScheme_ok hscheme hmalformed

theorem paths_inline : AreInlinePaths (.obj paths) := by
  refine ⟨paths, rfl, by decide, ?_⟩
  intro entry hentry
  obtain rfl := List.mem_singleton.mp hentry
  refine ⟨[("get", .obj listFiles), ("post", .obj createFile)], rfl, ?_⟩
  intro method _ operation hoperation
  simp only [Record.field, List.lookup_cons, List.lookup_nil] at hoperation
  split at hoperation
  · cases hoperation
    refine ⟨listFiles, rfl, by simp [listFiles], ?_⟩
    intro security hsecurity
    cases hsecurity
  · split at hoperation
    · cases hoperation
      refine ⟨createFile, rfl, by simp [createFile], ?_⟩
      intro security hsecurity
      cases hsecurity
      exact writeSecurity_isSecurity
    · cases hoperation

theorem document_valid : ValidDocument (.obj root) root where
  isRoot := by decide +kernel
  references := references_decode
  security := by
    intro value hvalue
    cases hvalue
    exact readSecurity_isSecurity
  paths := by
    intro value hvalue
    cases hvalue
    exact paths_inline

attribute [local instance] samplePlatform

/-- The two operations of the document are projected exactly. -/
theorem files_projected :
    ∃ operations, extractProtectedOperations (.obj root) = .ok operations ∧
      ∀ advertised, CallableExactly root advertised
        (projectResourceOperations operations advertised) :=
  projection_exact document_valid

end OperationScopesExample

end Realmroot
