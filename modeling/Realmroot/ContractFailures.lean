import Realmroot.Usecases.ProtectedOperations

/-!
# Failures of reading a contract

What is read off an OpenAPI document is there or is refused with an error of the interface,
whatever the document is like, except where a reference to a security scheme is no text that
`decodeURIComponent` decodes.
-/

namespace Realmroot

open Error

section Failures

variable {α β : Type}

/-- A value, or an `ApiError`. -/
def FailsAsDeclared (result : Except Error α) : Prop :=
  ∀ error, result = .error error → ∃ status code message, error = .api status code message

@[simp] theorem failsAsDeclared_ok (a : α) : FailsAsDeclared (.ok a : Except Error α) := by
  intro error h
  cases h

@[simp] theorem failsAsDeclared_badRequest (message : String) :
    FailsAsDeclared (.error (badRequest message) : Except Error α) := by
  intro error h
  cases h
  exact ⟨400, .badRequest, message, rfl⟩

theorem FailsAsDeclared.bind {x : Except Error α} {f : α → Except Error β}
    (hx : FailsAsDeclared x) (hf : ∀ a, x = .ok a → FailsAsDeclared (f a)) :
    FailsAsDeclared (x >>= f) := by
  cases x with
  | ok a => exact hf a rfl
  | error e =>
    intro error h
    cases h
    exact hx e rfl

theorem FailsAsDeclared.foldlM {f : β → α → Except Error β} {xs : List α}
    (h : ∀ found, ∀ x ∈ xs, FailsAsDeclared (f found x)) (found : β) :
    FailsAsDeclared (xs.foldlM f found) := by
  induction xs generalizing found with
  | nil => exact failsAsDeclared_ok found
  | cons x xs ih =>
    rw [List.foldlM_cons]
    apply (h found x List.mem_cons_self).bind
    intro next _
    exact ih (fun found y hy => h found y (List.mem_cons_of_mem x hy)) next

/-- What a loop passes, each of its rounds passes. -/
theorem exists_ok_of_foldlM {f : β → α → Except Error β} {xs : List α} {found result : β}
    (h : xs.foldlM f found = .ok result) : ∀ x ∈ xs, ∃ before after, f before x = .ok after := by
  induction xs generalizing found with
  | nil => simp
  | cons x xs ih =>
    rw [List.foldlM_cons] at h
    obtain ⟨next, hnext, hrest⟩ := Statement.bind_ok h
    intro y hy
    rcases List.mem_cons.mp hy with rfl | hlater
    · exact ⟨found, next, hnext⟩
    · exact ih hrest y hlater

/-- A loop fails in one of its rounds. -/
theorem exists_error_of_foldlM {f : β → α → Except Error β} {xs : List α} {found : β}
    {error : Error} (h : xs.foldlM f found = .error error) :
    ∃ x ∈ xs, ∃ before, f before x = .error error := by
  induction xs generalizing found with
  | nil => cases h
  | cons x xs ih =>
    rw [List.foldlM_cons] at h
    cases hround : f found x with
    | error e =>
      rw [hround] at h
      cases h
      exact ⟨x, List.mem_cons_self, found, hround⟩
    | ok next =>
      rw [hround] at h
      obtain ⟨y, hy, before, hfails⟩ := ih h
      exact ⟨y, List.mem_cons_of_mem x hy, before, hfails⟩

end Failures

/-! ## References -/

/-- Where the source finds the security schemes of a document. -/
def schemeReferencePrefix : String := "#/components/securitySchemes/"

/-- The candidate is a reference that `decodeURIComponent` does not decode. -/
def IsMalformedReference (candidate : Json) : Prop :=
  ∃ encoded, Record.field (objectValueOrEmpty (some candidate)) "$ref" =
      some (.str (schemeReferencePrefix ++ encoded)) ∧ decodeURIComponent encoded = none

/-- Every reference to a security scheme of the document decodes. -/
def ReferencesDecode (document : Json) : Prop :=
  ∀ root, openApiRoot document = .ok root →
    ∀ entry ∈ securitySchemes root, ¬ IsMalformedReference entry.2

/-- A reference that is followed is one with the prefix. -/
theorem drop_schemeReferencePrefix {ref : String}
    (h : schemeReferencePrefix.toList.isPrefixOf ref.toList = true) :
    ref = schemeReferencePrefix ++
      String.ofList (ref.toList.drop schemeReferencePrefix.toList.length) := by
  obtain ⟨rest, hrest⟩ := List.isPrefixOf_iff_prefix.mp h
  apply String.toList_inj.mp
  rw [String.toList_append, String.toList_ofList, ← hrest, List.drop_left]

/-- What follows the prefix of a reference. -/
theorem reference_eq_iff {ref encoded : String} :
    ref = schemeReferencePrefix ++ encoded ↔
      schemeReferencePrefix.toList.isPrefixOf ref.toList = true ∧
        String.ofList (ref.toList.drop schemeReferencePrefix.toList.length) = encoded := by
  constructor
  · rintro rfl
    rw [String.toList_append, List.drop_left, String.ofList_toList]
    exact ⟨List.isPrefixOf_iff_prefix.mpr (List.prefix_append _ _), rfl⟩
  · rintro ⟨hstart, rfl⟩
    exact drop_schemeReferencePrefix hstart

/-- `resolveSecurityScheme`, with its reference taken apart. -/
theorem resolveSecurityScheme_eq (candidate : Json) (schemes : Record) :
    (∃ encoded name, Record.field (objectValueOrEmpty (some candidate)) "$ref" =
        some (.str (schemeReferencePrefix ++ encoded)) ∧ decodeURIComponent encoded = some name ∧
          resolveSecurityScheme candidate schemes =
            .ok (some (objectValueOrEmpty (schemes.field name)))) ∨
      (IsMalformedReference candidate ∧
        resolveSecurityScheme candidate schemes = .error (.internal "URI malformed")) ∨
      ((∃ ref, Record.field (objectValueOrEmpty (some candidate)) "$ref" = some (.str ref) ∧
          ∀ encoded, ref ≠ schemeReferencePrefix ++ encoded) ∧
        resolveSecurityScheme candidate schemes = .ok none) ∨
      ((∀ ref, Record.field (objectValueOrEmpty (some candidate)) "$ref" ≠ some (.str ref)) ∧
        resolveSecurityScheme candidate schemes =
          .ok (some (objectValueOrEmpty (some candidate)))) := by
  unfold resolveSecurityScheme
  dsimp only
  split
  · rename_i ref href
    split_ifs with hstart
    · have heq := drop_schemeReferencePrefix hstart
      split
      · rename_i name hname
        left
        refine ⟨_, name, ?_, hname, rfl⟩
        rw [href]
        exact congrArg (fun text => some (Json.str text)) heq
      · rename_i hnone
        right
        left
        refine ⟨⟨_, ?_, hnone⟩, rfl⟩
        rw [href]
        exact congrArg (fun text => some (Json.str text)) heq
    · right
      right
      left
      refine ⟨⟨ref, href, ?_⟩, rfl⟩
      intro encoded heq
      exact hstart (reference_eq_iff.mp heq).1
  · rename_i hnone
    right
    right
    right
    exact ⟨hnone, rfl⟩

theorem resolveSecurityScheme_reference {candidate : Json} {schemes : Record}
    {encoded name : String} (href : Record.field (objectValueOrEmpty (some candidate)) "$ref" =
      some (.str (schemeReferencePrefix ++ encoded)))
    (hname : decodeURIComponent encoded = some name) :
    resolveSecurityScheme candidate schemes =
      .ok (some (objectValueOrEmpty (schemes.field name))) := by
  rcases resolveSecurityScheme_eq candidate schemes with
    ⟨encoded', name', href', hname', hok⟩ | ⟨⟨encoded', href', hnone⟩, -⟩ |
      ⟨⟨ref, href', hne⟩, -⟩ | ⟨hnone, -⟩
  · rw [href] at href'
    simp only [Option.some.injEq, Json.str.injEq, String.append_right_inj] at href'
    rw [← href', hname] at hname'
    cases hname'
    exact hok
  · rw [href] at href'
    simp only [Option.some.injEq, Json.str.injEq, String.append_right_inj] at href'
    rw [← href', hname] at hnone
    cases hnone
  · rw [href] at href'
    cases href'
    exact absurd rfl (hne encoded)
  · exact absurd href (hnone _)

theorem resolveSecurityScheme_itself {candidate : Json} {schemes : Record}
    (h : ∀ ref, Record.field (objectValueOrEmpty (some candidate)) "$ref" ≠ some (.str ref)) :
    resolveSecurityScheme candidate schemes = .ok (some (objectValueOrEmpty (some candidate))) := by
  rcases resolveSecurityScheme_eq candidate schemes with
    ⟨_, _, href, -, -⟩ | ⟨⟨_, href, -⟩, -⟩ | ⟨⟨_, href, -⟩, -⟩ | ⟨-, hok⟩
  · exact absurd href (h _)
  · exact absurd href (h _)
  · exact absurd href (h _)
  · exact hok

theorem resolveSecurityScheme_ok {candidate : Json} {schemes : Record} {scheme : Option Record}
    (h : resolveSecurityScheme candidate schemes = .ok scheme) :
    ¬ IsMalformedReference candidate := by
  rintro ⟨encoded, hfield, hnone⟩
  rcases resolveSecurityScheme_eq candidate schemes with
    ⟨encoded', name, hfield', hsome, -⟩ | ⟨-, herror⟩ | ⟨⟨ref, href, hne⟩, -⟩ | ⟨hne, -⟩
  · rw [hfield] at hfield'
    simp only [Option.some.injEq, Json.str.injEq, String.append_right_inj] at hfield'
    rw [hfield', hsome] at hnone
    cases hnone
  · rw [h] at herror
    cases herror
  · rw [hfield] at href
    cases href
    exact hne encoded rfl
  · exact hne _ hfield

theorem exists_resolved {candidate : Json} {schemes : Record}
    (h : ¬ IsMalformedReference candidate) :
    ∃ scheme, resolveSecurityScheme candidate schemes = .ok scheme := by
  rcases resolveSecurityScheme_eq candidate schemes with
    ⟨_, _, _, _, hok⟩ | ⟨hmalformed, -⟩ | ⟨-, hok⟩ | ⟨-, hok⟩
  · exact ⟨_, hok⟩
  · exact absurd hmalformed h
  · exact ⟨_, hok⟩
  · exact ⟨_, hok⟩

/-! ## The two extractions -/

theorem openApiRoot_failsAsDeclared (document : Json) :
    FailsAsDeclared (openApiRoot document) := by
  unfold openApiRoot
  apply FailsAsDeclared.bind
  · unfold objectValue
    split <;> simp
  · intro root _
    split
    · split_ifs <;> simp
    · simp

theorem addScope_failsAsDeclared (found : List ResourceScopeDefinition) (scope : String)
    (description : Json) : FailsAsDeclared (addScope found scope description) := by
  unfold addScope
  split
  · dsimp only
    split_ifs
    · simp
    · split
      · split_ifs <;> simp
      · simp
  · simp

theorem addScheme_failsAsDeclared {schemes : Record} {candidate : Json}
    (h : ¬ IsMalformedReference candidate) (found : List ResourceScopeDefinition) :
    FailsAsDeclared (addScheme schemes found candidate) := by
  obtain ⟨scheme, hscheme⟩ := @exists_resolved candidate schemes h
  unfold addScheme
  rw [hscheme]
  apply FailsAsDeclared.foldlM
  intro found entry _
  exact addScope_failsAsDeclared found entry.1 entry.2

section Extractions

variable [Platform]

theorem addScopeScheme_failsAsDeclared {schemes : Record} {entry : String × Json}
    (h : ¬ IsMalformedReference entry.2) (names : List String) :
    FailsAsDeclared (addScopeScheme schemes names entry) := by
  obtain ⟨scheme, hscheme⟩ := @exists_resolved entry.2 schemes h
  unfold addScopeScheme
  rw [hscheme]
  exact failsAsDeclared_ok _

theorem extractResourceScopes_failsAsDeclared {document : Json}
    (h : ReferencesDecode document) : FailsAsDeclared (extractResourceScopes document) := by
  unfold extractResourceScopes
  apply (openApiRoot_failsAsDeclared document).bind
  intro root hroot
  apply FailsAsDeclared.bind
  · apply FailsAsDeclared.foldlM
    intro found entry hentry
    exact addScheme_failsAsDeclared (h root hroot entry hentry) found
  · intro found _
    exact failsAsDeclared_ok _

theorem extractProtectedOperations_failsAsDeclared {document : Json}
    (h : ReferencesDecode document) : FailsAsDeclared (extractProtectedOperations document) := by
  unfold extractProtectedOperations
  apply (openApiRoot_failsAsDeclared document).bind
  intro root hroot
  apply FailsAsDeclared.bind
  · apply FailsAsDeclared.foldlM
    intro names entry hentry
    exact addScopeScheme_failsAsDeclared (h root hroot entry hentry) names
  · intro names _
    exact failsAsDeclared_ok _

/-- Only a malformed reference keeps the names of the schemes from being read. -/
theorem scopeSchemeNames_error {schemes : Record} {error : Error}
    (h : scopeSchemeNames schemes = .error error) : error = .internal "URI malformed" := by
  obtain ⟨entry, -, names, hround⟩ := exists_error_of_foldlM h
  unfold addScopeScheme at hround
  rcases resolveSecurityScheme_eq entry.2 schemes with
    ⟨_, _, _, _, hok⟩ | ⟨-, herror⟩ | ⟨-, hok⟩ | ⟨-, hok⟩
  · rw [hok] at hround
    cases hround
  · rw [herror] at hround
    cases hround
    rfl
  · rw [hok] at hround
    cases hround
  · rw [hok] at hround
    cases hround

/-- The two extractions fail as declared exactly when every reference to a scheme decodes. -/
theorem extractions_failAsDeclared_iff (document : Json) :
    (FailsAsDeclared (extractResourceScopes document) ∧
        FailsAsDeclared (extractProtectedOperations document)) ↔ ReferencesDecode document := by
  constructor
  · rintro ⟨-, hoperations⟩ root hroot entry hentry hmalformed
    cases hnames : scopeSchemeNames (securitySchemes root) with
    | ok names =>
      obtain ⟨before, after, hround⟩ := exists_ok_of_foldlM hnames entry hentry
      obtain ⟨scheme, hscheme, -⟩ := Statement.bind_ok hround
      exact resolveSecurityScheme_ok hscheme hmalformed
    | error error =>
      obtain rfl := scopeSchemeNames_error hnames
      have hfails : extractProtectedOperations document = .error (.internal "URI malformed") := by
        rw [extractProtectedOperations, hroot]
        change (scopeSchemeNames (securitySchemes root) >>= _) = _
        rw [hnames]
        rfl
      obtain ⟨status, code, message, heq⟩ := hoperations _ hfails
      cases heq
  · intro h
    exact ⟨extractResourceScopes_failsAsDeclared h, extractProtectedOperations_failsAsDeclared h⟩

end Extractions

namespace ContractFailuresExample

/-- A document with one security scheme, a reference that ends in a percent sign. -/
def document : Json :=
  .obj [("openapi", .str "3.0.0"), ("components", .obj [("securitySchemes",
    .obj [("a", .obj [("$ref", .str "#/components/securitySchemes/%")])])])]

attribute [local instance] samplePlatform

/-- Both extractions throw an error that is not one of the interface. -/
theorem reference_error_escapes :
    ¬ (FailsAsDeclared (extractResourceScopes document) ∧
      FailsAsDeclared (extractProtectedOperations document)) := by
  rintro ⟨hscopes, -⟩
  have hfails : extractResourceScopes document = .error (.internal "URI malformed") := by
    decide +kernel
  obtain ⟨status, code, message, heq⟩ := hscopes _ hfails
  cases heq

end ContractFailuresExample

end Realmroot
