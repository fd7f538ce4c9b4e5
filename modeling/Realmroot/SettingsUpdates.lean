import Realmroot.Library.CallLogs
import Realmroot.Library.Promises
import Realmroot.Library.Versions
import Realmroot.Rules
import Realmroot.Usecases.Configz

/-!
# Concurrent updates of the site settings

Each key is written under the revision that was read with it, so that a write of one key is
accepted only where nothing came between. An update of two keys is not one write: when the second
one is refused, the first one stays.
-/

namespace Realmroot

open AtomicProgram Program

/-! ## Fields -/

/-- What an update may change apart from the rest. -/
inductive SettingsField where
  | passwordEnabled
  | signupEnabled
  | socialLoginEnabled
  | identifierFirst
  | usernameEnabled
  | emailOtpEnabled
  | provider (key field : String)
  | termsUri
  | privacyUri
  | supportEmail
  | supportUri
  | copy (key : String)
  | logoUrl
  | faviconUrl
  | logoAssetId
  | faviconAssetId
  | primaryColor
  | backgroundColor
  | customCss
  deriving DecidableEq

/-- A text or `null`, as a JSON value. -/
def nullableText : Option String → Json
  | some text => .str text
  | none => .null

namespace SettingsField

/-- The key under which a field is stored. -/
def key : SettingsField → SiteSettingsKey
  | passwordEnabled | signupEnabled | socialLoginEnabled | identifierFirst | usernameEnabled
  | emailOtpEnabled | provider .. => .signIn
  | termsUri | privacyUri | supportEmail | supportUri | copy _ => .general
  | logoUrl | faviconUrl | logoAssetId | faviconAssetId | primaryColor | backgroundColor
  | customCss => .branding

def ofSignIn (settings : SignInSettings) : SettingsField → Option Json
  | passwordEnabled => some (.bool settings.passwordEnabled)
  | signupEnabled => some (.bool settings.signupEnabled)
  | socialLoginEnabled => some (.bool settings.socialLoginEnabled)
  | identifierFirst => some (.bool settings.identifierFirst)
  | usernameEnabled => settings.metadata.usernameEnabled.map .bool
  | emailOtpEnabled => settings.metadata.emailOtpEnabled.map .bool
  | provider key field =>
    (settings.metadata.builtInProviders.lookup key).bind (Record.field · field)
  | _ => none

def ofGeneral (settings : GeneralSettings) : SettingsField → Option Json
  | termsUri => some (nullableText settings.termsUri)
  | privacyUri => some (nullableText settings.privacyUri)
  | supportEmail => some (nullableText settings.supportEmail)
  | supportUri => some (nullableText settings.supportUri)
  | copy key => settings.copy.field key
  | _ => none

def ofBranding (settings : BrandingSettings) : SettingsField → Option Json
  | logoUrl => some (nullableText settings.logoUrl)
  | faviconUrl => some (nullableText settings.faviconUrl)
  | logoAssetId => some (nullableText settings.logoAssetId)
  | faviconAssetId => some (nullableText settings.faviconAssetId)
  | primaryColor => some (nullableText settings.primaryColor)
  | backgroundColor => some (nullableText settings.backgroundColor)
  | customCss => some (nullableText settings.customCss)
  | _ => none

/-- A field of what is stored under its key; where nothing is stored, of the defaults. -/
def valueIn (field : SettingsField) (value : Option SettingsValue) : Option Json :=
  match field.key with
  | .signIn => ofSignIn ((value.bind SettingsValue.signIn?).getD {}) field
  | .general => ofGeneral ((value.bind SettingsValue.general?).getD {}) field
  | .branding => ofBranding ((value.bind SettingsValue.branding?).getD {}) field

end SettingsField

/-- What is stored under a key. -/
def storedSettings (key : SiteSettingsKey) (w : World) : Option SettingsValue :=
  (w.db.readSiteSettings key).map (·.value)

/-- A field as it is stored. -/
def SettingsField.storedIn (field : SettingsField) (w : World) : Option Json :=
  field.valueIn (storedSettings field.key w)

/-! ## Requests -/

inductive SettingsRequest where
  | settings (input : UpdateConfigzSettingsInput)
  | branding (input : UpdateConfigzBrandingInput)
  | asset (kind : BrandingAsset) (assetId : String)
  | readSettings
  | readBranding

inductive SettingsAnswer where
  | updated
  | settings (found : Option ConfigzSettings)
  | branding (found : Option BrandingSettings)

/-- What an input gives for a field of the sign-in settings. -/
def SignInInput.asks (input : SignInInput) : SettingsField → Option Json
  | .passwordEnabled => input.passwordEnabled.map .bool
  | .signupEnabled => input.signupEnabled.map .bool
  | .socialLoginEnabled => input.socialLoginEnabled.map .bool
  | .identifierFirst => input.identifierFirst.map .bool
  | .usernameEnabled => input.usernameEnabled.map .bool
  | .emailOtpEnabled => input.emailOtpEnabled.map .bool
  | .provider key field =>
    (input.builtInProviders.bind (·.lookup key)).bind (Record.field · field)
  | _ => none

/-- What an input gives for a field of the general settings. -/
def UpdateConfigzSettingsInput.asksGeneral (input : UpdateConfigzSettingsInput) :
    SettingsField → Option Json
  | .termsUri => input.termsUri.map nullableText
  | .privacyUri => input.privacyUri.map nullableText
  | .supportEmail => input.supportEmail.map nullableText
  | .supportUri => input.supportUri.map nullableText
  | .copy key => input.copy.bind (·.field key)
  | _ => none

/-- What an input gives for a field of the branding: with its address it takes a logo's asset. -/
def UpdateConfigzBrandingInput.asksBranding (input : UpdateConfigzBrandingInput) :
    SettingsField → Option Json
  | .logoUrl => input.logoUrl.map nullableText
  | .faviconUrl => input.faviconUrl.map nullableText
  | .logoAssetId => if input.logoUrl = some none then some .null else none
  | .faviconAssetId => if input.faviconUrl = some none then some .null else none
  | .primaryColor => input.primaryColor.map nullableText
  | .backgroundColor => input.backgroundColor.map nullableText
  | .customCss => input.customCss.map nullableText
  | _ => none

namespace SettingsRequest

/-- What a request asks a field to be. -/
def asks (request : SettingsRequest) (field : SettingsField) : Option Json :=
  match request, field.key with
  | settings input, .signIn => input.signInInput.bind (·.asks field)
  | settings input, .general => input.asksGeneral field
  | branding input, .general => input.copy.bind fun copy =>
    UpdateConfigzSettingsInput.asksGeneral { copy := some copy } field
  | branding input, .branding => input.asksBranding field
  | asset .logo assetId, _ => if field = .logoAssetId then some (.str assetId) else none
  | asset .favicon assetId, _ => if field = .faviconAssetId then some (.str assetId) else none
  | _, _ => none

/-- How a request changes what is stored under a key, if it writes it. -/
def patch : SettingsRequest → SiteSettingsKey → Option (Option SettingsValue → SettingsValue)
  | settings input, .signIn => input.signInInput.map patchSignIn
  | settings input, .general => if input.givesGeneral then some (patchGeneral input) else none
  | branding input, .general => input.copy.map fun copy => patchGeneral { copy := some copy }
  | branding input, .branding => some (patchBranding input)
  | asset kind assetId, .branding => some (patchAsset kind assetId)
  | _, _ => none

/-- The key that a request writes after another one. -/
def secondKey : SettingsRequest → Option SiteSettingsKey
  | settings input =>
    if input.signInInput.isSome ∧ input.givesGeneral then some .general else none
  | branding input => if input.copy.isSome then some .branding else none
  | _ => none

end SettingsRequest

/-! ## What a patch changes -/

section Patches

variable {field : SettingsField} {value : Option SettingsValue}

theorem lookup_map_unique (keys : List String) (g : String → Record) (key : String) :
    ((unique keys).map fun k => (k, g k)).lookup key =
      if key ∈ keys then some (g key) else none := by
  have hlookup : ∀ ks : List String, (ks.map fun k => (k, g k)).lookup key =
      if key ∈ ks then some (g key) else none := by
    intro ks
    induction ks with
    | nil => rfl
    | cons k ks ih =>
      rw [List.map_cons, List.lookup_cons]
      by_cases hk : key = k
      · subst hk
        simp
      · rw [beq_eq_false_iff_ne.mpr hk]
        simp only [ih, List.mem_cons, hk, false_or]
  rw [hlookup]
  simp [unique]

/-- A field of a provider is the one of the patch, if this has it. -/
theorem lookup_mergeBuiltInProviderMetadata (current patch : List (String × Record))
    (key name : String) :
    ((mergeBuiltInProviderMetadata current patch).lookup key).bind (Record.field · name) =
      ((patch.lookup key).bind (Record.field · name)).or
        ((current.lookup key).bind (Record.field · name)) := by
  have hmem : ∀ entries : List (String × Record),
      key ∈ entries.map (·.1) ↔ (entries.lookup key).isSome = true := by
    intro entries
    rw [List.lookup_isSome_iff]
    simp only [List.mem_map]
    constructor
    · rintro ⟨entry, hentry, heq⟩
      exact ⟨entry, hentry, by simp [heq]⟩
    · rintro ⟨entry, hentry, heq⟩
      exact ⟨entry, hentry, (beq_iff_eq.mp heq).symm⟩
  rw [mergeBuiltInProviderMetadata, lookup_map_unique]
  simp only [List.mem_append, hmem]
  cases hcurrent : current.lookup key with
  | none =>
    cases hpatch : patch.lookup key with
    | none => simp
    | some patchValue => simp
  | some currentValue =>
    cases hpatch : patch.lookup key with
    | none => simp
    | some patchValue => simp [Record.field_spread]

theorem ofSignIn_toSettingsPatch (input : SignInInput) (settings : SignInSettings)
    (field : SettingsField) :
    SettingsField.ofSignIn (toSettingsPatch input settings) field =
      (input.asks field).or (SettingsField.ofSignIn settings field) := by
  cases field with
  | provider key name =>
    simp only [SettingsField.ofSignIn, toSettingsPatch, SignInInput.asks]
    cases input.builtInProviders with
    | none => simp
    | some patch => simpa using lookup_mergeBuiltInProviderMetadata _ patch key name
  | passwordEnabled => cases h : input.passwordEnabled <;>
      simp [SettingsField.ofSignIn, toSettingsPatch, SignInInput.asks, h]
  | signupEnabled => cases h : input.signupEnabled <;>
      simp [SettingsField.ofSignIn, toSettingsPatch, SignInInput.asks, h]
  | socialLoginEnabled => cases h : input.socialLoginEnabled <;>
      simp [SettingsField.ofSignIn, toSettingsPatch, SignInInput.asks, h]
  | identifierFirst => cases h : input.identifierFirst <;>
      simp [SettingsField.ofSignIn, toSettingsPatch, SignInInput.asks, h]
  | usernameEnabled => cases h : input.usernameEnabled <;>
      simp [SettingsField.ofSignIn, toSettingsPatch, SignInInput.asks, h]
  | emailOtpEnabled => cases h : input.emailOtpEnabled <;>
      simp [SettingsField.ofSignIn, toSettingsPatch, SignInInput.asks, h]
  | _ => rfl

theorem nullableText_getD (given : Option (Option String)) (current : Option String) :
    some (nullableText (given.getD current)) =
      (given.map nullableText).or (some (nullableText current)) := by
  cases given <;> rfl

theorem ofGeneral_nextGeneral (input : UpdateConfigzSettingsInput) (settings : GeneralSettings)
    (field : SettingsField) :
    SettingsField.ofGeneral (input.nextGeneral settings) field =
      (input.asksGeneral field).or (SettingsField.ofGeneral settings field) := by
  cases field with
  | copy key =>
    simp only [SettingsField.ofGeneral, UpdateConfigzSettingsInput.nextGeneral,
      UpdateConfigzSettingsInput.asksGeneral]
    cases input.copy with
    | none => simp
    | some copy => simp [Record.field_spread]
  | termsUri => exact nullableText_getD _ _
  | privacyUri => exact nullableText_getD _ _
  | supportEmail => exact nullableText_getD _ _
  | supportUri => exact nullableText_getD _ _
  | _ => rfl

theorem ofBranding_toBrandingPatch (input : UpdateConfigzBrandingInput)
    (settings : BrandingSettings) (field : SettingsField) :
    SettingsField.ofBranding (toBrandingPatch input settings) field =
      (input.asksBranding field).or (SettingsField.ofBranding settings field) := by
  cases field with
  | logoUrl => exact nullableText_getD _ _
  | faviconUrl => exact nullableText_getD _ _
  | primaryColor => exact nullableText_getD _ _
  | backgroundColor => exact nullableText_getD _ _
  | customCss => exact nullableText_getD _ _
  | logoAssetId =>
    simp only [SettingsField.ofBranding, toBrandingPatch, UpdateConfigzBrandingInput.asksBranding]
    split_ifs <;> simp [nullableText]
  | faviconAssetId =>
    simp only [SettingsField.ofBranding, toBrandingPatch, UpdateConfigzBrandingInput.asksBranding]
    split_ifs <;> simp [nullableText]
  | _ => rfl

/-- A patch sets the fields that its request gives, and keeps the others. -/
theorem valueIn_patch {request : SettingsRequest} {patch : Option SettingsValue → SettingsValue}
    (h : request.patch field.key = some patch) (value : Option SettingsValue) :
    field.valueIn (some (patch value)) = (request.asks field).or (field.valueIn value) := by
  cases hkey : field.key with
  | signIn =>
    rw [hkey] at h
    cases request with
    | settings input =>
      obtain ⟨signInInput, hinput, rfl⟩ := Option.map_eq_some_iff.mp h
      simp only [SettingsField.valueIn, SettingsRequest.asks, hkey, hinput, Option.bind_some,
        patchSignIn, SettingsValue.signIn?, Option.getD_some]
      exact ofSignIn_toSettingsPatch _ _ _
    | _ => cases h
  | general =>
    rw [hkey] at h
    cases request with
    | settings input =>
      simp only [SettingsRequest.patch] at h
      split_ifs at h
      cases h
      simp only [SettingsField.valueIn, SettingsRequest.asks, hkey, Option.bind_some,
        patchGeneral, SettingsValue.general?, Option.getD_some]
      exact ofGeneral_nextGeneral _ _ _
    | branding input =>
      obtain ⟨copy, hcopy, rfl⟩ := Option.map_eq_some_iff.mp h
      simp only [SettingsField.valueIn, SettingsRequest.asks, hkey, hcopy, Option.bind_some,
        patchGeneral, SettingsValue.general?, Option.getD_some]
      exact ofGeneral_nextGeneral _ _ _
    | _ => cases h
  | branding =>
    rw [hkey] at h
    cases request with
    | branding input =>
      cases h
      simp only [SettingsField.valueIn, SettingsRequest.asks, hkey, Option.bind_some,
        patchBranding, SettingsValue.branding?, Option.getD_some]
      exact ofBranding_toBrandingPatch _ _ _
    | asset kind assetId =>
      cases h
      cases kind <;> cases field <;>
        simp [SettingsField.valueIn, SettingsRequest.asks, SettingsField.key, patchAsset,
          SettingsValue.branding?, SettingsField.ofBranding, nullableText] at hkey ⊢
    | _ => cases h

theorem key_patch {request : SettingsRequest} {key : SiteSettingsKey}
    {patch : Option SettingsValue → SettingsValue} (h : request.patch key = some patch)
    (value : Option SettingsValue) : (patch value).key = key := by
  cases request with
  | settings input =>
    cases key with
    | signIn =>
      obtain ⟨signInInput, -, rfl⟩ := Option.map_eq_some_iff.mp h
      rfl
    | general =>
      simp only [SettingsRequest.patch] at h
      split_ifs at h
      cases h
      rfl
    | branding => cases h
  | branding input =>
    cases key with
    | signIn => cases h
    | general =>
      obtain ⟨copy, -, rfl⟩ := Option.map_eq_some_iff.mp h
      rfl
    | branding =>
      cases h
      rfl
  | asset kind assetId =>
    cases key with
    | branding =>
      cases h
      rfl
    | _ => cases h
  | readSettings => cases h
  | readBranding => cases h

theorem givesGeneral_of_asksGeneral {input : UpdateConfigzSettingsInput}
    (h : (input.asksGeneral field).isSome = true) : input.givesGeneral = true := by
  have hcopy : ∀ key, (input.copy.bind (·.field key)).isSome = true → input.copy.isSome = true := by
    intro key hsome
    cases hinput : input.copy with
    | none => simp [hinput] at hsome
    | some copy => rfl
  unfold UpdateConfigzSettingsInput.asksGeneral at h
  cases field with
  | copy key => simp [UpdateConfigzSettingsInput.givesGeneral, hcopy key h]
  | termsUri => simp_all [UpdateConfigzSettingsInput.givesGeneral]
  | privacyUri => simp_all [UpdateConfigzSettingsInput.givesGeneral]
  | supportEmail => simp_all [UpdateConfigzSettingsInput.givesGeneral]
  | supportUri => simp_all [UpdateConfigzSettingsInput.givesGeneral]
  | _ => simp at h

/-- A request writes the key of every field that it gives. -/
theorem patch_isSome {request : SettingsRequest} (h : (request.asks field).isSome = true) :
    (request.patch field.key).isSome = true := by
  cases request with
  | settings input =>
    cases hkey : field.key with
    | signIn =>
      simp only [SettingsRequest.asks, hkey] at h
      cases hinput : input.signInInput with
      | none => simp [hinput] at h
      | some signInInput => simp [SettingsRequest.patch, hinput]
    | general =>
      simp only [SettingsRequest.asks, hkey] at h
      simp [SettingsRequest.patch, givesGeneral_of_asksGeneral h]
    | branding => simp [SettingsRequest.asks, hkey] at h
  | branding input =>
    cases hkey : field.key with
    | signIn => simp [SettingsRequest.asks, hkey] at h
    | general =>
      simp only [SettingsRequest.asks, hkey] at h
      cases hinput : input.copy with
      | none => simp [hinput] at h
      | some copy => simp [SettingsRequest.patch, hinput]
    | branding => rfl
  | asset kind assetId =>
    have hbranding : field.key = .branding := by
      cases kind <;> cases field <;> simp [SettingsRequest.asks] at h <;> rfl
    rw [hbranding]
    rfl
  | readSettings => simp [SettingsRequest.asks] at h
  | readBranding => simp [SettingsRequest.asks] at h

end Patches

/-! ## Writes -/

/-- The key that a command writes. -/
def Command.settingsKey? : Command → Option SiteSettingsKey
  | .settings (.write value _) => some value.key
  | _ => none

/-- A write of settings finds the revision that it names. -/
def Accepts (c : Command) (w : World) : Bool :=
  match c with
  | .settings (.write value none) => (w.db.readSiteSettings value.key).isNone
  | .settings (.write value (some revision)) =>
    w.db.siteSettings.any fun row => row.key = value.key && row.revision = revision
  | _ => false

/-- The keys are the primary key of their table. -/
def SettingsKeyed (w : World) : Prop := Table.Keyed SiteSettings.key w.db.siteSettings

/-- A revision stands for one value of a key. -/
def settingsScheme : Versions.Scheme SiteSettings SiteSettingsKey SettingsValue where
  key := SiteSettings.key
  version := SiteSettings.revision
  payload := SiteSettings.value

def SettingsAdvance (s t : World) : Prop :=
  Versions.Advances settingsScheme s.db.siteSettings t.db.siteSettings

section Writes

variable {w s t : World} {value : SettingsValue} {revision : Option ℕ}

theorem exec_settings (command : SettingsCommand) (w : World) :
    exec (Command.settings command) w = { w with db := command.after w.db } := rfl

/-- What a write answers is whether it is accepted. -/
theorem writeSiteSettings_answer (value : SettingsValue) (revision : Option ℕ) (w : World) :
    ∃ db, Database.writeSiteSettings revision value w.db =
        .ok (Accepts (.settings (.write value revision)) w, db) ∧
      (exec (Command.settings (.write value revision)) w).db = db := by
  cases revision with
  | none =>
    cases hread : w.db.readSiteSettings value.key with
    | none =>
      refine ⟨{ w.db with
        siteSettings := w.db.siteSettings ++ [{ value := value, revision := 1 }] }, ?_, ?_⟩
      · simp [Database.writeSiteSettings, Accepts, hread]
      · simp [exec_settings, SettingsCommand.after, Statement.after, SettingsCommand.statement,
          Database.writeSiteSettings, hread]
    | some row =>
      refine ⟨w.db, ?_, ?_⟩
      · simp [Database.writeSiteSettings, Accepts, hread]
      · simp [exec_settings, SettingsCommand.after, Statement.after, SettingsCommand.statement,
          Database.writeSiteSettings, hread]
  | some revision => exact ⟨_, rfl, rfl⟩

/-- A write that is refused changes nothing. -/
theorem exec_of_refused {c : Command} (hsettings : c = .read ∨ ∃ command, c = .settings command)
    (h : Accepts c w = false) : exec c w = w := by
  obtain rfl | ⟨⟨value, revision⟩, rfl⟩ := hsettings
  · rfl
  cases revision with
  | none =>
    have hsome : (w.db.readSiteSettings value.key).isSome = true := by
      simpa [Accepts, Option.isSome_iff_ne_none] using h
    simp [exec_settings, SettingsCommand.after, Statement.after, SettingsCommand.statement,
      Database.writeSiteSettings, hsome]
  | some revision =>
    have hnone : ∀ row ∈ w.db.siteSettings,
        (decide (row.key = value.key) && decide (row.revision = revision)) = true →
          ({ value := value, revision := revision + 1 } : SiteSettings) = row := by
      intro row hrow hselects
      have hany := List.any_eq_false.mp h row hrow
      exact absurd hselects hany
    simp [exec_settings, SettingsCommand.after, Statement.after, SettingsCommand.statement,
      Database.writeSiteSettings, Table.updateWhere_eq_self hnone]

/-- The rows after a write under a revision. -/
theorem siteSettings_update (value : SettingsValue) (revision : ℕ) (w : World) :
    (exec (Command.settings (.write value (some revision))) w).db.siteSettings =
      Table.updateWhere
        (fun row => row.key = value.key && row.revision = revision)
        (fun row => if row.key = value.key && row.revision = revision then
          { value := value, revision := revision + 1 } else row) w.db.siteSettings := by
  rw [exec_settings, SettingsCommand.after, Statement.after, SettingsCommand.statement,
    Database.writeSiteSettings]
  simp only [Table.updateWhere]
  apply List.map_congr_left
  intro row _
  split_ifs <;> rfl

theorem siteSettings_insert {value : SettingsValue}
    (h : (w.db.readSiteSettings value.key).isNone = true) :
    (exec (Command.settings (.write value none)) w).db.siteSettings =
      w.db.siteSettings ++ [{ value := value, revision := 1 }] := by
  have hread : w.db.readSiteSettings value.key = none := Option.isNone_iff_eq_none.mp h
  simp [exec_settings, SettingsCommand.after, Statement.after, SettingsCommand.statement,
    Database.writeSiteSettings, hread]

/-- A write keeps the keys of the rows. -/
theorem key_update (value : SettingsValue) (revision : ℕ) (row : SiteSettings) :
    (if row.key = value.key && row.revision = revision then
      { value := value, revision := revision + 1 } else row : SiteSettings).key = row.key := by
  split_ifs with h
  · simp only [Bool.and_eq_true, decide_eq_true_eq] at h
    exact h.1.symm
  · rfl

theorem readSiteSettings_eq_some (hkeyed : SettingsKeyed w) {row : SiteSettings}
    (hrow : row ∈ w.db.siteSettings) : w.db.readSiteSettings row.key = some row := by
  have hsome : (w.db.readSiteSettings row.key).isSome = true := by
    rw [Database.readSiteSettings, List.find?_isSome]
    exact ⟨row, hrow, by simp⟩
  obtain ⟨found, hfound⟩ := Option.isSome_iff_exists.mp hsome
  have hkey : found.key = row.key := by simpa using List.find?_some hfound
  rw [hfound, hkeyed.eq_of_key (List.mem_of_find?_eq_some hfound) hrow hkey]

/-- What is stored after a write that is accepted. -/
theorem storedSettings_of_accepted (hkeyed : SettingsKeyed w)
    (h : Accepts (.settings (.write value revision)) w = true) (key : SiteSettingsKey) :
    storedSettings key (exec (Command.settings (.write value revision)) w) =
      if key = value.key then some value else storedSettings key w := by
  cases revision with
  | none =>
    have hnone : w.db.readSiteSettings value.key = none := Option.isNone_iff_eq_none.mp h
    simp only [storedSettings, Database.readSiteSettings, siteSettings_insert h,
      List.find?_append]
    by_cases hkey : key = value.key
    · subst hkey
      rw [Database.readSiteSettings] at hnone
      rw [hnone, if_pos rfl, Option.none_or]
      simp [SiteSettings.key]
    · simp [hkey, SiteSettings.key, Ne.symm hkey]
  | some revision =>
    simp only [storedSettings, Database.readSiteSettings, siteSettings_update]
    rw [Table.find?_updateWhere fun row => by rw [key_update]]
    by_cases hkey : key = value.key
    · obtain ⟨row, hrow, hselects⟩ := List.any_eq_true.mp h
      simp only [Bool.and_eq_true, decide_eq_true_eq] at hselects
      have hread := readSiteSettings_eq_some hkeyed hrow
      rw [Database.readSiteSettings, hselects.1] at hread
      subst hkey
      simp [hread, hselects.1, hselects.2]
    · rw [if_neg hkey, Option.map_map]
      cases hread : w.db.siteSettings.find? fun row => row.key = key with
      | none => rfl
      | some row =>
        have hrowKey : row.key = key := by simpa using List.find?_some hread
        have hother : row.key ≠ value.key := hrowKey ▸ hkey
        simp [hother]

/-- Writes keep the keys apart, and the values that a revision stands for. -/
theorem exec_write (hkeyed : SettingsKeyed w) :
    SettingsKeyed (exec (Command.settings (.write value revision)) w) ∧
      SettingsAdvance w (exec (Command.settings (.write value revision)) w) := by
  cases revision with
  | none =>
    cases hread : (w.db.readSiteSettings value.key).isNone with
    | false =>
      have hrefused : Accepts (.settings (.write value none)) w = false := hread
      rw [exec_of_refused (Or.inr ⟨_, rfl⟩) hrefused]
      exact ⟨hkeyed, Versions.Advances.refl _⟩
    | true =>
      rw [SettingsKeyed, SettingsAdvance, siteSettings_insert hread]
      refine ⟨hkeyed.append_singleton ?_, Versions.advances_append _⟩
      intro row hrow heq
      rw [Database.readSiteSettings, Option.isNone_iff_eq_none, List.find?_eq_none] at hread
      exact hread row hrow (decide_eq_true heq)
  | some revision =>
    rw [SettingsKeyed, SettingsAdvance, siteSettings_update]
    refine ⟨hkeyed.updateWhere (key_update value revision), Versions.advances_updateWhere ?_⟩
    intro row _ hselects
    have hrevision : row.revision = revision := by
      simp only [Bool.and_eq_true, decide_eq_true_eq] at hselects
      exact hselects.2
    refine ⟨key_update value revision row, Or.inl ?_⟩
    simp only [settingsScheme, if_pos hselects]
    omega

/-- A write that is accepted finds what was read with its revision. -/
theorem storedSettings_of_advance (hkeyed : SettingsKeyed t) (hadvance : SettingsAdvance s t)
    {key : SiteSettingsKey} (hkey : value.key = key)
    (h : Accepts
      (.settings (.write value ((s.db.readSiteSettings key).map (·.revision)))) t = true) :
    storedSettings key t = storedSettings key s := by
  subst hkey
  cases hread : s.db.readSiteSettings value.key with
  | none =>
    rw [hread] at h
    have hnone : t.db.readSiteSettings value.key = none := Option.isNone_iff_eq_none.mp h
    rw [storedSettings, hnone, storedSettings, hread]
  | some row =>
    rw [hread] at h
    obtain ⟨row', hrow', hselects⟩ := List.any_eq_true.mp h
    simp only [Bool.and_eq_true, decide_eq_true_eq] at hselects
    have hrow : row ∈ s.db.siteSettings := List.mem_of_find?_eq_some hread
    have hrowKey : row.key = value.key := by simpa using List.find?_some hread
    have hsucceeds := hadvance.succeeds hkeyed hrow hrow' (hselects.1.trans hrowKey.symm)
    have hvalue : row'.value = row.value := hsucceeds.payload hselects.2
    have hread' := readSiteSettings_eq_some hkeyed hrow'
    rw [hselects.1] at hread'
    rw [storedSettings, hread', storedSettings, hread, Option.map_some, Option.map_some, hvalue]

end Writes

/-! ## Programs -/

/-- What a write throws when it is refused. -/
def settingsConflict : Error := Error.conflict "Site settings changed. Reload and try again."

/-- What an update writes under a key when it has read a state. -/
def writeFor (key : SiteSettingsKey) (patch : Option SettingsValue → SettingsValue) (s : World) :
    Command :=
  .settings (.write (patch (storedSettings key s)) ((s.db.readSiteSettings key).map (·.revision)))

section Programs

variable {key : SiteSettingsKey} {patch : Option SettingsValue → SettingsValue}
  {log : List (Command × World)} {α : Type}

/-- An update of one key reads and writes, and throws when the write is refused. -/
theorem patchSettings_eq (key : SiteSettingsKey)
    (patch : Option SettingsValue → SettingsValue) :
    patchSettings key patch =
      .call .read fun s => .call (writeFor key patch s) fun t =>
        if Accepts (writeFor key patch s) t = true then .pure () else .throw settingsConflict := by
  have hwrite : ∀ value revision, writeSiteSettings value revision =
      .call (.settings (.write value revision)) fun t =>
        if Accepts (.settings (.write value revision)) t = true then .pure ()
        else .throw settingsConflict := by
    intro value revision
    change Program.call _ _ = Program.call _ _
    congr 1
    funext t
    obtain ⟨db, hanswer, -⟩ := writeSiteSettings_answer value revision t
    have hstatement : (SettingsCommand.write value revision).statement t.db =
        .ok (Accepts (.settings (.write value revision)) t, db) := hanswer
    dsimp only
    rw [hstatement]
    change throwIf (Accepts (.settings (.write value revision)) t = false) settingsConflict = _
    rw [throwIf]
    cases Accepts (.settings (.write value revision)) t <;> rfl
  change Program.call _ _ = Program.call _ _
  congr 1
  funext s
  exact hwrite _ _

/-- An update of one key, with what follows it. -/
theorem patchSettings_logs {post : List (Command × World) → Except Error α → Prop}
    {next : Unit → Request α}
    (hok : ∀ s t, Accepts (writeFor key patch s) t = true →
      (next ()).Logs post (log ++ [(.read, s)] ++ [(writeFor key patch s, t)]))
    (herror : ∀ s t, Accepts (writeFor key patch s) t = false →
      post (log ++ [(.read, s)] ++ [(writeFor key patch s, t)]) (.error settingsConflict)) :
    (patchSettings key patch >>= next).Logs post log := by
  rw [patchSettings_eq]
  intro s t
  change (Program.bind (if Accepts (writeFor key patch s) t = true then .pure ()
    else .throw settingsConflict) next).Logs post _
  cases haccepts : Accepts (writeFor key patch s) t with
  | true => exact hok s t haccepts
  | false => exact herror s t haccepts

end Programs

/-! ## The system -/

/-- Time passes, and other requests change what is not a setting. -/
inductive SettingsEvent where
  | elapse (duration : Time)
  | others (db : Database)

def settingsSystem :
    System Command World Reply Error SettingsAnswer SettingsRequest SettingsEvent where
  program
    | .settings input => updateSettings input >>= fun _ => .pure .updated
    | .branding input => updateBranding input >>= fun _ => .pure .updated
    | .asset kind assetId => updateBrandingAsset kind assetId >>= fun _ => .pure .updated
    | .readSettings => getSettings >>= fun found => .pure (.settings found)
    | .readBranding => getBranding >>= fun found => .pure (.branding found)
  environment
    | .elapse duration, w => { w with clock := w.clock + duration }
    | .others db, w => { w with db := { db with siteSettings := w.db.siteSettings } }

/-- The updates of a request, in their order. -/
def SettingsRequest.patches : SettingsRequest →
    List (SiteSettingsKey × (Option SettingsValue → SettingsValue))
  | settings input =>
    (input.signInInput.map fun signInInput => (.signIn, patchSignIn signInInput)).toList ++
      (if input.givesGeneral then [(.general, patchGeneral input)] else [])
  | branding input =>
    (input.copy.map fun copy => (.general, patchGeneral { copy := some copy })).toList ++
      [(.branding, patchBranding input)]
  | asset kind assetId => [(.branding, patchAsset kind assetId)]
  | _ => []

/-- The updates of one key after another. -/
def applyPatches {α : Type} (answer : α) :
    List (SiteSettingsKey × (Option SettingsValue → SettingsValue)) → Request α
  | [] => .pure answer
  | (key, patch) :: rest => patchSettings key patch >>= fun _ => applyPatches answer rest

theorem program_settings (input : UpdateConfigzSettingsInput) :
    settingsSystem.program (.settings input) =
      applyPatches .updated (SettingsRequest.patches (.settings input)) := by
  change (updateSettings input >>= fun _ => .pure SettingsAnswer.updated) = _
  unfold updateSettings
  simp only [SettingsRequest.patches]
  cases input.signInInput with
  | none => cases input.givesGeneral <;> rfl
  | some signInInput =>
    change Program.bind (Program.bind _ _) _ = _
    rw [Program.bind_assoc]
    cases input.givesGeneral <;> rfl

theorem program_branding (input : UpdateConfigzBrandingInput) :
    settingsSystem.program (.branding input) =
      applyPatches .updated (SettingsRequest.patches (.branding input)) := by
  change (updateBranding input >>= fun _ => .pure SettingsAnswer.updated) = _
  unfold updateBranding
  simp only [SettingsRequest.patches]
  cases input.copy with
  | none => rfl
  | some copy =>
    change Program.bind (Program.bind _ _) _ = _
    rw [Program.bind_assoc]
    rfl

theorem program_asset (kind : BrandingAsset) (assetId : String) :
    settingsSystem.program (.asset kind assetId) =
      applyPatches .updated (SettingsRequest.patches (.asset kind assetId)) := rfl

/-! ## What a call has written -/

/-- Among the commands of a call is a write of the key that was accepted, or that was refused. -/
def Wrote (log : List (Command × World)) (key : SiteSettingsKey) (accepted : Bool) : Prop :=
  ∃ entry ∈ log, entry.1.settingsKey? = some key ∧ Accepts entry.1 entry.2 = accepted

theorem Wrote.append {log more : List (Command × World)} {key : SiteSettingsKey} {accepted : Bool}
    (h : Wrote more key accepted) : Wrote (log ++ more) key accepted := by
  obtain ⟨entry, hentry, hwrote⟩ := h
  exact ⟨entry, List.mem_append_right _ hentry, hwrote⟩

/-- A sequence of updates that returns has written every key; one that throws has been refused,
and has written nothing unless it was refused at a later key. -/
def PatchLog {α : Type} (patches : List (SiteSettingsKey × (Option SettingsValue → SettingsValue)))
    (log : List (Command × World)) : Except Error α → Prop
  | .ok _ => ∀ p ∈ patches, Wrote log p.1 true
  | .error _ => (∃ p ∈ patches, Wrote log p.1 false) ∧
    ((∀ entry ∈ log, Accepts entry.1 entry.2 = false) ∨ ∃ p ∈ patches.tail, Wrote log p.1 false)

theorem applyPatches_logs {α : Type} (answer : α)
    {patches : List (SiteSettingsKey × (Option SettingsValue → SettingsValue))}
    (hkeys : ∀ p ∈ patches, ∀ value, (p.2 value).key = p.1) (log : List (Command × World)) :
    (applyPatches answer patches).Logs
      (fun log' r => ∃ more, log' = log ++ more ∧ PatchLog patches more r) log := by
  induction patches generalizing log with
  | nil => exact ⟨[], by simp, by simp [PatchLog]⟩
  | cons p patches ih =>
    obtain ⟨key, patch⟩ := p
    have hkey : ∀ s, (writeFor key patch s).settingsKey? = some key := by
      intro s
      exact congrArg some (hkeys (key, patch) (by simp) _)
    apply patchSettings_logs
    · intro s t haccepts
      refine (ih (fun p hp => hkeys p (by simp [hp])) _).mono ?_
      rintro log' r ⟨more, rfl, hmore⟩
      refine ⟨[(.read, s), (writeFor key patch s, t)] ++ more, by simp, ?_⟩
      cases r with
      | ok a =>
        intro q hq
        rcases List.mem_cons.mp hq with rfl | hq
        · exact ⟨(writeFor key patch s, t), by simp, hkey s, haccepts⟩
        · exact (hmore q hq).append
      | error e =>
        obtain ⟨⟨q, hq, hwrote⟩, -⟩ := hmore
        exact ⟨⟨q, by simp [hq], hwrote.append⟩, Or.inr ⟨q, hq, hwrote.append⟩⟩
    · intro s t hrefused
      refine ⟨[(.read, s), (writeFor key patch s, t)], by simp, ?_⟩
      have hwrote : Wrote [(.read, s), (writeFor key patch s, t)] key false :=
        ⟨(writeFor key patch s, t), by simp, hkey s, hrefused⟩
      refine ⟨⟨(key, patch), by simp, hwrote⟩, Or.inl ?_⟩
      intro entry hentry
      simp only [List.mem_cons, List.not_mem_nil, or_false] at hentry
      rcases hentry with rfl | rfl
      · rfl
      · exact hrefused

/-- The updates of a request are its patches. -/
theorem mem_patches {request : SettingsRequest}
    {p : SiteSettingsKey × (Option SettingsValue → SettingsValue)} :
    p ∈ request.patches ↔ request.patch p.1 = some p.2 := by
  obtain ⟨key, patch⟩ := p
  cases request with
  | settings input =>
    simp only [SettingsRequest.patches]
    cases hinput : input.signInInput <;> cases hgives : input.givesGeneral <;> cases key <;>
      simp [SettingsRequest.patch, hinput, hgives] <;> exact eq_comm
  | branding input =>
    simp only [SettingsRequest.patches]
    cases hcopy : input.copy <;> cases key <;>
      simp [SettingsRequest.patch, hcopy] <;> exact eq_comm
  | asset kind assetId =>
    cases key <;> simp [SettingsRequest.patches, SettingsRequest.patch]
    exact eq_comm
  | readSettings => simp [SettingsRequest.patches, SettingsRequest.patch]
  | readBranding => simp [SettingsRequest.patches, SettingsRequest.patch]

theorem secondKey_of_mem_tail {request : SettingsRequest}
    {p : SiteSettingsKey × (Option SettingsValue → SettingsValue)}
    (h : p ∈ request.patches.tail) : request.secondKey = some p.1 := by
  cases request with
  | settings input =>
    simp only [SettingsRequest.patches] at h
    cases hinput : input.signInInput <;> cases hgives : input.givesGeneral <;>
      simp [hinput, hgives, SettingsRequest.secondKey] at h ⊢
    simp [h]
  | branding input =>
    simp only [SettingsRequest.patches] at h
    cases hcopy : input.copy <;> simp [hcopy, SettingsRequest.secondKey] at h ⊢
    simp [h]
  | asset kind assetId => simp [SettingsRequest.patches] at h
  | readSettings => simp [SettingsRequest.patches] at h
  | readBranding => simp [SettingsRequest.patches] at h

theorem program_logs (request : SettingsRequest) :
    (settingsSystem.program request).Logs (PatchLog request.patches) [] := by
  have hkeys : ∀ p ∈ request.patches, ∀ value, (p.2 value).key = p.1 :=
    fun p hp value => key_patch (mem_patches.mp hp) value
  have happly : settingsSystem.program request =
      applyPatches SettingsAnswer.updated request.patches →
      (settingsSystem.program request).Logs (PatchLog request.patches) [] := by
    intro hprogram
    rw [hprogram]
    refine (applyPatches_logs SettingsAnswer.updated hkeys []).mono ?_
    rintro log r ⟨more, rfl, hmore⟩
    exact hmore
  cases request with
  | settings input => exact happly (program_settings input)
  | branding input => exact happly (program_branding input)
  | asset kind assetId => exact happly (program_asset kind assetId)
  | readSettings =>
    intro s t
    change (Program.bind (if _ then _ else _) _).Logs _ _
    split_ifs <;> exact fun p hp => absurd hp List.not_mem_nil
  | readBranding => exact fun s p hp => absurd hp List.not_mem_nil

/-! ## What a write is made of -/

/-- A command reads, or writes under a key of its request; where the write is accepted, it is the
patch of the request on what is stored. -/
def WritesPatch (request : SettingsRequest) (c : Command) (w : World) : Prop :=
  c = .read ∨ ∃ value revision, c = .settings (.write value revision) ∧
    (Accepts c w = true → ∃ patch, request.patch value.key = some patch ∧
      value = patch (storedSettings value.key w))

def settingsPromises :
    Pool.Promises Command World Reply Error SettingsAnswer SettingsRequest where
  inv := SettingsKeyed
  moves := SettingsAdvance
  cond _ _ _ := True
  promise := WritesPatch
  post _ _ _ := True

theorem patchSettings_meets {request : SettingsRequest} {key : SiteSettingsKey}
    {patch : Option SettingsValue → SettingsValue} (hpatch : request.patch key = some patch)
    {α : Type} {next : Unit → Request α} {post : Except Error α → World → Prop}
    (hnext : ∀ t, (next ()).Meets (settingsPromises.contract request) post t)
    (herror : ∀ e t, post (.error e) t) (w : World) :
    (patchSettings key patch >>= next).Meets (settingsPromises.contract request) post w := by
  rw [patchSettings_eq]
  intro s _ _
  refine ⟨Or.inl rfl, ?_⟩
  intro t hadvance hallowed
  have hkey : (patch (storedSettings key s)).key = key := key_patch hpatch _
  constructor
  · refine Or.inr ⟨_, _, rfl, ?_⟩
    intro haccepts
    have hstored := storedSettings_of_advance hallowed.1 hadvance hkey haccepts
    rw [hkey, hstored]
    exact ⟨patch, hpatch, rfl⟩
  · change (Program.bind (if Accepts (writeFor key patch s) t = true then .pure ()
      else .throw settingsConflict) next).Meets _ _ _
    split_ifs
    · exact hnext _
    · exact herror _ _

theorem applyPatches_meets {request : SettingsRequest} {α : Type} (answer : α)
    {patches : List (SiteSettingsKey × (Option SettingsValue → SettingsValue))}
    (hpatches : ∀ p ∈ patches, request.patch p.1 = some p.2) (w : World) :
    (applyPatches answer patches).Meets (settingsPromises.contract request)
      (fun _ _ => True) w := by
  induction patches generalizing w with
  | nil => trivial
  | cons p patches ih =>
    have hrest := ih fun q hq => hpatches q (by simp [hq])
    exact patchSettings_meets (hpatches p (by simp)) hrest (fun _ _ => trivial) w

theorem settingsPromises_sound : settingsPromises.Sound settingsSystem where
  refl s := Versions.Advances.refl _
  trans h h' := Versions.Advances.trans h h'
  stable _ _ _ _ _ _ := trivial
  program request s _ := by
    have happly : settingsSystem.program request =
        applyPatches SettingsAnswer.updated request.patches →
        (settingsSystem.program request).Meets (settingsPromises.contract request)
          (fun _ _ => True) s := by
      intro hprogram
      rw [hprogram]
      exact applyPatches_meets _ (fun p hp => mem_patches.mp hp) s
    cases request with
    | settings input => exact happly (program_settings input)
    | branding input => exact happly (program_branding input)
    | asset kind assetId => exact happly (program_asset kind assetId)
    | readSettings =>
      intro t _ _
      refine ⟨Or.inl rfl, ?_⟩
      intro u _ _
      refine ⟨Or.inl rfl, ?_⟩
      change (Program.bind (if _ then _ else _) _).Meets _ _ _
      split_ifs <;> trivial
    | readBranding => exact fun t _ _ => ⟨Or.inl rfl, trivial⟩
  exec request c s hs _ hpromise := by
    obtain rfl | ⟨value, revision, rfl, -⟩ := hpromise
    · exact ⟨hs, Versions.Advances.refl _⟩
    · exact exec_write hs
  environment e s hs := by
    cases e with
    | elapse duration => exact ⟨hs, Versions.Advances.refl _⟩
    | others db => exact ⟨hs, Versions.Advances.refl _⟩

/-! ## Runs -/

section Runs

variable (start : World) (schedule : List (Action Reply SettingsRequest SettingsEvent))

/-- The calls after a schedule. -/
abbrev settingsPool : Pool Command World Reply Error SettingsAnswer SettingsRequest :=
  (Pool.idle start).run settingsSystem schedule

/-- The commands of a schedule. -/
abbrev settingsIssued : List (Issued Command World SettingsRequest) :=
  (Pool.idle start).issued settingsSystem [] schedule

/-- The call that ended, and the field that it asked for: it wrote the key of the field, and the
field is stored, unless a later update that was acknowledged asked for it too. -/
def ChangeKept (i : ℕ) (field : SettingsField) (asked : Json) : Prop :=
  ∃ earlier x later, settingsIssued start schedule = earlier ++ x :: later ∧ x.index = i ∧
    x.command.settingsKey? = some field.key ∧
      ((∀ y ∈ later, (settingsPool start schedule).Acknowledged y →
        y.command.settingsKey? = some field.key → y.request.asks field = none) →
          field.storedIn (settingsPool start schedule).state = some asked)

/-- An update that throws might as well not have run, and where all calls have ended, every change
that was acknowledged is stored, unless a later one that was acknowledged replaced it. -/
structure SettingsPreserved : Prop where
  atomic : ∀ i request e, (settingsPool start schedule).procs[i]? = some (request, .throw e) →
    (settingsPool start (Pool.without i schedule)).state = (settingsPool start schedule).state
  kept : (∀ entry ∈ (settingsPool start schedule).procs, entry.2.result?.isSome = true) →
    ∀ i request answer, (settingsPool start schedule).procs[i]? = some (request, .pure answer) →
      ∀ field asked, request.asks field = some asked →
        ChangeKept start schedule i field asked

/-- A write of a second key finds the revision that its call read. -/
def SecondWritesAccepted : Prop :=
  ∀ x ∈ settingsIssued start schedule, x.request.secondKey.isSome = true →
    x.command.settingsKey? = x.request.secondKey → Accepts x.command x.state = true

instance : Decidable (SecondWritesAccepted start schedule) :=
  inferInstanceAs (Decidable (∀ x ∈ settingsIssued start schedule, _ → _ → _))

variable {start schedule}

/-- Every command is a read, or a write of the request's own patch. -/
theorem issued_writesPatch (hkeyed : SettingsKeyed start)
    {x : Issued Command World SettingsRequest} (hx : x ∈ settingsIssued start schedule) :
    SettingsKeyed x.state ∧ WritesPatch x.request x.command x.state := by
  have hhistory : ∀ entry ∈ (Pool.idle start).history settingsSystem schedule,
      SettingsKeyed entry.2.2 ∧ WritesPatch entry.1 entry.2.1 entry.2.2 :=
    settingsPromises_sound.history hkeyed (fun _ _ _ => trivial) fun _ _ => trivial
  rw [Pool.history_eq_issued schedule [] (Pool.idle start)] at hhistory
  exact hhistory (x.request, x.command, x.state) (List.mem_map_of_mem hx)

/-- The commands of a call that has ended are what its program promises. -/
theorem patchLog_of_ended {i : ℕ} {request : SettingsRequest}
    {p : Request SettingsAnswer} {r : Except Error SettingsAnswer}
    (hend : (settingsPool start schedule).procs[i]? = some (request, p))
    (hresult : p.result? = some r) :
    PatchLog request.patches (((settingsIssued start schedule).filter fun x => x.index = i).map
      fun x => (x.command, x.state)) r := by
  have hlogs := Pool.logs_of_started program_logs (P := Pool.idle start) (Nat.zero_le i) schedule
    hend hresult
  rwa [Pool.commandsOf_eq_issued i schedule []] at hlogs

theorem exists_issued_of_wrote {i : ℕ} {key : SiteSettingsKey} {accepted : Bool}
    (h : Wrote (((settingsIssued start schedule).filter fun x => x.index = i).map
      fun x => (x.command, x.state)) key accepted) :
    ∃ x ∈ settingsIssued start schedule, x.index = i ∧ x.command.settingsKey? = some key ∧
      Accepts x.command x.state = accepted := by
  obtain ⟨entry, hentry, hkey, haccepts⟩ := h
  obtain ⟨x, hx, rfl⟩ := List.mem_map.mp hentry
  obtain ⟨hmem, hindex⟩ := List.mem_filter.mp hx
  exact ⟨x, hmem, of_decide_eq_true hindex, hkey, haccepts⟩

/-- A call that throws has written nothing. -/
theorem refused_of_throw (hsecond : SecondWritesAccepted start schedule) {i : ℕ}
    {request : SettingsRequest} {e : Error}
    (hend : (settingsPool start schedule).procs[i]? = some (request, .throw e)) :
    ∀ x ∈ settingsIssued start schedule, x.index = i → Accepts x.command x.state = false := by
  obtain ⟨-, hlog⟩ := patchLog_of_ended hend rfl
  rcases hlog with hnone | ⟨p, hp, hwrote⟩
  · intro x hx hindex
    have hmem : x ∈ (settingsIssued start schedule).filter fun x => x.index = i :=
      List.mem_filter.mpr ⟨hx, decide_eq_true hindex⟩
    exact hnone (x.command, x.state) (List.mem_map_of_mem hmem)
  · obtain ⟨x, hx, hindex, hkey, hrefused⟩ := exists_issued_of_wrote hwrote
    obtain ⟨q, hq⟩ := Pool.issued_proc schedule [] (Pool.idle start) x hx
    have hrequest : x.request = request := by
      rw [hindex, hend] at hq
      exact (Prod.mk.inj (Option.some.inj hq)).1.symm
    have hsecondKey := secondKey_of_mem_tail hp
    rw [← hrequest] at hsecondKey
    have haccepts := hsecond x hx (by rw [hsecondKey]; rfl) (by rw [hkey, hsecondKey])
    rw [hrefused] at haccepts
    exact absurd haccepts (by simp)

theorem exec_of_issued_refused (hkeyed : SettingsKeyed start)
    {x : Issued Command World SettingsRequest} (hx : x ∈ settingsIssued start schedule)
    (h : Accepts x.command x.state = false) : exec x.command x.state = x.state := by
  refine exec_of_refused ?_ h
  rcases (issued_writesPatch hkeyed hx).2 with hread | ⟨value, revision, hwrite, -⟩
  · exact Or.inl hread
  · exact Or.inr ⟨_, hwrite⟩

/-- What a write that is accepted makes of a field of its key. -/
theorem storedIn_after (hkeyed : SettingsKeyed start)
    {x : Issued Command World SettingsRequest} (hx : x ∈ settingsIssued start schedule)
    (haccepts : Accepts x.command x.state = true) (field : SettingsField) :
    field.storedIn x.after =
      if x.command.settingsKey? = some field.key then
        (x.request.asks field).or (field.storedIn x.state)
      else field.storedIn x.state := by
  obtain ⟨hstate, hread | ⟨value, revision, hwrite, hpatch⟩⟩ := issued_writesPatch hkeyed hx
  · rw [hread] at haccepts
    cases haccepts
  obtain ⟨patch, hrequest, hvalue⟩ := hpatch haccepts
  rw [hwrite] at haccepts
  have hstored := storedSettings_of_accepted hstate haccepts field.key
  rw [SettingsField.storedIn, Issued.after, hwrite, hstored, Command.settingsKey?]
  by_cases hkey : field.key = value.key
  · rw [if_pos hkey, if_pos (by rw [hkey]), hvalue, ← hkey, valueIn_patch (hkey ▸ hrequest)]
    rfl
  · rw [if_neg hkey, if_neg fun heq => hkey (Option.some.inj heq).symm]
    rfl

/-- In every run in which no second write of an update is refused, the settings are preserved. -/
theorem settings_preserved (start : World) (hkeyed : SettingsKeyed start)
    (schedule : List (Action Reply SettingsRequest SettingsEvent))
    (hsecond : SecondWritesAccepted start schedule) : SettingsPreserved start schedule := by
  constructor
  · intro i request e hend
    have hkeeps : ∀ entry ∈ (Pool.idle start).commandsOf settingsSystem i schedule,
        exec entry.1 entry.2 = entry.2 := by
      intro entry hentry
      rw [Pool.commandsOf_eq_issued i schedule []] at hentry
      obtain ⟨x, hx, rfl⟩ := List.mem_map.mp hentry
      obtain ⟨hmem, hindex⟩ := List.mem_filter.mp hx
      exact exec_of_issued_refused hkeyed hmem
        (refused_of_throw hsecond hend x hmem (of_decide_eq_true hindex))
    exact (Pool.run_without schedule (Pool.SameBut.refl i _) hkeeps).state
  · intro hended i request answer hend field asked hasks
    have hlog := patchLog_of_ended hend rfl
    have hsome : (request.asks field).isSome = true := by
      rw [hasks]
      rfl
    obtain ⟨patch, hpatch⟩ := Option.isSome_iff_exists.mp (patch_isSome hsome)
    obtain ⟨x, hx, hindex, hkey, haccepts⟩ := exists_issued_of_wrote
      (hlog (field.key, patch) (mem_patches.mpr hpatch))
    obtain ⟨earlier, later, hsplit⟩ := List.append_of_mem hx
    refine ⟨earlier, x, later, hsplit, hindex, hkey, ?_⟩
    intro hlater
    have hrequest : x.request = request := by
      obtain ⟨q, hq⟩ := Pool.issued_proc schedule [] (Pool.idle start) x hx
      rw [hindex, hend] at hq
      exact (Prod.mk.inj (Option.some.inj hq)).1.symm
    have hwritten : field.storedIn x.after = some asked := by
      rw [storedIn_after hkeyed hx haccepts, if_pos hkey, hrequest, hasks]
      rfl
    rw [← hwritten]
    refine Pool.view_after field.storedIn ?_ schedule [] _ hsplit ?_
    · rintro (duration | db) w
      · rfl
      · rfl
    · intro y hy
      have hmem : y ∈ settingsIssued start schedule := by
        rw [hsplit]
        exact List.mem_append_right _ (List.mem_cons_of_mem _ hy)
      cases hyaccepts : Accepts y.command y.state with
      | false => rw [Issued.after, exec_of_issued_refused hkeyed hmem hyaccepts]
      | true =>
        rw [storedIn_after hkeyed hmem hyaccepts]
        split_ifs with hykey
        · obtain ⟨p, hp⟩ := Pool.issued_proc schedule [] (Pool.idle start) y hmem
          have hacknowledged : (settingsPool start schedule).Acknowledged y := by
            have hresult := hended _ (List.mem_of_getElem? hp)
            cases p with
            | pure answer => simp [Pool.Acknowledged, settingsPool, hp, Program.result?]
            | throw e =>
              have hrefused := refused_of_throw hsecond hp y hmem rfl
              rw [hyaccepts] at hrefused
              cases hrefused
            | call c next => cases hresult
            | ask next => cases hresult
          rw [hlater y hy hacknowledged hykey]
          rfl
        · rfl

end Runs

/-! ## An update that stays half -/

namespace SettingsUpdatesExample

abbrev SettingsAction := Action Reply SettingsRequest SettingsEvent

def start : World := { db := {}, clock := 0, nextId := 0 }

theorem start_keyed : SettingsKeyed start := List.nodup_nil

def advance (i : ℕ) : SettingsAction := .advance i {}

/-- Passwords are turned off, and the terms are set. -/
def both : SettingsRequest :=
  .settings
    { signInInput := some { passwordEnabled := some false }
      termsUri := some (some "https://first.example/terms") }

def terms : SettingsRequest := .settings { termsUri := some (some "https://second.example/terms") }

/-- The terms are set by another call before the update reads them. -/
def inTurn : List SettingsAction :=
  [.start both, .start terms, advance 0, advance 0, advance 1, advance 1, advance 0, advance 0]

theorem inTurn_preserved : SettingsPreserved start inTurn :=
  settings_preserved start start_keyed inTurn (by decide +kernel)

/-- The terms are set by another call after the update has read them. -/
def overtaken : List SettingsAction :=
  [.start both, .start terms, advance 0, advance 0, advance 0, advance 1, advance 1, advance 0]

/-- The update throws, and passwords are turned off. -/
theorem overtaken_not_preserved : ¬ SettingsPreserved start overtaken := by
  intro h
  have hstate := h.atomic 0 both settingsConflict rfl
  have hlength := congrArg (fun w : World => w.db.siteSettings.length) hstate
  exact absurd hlength (by decide +kernel)

end SettingsUpdatesExample

end Realmroot
