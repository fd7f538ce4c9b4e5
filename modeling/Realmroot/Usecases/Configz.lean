import Realmroot.Repos.Memberships
import Realmroot.World

/-!
# Updates of the site settings

An update reads the row of a key, applies its patch to what it read, and writes the result under
the revision that it read. The settings of the sign-in page are two keys, which one update writes
one after the other; an update of the branding may come with texts, which belong to another key.
-/

namespace Realmroot

open AtomicProgram Error

/-! ## What the rows hold -/

def SettingsValue.general? : SettingsValue → Option GeneralSettings
  | general settings => some settings
  | _ => none

def SettingsValue.branding? : SettingsValue → Option BrandingSettings
  | branding settings => some settings
  | _ => none

def SettingsValue.signIn? : SettingsValue → Option SignInSettings
  | signIn settings => some settings
  | _ => none

/-! ## Inputs -/

/-- The sign-in settings among the keys of an update. -/
structure SignInInput where
  passwordEnabled : Option Bool := none
  signupEnabled : Option Bool := none
  socialLoginEnabled : Option Bool := none
  identifierFirst : Option Bool := none
  usernameEnabled : Option Bool := none
  emailOtpEnabled : Option Bool := none
  builtInProviders : Option (List (String × Record)) := none
  deriving DecidableEq

/-- `UpdateConfigzSettingsInput`; `signInInput` is there when the input has a key besides those
of the general settings. -/
structure UpdateConfigzSettingsInput where
  signInInput : Option SignInInput := none
  copy : Option Record := none
  termsUri : Option (Option String) := none
  privacyUri : Option (Option String) := none
  supportEmail : Option (Option String) := none
  supportUri : Option (Option String) := none
  deriving DecidableEq

/-- `UpdateConfigzBrandingInput`. -/
structure UpdateConfigzBrandingInput where
  logoUrl : Option (Option String) := none
  faviconUrl : Option (Option String) := none
  primaryColor : Option (Option String) := none
  backgroundColor : Option (Option String) := none
  customCss : Option (Option String) := none
  copy : Option Record := none
  deriving DecidableEq

/-- The kinds of branding assets. -/
inductive BrandingAsset where
  | logo
  | favicon
  deriving DecidableEq

/-! ## Patches -/

/-- `mergeBuiltInProviderMetadata`. -/
def mergeBuiltInProviderMetadata (current patch : List (String × Record)) :
    List (String × Record) :=
  (unique (current.map (·.1) ++ patch.map (·.1))).map fun key =>
    (key,
      match current.lookup key, patch.lookup key with
      | some currentValue, some patchValue => currentValue.spread patchValue
      | none, some patchValue => patchValue
      | currentValue, none => currentValue.getD [])

/-- `{ ...value, ...toSettingsPatch(signInInput, value.metadata) }`. -/
def toSettingsPatch (input : SignInInput) (value : SignInSettings) : SignInSettings :=
  { passwordEnabled := input.passwordEnabled.getD value.passwordEnabled
    signupEnabled := input.signupEnabled.getD value.signupEnabled
    socialLoginEnabled := input.socialLoginEnabled.getD value.socialLoginEnabled
    identifierFirst := input.identifierFirst.getD value.identifierFirst
    metadata :=
      { builtInProviders :=
          match input.builtInProviders with
          | some patch => mergeBuiltInProviderMetadata value.metadata.builtInProviders patch
          | none => value.metadata.builtInProviders
        emailOtpEnabled := input.emailOtpEnabled.or value.metadata.emailOtpEnabled
        usernameEnabled := input.usernameEnabled.or value.metadata.usernameEnabled } }

namespace UpdateConfigzSettingsInput

variable (input : UpdateConfigzSettingsInput)

/-- One of the general settings is not `undefined`. -/
def givesGeneral : Bool :=
  input.copy.isSome || input.termsUri.isSome || input.privacyUri.isSome ||
    input.supportEmail.isSome || input.supportUri.isSome

/-- The general settings after an update. -/
def nextGeneral (value : GeneralSettings) : GeneralSettings :=
  { termsUri := input.termsUri.getD value.termsUri
    privacyUri := input.privacyUri.getD value.privacyUri
    supportEmail := input.supportEmail.getD value.supportEmail
    supportUri := input.supportUri.getD value.supportUri
    copy :=
      match input.copy with
      | some copy => value.copy.spread copy
      | none => value.copy }

end UpdateConfigzSettingsInput

/-- `{ ...value, ...toBrandingPatch(input) }`: with its address a logo loses its asset. -/
def toBrandingPatch (input : UpdateConfigzBrandingInput) (value : BrandingSettings) :
    BrandingSettings :=
  { logoAssetId := if input.logoUrl = some none then none else value.logoAssetId
    faviconAssetId := if input.faviconUrl = some none then none else value.faviconAssetId
    logoUrl := input.logoUrl.getD value.logoUrl
    faviconUrl := input.faviconUrl.getD value.faviconUrl
    primaryColor := input.primaryColor.getD value.primaryColor
    backgroundColor := input.backgroundColor.getD value.backgroundColor
    customCss := input.customCss.getD value.customCss }

/-! ## Programs -/

/-- `writeSiteSettings`: it throws when no row was written. -/
def writeSiteSettings (value : SettingsValue) (revision : Option ℕ) : Request Unit := do
  let changed ← executeSettings (.write value revision)
  throwIf (changed = false) (conflict "Site settings changed. Reload and try again.")

/-- An update of one key: what is read, patched and written. -/
def patchSettings (key : SiteSettingsKey) (patch : Option SettingsValue → SettingsValue) :
    Request Unit := do
  let current ← query (·.readSiteSettings key)
  writeSiteSettings (patch (current.map (·.value))) (current.map (·.revision))

/-- What an update writes under `sign_in`. -/
def patchSignIn (input : SignInInput) (value : Option SettingsValue) : SettingsValue :=
  .signIn (toSettingsPatch input ((value.bind SettingsValue.signIn?).getD {}))

/-- What an update writes under `general`. -/
def patchGeneral (input : UpdateConfigzSettingsInput) (value : Option SettingsValue) :
    SettingsValue :=
  .general (input.nextGeneral ((value.bind SettingsValue.general?).getD {}))

/-- What an update writes under `branding`. -/
def patchBranding (input : UpdateConfigzBrandingInput) (value : Option SettingsValue) :
    SettingsValue :=
  .branding (toBrandingPatch input ((value.bind SettingsValue.branding?).getD {}))

/-- What a new asset makes of the branding. -/
def patchAsset (kind : BrandingAsset) (assetId : String) (value : Option SettingsValue) :
    SettingsValue :=
  let branding := (value.bind SettingsValue.branding?).getD {}
  .branding (match kind with
    | .logo => { branding with logoAssetId := some assetId }
    | .favicon => { branding with faviconAssetId := some assetId })

/-- `updateSettings`. -/
def updateSettings (input : UpdateConfigzSettingsInput) : Request Unit := do
  match input.signInInput with
  | some signInInput => patchSettings .signIn (patchSignIn signInInput)
  | none => pure ()
  if input.givesGeneral then patchSettings .general (patchGeneral input) else pure ()

/-- `updateBranding`. -/
def updateBranding (input : UpdateConfigzBrandingInput) : Request Unit := do
  match input.copy with
  | some copy => updateSettings { copy := some copy }
  | none => pure ()
  patchSettings .branding (patchBranding input)

/-- `updateBrandingAsset`. -/
def updateBrandingAsset (kind : BrandingAsset) (assetId : String) : Request Unit :=
  patchSettings .branding (patchAsset kind assetId)

/-- What `getSettings` returns. -/
structure ConfigzSettings where
  signIn : SignInSettings
  general : GeneralSettings
  deriving DecidableEq

/-- `getSettings`. -/
def getSettings : Request (Option ConfigzSettings) := do
  let signIn ← query (·.readSiteSettings .signIn)
  let general ← query (·.readSiteSettings .general)
  if signIn = none ∧ general = none then pure none
  else
    pure (some
      { signIn := (signIn.bind (·.value.signIn?)).getD {}
        general := (general.bind (·.value.general?)).getD {} })

/-- `getBranding`, without the addresses of its assets. -/
def getBranding : Request (Option BrandingSettings) := do
  let row ← query (·.readSiteSettings .branding)
  pure (row.bind (·.value.branding?))

end Realmroot
