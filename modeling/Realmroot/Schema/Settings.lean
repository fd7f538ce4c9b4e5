import Realmroot.Platform

/-!
# Tables of the settings schema

Webhook endpoints, the requests that are delivered to them, and the attempts at a delivery. The
columns `status` are free text. The settings of the site are one row for each key, which holds
what its schema reads in the JSON text of its value.
-/

namespace Realmroot

structure WebhookEndpoint where
  id : String
  url : String
  events : List String
  enabled : Bool
  organizationId : Option String
  signingSecret : String
  secretPrefix : String
  createdAt : Time
  updatedAt : Time
  deriving DecidableEq

structure WebhookDeliveryRequest where
  id : String
  endpointId : String
  event : String
  status : String
  attemptCount : ℕ
  httpStatus : Option ℕ
  error : Option String
  requestBody : Option Json
  responseBody : Option String
  nextAttemptAt : Option Time
  createdAt : Time
  updatedAt : Time
  deriving DecidableEq

structure WebhookDeliveryAttempt where
  id : String
  requestId : String
  idempotencyKey : String
  sequence : ℕ
  status : String
  httpStatus : Option ℕ
  error : Option String
  responseBody : Option String
  createdAt : Time
  completedAt : Option Time
  deriving DecidableEq

/-- `generalSettingsSchema`. -/
structure GeneralSettings where
  termsUri : Option String := none
  privacyUri : Option String := none
  supportEmail : Option String := none
  supportUri : Option String := none
  copy : Record := []
  deriving DecidableEq

/-- What the metadata of the sign-in settings hold. -/
structure SignInMetadata where
  builtInProviders : List (String × Record) := []
  emailOtpEnabled : Option Bool := none
  usernameEnabled : Option Bool := none
  deriving DecidableEq

/-- `signInSettingsSchema`. -/
structure SignInSettings where
  passwordEnabled : Bool := true
  signupEnabled : Bool := true
  socialLoginEnabled : Bool := true
  identifierFirst : Bool := false
  metadata : SignInMetadata := {}
  deriving DecidableEq

/-- `brandingSettingsSchema`. -/
structure BrandingSettings where
  logoUrl : Option String := none
  faviconUrl : Option String := none
  logoAssetId : Option String := none
  faviconAssetId : Option String := none
  primaryColor : Option String := none
  backgroundColor : Option String := none
  customCss : Option String := none
  deriving DecidableEq

/-- The keys of the settings that are modelled. -/
inductive SiteSettingsKey where
  | general
  | branding
  | signIn
  deriving DecidableEq

inductive SettingsValue where
  | general (settings : GeneralSettings)
  | branding (settings : BrandingSettings)
  | signIn (settings : SignInSettings)
  deriving DecidableEq

def SettingsValue.key : SettingsValue → SiteSettingsKey
  | general _ => .general
  | branding _ => .branding
  | signIn _ => .signIn

structure SiteSettings where
  value : SettingsValue
  revision : ℕ
  deriving DecidableEq

namespace SiteSettings

/-- The column `key`: a value belongs to one key. -/
def key (row : SiteSettings) : SiteSettingsKey := row.value.key

end SiteSettings

end Realmroot
