import Realmroot.Library.Holdings
import Realmroot.Usecases.AccountDeletion

/-!
# Assets

An upload puts its file into the asset store and then a row into the database. Where the row is
refused, the file is deleted again or handed to the clean-up job of the account.
-/

namespace Realmroot

open AtomicProgram Error

/-! ## Files -/

inductive AssetPurpose where
  | avatar
  | applicationLogo
  | organizationLogo
  | brandingLogo
  | favicon
  deriving DecidableEq

def AssetPurpose.text : AssetPurpose → String
  | avatar => "avatar"
  | applicationLogo => "application_logo"
  | organizationLogo => "organization_logo"
  | brandingLogo => "branding_logo"
  | favicon => "favicon"

/-- A `File` of a form. -/
structure UploadFile where
  name : String
  type : String
  bytes : List UInt8
  deriving DecidableEq

def allowedContentTypes : AssetPurpose → List String
  | .favicon => ["image/png", "image/x-icon", "image/vnd.microsoft.icon", "image/webp"]
  | _ => ["image/png", "image/jpeg", "image/webp"]

def maxByteSizes : AssetPurpose → ℕ
  | .favicon => 512 * 1024
  | _ => 2 * 1024 * 1024

def normalizeContentType (contentType : String) : String :=
  if contentType = "image/vnd.microsoft.icon" then "image/x-icon" else contentType

/-- `startsWith`. -/
def startsWithBytes (bytes signature : List UInt8) : Bool := signature.isPrefixOf bytes

def sniffContentType (bytes : List UInt8) : Option String :=
  if startsWithBytes bytes [0x89, 0x50, 0x4e, 0x47, 0x0d, 0x0a, 0x1a, 0x0a] then some "image/png"
  else if startsWithBytes bytes [0xff, 0xd8, 0xff] then some "image/jpeg"
  else if 12 ≤ bytes.length ∧ startsWithBytes bytes [0x52, 0x49, 0x46, 0x46] ∧
      bytes[8]? = some 0x57 ∧ bytes[9]? = some 0x45 ∧ bytes[10]? = some 0x42 ∧
        bytes[11]? = some 0x50 then
    some "image/webp"
  else if startsWithBytes bytes [0x00, 0x00, 0x01, 0x00] then some "image/x-icon"
  else none

/-- `validate`: the bytes and the content type that they have. -/
def validateUpload (purpose : AssetPurpose) (file : UploadFile) :
    Except Error (List UInt8 × String) :=
  if file.bytes.length = 0 then .error (badRequest "Upload file is required.")
  else if maxByteSizes purpose < file.bytes.length then
    .error (badRequest ("File exceeds the " ++ Nat.repr (maxByteSizes purpose) ++ " byte limit."))
  else
    let declaredContentType := normalizeContentType file.type
    let unsupported := badRequest ("Unsupported file type for " ++ purpose.text ++ ".")
    if ¬ (allowedContentTypes purpose).contains file.type ∨ declaredContentType = "" then
      .error unsupported
    else
      match sniffContentType file.bytes with
      | none => .error unsupported
      | some contentType =>
        if contentType ≠ declaredContentType then .error unsupported
        else .ok (file.bytes, contentType)

/-- `byte.toString(16).padStart(2, '0')`. -/
def hexOfByte (byte : UInt8) : List Char :=
  [Nat.digitChar (byte.toNat / 16), Nat.digitChar (byte.toNat % 16)]

def isFileNameChar (c : Char) : Bool :=
  ('a' ≤ c && c ≤ 'z') || ('0' ≤ c && c ≤ '9') || c = '.'

/-- `replace(/[^a-z0-9.]+/g, '-')`; in a run that is replaced already, nothing is added. -/
def dashRuns : Bool → List Char → List Char
  | _, [] => []
  | inRun, c :: cs =>
    if isFileNameChar c then c :: dashRuns false cs
    else if inRun then dashRuns true cs
    else '-' :: dashRuns true cs

def safeFileName [Platform] (name : String) : String :=
  let replaced := dashRuns false (Platform.toLowerCase name).toList
  let cleaned := ((replaced.dropWhile (· = '-')).reverse.dropWhile (· = '-')).reverse
  if cleaned = [] then "upload" else String.ofList cleaned

def storageKeyOf [Platform] (purpose : AssetPurpose) (checksumSha256 assetId name : String) :
    String :=
  purpose.text ++ "/" ++ String.ofList (checksumSha256.toList.take 2) ++ "/" ++ assetId ++ "-" ++
    safeFileName name

/-! ## The asset store and the table of assets -/

structure StoredObject where
  key : String
  bytes : List UInt8
  contentType : String
  deriving DecidableEq

/-- The columns of an asset that no other statement reads, under its storage key. -/
structure AssetDetails where
  storageKey : String
  publicUrl : Option String
  contentType : String
  byteSize : ℕ
  checksumSha256 : Option String
  createdAt : Time
  deriving DecidableEq

/-- `UploadedAssetRecord`. -/
structure AssetRecord where
  id : String
  purpose : String
  storageKey : String
  publicUrl : String
  contentType : String
  byteSize : ℕ
  checksumSha256 : String
  createdByUserId : Option String
  createdAt : Time
  deriving DecidableEq

namespace AssetRecord

/-- The row of the record. -/
def row (asset : AssetRecord) : UploadedAsset where
  id := asset.id
  purpose := asset.purpose
  storageKey := asset.storageKey
  createdByUserId := asset.createdByUserId

def details (asset : AssetRecord) : AssetDetails where
  storageKey := asset.storageKey
  publicUrl := some asset.publicUrl
  contentType := asset.contentType
  byteSize := asset.byteSize
  checksumSha256 := some asset.checksumSha256
  createdAt := asset.createdAt

end AssetRecord

/-- `toRecord`. -/
def toAssetRecord (row : UploadedAsset) (details : AssetDetails) : AssetRecord where
  id := row.id
  purpose := row.purpose
  storageKey := row.storageKey
  publicUrl := details.publicUrl.getD ("/api/assets/" ++ row.id)
  contentType := details.contentType
  byteSize := details.byteSize
  checksumSha256 := details.checksumSha256.getD ""
  createdByUserId := row.createdByUserId
  createdAt := details.createdAt

/-- The world, and the asset store beside the database. -/
structure AssetWorld where
  world : World
  details : List AssetDetails := []
  objects : List StoredObject := []

/-- An insert into the table of assets, with its trigger, indexes and references. -/
def Database.insertAsset (row : UploadedAsset) : Statement Unit := fun db =>
  if row.createdByUserId.any db.isDeletedUser then .error (.constraint "account_deleted")
  else if db.uploadedAssets.any fun old => old.id = row.id then
    .error (.constraint "uploaded_asset.id")
  else if db.uploadedAssets.any fun old => old.storageKey = row.storageKey then
    .error (.constraint "uploaded_asset_storage_key_unique")
  else if ¬ row.createdByUserId.all fun userId => db.users.any fun user => user.id = userId then
    .error (.constraint "uploaded_asset.created_by_user_id")
  else .ok ((), { db with uploadedAssets := db.uploadedAssets ++ [row] })

namespace AssetWorld

/-- `findAsset`. -/
def findAsset (id : String) (w : AssetWorld) : Option AssetRecord :=
  (w.world.db.uploadedAssets.find? fun row => row.id = id).bind fun row =>
    (w.details.find? fun details => details.storageKey = row.storageKey).map (toAssetRecord row)

/-- `assetStorage.get`. -/
def getObject (key : String) (w : AssetWorld) : Option StoredObject :=
  w.objects.find? fun object => object.key = key

/-- `assetStorage.delete`. -/
def deleteObject (key : String) (w : AssetWorld) : AssetWorld :=
  { w with objects := w.objects.filter fun object => object.key ≠ key }

/-- `assetStorage.put`. -/
def putObject (object : StoredObject) (w : AssetWorld) : AssetWorld :=
  { w with objects := (w.deleteObject object.key).objects ++ [object] }

/-- `createAsset`. -/
def createAsset (asset : AssetRecord) (w : AssetWorld) : AssetWorld :=
  match Database.insertAsset asset.row w.world.db with
  | .ok (_, db) =>
    { w with world := { w.world with db := db }, details := w.details ++ [asset.details] }
  | .error _ => w

end AssetWorld

inductive AssetCommand where
  /-- A command on the world; the asset store follows it where it deletes an object. -/
  | base (command : Command)
  | put (object : StoredObject)
  | createAsset (asset : AssetRecord)
  | findAsset (id : String)
  | getObject (key : String)

instance : Executes AssetCommand AssetWorld where
  exec
    | .base (.deleteAsset key), w => w.deleteObject key
    | .base command, w => { w with world := exec command w.world }
    | .put object, w => w.putObject object
    | .createAsset asset, w => w.createAsset asset
    | .findAsset _, w => w
    | .getObject _, w => w

abbrev AssetRequest (α : Type) := Program AssetCommand AssetWorld Reply Error α

variable {α : Type}

/-- A program that leaves the asset store alone but for deletions. -/
def onWorld (p : Request α) : AssetRequest α := p.lift .base (·.world)

/-! ## Requests -/

/-- The asset store takes an object, or it throws. -/
def putAsset (object : StoredObject) : AssetRequest Unit :=
  .ask fun reply =>
    if reply.ok then .call (.put object) fun _ => .pure ()
    else .throw (.internal reply.random)

def createAsset (asset : AssetRecord) : AssetRequest Unit :=
  .call (.createAsset asset) fun w =>
    match Database.insertAsset asset.row w.world.db with
    | .ok _ => .pure ()
    | .error e => .throw e

/-- The asset store looks for an object, or it throws. -/
def getStoredObject (key : String) : AssetRequest (Option StoredObject) :=
  .ask fun reply =>
    if reply.ok then .call (.getObject key) fun w => .pure (w.getObject key)
    else .throw (.internal reply.random)

structure UploadInput where
  purpose : AssetPurpose
  file : UploadFile
  actorUserId : Option String
  deriving DecidableEq

section Requests

variable [Platform] (digest : List UInt8 → List UInt8)

/-- `sha256Hex`, where `digest` is `crypto.subtle.digest('SHA-256', bytes)`. -/
def sha256HexOf (bytes : List UInt8) : String := String.ofList ((digest bytes).flatMap hexOfByte)

/-- The upload is abandoned: its object is deleted or handed to the job of the account. -/
def abandonUpload (actorUserId : Option String) (key : String) : AssetRequest Unit :=
  (onWorld (deleteStoredAsset key)).tryCatch fun _ => do
    let enqueued ← match truthy actorUserId with
      | none => .pure false
      | some userId => onWorld (enqueueAssetCleanup userId key)
    if enqueued then .pure () else .throw (.internal "Asset persistence and cleanup failed.")

/-- The asset of an upload. -/
def uploadedRecord (input : UploadInput) (assetId contentType : String) (now : Time) :
    AssetRecord where
  id := assetId
  purpose := input.purpose.text
  storageKey := storageKeyOf input.purpose (sha256HexOf digest input.file.bytes) assetId
    input.file.name
  publicUrl := "/api/assets/" ++ assetId
  contentType := contentType
  byteSize := input.file.bytes.length
  checksumSha256 := sha256HexOf digest input.file.bytes
  createdByUserId := input.actorUserId
  createdAt := now

/-- `uploadAsset`. -/
def uploadAsset (input : UploadInput) : AssetRequest AssetRecord := do
  let (bytes, contentType) ← onWorld (ofResult (validateUpload input.purpose input.file))
  let assetId ← onWorld generateId
  let storageKey := storageKeyOf input.purpose (sha256HexOf digest bytes) assetId input.file.name
  putAsset { key := storageKey, bytes := bytes, contentType := contentType }
  Program.tryCatch
    (do
      let now ← onWorld currentTime
      let asset := uploadedRecord digest input assetId contentType now
      createAsset asset
      .pure asset)
    fun cause => do
      abandonUpload input.actorUserId storageKey
      .throw cause

end Requests

/-- `getAssetObject`. -/
def getAssetObject (assetId : String) : AssetRequest (AssetRecord × StoredObject) := do
  let found ← (.call (.findAsset assetId) fun w => .pure (w.findAsset assetId) :
    AssetRequest (Option AssetRecord))
  match found with
  | none => .throw (notFound "Asset was not found.")
  | some asset => do
    let stored ← getStoredObject asset.storageKey
    match stored with
    | none => .throw (notFound "Asset object was not found.")
    | some object => .pure (asset, object)

end Realmroot
