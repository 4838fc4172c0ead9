import ObjectStore.Settings
import ObjectStore.Instant.Text
import ObjectStore.Json
import ObjectStore.Object

/-!
# JSON forms

How faults, modes, parts, metadata, objects, encryptions and settings are written as JSON, and how
they are read. Writing names every field that a reader cannot do without; a field of an object or
of its metadata that is optional on reading is written only if it is set.
-/

namespace ObjectStore

open Json

/-! ## Faults -/

/-- The JSON form of a fault. -/
def Fault.toJson (f : Fault) : Json :=
  .object [("code", .text f.code), ("message", .text f.message),
    ("status", ofOption (fun s => ofNat s.toNat) f.status)]

/-- Reads a fault. -/
def Fault.ofJson? : Json → Option Fault :=
  readRecord do
    return {
      code := ← required "code" text?
      message := ← required "message" text?
      status := ← nullable "status" uint16? }

/-! ## Modes and parts -/

/-- The JSON form of a mode is its number. -/
def Mode.toJson (m : Mode) : Json := ofNat m.bits.toNat

/-- Reads a mode. -/
def Mode.ofJson? (j : Json) : Option Mode := j.uint8?.map Mode.mk

/-- The JSON form of a part. -/
def Part.toJson (p : Part) : Json :=
  .object [("index", ofNat p.index.toNat), ("size", ofNat p.size.toNat), ("etag", .text p.etag)]

/-- Reads a part. -/
def Part.ofJson? : Json → Option Part :=
  readRecord do
    return {
      index := ← required "index" uint32?
      size := ← required "size" uint64?
      etag := ← required "etag" text? }

/-! ## Objects -/

/-- The JSON form of metadata. -/
def Metadata.toJson (m : Metadata) : Json :=
  .object (whenSet "storage_class" .text m.storageClass ++
    whenSet "server_side_encryption" .text m.encryption ++
    whenSet "sse_kms_key_id" .text m.kmsKeyId ++
    whenSet "sse_bucket_key_enabled" .bool m.bucketKeyEnabled ++
    whenSet "sse_customer_algorithm" .text m.customerAlgorithm ++
    whenSet "sse_customer_key_md5" .text m.customerKeyMd5 ++
    whenSet "checksum_sha256" .text m.checksumSha256)

/-- Reads metadata. -/
def Metadata.ofJson? : Json → Option Metadata :=
  readRecord do
    return {
      storageClass := ← omissible "storage_class" text?
      encryption := ← omissible "server_side_encryption" text?
      kmsKeyId := ← omissible "sse_kms_key_id" text?
      bucketKeyEnabled := ← omissible "sse_bucket_key_enabled" bool?
      customerAlgorithm := ← omissible "sse_customer_algorithm" text?
      customerKeyMd5 := ← omissible "sse_customer_key_md5" text?
      checksumSha256 := ← omissible "checksum_sha256" text? }

/-- The JSON form of an instant is its text. -/
def Instant.toJson (t : Instant) : Json := .text t.text

/-- Reads an instant. -/
def Instant.ofJson? (j : Json) : Option Instant := j.text?.bind Instant.ofText?

/-- The JSON form of an object. -/
def Object.toJson (o : Object) : Json :=
  .object ([
    ("id", .text o.id),
    ("path", .text o.path),
    ("mode", o.mode.toJson),
    ("content_length", ofOption (fun n => ofNat n.toNat) o.contentLength),
    ("content_type", ofOption .text o.contentType),
    ("last_modified", ofOption Instant.toJson o.lastModified),
    ("etag", ofOption .text o.etag),
    ("system_metadata", o.metadata.toJson)] ++
    whenSet "link_target" .text o.linkTarget ++
    whenSet "multipart_id" .text o.uploadId)

/-- Reads an object. -/
def Object.ofJson? : Json → Option Object :=
  readRecord do
    return {
      id := ← required "id" text?
      path := ← required "path" text?
      mode := ← required "mode" Mode.ofJson?
      contentLength := ← nullable "content_length" uint64?
      contentType := ← nullable "content_type" text?
      lastModified := ← nullable "last_modified" Instant.ofJson?
      etag := ← nullable "etag" text?
      metadata := ← defaulted "system_metadata" {} Metadata.ofJson?
      linkTarget := ← omissible "link_target" text?
      uploadId := ← omissible "multipart_id" text? }

/-! ## Encryptions and settings -/

/-- The JSON form of an encryption names its kind under `type`. -/
def Encryption.toJson : Encryption → Json
  | .aes256 => .object [("type", .text "aes256")]
  | .kms keyId context enabled =>
    .object ([("type", .text "kms")] ++ whenSet "key_id" .text keyId ++
      whenSet "context" .text context ++ [("bucket_key_enabled", .bool enabled)])

/-- Reads the fields of an encryption by the key management service. -/
def Encryption.readKms : FieldReader Encryption := do
  let keyId ← omissible "key_id" text?
  let context ← omissible "context" text?
  let enabled ← defaulted "bucket_key_enabled" false bool?
  return .kms keyId context enabled

/-- Reads the fields of an encryption, its kind first. -/
def Encryption.readTagged : FieldReader Encryption := do
  match ← required "type" text? with
  | "aes256" => return .aes256
  | "kms" => readKms
  | _ => failure

/-- Reads an encryption. -/
def Encryption.ofJson? : Json → Option Encryption := readRecord readTagged

/-- The JSON form of settings. -/
def Settings.toJson (c : Settings) : Json :=
  .object ([
    ("bucket", .text c.bucket),
    ("work_dir", .text c.workDir),
    ("page_size", .int c.pageSize.toInt)] ++
    whenSet "default_storage_class" .text c.storageClass ++
    whenSet "encryption" Encryption.toJson c.encryption)

/-- Reads settings; nothing is checked but the form. -/
def Settings.ofJson? : Json → Option Settings :=
  readRecord do
    let bucket ← required "bucket" text?
    let base : Settings := { bucket }
    let workDir ← defaulted "work_dir" base.workDir text?
    let pageSize ← defaulted "page_size" base.pageSize int32?
    let storageClass ← omissible "default_storage_class" text?
    let encryption ← omissible "encryption" Encryption.ofJson?
    return { bucket, workDir, pageSize, storageClass, encryption }

end ObjectStore
