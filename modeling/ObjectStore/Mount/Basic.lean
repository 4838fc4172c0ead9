import ObjectStore.Backend
import ObjectStore.Settings
import ObjectStore.Object

/-!
# Mounts

A mount is a bucket as it is seen from a work directory. It is made from settings that pass the
check, and keeps of them what operations need. What an operation stores gets the encryption and the
storage class of the mount where the caller makes no choice.
-/

namespace ObjectStore

/-- A bucket seen from a work directory. -/
structure Mount where
  bucket : String
  workDir : WorkDir
  pageSize : Int32
  storageClass : Option String
  encryption : Option Encryption
  pageSize_mem : 1 ≤ pageSize ∧ pageSize ≤ 1000

/-- The bounds of uploads. -/
structure Limits where
  /-- The largest number of parts. -/
  partCount : UInt32
  /-- The least size of a part that is not the last. -/
  minPartSize : UInt64
  /-- The largest size of a part. -/
  maxPartSize : UInt64
  /-- The largest size of an object that is stored at once. -/
  maxWriteSize : UInt64

/-- The bounds that hold for every mount. -/
def Limits.standard : Limits where
  partCount := 10000
  minPartSize := 5 * 1024 * 1024
  maxPartSize := 5 * 1024 * 1024 * 1024
  maxWriteSize := 5 * 1024 * 1024 * 1024

namespace Mount

/-- What stands between the steps of a path. -/
def delimiter : String := "/"

/-- The name under which a link keeps the key it points at. -/
def linkTargetName : String := "stowage-link-target"

/-- The mount of settings that pass the check. -/
def ofSettings (c : Settings) : Except Error Mount :=
  match c.check with
  | .error e => .error e
  | .ok workDir =>
    if h : 1 ≤ c.pageSize ∧ c.pageSize ≤ 1000 then
      .ok ⟨c.bucket, workDir, c.pageSize, c.storageClass, c.encryption, h⟩
    else .error (.pageSizeRange Settings.largestPage c.pageSize)

/-- The address of a mount. -/
def text (m : Mount) : String := "stowage://" ++ m.bucket ++ m.workDir.text

/-- The inspection text. -/
def inspect (m : Mount) : String :=
  Text.record "Storage"
    [("bucket", Text.quote m.bucket), ("work_dir", Text.quote m.workDir.text)]

/-- The encryption of something that is stored: the one chosen, else none beside a customer key,
else the mount's. To choose one beside a customer key is an error. -/
def chooseEncryption (m : Mount) (chosen : Option Encryption) (key : Option CustomerKey) :
    Except Error (Option Encryption) :=
  match chosen, key with
  | some _, some _ => .error .encryptionConflict
  | some e, none => .ok (some e)
  | none, some _ => .ok none
  | none, none => .ok m.encryption

/-- The storage class of something that is stored: the one chosen, else the mount's. -/
def chooseStorageClass (m : Mount) (chosen : Option String) : Option String :=
  chosen.or m.storageClass

/-- A payload has the size that is announced for it. -/
def checkSize (body : Bytes) (size : UInt64) : Except Error Unit :=
  if body.length = size.toNat then .ok () else .error (.sizeMismatch size body.length)

end Mount

end ObjectStore
