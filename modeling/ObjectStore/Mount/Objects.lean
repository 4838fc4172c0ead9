import ObjectStore.Mount.Basic
import ObjectStore.Window

/-!
# Objects of a mount

Reading, writing, telling about and taking away objects, and making directories and links. A
directory is an empty object whose key ends with a slash. A link is an empty object that keeps, in
its metadata, the key it points at; nothing has to be there.
-/

namespace ObjectStore.Mount

/-- The key of a path, or of the directory at the path. -/
def keyOf (m : Mount) (path : String) (dir : Bool) : String :=
  if dir then m.workDir.keyOf path ++ delimiter else m.workDir.keyOf path

/-- Reads a window of an object. An empty window is read without asking. -/
def read (m : Mount) (path : String) (window : Window) (key : Option CustomerKey) :
    Call (Except Error Bytes) :=
  if window.isEmpty then .done (.ok [])
  else
    .after window.range fun range =>
      .send (.getObject ⟨m.bucket, m.workDir.keyOf path, range, key⟩) fun reply =>
        .ok reply.body

/-- What a caller chooses about an object it writes. -/
structure ObjectChoices where
  contentType : Option String := none
  contentMd5 : Option String := none
  storageClass : Option String := none
  encryption : Option Encryption := none
  customerKey : Option CustomerKey := none

/-- What is checked before an object is written, and the encryption it gets. -/
def checkWrite (m : Mount) (body : Bytes) (size : UInt64) (o : ObjectChoices) :
    Except Error (Option Encryption) := do
  if Limits.standard.maxWriteSize < size then
    throw (.writeTooLarge size Limits.standard.maxWriteSize)
  checkSize body size
  m.chooseEncryption o.encryption o.customerKey

/-- Writes an object whole and returns its size. -/
def write (m : Mount) (path : String) (body : Bytes) (size : UInt64) (o : ObjectChoices) :
    Call (Except Error UInt64) :=
  .after (m.checkWrite body size o) fun encryption =>
    .send
      (.putObject
        { bucket := m.bucket
          key := m.workDir.keyOf path
          body
          contentLength := size
          contentType := o.contentType
          contentMd5 := o.contentMd5
          storageClass := m.chooseStorageClass o.storageClass
          encryption
          customerKey := o.customerKey })
      fun _ => .ok size

/-- The object that attributes tell about. A link target among the metadata makes it a link. -/
def ofHead (id path : String) (mode : Mode) (h : Reply.Head) : Object :=
  let target := h.metadata.get? linkTargetName
  { id
    path
    mode := if target.isSome then mode.union .link else mode
    contentLength := some h.contentLength
    contentType := h.contentType
    lastModified := h.lastModified
    etag := h.etag
    metadata :=
      { storageClass := h.storageClass
        encryption := h.encryption
        kmsKeyId := h.kmsKeyId
        bucketKeyEnabled := h.bucketKeyEnabled
        customerAlgorithm := h.customerAlgorithm
        customerKeyMd5 := h.customerKeyMd5
        checksumSha256 := h.checksumSha256 }
    linkTarget := target }

/-- What an operation is about: the object at a path, the directory there, or an upload to it. -/
inductive Target where
  | object
  | dir
  | upload (id : String)

/-- The target that a caller's choices name; an upload id goes before the choice of a directory. -/
def Target.ofChoices (uploadId : Option String) (dir : Bool) : Target :=
  match uploadId with
  | some id => .upload id
  | none => if dir then .dir else .object

/-- Tells about an object, a directory or an open upload. An upload is asked for its first part, to
see whether it is there. -/
def stat (m : Mount) (path : String) (target : Target) (key : Option CustomerKey) :
    Call (Except Error Object) :=
  match target with
  | .upload id =>
    .send (.listParts ⟨m.bucket, m.workDir.keyOf path, id, 1, none⟩) fun _ =>
      .ok (.upload (m.workDir.keyOf path) path id)
  | .dir =>
    .send (.headObject ⟨m.bucket, m.keyOf path true, key⟩) fun head =>
      .ok (ofHead (m.keyOf path true) path .dir head)
  | .object =>
    .send (.headObject ⟨m.bucket, m.keyOf path false, key⟩) fun head =>
      .ok (ofHead (m.keyOf path false) path .read head)

/-- Drops the upload of a key; one that is gone counts as dropped. -/
def dropUpload (m : Mount) (key uploadId : String) : Call (Except Error Unit) :=
  (Call.send (.abortUpload ⟨m.bucket, key, uploadId⟩) fun _ => .ok ()).map ignoreMissing

/-- Takes an object, a directory or an open upload away; one that is gone counts as taken away. -/
def delete (m : Mount) (path : String) (target : Target) : Call (Except Error Unit) :=
  let remove (dir : Bool) : Call (Except Error Unit) :=
    (Call.send (.deleteObject ⟨m.bucket, m.keyOf path dir⟩) fun _ => .ok ()).map ignoreMissing
  match target with
  | .upload id => m.dropUpload (m.workDir.keyOf path) id
  | .dir => remove true
  | .object => remove false

/-- The request that stores an empty object. -/
def putEmpty (m : Mount) (key : String) (metadata : Table String String) : Request :=
  .putObject
    { bucket := m.bucket
      key
      storageClass := m.storageClass
      encryption := m.encryption
      metadata }

/-- Makes a directory. -/
def makeDir (m : Mount) (path : String) : Call (Except Error Object) :=
  .send (m.putEmpty (m.keyOf path true) ∅) fun _ => .ok (.dir (m.keyOf path true) path)

/-- Makes a link to the key of another path. -/
def makeLink (m : Mount) (path target : String) : Call (Except Error Object) :=
  let targetKey := m.workDir.keyOf target
  .send (m.putEmpty (m.keyOf path false) (Table.empty.insert linkTargetName targetKey)) fun _ =>
    .ok (.link (m.keyOf path false) path targetKey)

end ObjectStore.Mount
