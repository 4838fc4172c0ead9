import ObjectStore.Fault
import ObjectStore.Instant
import ObjectStore.Mode

/-!
# Objects and parts

An object is what the library tells about an entry of a bucket: its key, its path below the work
directory, its mode, and what is known of its attributes. An object with the flag `part` is an open
upload and normally carries the id of that upload. A part is one stored piece of an upload.
-/

namespace ObjectStore

/-- What the backend reports about the storage of an object. -/
structure Metadata where
  storageClass : Option String := none
  encryption : Option String := none
  kmsKeyId : Option String := none
  bucketKeyEnabled : Option Bool := none
  customerAlgorithm : Option String := none
  customerKeyMd5 : Option String := none
  checksumSha256 : Option String := none
  deriving DecidableEq

/-- An entry of a bucket. -/
structure Object where
  /-- The key in the bucket. -/
  id : String
  /-- The path below the work directory. -/
  path : String
  mode : Mode
  contentLength : Option UInt64 := none
  contentType : Option String := none
  lastModified : Option Instant := none
  etag : Option String := none
  metadata : Metadata := {}
  /-- The key that a link points at. -/
  linkTarget : Option String := none
  /-- The upload that an open object takes its parts from. -/
  uploadId : Option String := none
  deriving DecidableEq

namespace Object

/-- A directory; it has no content. -/
def dir (id path : String) : Object := { id, path, mode := .dir, contentLength := some 0 }

/-- A link to the key `target`; it has no content. -/
def link (id path target : String) : Object :=
  { id, path, mode := Mode.read.union .link, contentLength := some 0, linkTarget := some target }

/-- An open upload. -/
def upload (id path uploadId : String) : Object :=
  { id, path, mode := .part, uploadId := some uploadId }

/-- The id of the upload, if the object carries one. -/
def getUploadId (o : Object) : Except Error String :=
  match o.uploadId with
  | some id => .ok id
  | none => .error (.uploadIdMissing o.path)

/-- The id of the upload, if the object is an open one. -/
def openUpload (o : Object) : Except Error String :=
  if o.mode.contains .part then o.getUploadId else .error (.notMultipart o.path)

/-- The object when its upload is complete: it can be read and takes no more parts. A new entity tag
replaces the one it had. -/
def completed (o : Object) (etag : Option String) : Object :=
  { o with
    mode := (o.mode.without .part).union .read
    uploadId := none
    etag := etag.or o.etag }

end Object

/-- A stored piece of an upload; the first has index zero. -/
structure Part where
  index : UInt32
  size : UInt64
  etag : String
  deriving DecidableEq

end ObjectStore
