import ObjectStore.CustomerKey
import ObjectStore.Encryption
import ObjectStore.Instant
import ObjectStore.Table

/-!
# Requests and replies

The twelve requests that a backend answers, and for each the reply it gives when it does not fault.
A listing request names the entry after which its page starts by *markers*; a reply that does not
show everything is *truncated* and names the markers of the next page.
-/

namespace ObjectStore

/-! ## Requests -/

namespace Request

/-- Asks for a page of the objects whose key starts with `stem`. With a delimiter, keys that have it
after the stem are shown only as groups. -/
structure ListObjects where
  bucket : String := ""
  stem : String := ""
  delimiter : Option String := none
  limit : Int32 := 0
  token : Option String := none

/-- Asks for a page of the open uploads whose key starts with `stem`. -/
structure ListUploads where
  bucket : String := ""
  stem : String := ""
  limit : Int32 := 0
  keyMarker : Option String := none
  idMarker : Option String := none

/-- Asks for a page of the parts of an upload. -/
structure ListParts where
  bucket : String := ""
  key : String := ""
  uploadId : String := ""
  limit : Int32 := 0
  marker : Option Int32 := none

/-- Asks for the attributes of an object. -/
structure HeadObject where
  bucket : String := ""
  key : String := ""
  customerKey : Option CustomerKey := none

/-- Asks for the body of an object, or a range of it. -/
structure GetObject where
  bucket : String := ""
  key : String := ""
  range : Option String := none
  customerKey : Option CustomerKey := none

/-- Asks for an object to be stored. -/
structure PutObject where
  bucket : String := ""
  key : String := ""
  body : Bytes := []
  contentLength : UInt64 := 0
  contentType : Option String := none
  contentMd5 : Option String := none
  storageClass : Option String := none
  encryption : Option Encryption := none
  customerKey : Option CustomerKey := none
  metadata : Table String String := ∅

/-- Asks for an object to be taken away. -/
structure DeleteObject where
  bucket : String := ""
  key : String := ""

/-- Asks for an upload to be opened. -/
structure CreateUpload where
  bucket : String := ""
  key : String := ""
  contentType : Option String := none
  storageClass : Option String := none
  encryption : Option Encryption := none
  customerKey : Option CustomerKey := none

/-- Asks for a part of an upload to be stored; the first part has number one. -/
structure UploadPart where
  bucket : String := ""
  key : String := ""
  uploadId : String := ""
  number : Int32 := 0
  body : Bytes := []
  contentLength : UInt64 := 0
  contentMd5 : Option String := none
  customerKey : Option CustomerKey := none

/-- A part that a complete upload is made of. -/
structure PartChoice where
  number : Int32
  etag : String
  deriving DecidableEq

/-- Asks for an upload to be made an object. -/
structure CompleteUpload where
  bucket : String := ""
  key : String := ""
  uploadId : String := ""
  parts : List PartChoice := []

/-- Asks for an upload to be dropped. -/
structure AbortUpload where
  bucket : String := ""
  key : String := ""
  uploadId : String := ""

end Request

/-- A request to a backend. -/
inductive Request where
  | listBuckets
  | listObjects (r : Request.ListObjects)
  | listUploads (r : Request.ListUploads)
  | listParts (r : Request.ListParts)
  | headObject (r : Request.HeadObject)
  | getObject (r : Request.GetObject)
  | putObject (r : Request.PutObject)
  | deleteObject (r : Request.DeleteObject)
  | createUpload (r : Request.CreateUpload)
  | uploadPart (r : Request.UploadPart)
  | completeUpload (r : Request.CompleteUpload)
  | abortUpload (r : Request.AbortUpload)

/-! ## Replies -/

namespace Reply

/-- A bucket in a listing. -/
structure ListedBucket where
  name : String
  created : Option Instant := none

/-- All buckets. -/
structure Buckets where
  buckets : List ListedBucket := []

/-- An object in a listing. -/
structure ListedObject where
  key : String
  size : UInt64 := 0
  etag : Option String := none
  lastModified : Option Instant := none
  storageClass : Option String := none

/-- A page of objects and groups. -/
structure Objects where
  entries : List ListedObject := []
  groups : List String := []
  nextToken : Option String := none
  truncated : Bool := false

/-- An open upload in a listing. -/
structure ListedUpload where
  key : String
  uploadId : String
  initiated : Option Instant := none
  storageClass : Option String := none

/-- A page of open uploads. -/
structure Uploads where
  uploads : List ListedUpload := []
  nextKey : Option String := none
  nextId : Option String := none
  truncated : Bool := false

/-- A part in a listing. -/
structure ListedPart where
  number : Int32
  size : UInt64 := 0
  etag : String := ""
  lastModified : Option Instant := none

/-- A page of parts. -/
structure Parts where
  parts : List ListedPart := []
  nextMarker : Option Int32 := none
  truncated : Bool := false

/-- The attributes of an object. -/
structure Head where
  contentLength : UInt64 := 0
  contentType : Option String := none
  etag : Option String := none
  lastModified : Option Instant := none
  storageClass : Option String := none
  encryption : Option String := none
  kmsKeyId : Option String := none
  bucketKeyEnabled : Option Bool := none
  customerAlgorithm : Option String := none
  customerKeyMd5 : Option String := none
  checksumSha256 : Option String := none
  metadata : Table String String := ∅

/-- The body of an object. -/
structure Body where
  body : Bytes := []
  contentLength : UInt64 := 0
  contentType : Option String := none
  etag : Option String := none

/-- Something was stored. -/
structure Stored where
  etag : Option String := none

/-- An upload was opened. -/
structure Opened where
  uploadId : Option String := none

end Reply

namespace Request

/-- What a backend replies to a request that it fulfils. -/
def Reply : Request → Type
  | listBuckets => Reply.Buckets
  | listObjects _ => Reply.Objects
  | listUploads _ => Reply.Uploads
  | listParts _ => Reply.Parts
  | headObject _ => Reply.Head
  | getObject _ => Reply.Body
  | putObject _ => Reply.Stored
  | deleteObject _ => Unit
  | createUpload _ => Reply.Opened
  | uploadPart _ => Reply.Stored
  | completeUpload _ => Reply.Stored
  | abortUpload _ => Unit

/-- The kinds of request. -/
inductive Kind where
  | listBuckets
  | listObjects
  | listUploads
  | listParts
  | headObject
  | getObject
  | putObject
  | deleteObject
  | createUpload
  | uploadPart
  | completeUpload
  | abortUpload
  deriving DecidableEq

namespace Kind

/-- All kinds. -/
def all : List Kind :=
  [listBuckets, listObjects, listUploads, listParts, headObject, getObject, putObject,
    deleteObject, createUpload, uploadPart, completeUpload, abortUpload]

/-- The name under which a kind of request is known to people. -/
def name : Kind → String
  | listBuckets => "ListBuckets"
  | listObjects => "ListObjects"
  | listUploads => "ListMultipartUploads"
  | listParts => "ListParts"
  | headObject => "HeadObject"
  | getObject => "GetObject"
  | putObject => "PutObject"
  | deleteObject => "DeleteObject"
  | createUpload => "CreateMultipartUpload"
  | uploadPart => "UploadPart"
  | completeUpload => "CompleteMultipartUpload"
  | abortUpload => "AbortMultipartUpload"

end Kind

/-- The kind of a request. -/
def kind : Request → Kind
  | listBuckets => .listBuckets
  | listObjects _ => .listObjects
  | listUploads _ => .listUploads
  | listParts _ => .listParts
  | headObject _ => .headObject
  | getObject _ => .getObject
  | putObject _ => .putObject
  | deleteObject _ => .deleteObject
  | createUpload _ => .createUpload
  | uploadPart _ => .uploadPart
  | completeUpload _ => .completeUpload
  | abortUpload _ => .abortUpload

/-- The bucket that a request is about; only the listing of buckets is about none. -/
def bucket? : Request → Option String
  | listBuckets => none
  | listObjects r => some r.bucket
  | listUploads r => some r.bucket
  | listParts r => some r.bucket
  | headObject r => some r.bucket
  | getObject r => some r.bucket
  | putObject r => some r.bucket
  | deleteObject r => some r.bucket
  | createUpload r => some r.bucket
  | uploadPart r => some r.bucket
  | completeUpload r => some r.bucket
  | abortUpload r => some r.bucket

/-- The key that a request is about, for a listing the stem of its keys. -/
def key? : Request → Option String
  | listBuckets => none
  | listObjects r => some r.stem
  | listUploads r => some r.stem
  | listParts r => some r.key
  | headObject r => some r.key
  | getObject r => some r.key
  | putObject r => some r.key
  | deleteObject r => some r.key
  | createUpload r => some r.key
  | uploadPart r => some r.key
  | completeUpload r => some r.key
  | abortUpload r => some r.key

end Request

end ObjectStore
