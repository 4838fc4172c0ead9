import ObjectStore.Store.Basic
import ObjectStore.Text.Numeral
import ObjectStore.Text.Stem

/-!
# The store: its rules

The checks that stand before a store changes or shows anything, each with the fault it answers; the
entity tags; and the reading of a range of a body.
-/

namespace ObjectStore

/-! ## Faults -/

namespace Fault

/-- There is no bucket of this name. -/
def bucketNotThere (bucket : String) : Fault :=
  .http "NoSuchBucket" 404 s!"bucket {bucket} does not exist"

/-- There is no open upload of this id under the key. -/
def uploadNotThere (id : String) : Fault :=
  .http "NoSuchUpload" 404 s!"upload {id} does not exist"

/-- There is no object to read or to take away. -/
def objectNotThere (key : String) : Fault :=
  .http "NoSuchKey" 404 s!"the specified key {key} does not exist"

/-- There is no object to tell the attributes of. -/
def headNotFound : Fault := .http "NotFound" 404 "Not Found"

/-- The object has a customer key, the request has none. -/
def keyNeeded : Fault :=
  .http "InvalidRequest" 400 "the object was stored using a customer provided key"

/-- The request has a customer key, the object has none. -/
def keyNotNeeded : Fault :=
  .http "InvalidRequest" 400 "the object was not stored using a customer provided key"

/-- The request has another customer key than the object. -/
def keyMismatch : Fault := .http "AccessDenied" 403 "customer provided key does not match"

/-- A request asks for two encryptions at once. -/
def twoEncryptions : Fault :=
  .http "InvalidArgument" 400
    "server side encryption cannot be combined with a customer provided key"

/-- The body is not the one that the request announces. -/
def badDigest : Fault :=
  .http "BadDigest" 400 "the Content-MD5 you specified did not match what we received"

/-- A range cannot be cut from the body. -/
def invalidRange (range : String) : Fault :=
  .http "InvalidRange" 416 s!"the requested range {range} is not satisfiable"

/-- A part number is out of bounds. -/
def partNumberBounds : Fault :=
  .http "InvalidArgument" 400
    "part number must be an integer between 1 and 10000, inclusive"

/-- An upload is to be completed from no parts. -/
def noPartsChosen : Fault :=
  .http "MalformedXML" 400 "the XML you provided was not well-formed"

/-- The chosen parts are not in ascending order. -/
def partsNotAscending : Fault :=
  .http "InvalidPartOrder" 400 "the list of parts was not in ascending order"

/-- A chosen part is not there, or is another one. -/
def partNotFound (number : Int32) : Fault :=
  .http "InvalidPart" 400 s!"part {number} could not be found"

/-- A chosen part that is not the last is too small. -/
def partTooSmall : Fault :=
  .http "EntityTooSmall" 400 "your proposed upload is smaller than the minimum allowed size"

end Fault

/-! ## Checks -/

namespace Store

/-- The bucket of a name. -/
def bucket (s : Store) (name : String) : Except Fault Bucket :=
  match s.buckets.get? name with
  | some b => .ok b
  | none => .error (.bucketNotThere name)

/-- The open upload of a key and an id. -/
def findUpload (b : Bucket) (key id : String) : Except Fault Upload :=
  match b.uploads.get? ⟨key, id⟩ with
  | some u => .ok u
  | none => .error (.uploadNotThere id)

/-- A request passes a lock if both are absent, or its key has the MD5 of the stamp. -/
def checkLock (lock : Option KeyStamp) (key : Option CustomerKey) : Except Fault Unit :=
  match lock, key with
  | none, none => .ok ()
  | some _, none => .error .keyNeeded
  | none, some _ => .error .keyNotNeeded
  | some stamp, some k => if stamp.md5 = k.secretMd5 then .ok () else .error .keyMismatch

/-- An encryption and a customer key exclude each other. -/
def checkEncryption (encryption : Option Encryption) (key : Option CustomerKey) :
    Except Fault Unit :=
  if encryption.isSome && key.isSome then .error .twoEncryptions else .ok ()

/-- A body has the MD5 that is announced for it, if one is. -/
def checkDigest (announced : Option String) (body : Bytes) : Except Fault Unit :=
  match announced with
  | none => .ok ()
  | some digest => if digest = Bytes.base64 (md5 body) then .ok () else .error .badDigest

/-! ## Entity tags -/

/-- A text in double quotes. -/
def quoted (text : String) : String := "\"" ++ text ++ "\""

/-- The entity tag of a body that was stored whole. -/
def bodyEtag (body : Bytes) : String := quoted (md5 body).hex

/-- The entity tag of an object made of parts: the MD5 of their MD5s, and their number. -/
def partsEtag (bodies : List Bytes) : String :=
  quoted ((md5 (bodies.flatMap md5)).hex ++ "-" ++ toString bodies.length)

/-! ## Ranges -/

/-- What a range asks for: the first offset, and the last one if it is named. -/
def readRange? (range : String) : Option (UInt64 × Option UInt64) := do
  let bounds ← Text.dropStem? "bytes=".toList range.toList
  let (first, last) ← Text.cutAt? '-' bounds
  let first ← Text.Numeral.uint64? first
  if last = [] then return (first, none)
  let last ← Text.Numeral.uint64? last
  return (first, some last)

/-- The bytes of a range. The last offset is taken down to the end of the body; the first one must
lie in the body and not above the last. -/
def slice? (body : Bytes) (range : UInt64 × Option UInt64) : Option Bytes :=
  let first := range.1.toNat
  let last := min (range.2.elim (body.length - 1) UInt64.toNat) (body.length - 1)
  if body.length ≤ first ∨ last < first then none
  else some ((body.drop first).take (last + 1 - first))

/-- The part of a body that a range asks for; the whole body without a range. -/
def cutRange (body : Bytes) (range : Option String) : Except Fault Bytes :=
  match range with
  | none => .ok body
  | some text =>
    match readRange? text >>= slice? body with
    | some bytes => .ok bytes
    | none => .error (.invalidRange text)

end Store

end ObjectStore
