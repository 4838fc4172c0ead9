import ObjectStore.Store.Listing
import ObjectStore.Work

/-!
# The store: serving requests

Each request is logged. If a fault waits for its kind, that fault is the answer. Otherwise the
request is served: looked at only, or carried out. To carry out is work on the store in place: a fault
stops it with the store as it is at that point, and nothing is taken back.
-/

namespace ObjectStore.Store

/-! ## Looking -/

/-- All buckets, in order of their names. -/
def listBuckets (s : Store) : Reply.Buckets :=
  ⟨s.buckets.entries.map fun e => ⟨e.1, some e.2.created⟩⟩

/-- The attributes of an object. -/
def head (o : KeptObject) : Reply.Head where
  contentLength := UInt64.ofNat o.body.length
  contentType := o.contentType
  etag := some o.etag
  lastModified := some o.lastModified
  storageClass := o.storageClass
  encryption := o.encryption.map Encryption.algorithm
  kmsKeyId := o.encryption.bind Encryption.kmsKeyId?
  bucketKeyEnabled := o.encryption.bind Encryption.bucketKey?
  customerAlgorithm := o.lock.map (·.algorithm)
  customerKeyMd5 := o.lock.map (·.md5)
  checksumSha256 := none
  metadata := o.metadata

/-- Tells the attributes of an object to a caller who has its key. -/
def headObject (s : Store) (r : Request.HeadObject) : Except Fault Reply.Head := do
  let b ← s.bucket r.bucket
  let o ← (b.objects.get? r.key).elim (.error .headNotFound) .ok
  checkLock o.lock r.customerKey
  return head o

/-- Gives the body of an object, or a range of it, to a caller who has its key. -/
def getObject (s : Store) (r : Request.GetObject) : Except Fault Reply.Body := do
  let b ← s.bucket r.bucket
  let o ← (b.objects.get? r.key).elim (.error (.objectNotThere r.key)) .ok
  checkLock o.lock r.customerKey
  let body ← cutRange o.body r.range
  return ⟨body, UInt64.ofNat body.length, o.contentType, some o.etag⟩

/-! ## Work on a bucket

What a request does to a bucket is work on that bucket alone: it is changed in place, step by step. The
checks of a request stand before its changes, but for two: an object is taken away before it is seen
whether it was there, and so is an upload.
-/

/-- Stores an object, over one that was there. -/
def putIn (r : Request.PutObject) (now : Instant) : Work Bucket Fault Reply.Stored := do
  checkEncryption r.encryption r.customerKey
  checkDigest r.contentMd5 r.body
  let etag := bodyEtag r.body
  let o : KeptObject :=
    { body := r.body
      etag
      contentType := r.contentType
      lastModified := now
      storageClass := r.storageClass
      encryption := r.encryption
      lock := r.customerKey.map (·.stamp)
      metadata := r.metadata }
  modify fun b => { b with objects := b.objects.insert r.key o }
  return ⟨some etag⟩

/-- Takes an object away. Where that is strict, it is a fault that there was none. -/
def deleteIn (strict : Bool) (r : Request.DeleteObject) : Work Bucket Fault Unit := do
  let there := (← get).objects.contains r.key
  modify fun b => { b with objects := b.objects.erase r.key }
  if !there && strict then throw (.objectNotThere r.key)

/-- Opens an upload under an id. -/
def openIn (r : Request.CreateUpload) (id : String) (now : Instant) :
    Work Bucket Fault Reply.Opened := do
  checkEncryption r.encryption r.customerKey
  let u : Upload :=
    { initiated := now
      contentType := r.contentType
      storageClass := r.storageClass
      encryption := r.encryption
      lock := r.customerKey.map (·.stamp)
      parts := ∅ }
  modify fun b => { b with uploads := b.uploads.insert ⟨r.key, id⟩ u }
  return ⟨some id⟩

/-- Whether a part may have this number. -/
def validNumber (number : Int32) : Bool :=
  decide (1 ≤ number.toInt.toNat) && decide (number.toInt.toNat ≤ 10000)

/-- The number of a part is in bounds. -/
def checkNumber (number : Int32) : Except Fault Unit :=
  if validNumber number then .ok () else .error .partNumberBounds

/-- Stores a part of an upload, over one of the same number. -/
def putPartIn (r : Request.UploadPart) (now : Instant) : Work Bucket Fault Reply.Stored := do
  checkNumber r.number
  let u ← findUpload (← get) r.key r.uploadId
  checkLock u.lock r.customerKey
  checkDigest r.contentMd5 r.body
  let etag := bodyEtag r.body
  let u := { u with parts := u.parts.insert r.number ⟨r.body, etag, now⟩ }
  modify fun b => { b with uploads := b.uploads.insert ⟨r.key, r.uploadId⟩ u }
  return ⟨some etag⟩

/-- Whether part numbers ascend strictly. -/
def ascending : List Request.PartChoice → Bool
  | a :: b :: rest => decide (a.number < b.number) && ascending (b :: rest)
  | _ => true

/-- The bodies of the chosen parts. Each part must be there under the tag it is chosen by, and each
but the last must have the least size. -/
def gather (minPartSize : UInt64) (parts : Table Int32 KeptPart) :
    List Request.PartChoice → Except Fault (List Bytes)
  | [] => .ok []
  | choice :: rest =>
    match (parts.get? choice.number).filter fun p => p.etag = choice.etag with
    | none => .error (.partNotFound choice.number)
    | some p =>
      if rest ≠ [] ∧ p.body.length < minPartSize.toNat then .error .partTooSmall
      else (gather minPartSize parts rest).map (p.body :: ·)

/-- The bodies that an upload is to be completed from, if it is open and the choice of its parts is in
order. -/
def chosenBodies (minPartSize : UInt64) (b : Bucket) (r : Request.CompleteUpload) :
    Except Fault (List Bytes) := do
  let u ← findUpload b r.key r.uploadId
  if r.parts = [] then throw .noPartsChosen
  unless ascending r.parts do throw .partsNotAscending
  gather minPartSize u.parts r.parts

/-- Takes an upload out of a bucket. It is a fault that there was none. -/
def takeUpload (key id : String) : Work Bucket Fault Upload := do
  let found := findUpload (← get) key id
  modify fun b => { b with uploads := b.uploads.erase ⟨key, id⟩ }
  found

/-- Makes an upload the object of its key, from chosen parts. It is looked up once to check the choice,
and once more to be taken. -/
def completeIn (minPartSize : UInt64) (r : Request.CompleteUpload) (now : Instant) :
    Work Bucket Fault Reply.Stored := do
  let bodies ← chosenBodies minPartSize (← get) r
  let etag := partsEtag bodies
  let u ← takeUpload r.key r.uploadId
  let o : KeptObject :=
    { body := bodies.flatten
      etag
      contentType := u.contentType
      lastModified := now
      storageClass := u.storageClass
      encryption := u.encryption
      lock := u.lock
      metadata := ∅ }
  modify fun b => { b with objects := b.objects.insert r.key o }
  return ⟨some etag⟩

/-! ## Work on a store -/

/-- Works on a bucket in its place. What was done to the bucket stays done where the work stops. -/
def inBucket {α : Type} (name : String) (w : Work Bucket Fault α) : Work Store Fault α := do
  let b ← (← get).bucket name
  let r := w.on b
  modify fun s => s.setBucket name r.2
  r.1

/-- Works on a bucket at the time that the clock shows, and lets the clock go on. -/
def stamped {α : Type} (name : String) (w : Instant → Work Bucket Fault α) :
    Work Store Fault α := do
  let a ← inBucket name (w (← get).now)
  modify tick
  return a

/-- Stores an object, over one that was there. -/
def putObject (r : Request.PutObject) : Work Store Fault Reply.Stored := stamped r.bucket (putIn r)

/-- Takes an object away. -/
def deleteObject (r : Request.DeleteObject) : Work Store Fault Unit := do
  inBucket r.bucket (deleteIn (← get).strictDelete r)

/-- Opens an upload under the next id. -/
def createUpload (r : Request.CreateUpload) : Work Store Fault Reply.Opened := do
  let reply ← stamped r.bucket (openIn r (← get).nextId)
  modify draw
  return reply

/-- Stores a part of an upload, over one of the same number. -/
def uploadPart (r : Request.UploadPart) : Work Store Fault Reply.Stored :=
  stamped r.bucket (putPartIn r)

/-- Makes an upload the object of its key. -/
def completeUpload (r : Request.CompleteUpload) : Work Store Fault Reply.Stored := do
  stamped r.bucket (completeIn (← get).minPartSize r)

/-- Drops an upload with its parts. -/
def abortUpload (r : Request.AbortUpload) : Work Store Fault Unit := do
  let _ ← inBucket r.bucket (takeUpload r.key r.uploadId)

/-! ## Answering -/

/-- Serves a request, with no look at waiting faults. -/
def serve (s : Store) : (request : Request) → Except Fault request.Reply × Store
  | .listBuckets => (.ok s.listBuckets, s)
  | .listObjects r => ((s.bucket r.bucket).map fun b => listObjects b r, s)
  | .listUploads r => ((s.bucket r.bucket).map fun b => listUploads b r, s)
  | .listParts r =>
    ((s.bucket r.bucket).bind fun b =>
      (findUpload b r.key r.uploadId).map fun u => listParts u r, s)
  | .headObject r => (s.headObject r, s)
  | .getObject r => (s.getObject r, s)
  | .putObject r => (putObject r).on s
  | .deleteObject r => (deleteObject r).on s
  | .createUpload r => (createUpload r).on s
  | .uploadPart r => (uploadPart r).on s
  | .completeUpload r => (completeUpload r).on s
  | .abortUpload r => (abortUpload r).on s

/-- The first fault that waits for a kind of request, and the faults without it. -/
def takeFault? (kind : Request.Kind) :
    List (Request.Kind × Fault) → Option (Fault × List (Request.Kind × Fault))
  | [] => none
  | (k, fault) :: rest =>
    if k = kind then some (fault, rest)
    else (takeFault? kind rest).map fun p => (p.1, (k, fault) :: p.2)

/-- The store with a request in its log. -/
def record (s : Store) (request : Request) : Store := { s with log := s.log ++ [request] }

/-- Logs a request and answers it. -/
def answer (s : Store) (request : Request) : Except Fault request.Reply × Store :=
  let s := s.record request
  match takeFault? request.kind s.faults with
  | some (fault, rest) => (.error fault, { s with faults := rest })
  | none => s.serve request

/-- A page that does not end a listing shows at least one entry and the next page starts after it,
so a listing has at most one page for each entry, and one more. -/
instance : Backend Store where
  exchange request s := s.answer request
  patience s := s.entryCount + 1

/-- What the log tells about each request: its kind, bucket and key. -/
def history (s : Store) : List (Request.Kind × Option String × Option String) :=
  s.log.map fun r => (r.kind, r.bucket?, r.key?)

/-- How many requests of a kind the log has. -/
def timesAsked (s : Store) (kind : Request.Kind) : Nat :=
  (s.log.filter fun r => r.kind = kind).length

end ObjectStore.Store
