import ObjectStore.Position
import ObjectStore.ListingKind
import ObjectStore.Mount.Basic
import ObjectStore.Feed

/-!
# Listings of a mount

What lies below a path, page by page: all objects, the entries of a directory, or the open uploads.
A page that promises more has to name the markers of the next page, and the position moves there; in
every other case it stays.
-/

namespace ObjectStore.Mount

/-! ## Entries as objects -/

/-- An object of a listing. A key with a slash at the end is a directory. -/
def ofEntry (m : Mount) (e : Reply.ListedObject) : Object where
  id := e.key
  path := m.workDir.pathOf e.key
  mode := if Text.endsWith '/' e.key then .dir else .read
  contentLength := some e.size
  lastModified := e.lastModified
  etag := e.etag
  metadata := { storageClass := e.storageClass }

/-- A group of a listing is a directory. -/
def ofGroup (m : Mount) (group : String) : Object := .dir group (m.workDir.pathOf group)

/-- An open upload of a listing. -/
def ofUpload (m : Mount) (u : Reply.ListedUpload) : Object :=
  { Object.upload u.key (m.workDir.pathOf u.key) u.uploadId with
    lastModified := u.initiated
    metadata := { storageClass := u.storageClass } }

/-! ## Moving positions -/

/-- Where a listing goes on after a page of objects; nowhere after the last page. -/
def nextStem (position : StemPosition) (reply : Reply.Objects) :
    Except Error (Option StemPosition) :=
  if reply.truncated then
    match reply.nextToken.filter (· ≠ "") with
    | some token => .ok (some { position with token? := some token })
    | none => .error .objectTokenMissing
  else .ok none

/-- Where a listing goes on after a page of uploads; nowhere after the last page. -/
def nextUpload (position : UploadPosition) (reply : Reply.Uploads) :
    Except Error (Option UploadPosition) :=
  if reply.truncated then
    match reply.nextKey.filter (· ≠ "") with
    | some key => .ok (some { position with keyMarker := some key, idMarker := reply.nextId })
    | none => .error .uploadMarkerMissing
  else .ok none

/-- The fetch that shows `items` and then goes on as `next` says. -/
def fetched {κ : Type} (position : κ) (wrap : κ → ListingPosition) (next : Except Error (Option κ))
    (items : List Object) : Fetch ListingPosition Object :=
  match next with
  | .error e => ⟨wrap position, .failed e⟩
  | .ok none => ⟨wrap position, ⟨items, .ok true⟩⟩
  | .ok (some position) => ⟨wrap position, ⟨items, .ok false⟩⟩

/-! ## Pages -/

/-- All objects of a page, in the backend's order. -/
def flatItems (m : Mount) (reply : Reply.Objects) : List Object := reply.entries.map m.ofEntry

/-- The groups and objects of a page in order of their keys. The object of the listed directory
itself is left out. -/
def groupedItems (m : Mount) (stem : String) (reply : Reply.Objects) : List Object :=
  (reply.groups.map m.ofGroup ++
      (reply.entries.filter fun e => e.key ≠ stem).map m.ofEntry).mergeSort
    fun a b => decide (a.id ≤ b.id)

/-- Asks for a page; a fault ends the listing where it is. -/
def askPage (position : ListingPosition) (request : Request)
    (read : request.Reply → Fetch ListingPosition Object) : Call (Fetch ListingPosition Object) :=
  .ask request fun
    | .ok reply => read reply
    | .error fault => ⟨position, .failed (.ofFault fault)⟩

/-- Fetches a page of a listing. -/
def objectPage (m : Mount) (position : ListingPosition) : Call (Fetch ListingPosition Object) :=
  match position with
  | .flat c =>
    askPage position (.listObjects ⟨m.bucket, c.stem, none, c.limit, c.token?⟩) fun reply =>
      fetched c .flat (nextStem c reply) (m.flatItems reply)
  | .grouped c d =>
    askPage position (.listObjects ⟨m.bucket, c.stem, some d, c.limit, c.token?⟩) fun reply =>
      fetched c (.grouped · d) (nextStem c reply) (m.groupedItems c.stem reply)
  | .uploads c =>
    askPage position
      (.listUploads ⟨m.bucket, c.stem, c.limit, c.keyMarker, c.idMarker⟩) fun reply =>
      fetched c .uploads (nextUpload c reply) (reply.uploads.map m.ofUpload)

/-- Where a listing of a path starts. Blocks cannot be listed. -/
def startPosition (m : Mount) (path : String) (kind : ListingKind) :
    Except Error ListingPosition :=
  let stem := m.workDir.keyOf path
  match kind with
  | .flat => .ok (.flat ⟨stem, m.pageSize, none⟩)
  | .dir => .ok (.grouped ⟨stem, m.pageSize, none⟩ delimiter)
  | .part => .ok (.uploads ⟨stem, m.pageSize, none, none⟩)
  | .block => .error (.listingKind kind.text)

/-- Lists what lies below a path. Nothing is asked before the first item. -/
def list (m : Mount) (path : String) (kind : ListingKind) :
    Except Error (Listing ListingPosition Object) :=
  (m.startPosition path kind).map fun position => .start m.objectPage position

end ObjectStore.Mount
