import ObjectStore.Position
import ObjectStore.Mount.Objects
import ObjectStore.Feed

/-!
# Uploads of a mount

An object can be stored in parts: an upload is opened, parts are written to it in any order, and the
upload is completed from a list of parts or dropped. Parts are counted from zero, and numbered from
one for the backend.
-/

namespace ObjectStore.Mount

/-! ## Part numbers -/

/-- The number of parts that an upload may have. -/
def partBound : Nat := 10000

/-- The number of a part, from its index. -/
def numberOfIndex (index : UInt32) : Except Error Int32 :=
  if index.toNat < partBound then .ok (Int32.ofNat (index.toNat + 1))
  else .error (.partIndexRange index partBound)

/-- The index of a part, from its number. -/
def indexOfNumber (number : Int32) : Except Error UInt32 :=
  let n := number.toInt.toNat
  if 1 ≤ n ∧ n ≤ partBound then .ok (UInt32.ofNat (n - 1)) else .error (.partNumberRange number)

/-- A part is found again from its number. -/
theorem indexOfNumber_numberOfIndex {index : UInt32} {number : Int32}
    (h : numberOfIndex index = .ok number) : indexOfNumber number = .ok index := by
  unfold numberOfIndex at h
  split at h
  · rename_i hlt
    have hlt' : index.toNat + 1 < 2 ^ 31 := by unfold partBound at hlt; omega
    cases h
    have hn : (Int32.ofNat (index.toNat + 1)).toInt.toNat = index.toNat + 1 := by
      rw [Int32.toInt_ofNat_of_lt hlt', Int.toNat_natCast]
    simp only [indexOfNumber, hn, Nat.add_sub_cancel, UInt32.ofNat_toNat]
    rw [if_pos ⟨by omega, by omega⟩]
  · cases h

/-! ## Operations -/

/-- What a caller chooses about an object it is going to upload. -/
structure UploadChoices where
  contentType : Option String := none
  storageClass : Option String := none
  encryption : Option Encryption := none
  customerKey : Option CustomerKey := none

/-- Opens an upload. The backend has to say its id. -/
def createUpload (m : Mount) (path : String) (o : UploadChoices) : Call (Except Error Object) :=
  .after (m.chooseEncryption o.encryption o.customerKey) fun encryption =>
    .send
      (.createUpload
        { bucket := m.bucket
          key := m.workDir.keyOf path
          contentType := o.contentType
          storageClass := m.chooseStorageClass o.storageClass
          encryption
          customerKey := o.customerKey })
      fun reply =>
        match reply.uploadId.filter (· ≠ "") with
        | some id => .ok (.upload (m.workDir.keyOf path) path id)
        | none => .error .uploadIdNotReturned

/-- What is checked before a part is written: the upload's id and the part's number. -/
def checkPart (object : Object) (index : UInt32) (body : Bytes) (size : UInt64) :
    Except Error (String × Int32) := do
  let id ← object.openUpload
  let number ← numberOfIndex index
  if Limits.standard.maxPartSize < size then
    throw (.partTooLarge size Limits.standard.maxPartSize)
  checkSize body size
  return (id, number)

/-- Writes a part, with the MD5 announced for it and the upload's customer key, if any. The backend
has to say its entity tag. -/
def writePart (m : Mount) (object : Object) (index : UInt32) (body : Bytes) (size : UInt64)
    (contentMd5 : Option String) (key : Option CustomerKey) : Call (Except Error Part) :=
  .after (checkPart object index body size) fun upload =>
    .send
      (.uploadPart
        { bucket := m.bucket
          key := object.id
          uploadId := upload.1
          number := upload.2
          body
          contentLength := size
          contentMd5
          customerKey := key })
      fun reply =>
        match reply.etag with
        | some etag => .ok ⟨index, size, etag⟩
        | none => .error .partEtagNotReturned

/-- Whether indices ascend strictly. -/
def ascending : List Part → Bool
  | a :: b :: rest => decide (a.index < b.index) && ascending (b :: rest)
  | _ => true

/-- The parts as they are chosen in a request; the first index without a number is an error. -/
def chooseParts : List Part → Except Error (List Request.PartChoice)
  | [] => .ok []
  | p :: rest => do
    let number ← numberOfIndex p.index
    let choices ← chooseParts rest
    return ⟨number, p.etag⟩ :: choices

/-- What is checked before an upload is completed: the upload's id and the chosen parts. -/
def checkCompletion (object : Object) (parts : List Part) :
    Except Error (String × List Request.PartChoice) := do
  let id ← object.openUpload
  if parts = [] then throw .noParts
  unless ascending parts do throw .partOrder
  let choices ← chooseParts parts
  return (id, choices)

/-- The sum of the sizes of parts. -/
def totalSize (parts : List Part) : UInt64 := parts.foldr (fun p total => p.size + total) 0

/-- Asks for the completion of an upload from parts in ascending order. -/
def askCompletion (m : Mount) (object : Object) (parts : List Part) :
    Call (Except Error Reply.Stored) :=
  .after (checkCompletion object parts) fun upload =>
    .send (.completeUpload ⟨m.bucket, object.id, upload.1, upload.2⟩) .ok

/-- Makes an upload's object the object that the upload has become, in place, if that went well. -/
def finish (parts : List Part) (stored : Except Error Reply.Stored) : Work Object Error Unit := do
  let reply ← stored
  modify fun o => { o with contentLength := some (totalSize parts) }
  modify fun o => o.completed reply.etag

/-- A completion that went well leaves an object to read, of the size of all parts. -/
theorem on_finish_ok (parts : List Part) (reply : Reply.Stored) (object : Object) :
    (finish parts (.ok reply)).on object =
      (.ok (), { object.completed reply.etag with contentLength := some (totalSize parts) }) := rfl

/-- Nothing happens to the object where the completion failed. -/
theorem on_finish_error (parts : List Part) (e : Error) (object : Object) :
    (finish parts (.error e)).on object = (.error e, object) :=
  Work.on_bind_of_error (Work.on_check _ object) _

/-- It went as well as the completion did. -/
theorem fst_on_finish (parts : List Part) (stored : Except Error Reply.Stored) (object : Object) :
    ((finish parts stored).on object).1 = stored.map fun _ => () := by
  cases stored <;> rfl

/-- Completes an upload from parts in ascending order. The object is the caller's own: it is given back
as the caller then has it, whether the upload is complete or not. -/
def completeUpload (m : Mount) (object : Object) (parts : List Part) :
    Call (Except Error Unit × Object) :=
  (m.askCompletion object parts).map fun stored => (finish parts stored).on object

/-- A completion is as successful as the request for it. -/
theorem map_fst_completeUpload (m : Mount) (object : Object) (parts : List Part) :
    (m.completeUpload object parts).map (·.1) =
      (m.askCompletion object parts).map (·.map fun _ => ()) := by
  rw [completeUpload]
  cases m.askCompletion object parts with
  | done stored => exact congrArg Call.done (fst_on_finish parts stored object)
  | ask request read =>
    exact congrArg (Call.ask request) (funext fun answer => fst_on_finish parts (read answer) object)

theorem fst_run_completeUpload {σ : Type} [Backend σ] (m : Mount) (object : Object)
    (parts : List Part) (s : σ) :
    ((m.completeUpload object parts).run s).1.1 =
      ((m.askCompletion object parts).run s).1.map fun _ => () := by
  rw [completeUpload, Call.run_map, fst_on_finish]

/-- Drops an upload; one that is gone counts as dropped. -/
def abortUpload (m : Mount) (object : Object) : Call (Except Error Unit) :=
  .after object.openUpload fun id => m.dropUpload object.id id

/-! ## Listing parts -/

/-- A listed part, if its number has an index. -/
def partOf (e : Reply.ListedPart) : Except Error Part := do
  let index ← indexOfNumber e.number
  return ⟨index, e.size, e.etag⟩

/-- What a page of parts means for a listing. A page that promises more has to say after which part
it goes on; the position is there already when the numbers of the page are looked at. The first number
without an index stops the fetch, with the parts before it on the page. -/
def readPartPage (position : PartPosition) (reply : Reply.Parts) : Fetch PartPosition Part :=
  if reply.truncated then
    match reply.nextMarker.filter fun marker => 0 < marker with
    | none => ⟨position, .failed .partMarkerMissing⟩
    | some marker => ⟨{ position with marker := some marker }, .filled partOf reply.parts false⟩
  else ⟨position, .filled partOf reply.parts true⟩

/-- Fetches a page of parts. -/
def partPage (m : Mount) (position : PartPosition) : Call (Fetch PartPosition Part) :=
  .ask (.listParts ⟨m.bucket, position.key, position.uploadId, position.limit, position.marker⟩) fun
    | .error fault => ⟨position, .failed (.ofFault fault)⟩
    | .ok reply => readPartPage position reply

/-- The parts of an upload in ascending order. Nothing is asked before the first item. -/
def listParts (m : Mount) (object : Object) : Except Error (Listing PartPosition Part) :=
  object.openUpload.map fun id => .start m.partPage ⟨object.id, id, m.pageSize, none⟩

end ObjectStore.Mount
