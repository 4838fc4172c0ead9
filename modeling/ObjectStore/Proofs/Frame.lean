import ObjectStore.Catalog
import ObjectStore.Proofs.Calls

/-!
# What a call leaves alone

A call that fails leaves all buckets as they were, and so does one that only looks. A call that
succeeds changes at most what is within its *reach*, in the bucket of its mount: one object, one
upload, one part of one, or an upload together with the object that it becomes (`Operation.reach`).
`Frame` says that everything else is as it was.
-/

namespace ObjectStore

/-- The name under which an object's upload is open. -/
def Object.uploadName (o : Object) : UploadName := ⟨o.id, o.uploadId.getD ""⟩

/-- What a call may change in the bucket of its mount. -/
inductive Reach where
  /-- Nothing at all. -/
  | nothing
  /-- The object under a key: it is stored, replaced or taken away. -/
  | object (key : String)
  /-- A new upload. -/
  | opening (name : UploadName)
  /-- One part of an open upload. -/
  | part (name : UploadName) (number : Int32)
  /-- An open upload, and the object under its key, which it becomes. -/
  | completion (name : UploadName)
  /-- An upload that is dropped if it is open. -/
  | drop (name : UploadName)

namespace Reach

/-- The key of the object within reach. -/
def key? : Reach → Option String
  | object key => some key
  | completion name => some name.key
  | _ => none

/-- The name of the upload within reach. -/
def name? : Reach → Option UploadName
  | opening name | part name _ | completion name | drop name => some name
  | _ => none

/-- What may happen to the upload within reach. -/
def Permits (bucket : String) (s s' : Store) : Reach → Prop
  | nothing | object _ => True
  | opening name => s.uploadAt? bucket name = none ∧
      ∃ u, s'.uploadAt? bucket name = some u ∧ u.parts = ∅
  | part name number => ∃ u u', s.uploadAt? bucket name = some u ∧
      s'.uploadAt? bucket name = some u' ∧ u' = { u with parts := u'.parts } ∧
      ∀ n, n ≠ number → u'.parts.get? n = u.parts.get? n
  | completion name => (s.uploadAt? bucket name).isSome = true ∧ s'.uploadAt? bucket name = none ∧
      (s'.objectAt? bucket name.key).isSome = true
  | drop name => s'.uploadAt? bucket name = none ∨
      s'.uploadAt? bucket name = s.uploadAt? bucket name

end Reach

/-- What an operation may change. -/
def Operation.reach (m : Mount) (s : Store) : Operation → Reach
  | .write path .. | .makeLink path _ | .delete path .object => .object (m.keyOf path false)
  | .makeDir path | .delete path .dir => .object (m.keyOf path true)
  | .delete path (.upload id) => .drop ⟨m.keyOf path false, id⟩
  | .createUpload path _ => .opening ⟨m.keyOf path false, s.nextId⟩
  | .writePart object index .. =>
    .part object.uploadName ((Mount.numberOfIndex index).toOption.getD 0)
  | .completeUpload object _ => .completion object.uploadName
  | .abortUpload object => .drop object.uploadName
  | .read .. | .stat .. | .list .. | .listParts _ | .nextObject _ | .nextPart _ => .nothing

/-- One store comes from another by a change within reach in one bucket. -/
structure Frame (bucket : String) (reach : Reach) (s s' : Store) : Prop where
  /-- Other buckets are as they were. -/
  others : ∀ other, other ≠ bucket → s'.buckets.get? other = s.buckets.get? other
  /-- The bucket is the same one, or is still not there. -/
  created : (s'.buckets.get? bucket).map (·.created) = (s.buckets.get? bucket).map (·.created)
  /-- Objects out of reach are as they were. -/
  objects : ∀ key, reach.key? ≠ some key → s'.objectAt? bucket key = s.objectAt? bucket key
  /-- Uploads out of reach are as they were, with all their parts. -/
  uploads : ∀ name, reach.name? ≠ some name → s'.uploadAt? bucket name = s.uploadAt? bucket name
  permits : reach.Permits bucket s s'

namespace Store

variable {s s' : Store} {c : Change}

/-- A change to one bucket leaves the others. -/
theorem Alters.get?_of_ne (h : Alters s c s') {other : String} (hne : other ≠ c.bucket) :
    s'.buckets.get? other = s.buckets.get? other := by
  obtain ⟨b, -, hs⟩ := h.buckets
  rw [hs, Table.get?_insert_of_ne _ (Ne.symm hne)]

/-- A change to a bucket does not replace it. -/
theorem Alters.created (h : Alters s c s') :
    (s'.buckets.get? c.bucket).map (·.created) = (s.buckets.get? c.bucket).map (·.created) := by
  obtain ⟨b, hb, hs⟩ := h.buckets
  rw [hs, hb, Table.get?_insert_self]
  rfl

/-- A change is framed by every reach that has what it names. -/
theorem Alters.frame {reach : Reach} (h : Alters s c s')
    (hkey : ∀ key o, c.object = some (key, o) → reach.key? = some key)
    (hname : ∀ name u, c.upload = some (name, u) → reach.name? = some name)
    (hpermits : reach.Permits c.bucket s s') : Frame c.bucket reach s s' := by
  refine ⟨fun other hne => h.get?_of_ne hne, h.created, fun key hne => ?_, fun name hne => ?_,
    hpermits⟩
  · rw [h.objectAt?]
    cases ho : c.object with
    | none => rfl
    | some e =>
      refine if_neg fun hsame => hne ?_
      rw [hkey e.1 e.2 ho, hsame.2]
  · rw [h.uploadAt?]
    cases hu : c.upload with
    | none => rfl
    | some e =>
      refine if_neg fun hsame => hne ?_
      rw [hname e.1 e.2 hu, hsame.2]

theorem Alters.frame_object {reach : Reach} {key : String} {o? : Option KeptObject}
    (h : Alters s c s') (hobject : c.object = some (key, o?)) (hupload : c.upload = none)
    (hreach : reach.key? = some key) (hpermits : reach.Permits c.bucket s s') :
    Frame c.bucket reach s s' := by
  refine h.frame (fun key' o hc => ?_) (fun name u hc => ?_) hpermits
  · rw [hobject] at hc
    cases hc
    exact hreach
  · rw [hupload] at hc
    cases hc

theorem Alters.frame_upload {reach : Reach} {name : UploadName} {u? : Option Upload}
    (h : Alters s c s') (hobject : c.object = none) (hupload : c.upload = some (name, u?))
    (hreach : reach.name? = some name) (hpermits : reach.Permits c.bucket s s') :
    Frame c.bucket reach s s' := by
  refine h.frame (fun key o hc => ?_) (fun name' u hc => ?_) hpermits
  · rw [hobject] at hc
    cases hc
  · rw [hupload] at hc
    cases hc
    exact hreach

/-- Where no bucket has changed, every reach is kept that permits it. -/
theorem frame_of_buckets {bucket : String} {reach : Reach} (h : s'.buckets = s.buckets)
    (hpermits : reach.Permits bucket s s') : Frame bucket reach s s' :=
  ⟨fun other _ => by rw [h], by rw [h], fun key _ => objectAt?_congr h bucket key,
    fun name _ => uploadAt?_congr h bucket name, hpermits⟩

theorem uploadName_of_openUpload {o : Object} {id : String} (h : o.openUpload = .ok id) :
    o.uploadName = ⟨o.id, id⟩ := by
  rw [Object.uploadName, uploadId_of_openUpload h]
  rfl

/-- A change that a call makes is within its reach. -/
theorem Makes.frame {m : Mount} {op : Operation} {a : op.Answer} (h : Makes m s s' op a c)
    (hs : Alters s c s') (hfresh : ∀ key, s.uploadAt? m.bucket ⟨key, s.nextId⟩ = none) :
    Frame m.bucket (op.reach m s) s s' := by
  cases h with
  | write o | makeDir o | makeLink o =>
    exact hs.frame_object rfl rfl rfl trivial
  | @delete path key target hkey =>
    have hreach : (Operation.delete path target).reach m s = .object key := by
      cases target <;> cases hkey <;> rfl
    rw [hreach]
    exact hs.frame_object rfl rfl rfl trivial
  | deleteUpload =>
    exact hs.frame_upload rfl rfl rfl (.inl (hs.uploadAt?_self rfl))
  | createUpload u hparts hdrawn =>
    exact hs.frame_upload rfl rfl rfl ⟨hfresh _, u, hs.uploadAt?_self rfl, hparts⟩
  | @writePart object index body size contentMd5 key id number u hcheck hu now =>
    obtain ⟨hopen, hnumber, -⟩ := checkPart_eq_ok hcheck
    have hreach : (Operation.writePart object index body size contentMd5 key).reach m s =
        .part ⟨object.id, id⟩ number := by
      rw [Operation.reach, hnumber, uploadName_of_openUpload hopen]
      rfl
    rw [hreach]
    exact hs.frame_upload rfl rfl rfl ⟨u, _, hu, hs.uploadAt?_self rfl, rfl, fun n hn =>
      Table.get?_insert_of_ne _ (Ne.symm hn) _⟩
  | @completeUpload object parts id u hopen hu o completed =>
    have hreach : (Operation.completeUpload object parts).reach m s = .completion ⟨object.id, id⟩ := by
      rw [Operation.reach, uploadName_of_openUpload hopen]
    rw [hreach]
    refine hs.frame (fun key o hc => ?_) (fun name u hc => ?_) ⟨?_, hs.uploadAt?_self rfl, ?_⟩
    · cases hc
      rfl
    · cases hc
      rfl
    · rw [hu]
      rfl
    · have hobject : s'.objectAt? m.bucket object.id = some o := hs.objectAt?_self rfl
      rw [hobject]
      rfl
  | @abortUpload object id hopen =>
    have hreach : (Operation.abortUpload object).reach m s = .drop ⟨object.id, id⟩ := by
      rw [Operation.reach, uploadName_of_openUpload hopen]
    rw [hreach]
    exact hs.frame_upload rfl rfl rfl (.inl (hs.uploadAt?_self rfl))

/-- A call that may leave everything is within its reach if it does. -/
theorem frame_of_mayIdle {m : Mount} {op : Operation} (hidle : op.mayIdle = true)
    (h : s'.buckets = s.buckets) : Frame m.bucket (op.reach m s) s s' := by
  refine frame_of_buckets h ?_
  cases op with
  | delete path target =>
    cases target with
    | upload id => exact .inr (uploadAt?_congr h _ _)
    | object | dir => trivial
  | abortUpload object => exact .inr (uploadAt?_congr h _ _)
  | read | stat | list | listParts | nextObject | nextPart => trivial
  | _ => cases hidle

end Store

/-- **A call is all or nothing, and keeps to its reach.** Where the next upload gets an id with
something in it that no open upload has, a call that fails leaves all buckets, and so does every call
that only looks, the listing of all buckets among them; a call that succeeds changes at most what is
within its reach. A caller whose completion fails still holds the same object. -/
theorem call_frame (m : Mount) (op : Operation) (s : Store) (hid : s.nextId ≠ "")
    (hfresh : ∀ key, s.uploadAt? m.bucket ⟨key, s.nextId⟩ = none) :
    (op.succeeded (op.perform m s).1 = false → (op.perform m s).2.buckets = s.buckets) ∧
      (op.isLook = true → (op.perform m s).2.buckets = s.buckets) ∧
      (op.succeeded (op.perform m s).1 = true →
        Frame m.bucket (op.reach m s) s (op.perform m s).2) ∧
      (∀ (catalog : Catalog) feed,
        (Operation.advance catalog.bucketPage feed s).2.buckets = s.buckets) ∧
      ∀ object parts e held s', (m.completeUpload object parts).run s = ((.error e, held), s') →
        held = object ∧ s'.buckets = s.buckets := by
  rcases h : op.perform m s with ⟨a, s'⟩
  refine ⟨fun hfail => ?_, fun hlook => ?_, fun hok => ?_, fun catalog feed => ?_, ?_⟩
  · rcases Store.perform_cases h with ⟨hs, -⟩ | ⟨c, hmakes, -⟩
    · exact hs.buckets
    · rw [hmakes.succeeded hid] at hfail
      cases hfail
  · have hs : Store.Undisturbed s (op.perform m s).2 := Store.undisturbed_perform hlook
    rw [h] at hs
    exact hs.buckets
  · rcases Store.perform_cases h with ⟨hs, hidle⟩ | ⟨c, hmakes, hs⟩
    · exact Store.frame_of_mayIdle (hidle hok) hs.buckets
    · exact hmakes.frame hs hfresh
  · refine (Store.undisturbed_advance (fun c request hr => ?_) feed).buckets
    cases hr
    rfl
  · intro object parts e held s' hrun
    rcases Store.run_completeUpload m s object parts with
      ⟨e', s'', hx, hs⟩ | ⟨id, choices, u, bodies, s'', -, -, -, hx, -⟩
    · cases hx.symm.trans hrun
      exact ⟨rfl, hs.buckets⟩
    · cases hx.symm.trans hrun

/-- A completion that fails, since its first part is too small, and a part that is written then. -/
theorem call_frame_small_part :
    let m : Mount := ⟨"b", .root, 200, none, none, by decide⟩
    let upload := Object.upload "k" "k" "|"
    let s := (Run.calls ⟨Store.withBuckets ["b"] Store.tally 4 false, []⟩
      [(m, .createUpload "k" {}), (m, .writePart upload 0 [1] 1 none none),
        (m, .writePart upload 1 [2] 1 none none)]).state
    let parts : List Part := [⟨0, 1, Store.bodyEtag [1]⟩, ⟨1, 1, Store.bodyEtag [2]⟩]
    let completion := Operation.completeUpload upload parts
    let write := Operation.writePart upload 2 [3] 1 none none
    (s.nextId ≠ "" ∧ ∀ key, s.uploadAt? "b" ⟨key, s.nextId⟩ = none) ∧
      (completion.succeeded (completion.perform m s).1 = false ∧
        (completion.perform m s).2.buckets = s.buckets) ∧
      (((m.completeUpload upload parts).run s).1.1.isOk = false ∧
        ((m.completeUpload upload parts).run s).1.2 = upload) ∧
      write.succeeded (write.perform m s).1 = true ∧
        Frame "b" (.part ⟨"k", "|"⟩ 3) s (write.perform m s).2 := by
  intro m upload s parts completion write
  have hids : s.FreshIds := Store.FreshIds.calls (.withBuckets ["b"] 4 false Store.tally_injective) _
  have hid : s.nextId ≠ "" := by decide +kernel
  have hfresh := hids.nextId_unused "b"
  have hfail : completion.succeeded (completion.perform m s).1 = false := by decide +kernel
  have herror : ((m.completeUpload upload parts).run s).1.1.isOk = false := by decide +kernel
  have hheld : ((m.completeUpload upload parts).run s).1.2 = upload := by
    rcases hrun : (m.completeUpload upload parts).run s with ⟨⟨r, held⟩, s'⟩
    cases r with
    | error e => exact ((call_frame m completion s hid hfresh).2.2.2.2 _ _ e held s' hrun).1
    | ok => simp [hrun, Except.isOk, Except.toBool] at herror
  have hok : write.succeeded (write.perform m s).1 = true := by decide +kernel
  exact ⟨⟨hid, hfresh⟩, ⟨hfail, (call_frame m completion s hid hfresh).1 hfail⟩,
    ⟨herror, hheld⟩, hok, (call_frame m write s hid hfresh).2.2.1 hok⟩

end ObjectStore
