import ObjectStore.Proofs.Run

/-!
# What operations do to a store

One lemma for each operation that may change a store (`run_write`, `run_makeDir`, `run_makeLink`,
`run_delete`, `run_dropUpload`, `run_createUpload`, `run_writePart`, `run_completeUpload`). Each says
what the two outcomes are: a failure that leaves everything but the log and the waiting faults, or a
success with the one change that it makes. Two outcomes are neither: a removal that finds nothing to
remove is a success without a change, and an upload that is opened under an empty id is a failure with
one.
-/

namespace ObjectStore

namespace Mount

/-- The request by which an object is written. -/
def writeRequest (m : Mount) (path : String) (body : Bytes) (size : UInt64) (o : ObjectChoices)
    (encryption : Option Encryption) : Request.PutObject where
  bucket := m.bucket
  key := m.keyOf path false
  body := body
  contentLength := size
  contentType := o.contentType
  contentMd5 := o.contentMd5
  storageClass := m.chooseStorageClass o.storageClass
  encryption := encryption
  customerKey := o.customerKey

/-- The request by which an empty object is stored. -/
def emptyRequest (m : Mount) (key : String) (metadata : Table String String) : Request.PutObject where
  bucket := m.bucket
  key := key
  storageClass := m.storageClass
  encryption := m.encryption
  metadata := metadata

/-- The request by which an upload is opened. -/
def openRequest (m : Mount) (path : String) (o : UploadChoices) (encryption : Option Encryption) :
    Request.CreateUpload where
  bucket := m.bucket
  key := m.keyOf path false
  contentType := o.contentType
  storageClass := m.chooseStorageClass o.storageClass
  encryption := encryption
  customerKey := o.customerKey

/-- The request by which a part is written. -/
def partRequest (m : Mount) (key id : String) (number : Int32) (body : Bytes) (size : UInt64)
    (contentMd5 : Option String) (customerKey : Option CustomerKey) : Request.UploadPart where
  bucket := m.bucket
  key := key
  uploadId := id
  number := number
  body := body
  contentLength := size
  contentMd5 := contentMd5
  customerKey := customerKey

end Mount

namespace Store

variable (m : Mount) (s : Store)

/-! ## Objects -/

/-- An object that is stored is there, or nothing has changed. -/
theorem run_putObject {α : Type} (r : Request.PutObject) (a : α) :
    (∃ e s', (Call.send (.putObject r) fun _ => .ok a).run s = (.error e, s') ∧ Undisturbed s s') ∨
      ∃ s', (Call.send (.putObject r) fun _ => .ok a).run s = (.ok a, s') ∧
        Alters s { bucket := r.bucket, object := some (r.key, some (kept r s.now)) } s' := by
  rcases run_send (.putObject r) (fun _ => .ok a) s with ⟨f, s', -, hs, hrun⟩ | ⟨_, s', ha, hrun⟩
  · exact .inl ⟨.ofFault f, s', hrun, hs⟩
  · exact .inr ⟨s', hrun, (answer_putObject_ok ha).2⟩

theorem run_write (path : String) (body : Bytes) (size : UInt64) (o : Mount.ObjectChoices) :
    (∃ e s', (m.write path body size o).run s = (.error e, s') ∧ Undisturbed s s') ∨
      ∃ encryption s', m.checkWrite body size o = .ok encryption ∧
        (m.write path body size o).run s = (.ok size, s') ∧
        Alters s
          { bucket := m.bucket
            object := some (m.keyOf path false,
              some (kept (m.writeRequest path body size o encryption) s.now)) } s' := by
  refine (run_after_send (m.checkWrite body size o) _ _ s).imp id ?_
  rintro ⟨encryption, reply, s', hc, ha, hrun⟩
  exact ⟨encryption, s', hc, hrun, (answer_putObject_ok ha).2⟩

theorem run_makeDir (path : String) :
    (∃ e s', (m.makeDir path).run s = (.error e, s') ∧ Undisturbed s s') ∨
      ∃ s', (m.makeDir path).run s = (.ok (.dir (m.keyOf path true) path), s') ∧
        Alters s
          { bucket := m.bucket
            object := some (m.keyOf path true,
              some (kept (m.emptyRequest (m.keyOf path true) ∅) s.now)) } s' :=
  run_putObject s (m.emptyRequest (m.keyOf path true) ∅) _

theorem run_makeLink (path target : String) :
    (∃ e s', (m.makeLink path target).run s = (.error e, s') ∧ Undisturbed s s') ∨
      ∃ s', (m.makeLink path target).run s =
          (.ok (.link (m.keyOf path false) path (m.workDir.keyOf target)), s') ∧
        Alters s
          { bucket := m.bucket
            object := some (m.keyOf path false,
              some (kept (m.emptyRequest (m.keyOf path false)
                (Table.empty.insert Mount.linkTargetName (m.workDir.keyOf target))) s.now)) } s' :=
  run_putObject s (m.emptyRequest (m.keyOf path false)
    (Table.empty.insert Mount.linkTargetName (m.workDir.keyOf target))) _

/-- No fault waits that would report an object missing to a call that takes it away. -/
def HidesNoObject (s : Store) : Prop :=
  ∀ f, (Request.Kind.deleteObject, f) ∈ s.faults → f.cause ≠ .missing

/-- An object that cannot be taken away is not there, or a fault waited. -/
theorem answer_deleteObject_error {r : Request.DeleteObject} {f : Fault} {s s' : Store}
    (h : s.answer (.deleteObject r) = (.error f, s')) :
    (Request.Kind.deleteObject, f) ∈ s.faults ∨ s.objectAt? r.bucket r.key = none := by
  cases ht : takeFault? (Request.deleteObject r).kind s.faults with
  | some p =>
    rw [answer_of_some ht] at h
    cases h
    exact .inl (mem_of_takeFault? ht)
  | none =>
    -- Were the object there, even a strict store would take it away.
    refine .inr (Option.eq_none_iff_forall_ne_some.mpr fun o ho => ?_)
    obtain ⟨b, hb, ho⟩ := Option.bind_eq_some_iff.mp ho
    have hcontains : b.objects.contains r.key = true := by
      rw [Table.contains, ho]
      rfl
    have hok : (deleteObject r).on (s.record (.deleteObject r)) = (.ok (), _) :=
      deleteObject_ok.mpr ⟨b, hb, fun _ => hcontains, rfl⟩
    rw [answer_of_none ht] at h
    cases hok.symm.trans h

/-- The key of the object that a target at a path stands for. -/
def objectKey? (m : Mount) (path : String) : Mount.Target → Option String
  | .object => some (m.keyOf path false)
  | .dir => some (m.keyOf path true)
  | .upload _ => none

/-- An object that is taken away is gone, was gone before, or nothing has changed. -/
theorem run_delete {path key : String} {target : Mount.Target}
    (hkey : objectKey? m path target = some key) (hhides : HidesNoObject s) :
    (∃ e s', (m.delete path target).run s = (.error e, s') ∧ Undisturbed s s') ∨
      ∃ s', (m.delete path target).run s = (.ok (), s') ∧
        ((Undisturbed s s' ∧ s.objectAt? m.bucket key = none) ∨
          Alters s { bucket := m.bucket, object := some (key, none) } s') := by
  have hdelete : m.delete path target =
      (Call.send (.deleteObject ⟨m.bucket, key⟩) fun _ => .ok ()).map ignoreMissing := by
    cases target <;> cases hkey <;> rfl
  rw [hdelete, Call.run_map]
  rcases run_send (.deleteObject ⟨m.bucket, key⟩) (fun _ => .ok ()) s with
    ⟨f, s', ha, hs, hrun⟩ | ⟨_, s', ha, hrun⟩
  · rw [hrun]
    by_cases hf : (Error.ofFault f).isMissing = true
    · -- Success without a change: the object must have been gone already.
      refine .inr ⟨s', by simp [ignoreMissing, hf], .inl ⟨hs, ?_⟩⟩
      rcases answer_deleteObject_error ha with hmem | hnone
      · refine absurd ?_ (hhides f hmem)
        rw [Fault.cause, if_pos ((Error.isMissing_ofFault f).mp hf)]
      · exact hnone
    · exact .inl ⟨.ofFault f, s', by simp [ignoreMissing, hf], hs⟩
  · rw [hrun]
    exact .inr ⟨s', rfl, .inr (answer_deleteObject_ok ha)⟩

/-! ## Uploads -/

/-- An upload that is dropped is gone, or nothing has changed. -/
theorem run_dropUpload (key id : String) :
    (∃ r s', (m.dropUpload key id).run s = (r, s') ∧ Undisturbed s s') ∨
      ∃ s', (m.dropUpload key id).run s = (.ok (), s') ∧
        Alters s { bucket := m.bucket, upload := some (⟨key, id⟩, none) } s' := by
  rw [Mount.dropUpload, Call.run_map]
  rcases run_send (.abortUpload ⟨m.bucket, key, id⟩) (fun _ => .ok ()) s with
    ⟨f, s', -, hs, hrun⟩ | ⟨_, s', ha, hrun⟩
  · rw [hrun]
    exact .inl ⟨_, s', rfl, hs⟩
  · rw [hrun]
    exact .inr ⟨s', rfl, answer_abortUpload_ok ha⟩

/-- An upload that is opened is there, without parts, and its id is given away; or nothing has
changed. The mount reports it if its id is a text with something in it. -/
theorem run_createUpload (path : String) (o : Mount.UploadChoices) :
    (∃ e s', (m.createUpload path o).run s = (.error e, s') ∧ Undisturbed s s') ∨
      ∃ encryption s', m.chooseEncryption o.encryption o.customerKey = .ok encryption ∧
        (m.createUpload path o).run s =
          (if s.nextId = "" then .error .uploadIdNotReturned
            else .ok (.upload (m.keyOf path false) path s.nextId), s') ∧
        Alters s
          { bucket := m.bucket
            upload := some (⟨m.keyOf path false, s.nextId⟩,
              some (opened (m.openRequest path o encryption) s.now)) } s' ∧
        s'.drawn = s.drawn + 1 := by
  refine (run_after_send (m.chooseEncryption o.encryption o.customerKey) _ _ s).imp id ?_
  rintro ⟨encryption, reply, s', hc, ha, hrun⟩
  obtain ⟨rfl, hs⟩ := answer_createUpload_ok ha
  refine ⟨encryption, s', hc, hrun.trans ?_, hs, drawn_answer_createUpload ha⟩
  by_cases hid : s.nextId = ""
  · simp [hid, Option.filter]
  · simp [hid, Option.filter, Mount.keyOf]

/-- The id of an open upload is the one that the object carries. -/
theorem uploadId_of_openUpload {o : Object} {id : String} (h : o.openUpload = .ok id) :
    o.uploadId = some id := by
  rw [Object.openUpload, Object.getUploadId] at h
  split at h
  · split at h <;> cases h
    assumption
  · cases h

theorem checkPart_eq_ok {object : Object} {index : UInt32} {body : Bytes} {size : UInt64}
    {id : String} {number : Int32} (h : Mount.checkPart object index body size = .ok (id, number)) :
    object.openUpload = .ok id ∧ Mount.numberOfIndex index = .ok number ∧
      size ≤ Limits.standard.maxPartSize ∧ body.length = size.toNat := by
  rw [Mount.checkPart] at h
  obtain ⟨id', hid, h⟩ := bind_eq_ok.mp h
  obtain ⟨number', hn, h⟩ := bind_eq_ok.mp h
  split at h
  · cases h
  · rename_i hsize
    obtain ⟨⟨⟩, hb, h⟩ := bind_eq_ok.mp h
    cases h
    refine ⟨hid, hn, UInt64.not_lt.mp hsize, ?_⟩
    rw [Mount.checkSize] at hb
    split at hb
    · assumption
    · cases hb

/-- A part that is written is there, or nothing has changed. -/
theorem run_writePart (object : Object) (index : UInt32) (body : Bytes) (size : UInt64)
    (contentMd5 : Option String) (key : Option CustomerKey) :
    (∃ e s', (m.writePart object index body size contentMd5 key).run s = (.error e, s') ∧
        Undisturbed s s') ∨
      ∃ id number u s', Mount.checkPart object index body size = .ok (id, number) ∧
        s.uploadAt? m.bucket ⟨object.id, id⟩ = some u ∧
        (m.writePart object index body size contentMd5 key).run s =
          (.ok ⟨index, size, bodyEtag body⟩, s') ∧
        Alters s
          { bucket := m.bucket
            upload := some (⟨object.id, id⟩, some { u with
              parts := u.parts.insert number
                (keptPart (m.partRequest object.id id number body size contentMd5 key) s.now) }) }
          s' := by
  refine (run_after_send (Mount.checkPart object index body size) _ _ s).imp id ?_
  rintro ⟨⟨id, number⟩, reply, s', hc, ha, hrun⟩
  obtain ⟨rfl, u, hu, hs⟩ := answer_uploadPart_ok ha
  exact ⟨id, number, u, s', hc, hu, hrun, hs⟩

theorem checkCompletion_eq_ok {object : Object} {parts : List Part} {id : String}
    {choices : List Request.PartChoice}
    (h : Mount.checkCompletion object parts = .ok (id, choices)) :
    object.openUpload = .ok id ∧ parts ≠ [] ∧ Mount.ascending parts = true ∧
      Mount.chooseParts parts = .ok choices := by
  rw [Mount.checkCompletion] at h
  obtain ⟨id', hid, h⟩ := bind_eq_ok.mp h
  by_cases hne : parts = []
  · rw [if_pos hne] at h
    cases h
  by_cases ha : Mount.ascending parts = true
  · rw [if_neg hne, if_pos ha] at h
    obtain ⟨choices', hc, h⟩ := bind_eq_ok.mp h
    cases h
    exact ⟨hid, hne, ha, hc⟩
  · rw [if_neg hne, if_neg ha] at h
    cases h

/-- An upload that is completed is an object, and so is what the caller has of it; or nothing has
changed, in the store and for the caller. -/
theorem run_completeUpload (object : Object) (parts : List Part) :
    (∃ e s', (m.completeUpload object parts).run s = ((.error e, object), s') ∧ Undisturbed s s') ∨
      ∃ id choices u bodies s', Mount.checkCompletion object parts = .ok (id, choices) ∧
        s.uploadAt? m.bucket ⟨object.id, id⟩ = some u ∧
        gather s.minPartSize u.parts choices = .ok bodies ∧
        (m.completeUpload object parts).run s =
          ((.ok (), { object.completed (some (partsEtag bodies)) with
            contentLength := some (Mount.totalSize parts) }), s') ∧
        Alters s
          { bucket := m.bucket
            object := some (object.id, some (assembled u bodies s.now))
            upload := some (⟨object.id, id⟩, none) } s' := by
  rw [Mount.completeUpload, Call.run_map]
  rcases run_after_send (Mount.checkCompletion object parts)
    (fun upload => .completeUpload ⟨m.bucket, object.id, upload.1, upload.2⟩) (fun _ => .ok) s with
    ⟨e, s', hrun, hs⟩ | ⟨⟨id, choices⟩, reply, s', hc, ha, hrun⟩
  · refine .inl ⟨e, s', ?_, hs⟩
    have hask : (m.askCompletion object parts).run s = (.error e, s') := hrun
    rw [hask, Mount.on_finish_error]
  · obtain ⟨u, bodies, hu, hg, rfl, hs⟩ := answer_completeUpload_ok ha
    have hask : (m.askCompletion object parts).run s = (.ok ⟨some (partsEtag bodies)⟩, s') := hrun
    rw [hask, Mount.on_finish_ok]
    exact .inr ⟨id, choices, u, bodies, s', hc, hu, hg, rfl, hs⟩

end Store

end ObjectStore
