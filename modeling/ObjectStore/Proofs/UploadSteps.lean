import ObjectStore.Proofs.Calls
import ObjectStore.Proofs.LastWriter

/-!
# What a call does to an upload

Seen from one upload, any call on the store is one of four: it leaves the upload as it is, opens it
anew, writes one of its parts, or closes it (`UploadStep`). The last two are calls on that very upload,
and opening it takes an id that is given away just then. So an upload whose id is given away
(`Store.Spent`) is left alone by all calls on other uploads, and once it is closed it stays so.
-/

namespace ObjectStore

/-! ## Calls on an upload -/

/-- The upload that an operation is to write to, to complete or to drop. -/
def Operation.uploadName? (m : Mount) : Operation → Option UploadName
  | .writePart object .. | .completeUpload object _ | .abortUpload object =>
    object.uploadId.map fun id => ⟨object.id, id⟩
  | .delete path (.upload id) => some ⟨m.keyOf path false, id⟩
  | _ => none

/-- Whether an operation is to write a part. -/
def Operation.isPartWrite : Operation → Bool
  | .writePart .. => true
  | _ => false

theorem Operation.mayIdle_of_isPartWrite {op : Operation} (h : op.isPartWrite = true) :
    op.mayIdle = false := by
  cases op <;> first | rfl | cases h

/-- Whether an operation is to close an upload, by completing or by dropping it. -/
def Operation.isClosing : Operation → Bool
  | .completeUpload .. | .abortUpload _ | .delete _ (.upload _) => true
  | _ => false

theorem Operation.uploadName?_of_openUpload {object : Object} {id : String}
    (h : object.openUpload = .ok id) :
    (object.uploadId.map fun id => (⟨object.id, id⟩ : UploadName)) = some ⟨object.id, id⟩ := by
  rw [Store.uploadId_of_openUpload h]
  rfl

namespace Event

/-- A call on an upload. -/
def IsOn (e : Event) (bucket : String) (name : UploadName) : Prop :=
  e.mount.bucket = bucket ∧ e.operation.uploadName? e.mount = some name

/-- A call that wrote a part of an upload. -/
def Writes (e : Event) (bucket : String) (name : UploadName) : Prop :=
  e.succeeded = true ∧ e.operation.isPartWrite = true ∧ e.IsOn bucket name

/-- A call that completed or dropped an upload. -/
def Closes (e : Event) (bucket : String) (name : UploadName) : Prop :=
  e.succeeded = true ∧ e.operation.isClosing = true ∧ e.IsOn bucket name

end Event

/-- What a call does to one upload. -/
inductive UploadStep (s s' : Store) (bucket : String) (name : UploadName) (e : Event) : Prop where
  /-- It leaves the upload as it is. -/
  | kept (hidle : ¬ e.Writes bucket name) (hsame : s'.uploadAt? bucket name = s.uploadAt? bucket name)
  /-- It opens the upload, under an id that is given away by that. -/
  | opened (hidle : ¬ e.Writes bucket name) (hid : s.nextId = name.id) (hdrawn : s.drawn < s'.drawn)
    {u : Upload} (hu : s'.uploadAt? bucket name = some u) (hparts : u.parts = ∅)
  /-- It writes a part. -/
  | written {m : Mount} {object : Object} {index : UInt32} {body : Bytes} {size : UInt64}
    {contentMd5 : Option String} {key : Option CustomerKey}
    (he : e = ⟨m, .writePart object index body size contentMd5 key,
      .ok ⟨index, size, Store.bodyEtag body⟩⟩)
    (hbucket : m.bucket = bucket) (hkey : object.id = name.key) {number : Int32}
    (hcheck : Mount.checkPart object index body size = .ok (name.id, number)) {u : Upload}
    (hu : s.uploadAt? bucket name = some u) {now : Instant}
    (hu' : s'.uploadAt? bucket name =
      some { u with parts := u.parts.insert number ⟨body, Store.bodyEtag body, now⟩ })
  /-- It completes or drops the upload. -/
  | closed (hidle : ¬ e.Writes bucket name) (hcloses : e.Closes bucket name)
    (hgone : s'.uploadAt? bucket name = none)

namespace UploadStep

variable {s s' : Store} {bucket : String} {name : UploadName} {e : Event}

theorem of_undisturbed (h : Store.Undisturbed s s') (hidle : ¬ e.Writes bucket name) :
    UploadStep s s' bucket name e :=
  .kept hidle (Store.uploadAt?_congr h.buckets bucket name)

/-- A change that names no upload leaves this one. -/
theorem of_alters_none {c : Change} (h : Store.Alters s c s') (hidle : ¬ e.Writes bucket name)
    (hc : c.upload = none) : UploadStep s s' bucket name e := by
  refine .kept hidle ?_
  rw [h.uploadAt?, hc]

/-- A change that names an upload leaves this one, unless they are the same. -/
theorem of_alters_some {c : Change} {name' : UploadName} {u? : Option Upload}
    (h : Store.Alters s c s') (hc : c.upload = some (name', u?))
    (hself : s'.uploadAt? c.bucket name' = u? → c.bucket = bucket → name' = name →
      UploadStep s s' bucket name e)
    (hidle : ¬ (c.bucket = bucket ∧ name' = name) → ¬ e.Writes bucket name) :
    UploadStep s s' bucket name e := by
  by_cases hname : c.bucket = bucket ∧ name' = name
  · exact hself (h.uploadAt?_self hc) hname.1 hname.2
  · refine .kept (hidle hname) ?_
    rw [h.uploadAt?, hc]
    exact if_neg hname

/-- What a change that a call makes does to an upload. -/
theorem of_makes {m : Mount} {op : Operation} {a : op.Answer} {c : Change}
    (h : Store.Makes m s s' op a c) (hs : Store.Alters s c s') :
    UploadStep s s' bucket name ⟨m, op, a⟩ := by
  cases h with
  | write o | makeDir o | makeLink o | delete hkey =>
    exact of_alters_none hs (fun hw => by cases hw.2.1) rfl
  | deleteUpload =>
    refine of_alters_some hs rfl ?_ fun _ hw => by cases hw.2.1
    rintro hgone rfl rfl
    exact .closed (fun hw => by cases hw.2.1) ⟨rfl, rfl, rfl, rfl⟩ hgone
  | createUpload u hparts hdrawn =>
    refine of_alters_some hs rfl ?_ fun _ hw => by cases hw.2.1
    rintro hu rfl rfl
    exact .opened (fun hw => by cases hw.2.1) rfl hdrawn hu hparts
  | @writePart object index body size contentMd5 key id number u hcheck hu now =>
    have hid := Operation.uploadName?_of_openUpload (Store.checkPart_eq_ok hcheck).1
    refine of_alters_some hs rfl ?_ fun hne hw => hne ⟨hw.2.2.1, ?_⟩
    · rintro hu' rfl rfl
      exact .written rfl rfl rfl hcheck hu hu'
    · exact Option.some.inj (hid.symm.trans hw.2.2.2)
  | @completeUpload object parts id u hopen hu o completed =>
    refine of_alters_some hs rfl ?_ fun _ hw => by cases hw.2.1
    rintro hgone rfl rfl
    exact .closed (fun hw => by cases hw.2.1)
      ⟨rfl, rfl, rfl, Operation.uploadName?_of_openUpload hopen⟩ hgone
  | @abortUpload object id hopen =>
    refine of_alters_some hs rfl ?_ fun _ hw => by cases hw.2.1
    rintro hgone rfl rfl
    exact .closed (fun hw => by cases hw.2.1)
      ⟨rfl, rfl, rfl, Operation.uploadName?_of_openUpload hopen⟩ hgone

/-- **What a call does to an upload.** -/
theorem of_perform (m : Mount) (op : Operation) (s : Store) (bucket : String) (name : UploadName) :
    UploadStep s (op.perform m s).2 bucket name ⟨m, op, (op.perform m s).1⟩ := by
  rcases h : op.perform m s with ⟨a, s'⟩
  rcases Store.perform_cases h with ⟨hs, hidle⟩ | ⟨c, hmakes, hs⟩
  · -- A call that succeeds and changes nothing is no write of a part.
    refine of_undisturbed hs fun hw => ?_
    have hmay := hidle hw.1
    rw [Operation.mayIdle_of_isPartWrite hw.2.1] at hmay
    cases hmay
  · exact of_makes hmakes hs

end UploadStep

/-! ## Uploads under an id that is given away -/

namespace Store

variable {s : Store} {bucket : String} {name : UploadName}

/-- An id that no upload is given from here on. -/
def Spent (s : Store) (id : String) : Prop := ∀ n, s.drawn ≤ n → s.ids n ≠ id

theorem Spent.keeps {s s' : Store} {id : String} (h : s.Spent id) (hkeeps : Keeps s s') :
    s'.Spent id := by
  intro n hn
  rw [hkeeps.ids]
  exact h n (Nat.le_trans hkeeps.drawn hn)

/-- Where ids are fresh, that of an open upload is given away. -/
theorem FreshIds.spent (h : s.FreshIds) (hopen : (s.uploadAt? bucket name).isSome = true) :
    s.Spent name.id :=
  h.unused bucket name hopen

end Store

namespace UploadStep

variable {s s' : Store} {bucket : String} {name : UploadName} {e : Event}

/-- A call on another upload leaves this one. -/
theorem uploadAt?_of_other (h : UploadStep s s' bucket name e) (hspent : s.Spent name.id)
    (hother : ¬ e.IsOn bucket name) : s'.uploadAt? bucket name = s.uploadAt? bucket name := by
  cases h with
  | kept hidle hsame => exact hsame
  | opened hidle hid => exact absurd hid (hspent s.drawn (Nat.le_refl _))
  | @written m object index body size contentMd5 key he hbucket hkey number hcheck u hu now hu' =>
    refine absurd ⟨?_, ?_⟩ hother
    · rw [he]
      exact hbucket
    · rw [he]
      exact (Operation.uploadName?_of_openUpload (Store.checkPart_eq_ok hcheck).1).trans
        (by rw [hkey])
  | closed hidle hcloses => exact absurd hcloses.2.2 hother

/-- A call does not open an upload again. -/
theorem not_reopened (h : UploadStep s s' bucket name e) (hspent : s.Spent name.id)
    (hgone : s.uploadAt? bucket name = none) : s'.uploadAt? bucket name = none := by
  cases h with
  | kept hidle hsame => exact hsame.trans hgone
  | opened hidle hid => exact absurd hid (hspent s.drawn (Nat.le_refl _))
  | written he hbucket hkey hcheck hu => exact absurd (hgone.symm.trans hu) nofun
  | closed hidle hcloses hgone' => exact hgone'

end UploadStep

/-- **What a run preserves.** An upload that is closed stays so. -/
theorem Store.uploadAt?_calls_of_gone {r : Run Store} {bucket : String} {name : UploadName}
    (hspent : r.state.Spent name.id) (hgone : r.state.uploadAt? bucket name = none)
    (cs : List (Mount × Operation)) : (r.calls cs).state.uploadAt? bucket name = none := by
  refine (Run.calls_induct
    (P := fun r : Run Store => r.state.Spent name.id ∧ r.state.uploadAt? bucket name = none) ?_
    ⟨hspent, hgone⟩ cs).2
  rintro r m op ⟨hspent, hgone⟩
  exact ⟨hspent.keeps (Keeps.perform m op r.state),
    (UploadStep.of_perform m op r.state bucket name).not_reopened hspent hgone⟩

/-! ## What a history tells of parts -/

/-- The part that an upload has under the number of an index, if the index has one. -/
def Upload.part? (u : Upload) (index : UInt32) : Option KeptPart :=
  (Mount.numberOfIndex index).toOption.bind u.parts.get?

/-- A part as it is listed. -/
def KeptPart.listed (kept : KeptPart) (index : UInt32) : Part :=
  ⟨index, UInt64.ofNat kept.body.length, kept.etag⟩

/-- A part tells the size and the tag of what is kept. -/
structure Part.Describes (part : Part) (kept : KeptPart) : Prop where
  size : part.size.toNat = kept.body.length
  etag : part.etag = kept.etag

theorem Part.Describes.listed {part : Part} {kept : KeptPart} (h : part.Describes kept) :
    kept.listed part.index = part := by
  rw [KeptPart.listed, ← h.size, ← h.etag, UInt64.ofNat_toNat]

theorem Upload.part?_of_number {u : Upload} {index : UInt32} {number : Int32}
    (h : Mount.numberOfIndex index = .ok number) : u.part? index = u.parts.get? number := by
  rw [part?, h]
  rfl

theorem Upload.part?_of_empty {u : Upload} (h : u.parts = ∅) (index : UInt32) :
    u.part? index = none := by
  rw [part?, h]
  cases (Mount.numberOfIndex index).toOption <;> rfl

/-- A part that is put under the number of an index is found under that index and no other. -/
theorem Upload.part?_insert {u : Upload} {index : UInt32} {number : Int32}
    (h : Mount.numberOfIndex index = .ok number) (kept : KeptPart) (other : UInt32) :
    { u with parts := u.parts.insert number kept }.part? other =
      if index = other then some kept else u.part? other := by
  by_cases hindex : index = other
  · subst hindex
    rw [part?_of_number h, if_pos rfl]
    exact Table.get?_insert_self _ _ _
  · rw [if_neg hindex, part?, part?]
    cases hother : Mount.numberOfIndex other with
    | error e => rfl
    | ok number' =>
      have hne : number ≠ number' := fun heq => hindex (index_unique h (heq ▸ hother))
      exact Table.get?_insert_of_ne _ hne _

/-- The part that a call wrote to a place, as its caller was told. -/
def Event.wrote? (e : Event) (place : PartPlace) : Option Part :=
  match e with
  | ⟨m, .writePart object index .., answer⟩ =>
    if m.bucket = place.bucket ∧ object.id = place.key ∧ object.uploadId = some place.uploadId ∧
        index = place.index then Except.toOption answer
    else none
  | _ => none

/-- The place of a part of an upload. -/
def UploadName.place (name : UploadName) (bucket : String) (index : UInt32) : PartPlace :=
  ⟨bucket, name.key, name.id, index⟩

/-- The part that the last successful write to a place told; where there is none, the one that the
upload had at the start. -/
def lastWritten (start : Store) (bucket : String) (name : UploadName) (index : UInt32)
    (history : List Event) : Option Part :=
  (history.findSome? fun e => e.wrote? (name.place bucket index)).or
    (((start.uploadAt? bucket name).bind fun u => u.part? index).map fun kept => kept.listed index)

theorem lastWritten_cons (start : Store) (bucket : String) (name : UploadName) (index : UInt32)
    (e : Event) (history : List Event) :
    lastWritten start bucket name index (e :: history) =
      (e.wrote? (name.place bucket index)).or (lastWritten start bucket name index history) := by
  rw [lastWritten, List.findSome?_cons]
  cases e.wrote? (name.place bucket index) <;> rfl

/-- A call that writes no part of an upload has written none. -/
theorem Event.wrote?_of_not_writes {e : Event} {bucket : String} {name : UploadName}
    (h : ¬ e.Writes bucket name) (index : UInt32) : e.wrote? (name.place bucket index) = none := by
  obtain ⟨m, op, answer⟩ := e
  cases op with
  | writePart object number body size contentMd5 key =>
    have hanswer : ∀ a : Except Error Part, (a.isOk = true → False) → a.toOption = none := by
      intro a ha
      cases a with
      | error e => rfl
      | ok part => exact (ha rfl).elim
    rw [wrote?]
    split
    · rename_i hplace
      obtain ⟨hbucket, hkey, hid, -⟩ := hplace
      refine hanswer answer fun hok => h ⟨hok, rfl, hbucket, ?_⟩
      rw [Operation.uploadName?, hid, hkey]
      rfl
    · rfl
  | _ => rfl

/-- **What a call does to a part.** It writes the part as it tells; or it tells nothing of it, and the
part stays, unless the upload starts anew without parts. -/
theorem UploadStep.part_cases {s s' : Store} {bucket : String} {name : UploadName} {e : Event}
    {u' : Upload} (h : UploadStep s s' bucket name e) (hu' : s'.uploadAt? bucket name = some u')
    (index : UInt32) :
    (∃ part kept, e.wrote? (name.place bucket index) = some part ∧ u'.part? index = some kept ∧
        part.index = index ∧ part.Describes kept) ∨
      (e.wrote? (name.place bucket index) = none ∧
        ((s.nextId = name.id ∧ u'.part? index = none) ∨ ∃ u, s.uploadAt? bucket name = some u ∧
          u'.part? index = u.part? index)) := by
  cases h with
  | kept hidle hsame =>
    exact .inr ⟨Event.wrote?_of_not_writes hidle index, .inr ⟨u', hsame ▸ hu', rfl⟩⟩
  | opened hidle hid hdrawn hu hparts =>
    cases hu.symm.trans hu'
    exact .inr ⟨Event.wrote?_of_not_writes hidle index,
      .inl ⟨hid, Upload.part?_of_empty hparts index⟩⟩
  | @written m object written body size contentMd5 key he hbucket hkey number hcheck u hu now hnew =>
    cases hnew.symm.trans hu'
    obtain ⟨hopen, hnumber, -, hlength⟩ := Store.checkPart_eq_ok hcheck
    have hid := Store.uploadId_of_openUpload hopen
    rw [he, Upload.part?_insert hnumber]
    by_cases hindex : written = index
    · refine .inl ⟨⟨written, size, Store.bodyEtag body⟩, _, ?_, if_pos hindex, hindex,
        hlength.symm, rfl⟩
      exact if_pos ⟨hbucket, hkey, hid, hindex⟩
    · refine .inr ⟨if_neg fun hplace => hindex hplace.2.2.2, .inr ⟨u, hu, if_neg hindex⟩⟩
  | closed hidle hcloses hgone => cases hgone.symm.trans hu'

end ObjectStore
