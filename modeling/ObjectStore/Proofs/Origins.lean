import ObjectStore.Proofs.Calls
import ObjectStore.Proofs.LastWriter

/-!
# Where objects and uploads come from

Beside its body an object has attributes that its caller fixes, and that no later call changes: they
stand in the call that wrote the object or, for an object that was made from parts, in the call that
opened its upload. A history tells these calls: `opener?` is the last call that opened an upload of a
name, and `creator?` goes back from the last call that stored an object to the call which its
attributes are from.

`Traced` says that what a store holds has the attributes of the calls that the history tells. Each
call preserves it (`Traced.call`), and so it holds after every run (`Traced.calls`), if the run starts
from a store that is new.
-/

namespace ObjectStore

/-- A new store has no objects. -/
theorem Store.objectAt?_withBuckets (names : List String) (ids : Nat → String)
    (minPartSize : UInt64) (strictDelete : Bool) (bucket key : String) :
    (Store.withBuckets names ids minPartSize strictDelete).objectAt? bucket key = none := by
  have hfold (s : Store) (h : s.objectAt? bucket key = none) :
      (names.foldl addBucket s).objectAt? bucket key = none := by
    induction names generalizing s with
    | nil => exact h
    | cons first names ih =>
      refine ih (s.addBucket first) ?_
      have hset := objectAt?_setBucket s first { created := s.now } bucket key
      have htick : (s.addBucket first).objectAt? bucket key =
          (s.setBucket first { created := s.now }).objectAt? bucket key := rfl
      rw [htick, hset, h]
      exact ite_self _
  exact hfold { ids, minPartSize, strictDelete } rfl

/-! ## Attributes -/

/-- What is fixed about an object when it is created. -/
structure Attributes where
  contentType : Option String := none
  storageClass : Option String := none
  encryption : Option Encryption := none
  lock : Option KeyStamp := none
  metadata : Table String String := ∅

/-- The attributes of an object. -/
def KeptObject.attributes (o : KeptObject) : Attributes :=
  ⟨o.contentType, o.storageClass, o.encryption, o.lock, o.metadata⟩

/-- The attributes of the object that an upload is to become. -/
def Upload.attributes (u : Upload) : Attributes :=
  ⟨u.contentType, u.storageClass, u.encryption, u.lock, ∅⟩

namespace Operation

/-- The customer key that an object gets by an operation. -/
def ownerKey? : Operation → Option CustomerKey
  | .write _ _ _ choices => choices.customerKey
  | .createUpload _ choices => choices.customerKey
  | _ => none

/-- The encryption that an object gets by an operation: the one chosen, or what the mount has for an
object without a customer key. -/
def encryption? (m : Mount) : Operation → Option Encryption
  | .write _ _ _ choices => (m.chooseEncryption choices.encryption choices.customerKey).toOption.join
  | .createUpload _ choices =>
    (m.chooseEncryption choices.encryption choices.customerKey).toOption.join
  | _ => m.encryption

/-- The attributes that an object gets by an operation. -/
def attributes (m : Mount) (op : Operation) : Attributes where
  contentType :=
    match op with
    | .write _ _ _ choices => choices.contentType
    | .createUpload _ choices => choices.contentType
    | _ => none
  storageClass :=
    match op with
    | .write _ _ _ choices => m.chooseStorageClass choices.storageClass
    | .createUpload _ choices => m.chooseStorageClass choices.storageClass
    | _ => m.storageClass
  encryption := op.encryption? m
  lock := op.ownerKey?.map (·.stamp)
  metadata :=
    match op with
    | .makeLink _ target => Table.empty.insert Mount.linkTargetName (m.workDir.keyOf target)
    | _ => ∅

end Operation

/-! ## What a history tells -/

namespace Event

/-- The place of the object that a call stored, if it did. -/
def stored? (e : Event) : Option (String × String) :=
  match e.operation with
  | .write .. | .makeDir .. | .makeLink .. | .completeUpload .. =>
    if e.succeeded then e.target? else none
  | _ => none

/-- The upload that a call opened, if it did. An empty id is not reported, but for that very reason
the caller can tell it. -/
def opened? : Event → Option (String × UploadName)
  | ⟨m, .createUpload path _, .ok object⟩ =>
    object.uploadId.map fun id => (m.bucket, ⟨m.keyOf path false, id⟩)
  | ⟨m, .createUpload path _, .error e⟩ =>
    if e = .uploadIdNotReturned then some (m.bucket, ⟨m.keyOf path false, ""⟩) else none
  | _ => none

/-- An upload that is opened is told, under whatever id. -/
theorem opened?_createUpload {m : Mount} {path id : String} {choices : Mount.UploadChoices}
    {a : Except Error Object} (ha : a = if id = "" then .error .uploadIdNotReturned
      else .ok (.upload (m.keyOf path false) path id)) :
    opened? ⟨m, .createUpload path choices, a⟩ = some (m.bucket, ⟨m.keyOf path false, id⟩) := by
  by_cases hid : id = ""
  · rw [if_pos hid] at ha
    rw [ha, hid]
    rfl
  · rw [if_neg hid] at ha
    rw [ha]
    rfl

end Event

/-- The last call that opened an upload of a name. -/
def opener? (bucket : String) (name : UploadName) (history : List Event) : Option Event :=
  history.find? fun e => e.opened? = some (bucket, name)

/-- The call that the attributes of an object are from, which a call stored after the calls before
it. -/
def Event.origin? (e : Event) (earlier : List Event) : Option Event :=
  match e.operation with
  | .completeUpload object _ =>
    opener? e.mount.bucket ⟨object.id, object.uploadId.getD ""⟩ earlier
  | _ => some e

/-- The call that the attributes of the object under a key are from, where the last call that stored
the object is as the history tells. -/
def creator? (bucket key : String) : List Event → Option Event
  | [] => none
  | e :: earlier =>
    if e.stored? = some (bucket, key) then e.origin? earlier else creator? bucket key earlier

/-- What a call fixes about the object that it creates. -/
def Event.attributes (e : Event) : Attributes := e.operation.attributes e.mount

/-! ## Stores that are traced -/

/-- Whatever a store holds has the attributes of the call that a history tells. -/
structure Traced (s : Store) (history : List Event) : Prop where
  objects : ∀ bucket key o, s.objectAt? bucket key = some o →
    ∃ e, creator? bucket key history = some e ∧ o.attributes = e.attributes
  uploads : ∀ bucket name u, s.uploadAt? bucket name = some u →
    ∃ e, opener? bucket name history = some e ∧ u.attributes = e.attributes

namespace Traced

variable {s s' : Store} {history : List Event} {e : Event} {c : Change}

/-- A new store is traced by no calls. -/
theorem start (hobjects : ∀ bucket key, s.objectAt? bucket key = none)
    (huploads : ∀ bucket name, s.uploadAt? bucket name = none) : Traced s [] := by
  refine ⟨fun bucket key o ho => ?_, fun bucket name u hu => ?_⟩
  · rw [hobjects] at ho
    cases ho
  · rw [huploads] at hu
    cases hu

theorem opener?_cons_self {bucket : String} {name : UploadName}
    (h : e.opened? = some (bucket, name)) : opener? bucket name (e :: history) = some e :=
  List.find?_cons_of_pos (decide_eq_true h)

theorem opener?_cons_of_ne {bucket : String} {name : UploadName}
    (h : e.opened? ≠ some (bucket, name)) :
    opener? bucket name (e :: history) = opener? bucket name history :=
  List.find?_cons_of_neg (by simpa using h)

/-- A call that stores and opens nothing, and leaves the buckets. -/
theorem idle (h : Traced s history) (hb : s'.buckets = s.buckets) (hstored : e.stored? = none)
    (hopened : e.opened? = none) : Traced s' (e :: history) := by
  refine ⟨fun bucket key o ho => ?_, fun bucket name u hu => ?_⟩
  · rw [Store.objectAt?_congr hb] at ho
    rw [creator?, hstored, if_neg nofun]
    exact h.objects bucket key o ho
  · rw [Store.uploadAt?_congr hb] at hu
    rw [opener?_cons_of_ne (by rw [hopened]; exact nofun)]
    exact h.uploads bucket name u hu

/-- A call that makes a change: the object it stores has the attributes of its origin, and the upload
that it leaves open has those of the call, which opened it, or is one that was open before. -/
theorem change (h : Traced s history) (hs : Store.Alters s c s')
    (hstored : ∀ bucket key, e.stored? = some (bucket, key) ↔
      c.bucket = bucket ∧ ∃ o, c.object = some (key, some o))
    (horigin : ∀ key o, c.object = some (key, some o) →
      ∃ e', e.origin? history = some e' ∧ o.attributes = e'.attributes)
    (hopened : ∀ bucket name, e.opened? = some (bucket, name) →
      c.bucket = bucket ∧ ∃ u, c.upload = some (name, some u))
    (hupload : ∀ name u, c.upload = some (name, some u) →
      (e.opened? = some (c.bucket, name) ∧ u.attributes = e.attributes) ∨
        (e.opened? = none ∧ ∃ u', s.uploadAt? c.bucket name = some u' ∧
          u.attributes = u'.attributes)) :
    Traced s' (e :: history) := by
  refine ⟨fun bucket key o ho => ?_, fun bucket name u hu => ?_⟩
  · rw [creator?]
    by_cases hhere : e.stored? = some (bucket, key)
    · obtain ⟨rfl, o', hobject⟩ := (hstored bucket key).mp hhere
      rw [hs.objectAt?_self hobject] at ho
      cases ho
      rw [if_pos hhere]
      exact horigin key o hobject
    · rw [if_neg hhere]
      refine h.objects bucket key o ?_
      rw [hs.objectAt?] at ho
      split at ho
      · exact ho
      · rename_i key' o? hobject
        split at ho
        · rename_i hsame
          obtain ⟨rfl, rfl⟩ := hsame
          cases ho
          exact absurd ((hstored _ _).mpr ⟨rfl, o, hobject⟩) hhere
        · exact ho
  · by_cases hhere : e.opened? = some (bucket, name)
    · obtain ⟨rfl, u', hu'⟩ := hopened bucket name hhere
      rw [hs.uploadAt?_self hu'] at hu
      cases hu
      rcases hupload name u hu' with ⟨-, hattributes⟩ | ⟨hnone, -⟩
      · exact ⟨e, opener?_cons_self hhere, hattributes⟩
      · rw [hnone] at hhere
        cases hhere
    · rw [opener?_cons_of_ne hhere]
      rw [hs.uploadAt?] at hu
      split at hu
      · exact h.uploads bucket name u hu
      · rename_i name' u? hu?
        split at hu
        · rename_i hsame
          obtain ⟨rfl, rfl⟩ := hsame
          subst hu
          rcases hupload name' u hu? with ⟨hopen, -⟩ | ⟨-, u', hu', hattributes⟩
          · exact absurd hopen hhere
          · obtain ⟨e', he', hfrom⟩ := h.uploads _ _ u' hu'
            exact ⟨e', he', hattributes.trans hfrom⟩
        · exact h.uploads bucket name u hu

/-- A call that stores an object with its own attributes. -/
theorem store (h : Traced s history) {bucket key : String} {o : KeptObject}
    (hs : Store.Alters s { bucket := bucket, object := some (key, some o) } s')
    (hstored : e.stored? = some (bucket, key)) (hopened : e.opened? = none)
    (horigin : e.origin? history = some e) (ho : o.attributes = e.attributes) :
    Traced s' (e :: history) := by
  refine h.change hs (fun bucket' key' => ?_) ?_ ?_ fun name u hu => by cases hu
  · rw [hstored]
    constructor
    · rintro ⟨⟩
      exact ⟨rfl, o, rfl⟩
    · rintro ⟨rfl, o', ⟨⟩⟩
      rfl
  · rintro key' o' ⟨⟩
    exact ⟨e, horigin, ho⟩
  · intro bucket' name hname
    rw [hopened] at hname
    cases hname

/-- A call that leaves an upload open, with its own attributes or those that the upload had. -/
theorem leaveOpen (h : Traced s history) {bucket : String} {name : UploadName} {u : Upload}
    (hs : Store.Alters s { bucket := bucket, upload := some (name, some u) } s')
    (hstored : e.stored? = none)
    (hu : (e.opened? = some (bucket, name) ∧ u.attributes = e.attributes) ∨
      (e.opened? = none ∧ ∃ u', s.uploadAt? bucket name = some u' ∧ u.attributes = u'.attributes)) :
    Traced s' (e :: history) := by
  refine h.change hs (fun bucket' key => ?_) (fun key o ho => by cases ho) ?_ ?_
  · rw [hstored]
    constructor
    · intro hsome
      cases hsome
    · rintro ⟨-, o, ho⟩
      cases ho
  · intro bucket' name' hopened
    rcases hu with ⟨hopen, -⟩ | ⟨hnone, -⟩
    · cases hopen.symm.trans hopened
      exact ⟨rfl, u, rfl⟩
    · rw [hnone] at hopened
      cases hopened
  · rintro name' u' ⟨⟩
    exact hu

/-- A call that takes something away. -/
theorem remove (h : Traced s history) (hs : Store.Alters s c s')
    (hobject : ∀ key o, c.object ≠ some (key, some o)) (hupload : ∀ name u, c.upload ≠ some (name, some u))
    (hstored : e.stored? = none) (hopened : e.opened? = none) : Traced s' (e :: history) := by
  refine h.change hs (fun bucket key => ?_) (fun key o ho => absurd ho (hobject key o)) ?_
    (fun name u hu => absurd hu (hupload name u))
  · rw [hstored]
    exact ⟨nofun, fun ⟨_, o, ho⟩ => absurd ho (hobject key o)⟩
  · intro bucket name hname
    rw [hopened] at hname
    cases hname

end Traced

/-! ## Calls -/

/-- A write is checked for the encryption that it chooses. -/
theorem Mount.checkWrite_eq_ok {m : Mount} {body : Bytes} {size : UInt64} {o : ObjectChoices}
    {encryption : Option Encryption} (h : m.checkWrite body size o = .ok encryption) :
    m.chooseEncryption o.encryption o.customerKey = .ok encryption := by
  rw [checkWrite] at h
  split at h
  · cases h
  · obtain ⟨-, -, h⟩ := bind_eq_ok.mp h
    exact h

/-- An encryption that is not refused is the chosen one, or the mount's without a customer key; beside
a customer key there is none. -/
theorem Mount.chooseEncryption_eq_ok {m : Mount} {chosen encryption : Option Encryption}
    {key : Option CustomerKey} (h : m.chooseEncryption chosen key = .ok encryption) :
    encryption = chosen.or (if key.isSome then none else m.encryption) ∧
      (key = none ∨ encryption = none) := by
  unfold chooseEncryption at h
  split at h <;> cases h
  · exact ⟨rfl, .inl rfl⟩
  · exact ⟨rfl, .inr rfl⟩
  · exact ⟨rfl, .inl rfl⟩

/-- An encryption is refused for one reason only. -/
theorem Mount.chooseEncryption_eq_error {m : Mount} {chosen : Option Encryption}
    {key : Option CustomerKey} {e : Error} (h : m.chooseEncryption chosen key = .error e) :
    e = .encryptionConflict := by
  unfold chooseEncryption at h
  split at h <;> cases h
  rfl

/-- No fault waits that would be taken for the answer to an upload that is opened under an empty id. -/
def Store.ReportsUploads (s : Store) : Prop :=
  ∀ f, (Request.Kind.createUpload, f) ∈ s.faults → Error.ofFault f ≠ .uploadIdNotReturned

/-- A fault is the answer that an upload id is missing only if it has the code of that answer. -/
theorem code_of_ofFault_eq {f : Fault} (h : Error.ofFault f = .uploadIdNotReturned) :
    f.code = "MalformedResponse" := by
  have hfault := congrArg Error.fault? h
  rw [Error.fault?_ofFault] at hfault
  cases hfault
  rfl

/-- A store that refuses to open an upload does not say that its id is missing. -/
theorem Store.ofFault_createUpload {s : Store} {r : Request.CreateUpload} {f : Fault}
    (h : ((createUpload r).on s).1 = .error f) : Error.ofFault f ≠ .uploadIdNotReturned := by
  intro hmissing
  have hcode := code_of_ofFault_eq hmissing
  rw [fst_on_createUpload] at h
  cases hb : s.bucket r.bucket with
  | error g =>
    rw [hb] at h
    cases h
    obtain ⟨-, rfl⟩ := bucket_eq_error.mp hb
    have hbucket : (Fault.bucketNotThere r.bucket).code = "NoSuchBucket" := rfl
    rw [hbucket] at hcode
    exact absurd hcode (by decide)
  | ok b =>
    rw [hb] at h
    rw [checkEncryption] at h
    split at h
    · cases h
      exact absurd hcode (by decide)
    · cases h

/-- An upload that is not opened is not said to be. -/
theorem Store.createUpload_error {m : Mount} {s s' : Store} {path : String}
    {choices : Mount.UploadChoices} {e : Error} (hreports : s.ReportsUploads)
    (h : (m.createUpload path choices).run s = (.error e, s')) (hs : Undisturbed s s') :
    e ≠ .uploadIdNotReturned := by
  rcases Call.run_after (m.chooseEncryption choices.encryption choices.customerKey) _ s with
    ⟨e', hchoice, hrun⟩ | ⟨encryption, -, hrun⟩
  · cases hrun.symm.trans h
    cases Mount.chooseEncryption_eq_error hchoice
    exact nofun
  have hsend := hrun.symm.trans h
  let request := Request.createUpload (m.openRequest path choices encryption)
  rcases run_send request _ s with ⟨f, s'', ha, -, hrun'⟩ | ⟨reply, s'', ha, hrun'⟩
  · cases hrun'.symm.trans hsend
    cases ht : takeFault? request.kind s.faults with
    | some p =>
      rw [answer_of_some ht] at ha
      cases ha
      exact hreports p.1 (mem_of_takeFault? ht)
    | none =>
      rw [answer_of_none ht] at ha
      exact ofFault_createUpload (congrArg Prod.fst ha)
  · -- The upload was opened, so its id is given away.
    have hstate : s'' = s' := congrArg Prod.snd (hrun'.symm.trans hsend)
    have hdrawn := drawn_answer_createUpload ha
    obtain ⟨log, faults, rfl, -⟩ := hs
    rw [hstate] at hdrawn
    exact absurd hdrawn (Nat.ne_of_lt (Nat.lt_succ_self _))

namespace Traced

variable {r : Run Store}

/-- An upload that a call opens, or fails to open. -/
theorem createUpload (hreports : r.state.ReportsUploads) (h : Traced r.state r.history) (m : Mount)
    (path : String) (choices : Mount.UploadChoices) :
    Traced (r.call m (.createUpload path choices)).state
      (r.call m (.createUpload path choices)).history := by
  rcases Store.run_createUpload m r.state path choices with
    ⟨e, s', hx, hs⟩ | ⟨encryption, s', hc, hx, hs, -⟩
  · have he := Store.createUpload_error hreports hx hs
    simp only [Run.call, Operation.perform, hx]
    exact h.idle hs.buckets rfl (if_neg he)
  simp only [Run.call, Operation.perform, hx]
  have hattributes : (Store.opened (m.openRequest path choices encryption) r.state.now).attributes =
      (Operation.createUpload path choices).attributes m := by
    simp only [Operation.attributes, Operation.encryption?, hc]
    rfl
  exact h.leaveOpen hs rfl (.inl ⟨Event.opened?_createUpload rfl, hattributes⟩)

/-- **What a call preserves.** -/
theorem call (hreports : r.state.ReportsUploads) (h : Traced r.state r.history) (m : Mount)
    (op : Operation) : Traced (r.call m op).state (r.call m op).history := by
  by_cases hlook : op.isLook = true
  · have hs := Store.undisturbed_perform (m := m) (s := r.state) hlook
    refine h.idle hs.buckets ?_ ?_ <;> cases op <;> first | rfl | cases hlook
  cases op with
  | write path body size o =>
    rcases Store.run_write m r.state path body size o with
      ⟨e, s', hx, hs⟩ | ⟨encryption, s', hc, hx, hs⟩
    · simp only [Run.call, Operation.perform, hx]
      exact h.idle hs.buckets rfl rfl
    · simp only [Run.call, Operation.perform, hx]
      refine h.store hs rfl rfl rfl ?_
      simp only [Event.attributes, Operation.attributes, Operation.encryption?,
        Mount.checkWrite_eq_ok hc]
      rfl
  | makeDir path =>
    rcases Store.run_makeDir m r.state path with ⟨e, s', hx, hs⟩ | ⟨s', hx, hs⟩
    · simp only [Run.call, Operation.perform, hx]
      exact h.idle hs.buckets rfl rfl
    · simp only [Run.call, Operation.perform, hx]
      exact h.store hs rfl rfl rfl rfl
  | makeLink path target =>
    rcases Store.run_makeLink m r.state path target with ⟨e, s', hx, hs⟩ | ⟨s', hx, hs⟩
    · simp only [Run.call, Operation.perform, hx]
      exact h.idle hs.buckets rfl rfl
    · simp only [Run.call, Operation.perform, hx]
      exact h.store hs rfl rfl rfl rfl
  | createUpload path choices => exact h.createUpload hreports m path choices
  | delete path target =>
    rcases hperform : (Operation.delete path target).perform m r.state with ⟨a, s'⟩
    simp only [Run.call, hperform]
    rcases Store.perform_cases hperform with ⟨hs, -⟩ | ⟨c, hmakes, hs⟩
    · exact h.idle hs.buckets rfl rfl
    · refine h.remove hs (fun key o ho => ?_) (fun name u hu => ?_) rfl rfl
      · cases hmakes <;> cases ho
      · cases hmakes <;> cases hu
  | abortUpload object =>
    rcases hperform : (Operation.abortUpload object).perform m r.state with ⟨a, s'⟩
    simp only [Run.call, hperform]
    rcases Store.perform_cases hperform with ⟨hs, -⟩ | ⟨c, hmakes, hs⟩
    · exact h.idle hs.buckets rfl rfl
    · refine h.remove hs (fun key o ho => ?_) (fun name u hu => ?_) rfl rfl
      · cases hmakes
        cases ho
      · cases hmakes
        cases hu
  | writePart object index body size contentMd5 key =>
    rcases Store.run_writePart m r.state object index body size contentMd5 key with
      ⟨e, s', hx, hs⟩ | ⟨id, number, u, s', -, hu, hx, hs⟩
    · simp only [Run.call, Operation.perform, hx]
      exact h.idle hs.buckets rfl rfl
    · -- The upload has the same attributes with the part.
      simp only [Run.call, Operation.perform, hx]
      exact h.leaveOpen hs rfl (.inr ⟨rfl, u, hu, rfl⟩)
  | completeUpload object parts =>
    rcases Store.run_completeUpload m r.state object parts with
      ⟨e, s', hx, hs⟩ | ⟨id, choices, u, bodies, s', hc, hu, -, hx, hs⟩
    · simp only [Run.call, Operation.perform, hx]
      exact h.idle hs.buckets rfl rfl
    · -- The object has the attributes of the upload, and so those of the call that opened it.
      simp only [Run.call, Operation.perform, hx]
      obtain ⟨e, he, hattributes⟩ := h.uploads _ _ u hu
      have hid : object.uploadId = some id :=
        Store.uploadId_of_openUpload (Store.checkCompletion_eq_ok hc).1
      refine h.change hs (fun bucket key => ?_) ?_ (fun _ _ hopened => by cases hopened)
        fun name u' hu' => by cases hu'
      · constructor
        · rintro ⟨⟩
          exact ⟨rfl, _, rfl⟩
        · rintro ⟨rfl, o, ⟨⟩⟩
          rfl
      · rintro key o ⟨⟩
        have hopener : opener? m.bucket ⟨object.id, object.uploadId.getD ""⟩ r.history = some e := by
          rw [hid]
          exact he
        exact ⟨e, hopener, hattributes⟩
  | _ => exact absurd rfl hlook

/-- **What a run preserves.** -/
theorem calls {start : Store} (hreports : start.ReportsUploads) (h : Traced start [])
    (cs : List (Mount × Operation)) :
    Traced (Run.calls ⟨start, []⟩ cs).state (Run.calls ⟨start, []⟩ cs).history := by
  refine (Run.calls_induct (P := fun r => r.state.ReportsUploads ∧ Traced r.state r.history)
    (fun r m op hr => ?_) ⟨hreports, h⟩ cs).2
  refine ⟨fun f hf => hr.1 f ?_, hr.2.call hr.1 m op⟩
  exact (Store.Keeps.perform m op r.state).faults _ hf

end Traced

end ObjectStore
