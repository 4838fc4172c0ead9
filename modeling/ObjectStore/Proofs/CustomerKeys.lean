import ObjectStore.Proofs.Finished
import ObjectStore.Proofs.Origins

/-!
# Customer keys

An object is guarded by the customer key that was given when it was created, or by there being none:
a caller passes who gives a key with the same MD5, or none where there is none (`Guards`). The stamp
by which a store checks this is the one of the call that the object's attributes are from, so the
history of a run tells which key guards an object, also one that was made from an upload
(`customer_keys_guard`).

The check comes before the body is looked at: the answer to a caller who does not pass is the same
whatever the body is (`Store.SameButBody`).
-/

namespace ObjectStore

/-- That an answer is behind the check of a customer key: `passed` is the answer to a caller who
passes. -/
structure Guards {α : Type} (owner given : Option CustomerKey) (answer passed : Except Error α) :
    Prop where
  passes : owner.map (·.secretMd5) = given.map (·.secretMd5) → answer = passed
  absent : owner.isSome ≠ given.isSome →
    ∃ f, answer = .error (.unexpected f) ∧ f.code = "InvalidRequest"
  differs : ∀ c ∈ owner, ∀ k ∈ given, c.secretMd5 ≠ k.secretMd5 →
    ∃ f, answer = .error (.denied f) ∧ f.code = "AccessDenied"

/-- The answer behind the check of a lock. -/
def Store.behindLock {α : Type} (lock : Option KeyStamp) (given : Option CustomerKey)
    (passed : Except Error α) : Except Error α :=
  match checkLock lock given with
  | .error f => .error (.ofFault f)
  | .ok () => passed

/-- A lock that is the stamp of a key guards by that key. -/
theorem guards_behindLock {α : Type} (owner given : Option CustomerKey) (passed : Except Error α) :
    Guards owner given (Store.behindLock (owner.map (·.stamp)) given passed) passed := by
  cases owner with
  | none =>
    cases given with
    | none => exact ⟨fun _ => rfl, fun h => absurd rfl h, nofun⟩
    | some k => exact ⟨nofun, fun _ => ⟨.keyNotNeeded, rfl, rfl⟩, nofun⟩
  | some c =>
    cases given with
    | none => exact ⟨nofun, fun _ => ⟨.keyNeeded, rfl, rfl⟩, nofun⟩
    | some k =>
      by_cases hmd5 : c.secretMd5 = k.secretMd5
      · have hcheck : Store.checkLock (some c.stamp) (some k) = .ok () := if_pos hmd5
        refine ⟨fun _ => ?_, fun h => absurd rfl h, ?_⟩
        · rw [Store.behindLock, Option.map_some, hcheck]
        · rintro _ ⟨⟩ _ ⟨⟩ hne
          exact absurd hmd5 hne
      · have hcheck : Store.checkLock (some c.stamp) (some k) = .error .keyMismatch := if_neg hmd5
        refine ⟨fun h => absurd (Option.some.inj h) hmd5, fun h => absurd rfl h, ?_⟩
        rintro _ ⟨⟩ _ ⟨⟩ -
        refine ⟨.keyMismatch, ?_, rfl⟩
        rw [Store.behindLock, Option.map_some, hcheck]
        rfl

/-! ## Answers behind a lock -/

namespace Store

/-- Who gives another key, or one too many or too few, does not pass. -/
theorem exists_fault_of_ne {owner given : Option CustomerKey}
    (h : owner.map (·.secretMd5) ≠ given.map (·.secretMd5)) :
    ∃ f, checkLock (owner.map (·.stamp)) given = .error f := by
  cases owner with
  | none =>
    cases given with
    | none => exact absurd rfl h
    | some k => exact ⟨_, rfl⟩
  | some c =>
    cases given with
    | none => exact ⟨_, rfl⟩
    | some k => exact ⟨_, if_neg fun hmd5 => h (congrArg some hmd5)⟩

variable {s : Store} {m : Mount} {path key : String} {target : Mount.Target} {o : KeptObject}

/-- How a target at a path is shown. -/
def modeOf : Mount.Target → Mode
  | .dir => .dir
  | _ => .read

/-- The request by which an object is told about. -/
theorem stat_eq (hkey : objectKey? m path target = some key) (given : Option CustomerKey) :
    m.stat path target given = .send (.headObject ⟨m.bucket, key, given⟩) fun head =>
      .ok (Mount.ofHead key path (modeOf target) head) := by
  cases target <;> cases hkey <;> rfl

/-- What comes of a request that no fault waits for. -/
theorem run_send_of_none {α : Type} {request : Request} {read : request.Reply → Except Error α}
    (h : ∀ f, (request.kind, f) ∉ s.faults) :
    ((Call.send request read).run s).1 =
      match ((s.record request).serve request).1 with
      | .ok reply => read reply
      | .error f => .error (.ofFault f) := by
  have hanswer := answer_of_none (takeFault?_eq_none h)
  rcases run_send request read s with ⟨f, s', ha, -, hrun⟩ | ⟨reply, s', ha, hrun⟩
  · rw [hrun, ← hanswer, ha]
  · rw [hrun, ← hanswer, ha]

/-- An object that is there is told about behind its lock. -/
theorem headObject_of_some {bucket : String} (ho : s.objectAt? bucket key = some o)
    (given : Option CustomerKey) :
    s.headObject ⟨bucket, key, given⟩ = (checkLock o.lock given).map fun _ => head o := by
  obtain ⟨b, hb, hkey⟩ := Option.bind_eq_some_iff.mp ho
  rw [headObject, bucket_eq_ok.mpr hb]
  cases hcheck : checkLock o.lock given <;>
    simp [hkey, hcheck, bind, Except.bind, pure, Except.pure, Except.map]

/-- A body that is there is given behind its lock. -/
theorem getObject_of_some {bucket : String} (ho : s.objectAt? bucket key = some o)
    (range : Option String) (given : Option CustomerKey) :
    s.getObject ⟨bucket, key, range, given⟩ = (checkLock o.lock given).bind fun _ =>
      (cutRange o.body range).map fun body =>
        ⟨body, UInt64.ofNat body.length, o.contentType, some o.etag⟩ := by
  obtain ⟨b, hb, hkey⟩ := Option.bind_eq_some_iff.mp ho
  rw [getObject, bucket_eq_ok.mpr hb]
  cases hcheck : checkLock o.lock given with
  | error f => simp [hkey, hcheck, bind, Except.bind]
  | ok =>
    cases hcut : cutRange o.body range <;>
      simp [hkey, hcheck, hcut, bind, Except.bind, pure, Except.pure, Except.map]

theorem run_stat (hkey : objectKey? m path target = some key)
    (ho : s.objectAt? m.bucket key = some o) (hfaults : ∀ f, (Request.Kind.headObject, f) ∉ s.faults)
    (given : Option CustomerKey) :
    ((m.stat path target given).run s).1 =
      behindLock o.lock given (.ok (Mount.ofHead key path (modeOf target) (head o))) := by
  have hserve (r : Request.HeadObject) :
      ((s.record (.headObject r)).serve (.headObject r)).1 = s.headObject r := rfl
  rw [stat_eq hkey, run_send_of_none hfaults, hserve, headObject_of_some ho, behindLock]
  cases checkLock o.lock given <;> rfl

/-- A read that asks for a range. -/
theorem read_eq {window : Window} {range : Option String} (hempty : window.isEmpty = false)
    (hrange : window.range = .ok range) (given : Option CustomerKey) :
    m.read path window given =
      .send (.getObject ⟨m.bucket, m.keyOf path false, range, given⟩) fun reply =>
        .ok reply.body := by
  rw [Mount.read, hempty, hrange]
  rfl

theorem run_read {window : Window} {range : Option String}
    (ho : s.objectAt? m.bucket (m.keyOf path false) = some o)
    (hfaults : ∀ f, (Request.Kind.getObject, f) ∉ s.faults) (hempty : window.isEmpty = false)
    (hrange : window.range = .ok range) (given : Option CustomerKey) :
    ((m.read path window given).run s).1 =
      behindLock o.lock given ((cutRange o.body range).mapError .ofFault) := by
  have hserve (r : Request.GetObject) :
      ((s.record (.getObject r)).serve (.getObject r)).1 = s.getObject r := rfl
  rw [read_eq hempty hrange, run_send_of_none hfaults, hserve, getObject_of_some ho, behindLock]
  cases checkLock o.lock given with
  | error f => rfl
  | ok => cases cutRange o.body range <;> rfl

/-- A part of an upload that is open is taken behind the lock of the upload. -/
theorem uploadPart_of_open {r : Request.UploadPart} {u : Upload}
    (hu : s.uploadAt? r.bucket ⟨r.key, r.uploadId⟩ = some u) (hnumber : validNumber r.number = true) :
    ((uploadPart r).on s).1 = (checkLock u.lock r.customerKey).bind fun _ =>
      (checkDigest r.contentMd5 r.body).map fun _ => ⟨some (bodyEtag r.body)⟩ := by
  obtain ⟨b, hb, hname⟩ := Option.bind_eq_some_iff.mp hu
  rw [fst_on_uploadPart, bucket_eq_ok.mpr hb]
  simp only [Except.bind, checkNumber_eq_ok.mpr hnumber, findUpload_eq_ok.mpr hname]
  cases checkLock u.lock r.customerKey with
  | error f => rfl
  | ok => cases checkDigest r.contentMd5 r.body <;> rfl

/-- What a part that is written is answered with when its key has passed. -/
def writtenPart (index : UInt32) (body : Bytes) (size : UInt64) (contentMd5 : Option String) :
    Except Error Part :=
  ((checkDigest contentMd5 body).map fun _ => ⟨index, size, bodyEtag body⟩).mapError .ofFault

theorem run_writePart_of_open {object : Object} {index : UInt32} {body : Bytes} {size : UInt64}
    {id : String} {number : Int32} {u : Upload}
    (hcheck : Mount.checkPart object index body size = .ok (id, number))
    (hu : s.uploadAt? m.bucket ⟨object.id, id⟩ = some u)
    (hfaults : ∀ f, (Request.Kind.uploadPart, f) ∉ s.faults) (contentMd5 : Option String)
    (given : Option CustomerKey) :
    ((m.writePart object index body size contentMd5 given).run s).1 =
      behindLock u.lock given (writtenPart index body size contentMd5) := by
  let r := m.partRequest object.id id number body size contentMd5 given
  have hnumber : validNumber r.number = true :=
    validNumber_of_numberOfIndex (checkPart_eq_ok hcheck).2.1
  have hwrite : m.writePart object index body size contentMd5 given =
      .send (.uploadPart r) fun reply =>
        reply.etag.elim (.error .partEtagNotReturned) fun etag => .ok ⟨index, size, etag⟩ := by
    rw [Mount.writePart, hcheck]
    refine congrArg (Call.send (.uploadPart r)) (funext fun reply => ?_)
    rcases reply with ⟨_ | etag⟩ <;> rfl
  have hserve : ((s.record (.uploadPart r)).serve (.uploadPart r)).1 =
      (checkLock u.lock given).bind fun _ =>
        (checkDigest contentMd5 body).map fun _ => ⟨some (bodyEtag body)⟩ :=
    uploadPart_of_open (s := s.record (.uploadPart r)) hu hnumber
  rw [hwrite, run_send_of_none hfaults, hserve, behindLock, writtenPart]
  cases checkLock u.lock given with
  | error f => rfl
  | ok => cases checkDigest contentMd5 body <;> rfl

/-! ## Bodies -/

/-- Two stores are the same but for the body and the entity tag of one object. -/
def SameButBody (s s' : Store) (bucket key : String) : Prop :=
  ∃ b o body etag, s.buckets.get? bucket = some b ∧ b.objects.get? key = some o ∧
    s' = s.setBucket bucket
      { b with objects := b.objects.insert key { o with body := body, etag := etag } }

/-- Stores with the same waiting faults answer a request alike if they serve it alike. -/
theorem run_send_congr {α : Type} {request : Request} {s s' : Store} (hfaults : s'.faults = s.faults)
    (hserve : ((s'.record request).serve request).1 = ((s.record request).serve request).1)
    (read : request.Reply → Except Error α) :
    ((Call.send request read).run s').1 = ((Call.send request read).run s).1 := by
  have hanswer : (s'.answer request).1 = (s.answer request).1 := by
    cases ht : takeFault? request.kind s.faults with
    | some p => rw [answer_of_some ht, answer_of_some (hfaults ▸ ht)]
    | none => rw [answer_of_none ht, answer_of_none (hfaults ▸ ht), hserve]
  simp only [Call.send, Call.run, Backend.exchange, hanswer]

namespace SameButBody

variable {s' : Store} {bucket : String}

theorem faults (h : s.SameButBody s' bucket key) : s'.faults = s.faults := by
  obtain ⟨b, o, body, etag, -, -, rfl⟩ := h
  rfl

/-- The object has the same lock in both. -/
theorem objects (h : s.SameButBody s' bucket key) :
    ∃ o o', s.objectAt? bucket key = some o ∧ s'.objectAt? bucket key = some o' ∧
      o'.lock = o.lock := by
  obtain ⟨b, o, body, etag, hb, ho, rfl⟩ := h
  refine ⟨o, { o with body := body, etag := etag }, (objectAt?_of_bucket hb key).trans ho, ?_, rfl⟩
  rw [objectAt?_setBucket, if_pos rfl, Table.get?_insert_self]

/-- Who does not pass is told the same about the object. -/
theorem stat (h : s.SameButBody s' m.bucket key) (hkey : objectKey? m path target = some key)
    {given : Option CustomerKey} {f : Fault}
    (hlocked : ∀ o ∈ s.objectAt? m.bucket key, checkLock o.lock given = .error f) :
    ((m.stat path target given).run s').1 = ((m.stat path target given).run s).1 := by
  obtain ⟨o, o', ho, ho', hlock⟩ := h.objects
  rw [stat_eq hkey]
  refine run_send_congr h.faults ?_ _
  have hserve (u : Store) (r : Request.HeadObject) :
      ((u.record (.headObject r)).serve (.headObject r)).1 = u.headObject r := rfl
  rw [hserve, hserve, headObject_of_some ho, headObject_of_some ho', hlock, hlocked o ho]
  rfl

/-- Who does not pass reads the same. -/
theorem read (h : s.SameButBody s' m.bucket (m.keyOf path false)) {window : Window}
    {given : Option CustomerKey} {f : Fault}
    (hlocked : ∀ o ∈ s.objectAt? m.bucket (m.keyOf path false), checkLock o.lock given = .error f) :
    ((m.read path window given).run s').1 = ((m.read path window given).run s).1 := by
  obtain ⟨o, o', ho, ho', hlock⟩ := h.objects
  cases hempty : window.isEmpty with
  | true =>
    rw [Mount.read, if_pos hempty]
    rfl
  | false =>
    cases hrange : window.range with
    | error e =>
      rw [Mount.read, hempty, hrange]
      rfl
    | ok range =>
      rw [read_eq hempty hrange]
      refine run_send_congr h.faults ?_ _
      have hserve (u : Store) (r : Request.GetObject) :
          ((u.record (.getObject r)).serve (.getObject r)).1 = u.getObject r := rfl
      rw [hserve, hserve, getObject_of_some ho, getObject_of_some ho', hlock, hlocked o ho]
      rfl

end SameButBody

end Store

/-! ## Runs -/

namespace Mount

/-- That a mount shows an object to those who pass the check of a key, and tells all others the same
whatever the body of the object is. -/
structure Asks (m : Mount) (s : Store) (key : String) (o : KeptObject) (owner : Option CustomerKey) :
    Prop where
  stat : ∀ path target given, Store.objectKey? m path target = some key →
    Guards owner given ((m.stat path target given).run s).1
      (.ok (ofHead key path (Store.modeOf target) (Store.head o)))
  read : ∀ path window range given, m.keyOf path false = key → window.isEmpty = false →
    window.range = .ok range →
    Guards owner given ((m.read path window given).run s).1
      ((Store.cutRange o.body range).mapError .ofFault)
  stat_same : ∀ s' path target given, s.SameButBody s' m.bucket key →
    owner.map (·.secretMd5) ≠ given.map (·.secretMd5) → Store.objectKey? m path target = some key →
    ((m.stat path target given).run s').1 = ((m.stat path target given).run s).1
  read_same : ∀ s' path window given, s.SameButBody s' m.bucket key →
    owner.map (·.secretMd5) ≠ given.map (·.secretMd5) → m.keyOf path false = key →
    ((m.read path window given).run s').1 = ((m.read path window given).run s).1

/-- That a mount takes parts of an upload from those who pass the check of a key. -/
def TakesParts (m : Mount) (s : Store) (name : UploadName) (owner : Option CustomerKey) : Prop :=
  ∀ object index body size number contentMd5 given, object.id = name.key →
    checkPart object index body size = .ok (name.id, number) →
    Guards owner given ((m.writePart object index body size contentMd5 given).run s).1
      (Store.writtenPart index body size contentMd5)

/-- The lock of an object decides who is shown it. -/
theorem asks_of_lock {m : Mount} {s : Store} {key : String} {o : KeptObject}
    {owner : Option CustomerKey} (ho : s.objectAt? m.bucket key = some o)
    (hlock : o.lock = owner.map (·.stamp)) (hhead : ∀ f, (Request.Kind.headObject, f) ∉ s.faults)
    (hget : ∀ f, (Request.Kind.getObject, f) ∉ s.faults) : m.Asks s key o owner where
  stat path target given hkey := by
    rw [Store.run_stat hkey ho hhead, hlock]
    exact guards_behindLock owner given _
  read path window range given hkey hempty hrange := by
    subst hkey
    rw [Store.run_read ho hget hempty hrange, hlock]
    exact guards_behindLock owner given _
  stat_same s' path target given hsame hne hkey := by
    obtain ⟨f, hf⟩ := Store.exists_fault_of_ne hne
    have hlocked : ∀ o' ∈ s.objectAt? m.bucket key, Store.checkLock o'.lock given = .error f := by
      intro o' ho'
      cases ho.symm.trans ho'
      rw [hlock, hf]
    exact hsame.stat hkey hlocked
  read_same s' path window given hsame hne hkey := by
    subst hkey
    obtain ⟨f, hf⟩ := Store.exists_fault_of_ne hne
    have hlocked : ∀ o' ∈ s.objectAt? m.bucket (m.keyOf path false),
        Store.checkLock o'.lock given = .error f := by
      intro o' ho'
      cases ho.symm.trans ho'
      rw [hlock, hf]
    exact hsame.read hlocked

/-- The lock of an upload decides whose parts are taken. -/
theorem takesParts_of_lock {m : Mount} {s : Store} {name : UploadName} {u : Upload}
    {owner : Option CustomerKey} (hu : s.uploadAt? m.bucket name = some u)
    (hlock : u.lock = owner.map (·.stamp))
    (hfaults : ∀ f, (Request.Kind.uploadPart, f) ∉ s.faults) : m.TakesParts s name owner := by
  intro object index body size number contentMd5 given hid hcheck
  have hu' : s.uploadAt? m.bucket ⟨object.id, name.id⟩ = some u := by
    rw [hid]
    exact hu
  rw [Store.run_writePart_of_open hcheck hu' hfaults, hlock]
  exact guards_behindLock owner given _

end Mount

/-- No fault waits that would stand in for the check of a key, or for an id that is missing. -/
def Store.ChecksKeys (s : Store) : Prop :=
  ∀ f ∈ s.faults, f.1 ∉ [.createUpload, .headObject, .getObject, .uploadPart]

/-- **Customer keys guard objects.** After any calls through any mounts on a store that was new, an
object is shown to those who give the key that was given when it was created, and parts of an upload
are taken from those who give the key that it was opened with. -/
theorem customer_keys_guard (start : Store)
    (hobjects : ∀ bucket key, start.objectAt? bucket key = none)
    (huploads : ∀ bucket name, start.uploadAt? bucket name = none) (hchecks : start.ChecksKeys)
    (cs : List (Mount × Operation)) :
    let r := Run.calls ⟨start, []⟩ cs
    (∀ bucket key o, r.state.objectAt? bucket key = some o →
      ∃ e, creator? bucket key r.history = some e ∧
        ∀ m : Mount, m.bucket = bucket → m.Asks r.state key o e.operation.ownerKey?) ∧
    ∀ bucket name u, r.state.uploadAt? bucket name = some u →
      ∃ e, opener? bucket name r.history = some e ∧
        ∀ m : Mount, m.bucket = bucket → m.TakesParts r.state name e.operation.ownerKey? := by
  intro r
  have hkeeps := Store.Keeps.calls ⟨start, []⟩ cs
  have hnone (kind : Request.Kind)
      (hkind : kind ∈ [Request.Kind.createUpload, .headObject, .getObject, .uploadPart]) (f : Fault) :
      (kind, f) ∉ r.state.faults :=
    fun hf => hchecks _ (hkeeps.faults _ hf) hkind
  have htraced : Traced r.state r.history :=
    Traced.calls (fun f hf => (hchecks _ hf List.mem_cons_self).elim) (.start hobjects huploads) cs
  refine ⟨fun bucket key o ho => ?_, fun bucket name u hu => ?_⟩
  · obtain ⟨e, he, hattributes⟩ := htraced.objects bucket key o ho
    refine ⟨e, he, ?_⟩
    rintro m rfl
    exact Mount.asks_of_lock ho (congrArg Attributes.lock hattributes) (hnone _ (by decide))
      (hnone _ (by decide))
  · obtain ⟨e, he, hattributes⟩ := htraced.uploads bucket name u hu
    refine ⟨e, he, ?_⟩
    rintro m rfl
    exact Mount.takesParts_of_lock hu (congrArg Attributes.lock hattributes) (hnone _ (by decide))

/-- An object is written without a key and then made again from an upload with one: another key is
denied, and its own passes. -/
theorem customer_keys_guard_made_again :
    let m : Mount := ⟨"b", .root, 200, none, none, by decide⟩
    let key : CustomerKey := ⟨"AES256", List.replicate 32 1, rfl⟩
    let other : CustomerKey := ⟨"AES256", List.replicate 32 2, rfl⟩
    let upload := Object.upload "k" "k" "0"
    let start := Store.withBuckets ["b"] (fun n => toString n) 0 false
    let r := Run.calls ⟨start, []⟩ [(m, .write "k" [9] 1 {}),
      (m, .createUpload "k" { customerKey := some key }),
      (m, .writePart upload 0 [1] 1 none (some key)),
      (m, .completeUpload upload [⟨0, 1, Store.bodyEtag [1]⟩])]
    start.ChecksKeys ∧ (r.state.objectAt? "b" "k").isSome = true ∧
      ((m.read "k" {} (some key)).run r.state).1 = .ok [1] ∧
      (∃ f, ((m.read "k" {} (some other)).run r.state).1 = .error (.denied f) ∧
        f.code = "AccessDenied") ∧
      ∃ f, ((m.read "k" {} none).run r.state).1 = .error (.unexpected f) ∧
        f.code = "InvalidRequest" := by
  intro m key other upload start r
  have hchecks : start.ChecksKeys := fun _ hf => nomatch hf
  have hsome : (r.state.objectAt? "b" "k").isSome = true := by decide +kernel
  obtain ⟨o, ho⟩ := Option.isSome_iff_exists.mp hsome
  obtain ⟨e, he, hasks⟩ :=
    (customer_keys_guard start (Store.objectAt?_withBuckets ["b"] _ 0 false)
      (Store.uploadAt?_withBuckets ["b"] _ 0 false) hchecks _).1 "b" "k" o ho
  have howner : (creator? "b" "k" r.history).map (·.operation.ownerKey?) = some (some key) := by
    decide +kernel
  have hkey : e.operation.ownerKey? = some key := by
    rw [he] at howner
    exact Option.some.inj howner
  have hbody : (r.state.objectAt? "b" "k").map KeptObject.body = some [1] := by decide +kernel
  have hone : o.body = [1] := by
    rw [ho] at hbody
    exact Option.some.inj hbody
  have hread := fun given => (hasks m rfl).read "k" {} none given rfl rfl rfl
  rw [hkey, hone] at hread
  refine ⟨hchecks, hsome, (hread (some key)).passes rfl, ?_, (hread none).absent (by decide)⟩
  exact (hread (some other)).differs key rfl other rfl (by decide +kernel)

end ObjectStore
