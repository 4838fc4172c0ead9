import ObjectStore.Proofs.Completion
import ObjectStore.Proofs.Origins
import ObjectStore.Proofs.Reached

/-!
# What the checks of a mount spare a store

Some rules of a store are about a request as such: an encryption and a customer key exclude each other,
the number of a part has bounds, and an upload is completed from parts in ascending order, one at least.
A store answers their faults (`Fault.ruleCodes`) to nothing but a request that breaks them
(`Request.flawed`, `Store.lawful_answer`).

A mount checks for the same before it asks anything. To compare the two, the request that the arguments
of an operation describe is written down whether or not it breaks a rule (`Operation.draft?`). A call
then sends nothing but its draft, and that only if it breaks none (`Call.Screens`); where it does, the
caller is told by a local error (`Operation.refused_of_flawed`).
-/

namespace ObjectStore

/-! ## Rules -/

/-- The codes of the faults for requests that break a rule by themselves. -/
def Fault.ruleCodes : List String := ["InvalidArgument", "MalformedXML", "InvalidPartOrder"]

/-- Whether a request breaks such a rule. -/
def Request.flawed : Request → Bool
  | .putObject r => r.encryption.isSome && r.customerKey.isSome
  | .createUpload r => r.encryption.isSome && r.customerKey.isSome
  | .uploadPart r => !Store.validNumber r.number
  | .completeUpload r => r.parts.isEmpty || !Store.ascending r.parts
  | _ => false

/-- A request that only looks has no rule to break. -/
theorem Request.flawed_of_isLook {request : Request} (h : Store.isLook request = true) :
    request.flawed = false := by
  cases request <;> first | rfl | cases h

/-- That a result is no fault for a broken rule. -/
abbrev Lawful {α : Type} (x : Except Fault α) : Prop :=
  OnlyErrors (fun f : Fault => f.code ∉ Fault.ruleCodes) x

theorem lawful_http {α : Type} {code message : String} {status : UInt16}
    (h : code ∉ Fault.ruleCodes) : Lawful (.error (.http code status message) : Except Fault α) :=
  .error h

namespace Store

variable {s : Store}

theorem lawful_bucket (s : Store) (name : String) : Lawful (s.bucket name) := by
  unfold bucket
  split
  · exact .ok _
  · exact lawful_http (by decide)

theorem lawful_findUpload (b : Bucket) (key id : String) : Lawful (findUpload b key id) := by
  unfold findUpload
  split
  · exact .ok _
  · exact lawful_http (by decide)

theorem lawful_checkLock (lock : Option KeyStamp) (key : Option CustomerKey) :
    Lawful (checkLock lock key) := by
  unfold checkLock
  split
  · exact .ok _
  · exact lawful_http (by decide)
  · exact lawful_http (by decide)
  · split
    · exact .ok _
    · exact lawful_http (by decide)

theorem lawful_checkDigest (announced : Option String) (body : Bytes) :
    Lawful (checkDigest announced body) := by
  unfold checkDigest
  split
  · exact .ok _
  · split
    · exact .ok _
    · exact lawful_http (by decide)

/-- The encryption of a request that breaks no rule is accepted. -/
theorem lawful_checkEncryption {encryption : Option Encryption} {key : Option CustomerKey}
    (h : (encryption.isSome && key.isSome) = false) : Lawful (checkEncryption encryption key) := by
  rw [checkEncryption, h]
  exact .ok _

theorem lawful_cutRange (body : Bytes) (range : Option String) : Lawful (cutRange body range) := by
  unfold cutRange
  split
  · exact .ok _
  · split
    · exact .ok _
    · exact lawful_http (by decide)

theorem lawful_gather (least : UInt64) (parts : Table Int32 KeptPart)
    (choices : List Request.PartChoice) : Lawful (gather least parts choices) := by
  induction choices with
  | nil => exact .ok _
  | cons choice rest ih =>
    rw [gather]
    split
    · exact lawful_http (by decide)
    · split
      · exact lawful_http (by decide)
      · exact ih.map _

/-- A choice of parts in order can only fail because of the upload or of one of its parts. -/
theorem lawful_chosenBodies (minPartSize : UInt64) (b : Bucket) {r : Request.CompleteUpload}
    (h : (Request.completeUpload r).flawed = false) : Lawful (chosenBodies minPartSize b r) := by
  obtain ⟨hne, hasc⟩ : r.parts.isEmpty = false ∧ (!ascending r.parts) = false :=
    Bool.or_eq_false_iff.mp h
  have hparts : r.parts ≠ [] := List.isEmpty_eq_false_iff.mp hne
  have hascending : ascending r.parts = true := by simpa using hasc
  refine .bind (lawful_findUpload b r.key r.uploadId) fun u => ?_
  rw [if_neg hparts, if_pos hascending]
  exact lawful_gather _ _ _

/-- **What serving faults with** is no broken rule where the request breaks none. -/
theorem lawful_serve (s : Store) {request : Request} (h : request.flawed = false) :
    Lawful (s.serve request).1 := by
  cases request with
  | listBuckets => exact .ok _
  | listObjects r => exact .map (s.lawful_bucket r.bucket) _
  | listUploads r => exact .map (s.lawful_bucket r.bucket) _
  | listParts r =>
    exact .bind (s.lawful_bucket r.bucket) fun b => .map (lawful_findUpload b r.key r.uploadId) _
  | headObject r =>
    refine .bind (s.lawful_bucket r.bucket) fun b => .bind ?_ fun o =>
      .bind (lawful_checkLock o.lock r.customerKey) fun _ => .ok _
    cases b.objects.get? r.key with
    | none => exact lawful_http (by decide)
    | some o => exact .ok _
  | getObject r =>
    refine .bind (s.lawful_bucket r.bucket) fun b => .bind ?_ fun o =>
      .bind (lawful_checkLock o.lock r.customerKey) fun _ =>
        .bind (lawful_cutRange o.body r.range) fun _ => .ok _
    cases b.objects.get? r.key with
    | none => exact lawful_http (by decide)
    | some o => exact .ok _
  | putObject r =>
    rw [serve, fst_on_putObject]
    exact .bind (s.lawful_bucket r.bucket) fun _ => .bind (lawful_checkEncryption h) fun _ =>
      .bind (lawful_checkDigest r.contentMd5 r.body) fun _ => .ok _
  | deleteObject r =>
    rw [serve, fst_on_deleteObject]
    refine .bind (s.lawful_bucket r.bucket) fun b => ?_
    split
    · exact lawful_http (by decide)
    · exact .ok _
  | createUpload r =>
    rw [serve, fst_on_createUpload]
    exact .bind (s.lawful_bucket r.bucket) fun _ => .bind (lawful_checkEncryption h) fun _ => .ok _
  | uploadPart r =>
    have hnumber : validNumber r.number = true := by simpa [Request.flawed] using h
    rw [serve, fst_on_uploadPart, checkNumber_eq_ok.mpr hnumber]
    exact .bind (s.lawful_bucket r.bucket) fun b => .bind (.ok ()) fun _ =>
      .bind (lawful_findUpload b r.key r.uploadId) fun u =>
        .bind (lawful_checkLock u.lock r.customerKey) fun _ =>
          .bind (lawful_checkDigest r.contentMd5 r.body) fun _ => .ok _
  | completeUpload r =>
    rw [serve, fst_on_completeUpload]
    exact .bind (s.lawful_bucket r.bucket) fun b => .bind (lawful_chosenBodies s.minPartSize b h) fun _ =>
      .bind (lawful_findUpload b r.key r.uploadId) fun _ => .ok _
  | abortUpload r =>
    rw [serve, fst_on_abortUpload]
    exact .bind (s.lawful_bucket r.bucket) fun b => .map (lawful_findUpload b r.key r.uploadId) _

/-- That no fault for a broken rule was arranged. -/
def Plain (s : Store) : Prop := ∀ w ∈ s.faults, w.2.code ∉ Fault.ruleCodes

theorem Keeps.plain {s' : Store} (h : Keeps s s') (hs : s.Plain) : s'.Plain :=
  fun w hw => hs w (h.faults w hw)

theorem lawful_answer (hs : s.Plain) {request : Request} (h : request.flawed = false) :
    Lawful (s.answer request).1 := by
  cases ht : takeFault? request.kind s.faults with
  | none =>
    rw [answer_of_none ht]
    exact lawful_serve _ h
  | some taken =>
    rw [answer_of_some ht]
    exact .error (hs _ (mem_of_takeFault? ht))

/-- A fault for a broken rule is told to no other request. -/
theorem flawed_of_answer (hs : s.Plain) {request : Request} {f : Fault}
    (h : (s.answer request).1 = .error f) (hf : f.code ∈ Fault.ruleCodes) : request.flawed = true := by
  by_contra hflawed
  exact lawful_answer hs (Bool.eq_false_iff.mpr hflawed) f h hf

/-- Where a choice of parts passes, the upload is found once more. -/
theorem exists_takeUpload {minPartSize : UInt64} {b : Bucket} {r : Request.CompleteUpload}
    {bodies : List Bytes} (h : chosenBodies minPartSize b r = .ok bodies) :
    ∃ taken, ((takeUpload r.key r.uploadId).on b).1 = .ok taken := by
  obtain ⟨u, hu, -⟩ := chosenBodies_eq_ok.mp h
  rw [on_takeUpload]
  exact ⟨u, findUpload_eq_ok.mpr hu⟩

end Store

/-! ## Drafts -/

namespace Mount

/-- The encryption that arguments ask for. The mount's stands in where there is neither a choice nor a
customer key. -/
def askedEncryption (m : Mount) (chosen : Option Encryption) (key : Option CustomerKey) :
    Option Encryption :=
  chosen.or (if key.isSome then none else m.encryption)

/-- The number that an index comes to, in bounds or not. -/
def askedNumber (index : UInt32) : Int32 := Int32.ofNat (index.toNat + 1)

/-- The choice that a part comes to. -/
def askedPart (p : Part) : Request.PartChoice := ⟨askedNumber p.index, p.etag⟩

variable {m : Mount}

theorem askedEncryption_eq {chosen encryption : Option Encryption} {key : Option CustomerKey}
    (h : m.chooseEncryption chosen key = .ok encryption) :
    encryption = m.askedEncryption chosen key ∧ (encryption.isSome && key.isSome) = false := by
  obtain ⟨hasked, rfl | rfl⟩ := chooseEncryption_eq_ok h
  · exact ⟨hasked, Bool.and_false _⟩
  · exact ⟨hasked, rfl⟩

theorem askedNumber_eq {index : UInt32} {number : Int32} (h : numberOfIndex index = .ok number) :
    number = askedNumber index := by
  rw [numberOfIndex] at h
  split at h
  · exact (Except.ok.inj h).symm
  · cases h

theorem map_askedPart {parts : List Part} {choices : List Request.PartChoice}
    (h : chooseParts parts = .ok choices) : choices = parts.map askedPart := by
  have hchosen := chooseParts_eq_ok.mp h
  induction hchosen with
  | nil => rfl
  | @cons p choice parts choices hchoice hrest ih =>
    have hpart : choice = askedPart p := by
      rw [askedPart, ← askedNumber_eq hchoice.1, ← hchoice.2]
    rw [List.map_cons, ← ih (chooseParts_eq_ok.mpr hrest), hpart]

end Mount

/-- The request that the arguments of an operation describe, also where it breaks a rule; of a listing,
the request for the page where it stands. To open a listing is to request nothing. -/
def Operation.draft? (m : Mount) : Operation → Option Request
  | .read path window key => (m.read path window key).request?
  | .stat path target key => (m.stat path target key).request?
  | .write path body size o =>
    some <| .putObject
      { bucket := m.bucket
        key := m.workDir.keyOf path
        body
        contentLength := size
        contentType := o.contentType
        contentMd5 := o.contentMd5
        storageClass := m.chooseStorageClass o.storageClass
        encryption := m.askedEncryption o.encryption o.customerKey
        customerKey := o.customerKey }
  | .delete path target => (m.delete path target).request?
  | .makeDir path => (m.makeDir path).request?
  | .makeLink path target => (m.makeLink path target).request?
  | .createUpload path o =>
    some <| .createUpload
      { bucket := m.bucket
        key := m.workDir.keyOf path
        contentType := o.contentType
        storageClass := m.chooseStorageClass o.storageClass
        encryption := m.askedEncryption o.encryption o.customerKey
        customerKey := o.customerKey }
  | .writePart object index body size contentMd5 key =>
    some <| .uploadPart
      { bucket := m.bucket
        key := object.id
        uploadId := object.uploadId.getD ""
        number := Mount.askedNumber index
        body
        contentLength := size
        contentMd5
        customerKey := key }
  | .completeUpload object parts =>
    some <| .completeUpload
      ⟨m.bucket, object.id, object.uploadId.getD "", parts.map Mount.askedPart⟩
  | .abortUpload object => (m.abortUpload object).request?
  | .list .. | .listParts .. => none
  | .nextObject feed => (m.objectPage feed.position).request?
  | .nextPart feed => (m.partPage feed.position).request?

/-! ## Calls -/

namespace Call

variable {α β : Type}

/-- That a call sends nothing but this draft, and that only if the draft breaks no rule. -/
def Screens (c : Call α) (draft? : Option Request) : Prop :=
  ∀ q ∈ c.request?, draft? = some q ∧ q.flawed = false

namespace Screens

variable {draft? : Option Request}

theorem send {request : Request} {read : request.Reply → Except Error α}
    (h : request.flawed = false) : (Call.send request read).Screens (some request) := by
  rintro q ⟨⟩
  exact ⟨rfl, h⟩

/-- Behind a check it is enough to look at what passes. -/
theorem after {check : Except Error β} {next : β → Call (Except Error α)}
    (h : ∀ b, check = .ok b → (next b).Screens draft?) : (Call.after check next).Screens draft? := by
  cases check with
  | error e =>
    intro q hq
    cases hq
  | ok b => exact h b rfl

/-- A call that can send just requests that break no rule. -/
theorem own {c : Call α} (h : ∀ q ∈ c.request?, q.flawed = false) : c.Screens c.request? :=
  fun q hq => ⟨hq, h q hq⟩

theorem look {c : Call α} (h : ∀ q ∈ c.request?, Store.isLook q = true) : c.Screens c.request? :=
  own fun q hq => Request.flawed_of_isLook (h q hq)

/-- What is in the report of such a call. -/
theorem report {σ : Type} [Backend σ] {c : Call (Except Error α)} (h : c.Screens draft?) (s : σ) :
    ∀ x ∈ (c.report s).exchanges, draft? = some x.request ∧ x.request.flawed = false ∧
      x.answer = (Backend.exchange x.request s).1 := by
  cases c with
  | done a =>
    have hexchanges : ((done a).report s).exchanges = [] := rfl
    intro x hx
    rw [hexchanges] at hx
    cases hx
  | ask request read =>
    have hexchanges : ((ask request read).report s).exchanges =
        [⟨request, (Backend.exchange request s).1⟩] := rfl
    intro x hx
    rw [hexchanges] at hx
    obtain rfl := List.mem_singleton.mp hx
    obtain ⟨hdraft, hflawed⟩ := h request rfl
    exact ⟨hdraft, hflawed, rfl⟩

end Screens

end Call

namespace Mount

variable (m : Mount)

theorem screens_write (path : String) (body : Bytes) (size : UInt64) (o : ObjectChoices) :
    (m.write path body size o).Screens ((Operation.write path body size o).draft? m) := by
  refine .after fun encryption hcheck => ?_
  obtain ⟨rfl, hapart⟩ := askedEncryption_eq (checkWrite_eq_ok hcheck)
  exact .send hapart

theorem screens_createUpload (path : String) (o : UploadChoices) :
    (m.createUpload path o).Screens ((Operation.createUpload path o).draft? m) := by
  refine .after fun encryption hcheck => ?_
  obtain ⟨rfl, hapart⟩ := askedEncryption_eq hcheck
  exact .send hapart

/-- A part that passes the check has a number that the store accepts. -/
theorem screens_writePart (object : Object) (index : UInt32) (body : Bytes) (size : UInt64)
    (contentMd5 : Option String) (key : Option CustomerKey) :
    (m.writePart object index body size contentMd5 key).Screens
      ((Operation.writePart object index body size contentMd5 key).draft? m) := by
  refine .after fun upload hcheck => ?_
  obtain ⟨id, number⟩ := upload
  obtain ⟨hopen, hnumber, -, -⟩ := Store.checkPart_eq_ok hcheck
  have hid : object.uploadId = some id := (Store.openUpload_eq_ok.mp hopen).2
  have hvalid := Store.validNumber_of_numberOfIndex hnumber
  rw [Operation.draft?, hid, ← askedNumber_eq hnumber]
  exact .send (congrArg not hvalid)

/-- Parts that pass the check are chosen in ascending order, one at least. -/
theorem screens_askCompletion (object : Object) (parts : List Part) :
    (m.askCompletion object parts).Screens ((Operation.completeUpload object parts).draft? m) := by
  refine .after fun upload hcheck => ?_
  obtain ⟨id, choices⟩ := upload
  obtain ⟨hopen, hne, hasc, hchoices⟩ := Store.checkCompletion_eq_ok hcheck
  have hid : object.uploadId = some id := (Store.openUpload_eq_ok.mp hopen).2
  have hchosen := chooseParts_eq_ok.mp hchoices
  rw [Operation.draft?, hid, ← map_askedPart hchoices]
  refine .send (Bool.or_eq_false_iff.mpr ⟨?_, ?_⟩)
  · exact List.isEmpty_eq_false_iff.mpr (choices_ne_nil hchosen hne)
  · exact congrArg not (ascending_choices hchosen hasc)

theorem flawed_putEmpty (key : String) (metadata : Table String String) :
    (m.putEmpty key metadata).flawed = false := Bool.and_false _

theorem flawed_abortUpload (object : Object) :
    ∀ q ∈ (m.abortUpload object).request?, q.flawed = false := by
  intro q hq
  rw [abortUpload] at hq
  cases hopen : object.openUpload with
  | error e => rw [hopen] at hq; cases hq
  | ok id => rw [hopen] at hq; cases hq; rfl

end Mount

/-! ## Operations -/

theorem Exchange.fault?_eq_some {x : Exchange} {f : Fault} :
    x.fault? = some f ↔ x.answer = .error f := by
  rw [fault?]
  cases x.answer <;> simp

/-- What was heard of a store is no fault for a broken rule, and none was arranged. -/
structure Overheard.Orderly (t : Overheard Store) : Prop where
  plain : t.state.Plain
  answers : ∀ x ∈ t.exchanges, Lawful x.answer

/-- A request that breaks no rule keeps it so. -/
theorem Overheard.Orderly.run {α : Type} {t : Overheard Store} (h : t.Orderly) {c : Call α}
    (hc : ∀ q ∈ c.request?, q.flawed = false) : (c.run t).2.Orderly := by
  cases c with
  | done a => exact h
  | ask request read =>
    refine ⟨(Store.Keeps.answer t.state request).plain h.plain, fun x hx => ?_⟩
    rcases List.mem_append.mp hx with hx | hx
    · exact h.answers x hx
    · rw [List.mem_singleton.mp hx]
      exact Store.lawful_answer h.plain (hc request rfl)

namespace Operation

/-- Fetching pages keeps it so, however many it takes. -/
theorem orderly_advance {κ ι : Type} {pages : κ → Call (Fetch κ ι)}
    (h : ∀ c, ∀ q ∈ (pages c).request?, Store.isLook q = true) (feed : Feed κ ι) {t : Overheard Store}
    (ht : t.Orderly) : (advance pages feed t).2.Orderly := by
  rw [advance, Listing.next]
  cases hn : feed.next (Listing.source ⟨pages, feed⟩) (Backend.patience t) t with
  | none => exact ht
  | some r =>
    exact Feed.next_induct (P := Overheard.Orderly)
      (fun c u hu => hu.run fun q hq => Request.flawed_of_isLook (h c q hq)) hn ht

/-- **A call** sends its draft or nothing, and the draft just where it breaks no rule. -/
theorem screens (m : Mount) {op : Operation} (h : op.calls = true) {σ : Type} [Backend σ] (s : σ) :
    ∀ x ∈ (op.report m s).exchanges, op.draft? m = some x.request ∧ x.request.flawed = false ∧
      x.answer = (Backend.exchange x.request s).1 := by
  cases op with
  | read path window key => exact (Call.Screens.look m.isLook_read).report s
  | stat path target key => exact (Call.Screens.look m.isLook_stat).report s
  | write path body size o => exact (m.screens_write path body size o).report s
  | delete path target =>
    refine (Call.Screens.own fun q hq => ?_).report s
    cases target <;> cases hq <;> rfl
  | makeDir path =>
    refine (Call.Screens.own fun q hq => ?_).report s
    cases hq
    exact m.flawed_putEmpty _ _
  | makeLink path target =>
    refine (Call.Screens.own fun q hq => ?_).report s
    cases hq
    exact m.flawed_putEmpty _ _
  | createUpload path o => exact (m.screens_createUpload path o).report s
  | writePart object index body size contentMd5 key =>
    exact (m.screens_writePart object index body size contentMd5 key).report s
  | completeUpload object parts =>
    rw [report_completeUpload]
    exact (m.screens_askCompletion object parts).report s
  | abortUpload object => exact (Call.Screens.own (m.flawed_abortUpload object)).report s
  | list path kind => cases h
  | listParts object => cases h
  | nextObject feed => cases h
  | nextPart feed => cases h

/-- Only a call that is going to ask something can have a draft that breaks a rule. -/
theorem calls_of_flawed {m : Mount} {op : Operation} {q : Request} (hq : op.draft? m = some q)
    (h : q.flawed = true) : op.calls = true ∧ op.readsNothing = false := by
  have hlook : Store.isLook q ≠ true := fun hlook => by
    rw [Request.flawed_of_isLook hlook] at h
    cases h
  cases op with
  | read path window key => exact absurd (m.isLook_read q hq) hlook
  | list path kind => cases hq
  | listParts object => cases hq
  | nextObject feed => exact absurd (m.isLook_objectPage feed.position q hq) hlook
  | nextPart feed => exact absurd (m.isLook_partPage feed.position q hq) hlook
  | _ => exact ⟨rfl, rfl⟩

/-- **Where the draft breaks a rule** nothing is sent, and the error is local. -/
theorem refused_of_flawed {m : Mount} {op : Operation} {q : Request} (hq : op.draft? m = some q)
    (h : q.flawed = true) {σ : Type} [Backend σ] (s : σ) :
    (op.report m s).exchanges = [] ∧ ∃ e, (op.report m s).error? = some e ∧ e.isLocal = true := by
  obtain ⟨hcalls, hreads⟩ := calls_of_flawed hq h
  have hsilent : (op.report m s).exchanges = [] := by
    refine List.eq_nil_iff_forall_not_mem.mpr fun x hx => ?_
    obtain ⟨hdraft, hflawed, -⟩ := screens m hcalls s x hx
    cases hq.symm.trans hdraft
    rw [hflawed] at h
    cases h
  refine ⟨hsilent, ?_⟩
  rcases (tells m hcalls s).silent.mp hsilent with he | hidle
  · exact he
  · rw [hreads] at hidle
    cases hidle

/-- No operation is answered with a fault for a broken rule. -/
theorem lawful_report (m : Mount) (op : Operation) {s : Store} (hs : s.Plain) :
    ∀ x ∈ (op.report m s).exchanges, Lawful x.answer := by
  have hstart : Overheard.Orderly ⟨s, []⟩ := ⟨hs, fun x hx => absurd hx List.not_mem_nil⟩
  by_cases hcalls : op.calls = true
  · intro x hx
    obtain ⟨-, hflawed, hanswer⟩ := screens m hcalls s x hx
    rw [hanswer]
    exact Store.lawful_answer hs hflawed
  · cases op with
    | list | listParts =>
      intro x hx
      rw [exchanges_of_opens m rfl s] at hx
      cases hx
    | nextObject feed => exact (orderly_advance m.isLook_objectPage feed hstart).answers
    | nextPart feed => exact (orderly_advance m.isLook_partPage feed hstart).answers
    | _ => exact absurd rfl hcalls

/-- That the checks of a mount cover the rules of a store in an operation. -/
structure Covered (m : Mount) (op : Operation) (s : Store) : Prop where
  /-- No answer is a fault for a broken rule. -/
  lawful : ∀ x ∈ (op.report m s).exchanges, ∀ f, x.answer = .error f → f.code ∉ Fault.ruleCodes
  /-- A call sends nothing but its draft. -/
  drafted : op.calls = true → ∀ x ∈ (op.report m s).exchanges, op.draft? m = some x.request
  /-- Where the draft would be answered with such a fault, nothing is sent, and the error is local. -/
  refused : ∀ q f, op.draft? m = some q → (s.answer q).1 = .error f → f.code ∈ Fault.ruleCodes →
    (op.report m s).exchanges = [] ∧ ∃ e, (op.report m s).error? = some e ∧ e.isLocal = true

end Operation

/-- **The checks of a mount cover the rules of a store**, after any calls on a store to which no such fault
was arranged: no further operation, whatever its arguments, is answered with a fault for a broken rule;
one whose request would be is refused with a local error, and nothing is sent. And where a completion
has passed its checks, the upload is there to be taken. -/
theorem validation_covers_rules {start : Store}
    (hstart : ∀ w ∈ start.faults, w.2.code ∉ Fault.ruleCodes) (cs : List (Mount × Operation)) :
    let s := (Run.calls ⟨start, []⟩ cs).state
    (∀ (m : Mount) (op : Operation), op.Covered m s) ∧
      ∀ b r bodies, Store.chosenBodies s.minPartSize b r = .ok bodies →
        ∃ taken, ((Store.takeUpload r.key r.uploadId).on b).1 = .ok taken := by
  intro s
  have hplain : s.Plain := (Store.Keeps.calls ⟨start, []⟩ cs).plain hstart
  refine ⟨fun m op => ⟨op.lawful_report m hplain, fun hcalls x hx => ?_, fun q f hq hf hcode => ?_⟩,
    fun b r bodies h => Store.exists_takeUpload h⟩
  · exact (Operation.screens m hcalls s x hx).1
  · exact Operation.refused_of_flawed hq (Store.flawed_of_answer hplain hf hcode) s

/-- An upload is opened, and handed in again with no parts, and with parts in the wrong order; a part is
written past the last index, and an object is written with an encryption beside a customer key. -/
theorem validation_covers_rules_forged :
    let m : Mount := ⟨"b", .root, 200, none, some .aes256, by decide⟩
    let start := Store.withBuckets ["b"] (fun n => toString n) 0 false
    let upload := Object.upload "k" "k" "0"
    let key : CustomerKey := ⟨"AES256", List.replicate 32 7, by decide⟩
    let s := (Run.calls ⟨start, []⟩ [(m, .createUpload "k" {})]).state
    let told (op : Operation) : Option String :=
      (op.draft? m).bind fun q => (Exchange.fault? ⟨q, (s.answer q).1⟩).map (·.code)
    let bad : List Operation := [.completeUpload upload [],
      .completeUpload upload [⟨1, 1, "y"⟩, ⟨0, 1, "x"⟩], .writePart upload 10000 [1] 1 none none,
      .write "k" [1] 1 { encryption := some .aes256, customerKey := some key }]
    start.faults = [] ∧
      bad.map told = [some "MalformedXML", some "InvalidPartOrder", some "InvalidArgument",
        some "InvalidArgument"] ∧
      ∀ op ∈ bad, (op.report m s).exchanges = [] ∧
        ∃ e, (op.report m s).error? = some e ∧ e.isLocal = true := by
  intro m start upload key s told bad
  have htold : bad.map told = [some "MalformedXML", some "InvalidPartOrder", some "InvalidArgument",
      some "InvalidArgument"] := by decide +kernel
  have hstart : ∀ w ∈ start.faults, w.2.code ∉ Fault.ruleCodes :=
    fun w hw => absurd hw List.not_mem_nil
  obtain ⟨hcovered, -⟩ := validation_covers_rules hstart [(m, .createUpload "k" {})]
  refine ⟨rfl, htold, fun op hop => ?_⟩
  have hcodes : ∀ code? ∈ bad.map told, ∃ code ∈ Fault.ruleCodes, code? = some code := by
    rw [htold]
    decide
  obtain ⟨code, hrule, hcode⟩ := hcodes _ (List.mem_map_of_mem hop)
  obtain ⟨q, hq, hfault⟩ := Option.bind_eq_some_iff.mp hcode
  obtain ⟨f, hf, rfl⟩ := Option.map_eq_some_iff.mp hfault
  exact (hcovered m op).refused q f hq (Exchange.fault?_eq_some.mp hf) hrule

end ObjectStore
