import ObjectStore.Proofs.Listing.Uploads
import ObjectStore.Proofs.UploadSteps

/-!
# Finished uploads

Once an upload is completed or dropped it is gone for good (`Store.Gone`), and the calls of a client
that still holds an object of it come to nothing: those that need it find it missing, those that drop
it have nothing to do, and none of them touches a bucket (`Mount.FindsGone`). Above all, a late abort
leaves the object that the upload became.
-/

namespace ObjectStore

/-! ## What a call gives -/

/-- A result is the expected one, unless a fault waits for such a request: then it may be the error of
that fault. -/
def Store.Gives {α : Type} (s : Store) (kind : Request.Kind) (expected result : Except Error α) :
    Prop :=
  result = expected ∨ ∃ f, (kind, f) ∈ s.faults ∧ result = .error (.ofFault f)

/-- A call gives what is expected and leaves all buckets. -/
def Call.Finds {α : Type} (c : Call (Except Error α)) (start s : Store) (kind : Request.Kind)
    (expected : Except Error α) : Prop :=
  start.Gives kind expected (c.run s).1 ∧ (c.run s).2.buckets = s.buckets

namespace Store

variable {s : Store}

/-- Where no fault waits, a result is the expected one. -/
theorem Gives.eq {α : Type} {kind : Request.Kind} {expected result : Except Error α}
    (h : s.Gives kind expected result) (hfaults : ∀ f, (kind, f) ∉ s.faults) : result = expected := by
  rcases h with h | ⟨f, hf, -⟩
  · exact h
  · exact absurd hf (hfaults f)

end Store

/-- A call that finds an error finds the same one with another result of a success. -/
theorem Call.Finds.map {α β : Type} {c : Call (Except Error α)} {start s : Store}
    {kind : Request.Kind} {e : Error} (h : c.Finds start s kind (.error e)) (f : α → β) :
    (c.map (·.map f)).Finds start s kind (.error e) := by
  obtain ⟨hgives, hbuckets⟩ := h
  rw [Finds, run_map]
  refine ⟨?_, hbuckets⟩
  rcases hgives with hresult | ⟨fault, hwaits, hresult⟩
  · exact .inl (congrArg (Except.map f) hresult)
  · exact .inr ⟨fault, hwaits, congrArg (Except.map f) hresult⟩

/-! ## Requests about an upload that is not there -/

/-- The upload that has to be open for a request to be fulfilled. -/
def Request.upload? : Request → Option (String × UploadName)
  | .listParts r => some (r.bucket, ⟨r.key, r.uploadId⟩)
  | .uploadPart r => some (r.bucket, ⟨r.key, r.uploadId⟩)
  | .completeUpload r => some (r.bucket, ⟨r.key, r.uploadId⟩)
  | .abortUpload r => some (r.bucket, ⟨r.key, r.uploadId⟩)
  | _ => none

/-- A request to store a part has a number in bounds. -/
def Request.InBounds : Request → Prop
  | .uploadPart r => Store.validNumber r.number = true
  | _ => True

/-- The error that an upload is not there. -/
def Error.uploadNotThere (id : String) : Error := .notFound (.uploadNotThere id)

namespace Store

variable {s : Store} {bucket : String} {name : UploadName}

theorem validNumber_of_numberOfIndex {index : UInt32} {number : Int32}
    (h : Mount.numberOfIndex index = .ok number) : validNumber number = true := by
  have hint := Mount.toInt_numberOfIndex h
  rw [Mount.numberOfIndex] at h
  split at h
  · rename_i hlt
    rw [Mount.partBound] at hlt
    rw [validNumber, hint]
    simp only [Bool.and_eq_true, decide_eq_true_eq]
    omega
  · cases h

/-- An upload that a bucket does not have open is not found there. -/
theorem findUpload_of_none {b : Bucket} (hb : s.buckets.get? bucket = some b)
    (hnone : s.uploadAt? bucket name = none) :
    findUpload b name.key name.id = .error (.uploadNotThere name.id) := by
  rw [uploadAt?_of_bucket hb] at hnone
  rw [findUpload, hnone]

/-- A request about an upload that is not there is not fulfilled. -/
theorem serve_of_none {request : Request} (hrequest : request.upload? = some (bucket, name))
    (hbounds : request.InBounds) {b : Bucket} (hb : s.buckets.get? bucket = some b)
    (hnone : s.uploadAt? bucket name = none) :
    (s.serve request).1 = .error (.uploadNotThere name.id) := by
  have hbucket : s.bucket bucket = .ok b := bucket_eq_ok.mpr hb
  have hfind := findUpload_of_none hb hnone
  cases request with
  | listParts r =>
    cases hrequest
    simp only [serve, hbucket, Except.bind, hfind]
    rfl
  | uploadPart r =>
    cases hrequest
    have hnumber : checkNumber r.number = .ok () := checkNumber_eq_ok.mpr hbounds
    refine (fst_on_uploadPart s r).trans ?_
    simp only [hbucket, hnumber, Except.bind, hfind]
    rfl
  | completeUpload r =>
    cases hrequest
    refine (fst_on_completeUpload s r).trans ?_
    simp only [hbucket, bind, Except.bind, chosenBodies, hfind]
    rfl
  | abortUpload r =>
    cases hrequest
    refine (fst_on_abortUpload s r).trans ?_
    simp only [hbucket, Except.bind, hfind]
    rfl
  | _ => cases hrequest

/-- A request about an upload that is not there is answered with just that, or with a fault that
waits. -/
theorem answer_of_none_open (request : Request)
    (hrequest : request.upload? = some (bucket, name))
    (hbounds : request.InBounds) (hb : (s.buckets.get? bucket).isSome = true)
    (hnone : s.uploadAt? bucket name = none) :
    ∃ f, (s.answer request).1 = .error f ∧
      (f = .uploadNotThere name.id ∨ (request.kind, f) ∈ s.faults) := by
  obtain ⟨b, hb⟩ := Option.isSome_iff_exists.mp hb
  cases ht : takeFault? request.kind s.faults with
  | some p =>
    refine ⟨p.1, ?_, .inr (mem_of_takeFault? ht)⟩
    rw [answer_of_some ht]
  | none =>
    refine ⟨_, ?_, .inl rfl⟩
    rw [answer_of_none ht]
    exact serve_of_none (s := s.record request) hrequest hbounds hb hnone

/-- An upload of a bucket that is not open and cannot be opened. -/
structure Gone (s : Store) (bucket : String) (name : UploadName) : Prop where
  bucketThere : (s.buckets.get? bucket).isSome = true
  absent : s.uploadAt? bucket name = none
  spent : s.Spent name.id

/-- **What a run preserves.** An upload that is gone stays gone. -/
theorem Gone.calls {r : Run Store} (h : r.state.Gone bucket name) (cs : List (Mount × Operation)) :
    (r.calls cs).state.Gone bucket name where
  bucketThere := (Keeps.calls r cs).buckets bucket h.bucketThere
  absent := uploadAt?_calls_of_gone h.spent h.absent cs
  spent := h.spent.keeps (Keeps.calls r cs)

/-- An open upload is in a bucket that is there. -/
theorem bucket_of_open (h : (s.uploadAt? bucket name).isSome = true) :
    (s.buckets.get? bucket).isSome = true := by
  obtain ⟨u, hu⟩ := Option.isSome_iff_exists.mp h
  obtain ⟨b, hb, -⟩ := Option.bind_eq_some_iff.mp hu
  exact Option.isSome_iff_exists.mpr ⟨b, hb⟩

/-- An upload that a call closes is gone, where ids are fresh. -/
theorem FreshIds.gone_call {r : Run Store} {m : Mount} {op : Operation} (h : r.state.FreshIds)
    (hopen : (r.state.uploadAt? bucket name).isSome = true)
    (hclosed : (r.call m op).state.uploadAt? bucket name = none) :
    (r.call m op).state.Gone bucket name where
  bucketThere := (Keeps.perform m op r.state).buckets bucket (bucket_of_open hopen)
  absent := hclosed
  spent := (h.spent hopen).keeps (Keeps.perform m op r.state)

end Store

/-! ## Calls on an upload that is gone -/

/-- An object of an upload: it has the key and the id, and is marked as a part. It may be a copy that
was made long ago. -/
structure Object.IsFor (o : Object) (name : UploadName) : Prop where
  id : o.id = name.key
  isPart : o.mode.contains .part = true
  uploadId : o.uploadId = some name.id

theorem Object.IsFor.openUpload {o : Object} {name : UploadName} (h : o.IsFor name) :
    o.openUpload = .ok name.id := by
  rw [Object.openUpload, if_pos h.isPart, Object.getUploadId, h.uploadId]

namespace Mount

/-- The parts of an upload, listed through an object of it. -/
theorem listParts_of_isFor {m : Mount} {object : Object} {name : UploadName} (h : object.IsFor name) :
    m.listParts object = .ok (.start m.partPage (m.partPlace name.key name.id none)) := by
  rw [listParts, h.openUpload, h.id]
  rfl

/-- A fault in place of a page of parts is what the page tells. -/
theorem partPage_of_fault {m : Mount} {key id : String} {mark : Option Int32} {s : Store} {f : Fault}
    (h : (s.answer (.listParts ⟨m.bucket, key, id, m.pageSize, mark⟩)).1 = .error f) :
    ((m.partPage (m.partPlace key id mark)).run s).1.page.outcome = .error (.ofFault f) := by
  simp only [partPage, partPlace, Call.run, Backend.exchange, h]
  rfl

end Mount

/-- What callers meet who go on with an upload that is gone: what needs the upload finds it missing,
what drops it has nothing to do, and no bucket is changed. A fault that waited from the start may come
in between. -/
structure Mount.FindsGone (m : Mount) (start s : Store) (name : UploadName) : Prop where
  write : ∀ object index body size contentMd5 key, object.IsFor name →
    (checkPart object index body size).isOk = true →
      (m.writePart object index body size contentMd5 key).Finds start s .uploadPart
        (.error (.uploadNotThere name.id))
  complete : ∀ object parts, object.IsFor name → (checkCompletion object parts).isOk = true →
    ((m.completeUpload object parts).map (·.1)).Finds start s .completeUpload
      (.error (.uploadNotThere name.id))
  list : ∀ object, object.IsFor name → ∃ l result l' s', m.listParts object = .ok l ∧
    l.next s = some (result, l', s') ∧
      start.Gives .listParts (.error (.uploadNotThere name.id)) result ∧ s'.buckets = s.buckets
  stat : ∀ path key, m.keyOf path false = name.key →
    (m.stat path (.upload name.id) key).Finds start s .listParts (.error (.uploadNotThere name.id))
  abort : ∀ object, object.IsFor name → (m.abortUpload object).Finds start s .abortUpload (.ok ())
  delete : ∀ path, m.keyOf path false = name.key →
    (m.delete path (.upload name.id)).Finds start s .abortUpload (.ok ())

section

variable {start s : Store} {m : Mount} {name : UploadName}

/-- Sending a request about an upload that is gone. -/
theorem Store.Gone.send_finds {α : Type} {request : Request}
    {read : request.Reply → Except Error α} (h : s.Gone m.bucket name)
    (hfaults : ∀ f ∈ s.faults, f ∈ start.faults)
    (hrequest : request.upload? = some (m.bucket, name)) (hbounds : request.InBounds) :
    (Call.send request read).Finds start s request.kind (.error (.uploadNotThere name.id)) := by
  obtain ⟨f, hf, hwhy⟩ := answer_of_none_open request hrequest hbounds h.bucketThere h.absent
  have hresult : ((Call.send request read).run s).1 = .error (.ofFault f) := by
    simp only [Call.send, Call.run, Backend.exchange, hf]
  refine ⟨?_, (undisturbed_answer (.inr ⟨f, hf⟩)).buckets⟩
  rcases hwhy with rfl | hwaits
  · exact .inl hresult
  · exact .inr ⟨f, hfaults _ hwaits, hresult⟩

/-- Dropping an upload that is gone. -/
theorem Store.Gone.drop_finds (h : s.Gone m.bucket name)
    (hfaults : ∀ f ∈ s.faults, f ∈ start.faults) :
    (m.dropUpload name.key name.id).Finds start s .abortUpload (.ok ()) := by
  have hfinds : (Call.send (.abortUpload ⟨m.bucket, name.key, name.id⟩) fun _ => .ok ()).Finds start s
      .abortUpload (.error (.uploadNotThere name.id)) := h.send_finds hfaults rfl trivial
  obtain ⟨hgives, hbuckets⟩ := hfinds
  rw [Call.Finds, Mount.dropUpload, Call.run_map]
  refine ⟨?_, hbuckets⟩
  rcases hgives with hmissing | ⟨f, hf, hfault⟩
  · exact .inl (congrArg ignoreMissing hmissing)
  · -- A fault that waits may itself say that the upload is missing.
    by_cases hmissing : (Error.ofFault f).isMissing = true
    · refine .inl ?_
      rw [hfault]
      exact if_pos hmissing
    · refine .inr ⟨f, hf, ?_⟩
      rw [hfault]
      exact if_neg hmissing

/-- Callers who go on with an upload that is gone. -/
theorem Store.Gone.finds (h : s.Gone m.bucket name) (hfaults : ∀ f ∈ s.faults, f ∈ start.faults) :
    m.FindsGone start s name where
  write object index body size contentMd5 key hobject hcheck := by
    obtain ⟨⟨id, number⟩, hc⟩ := isOk_iff.mp hcheck
    obtain ⟨hopen, hnumber, -⟩ := checkPart_eq_ok hc
    obtain rfl : name.id = id := Except.ok.inj (hobject.openUpload.symm.trans hopen)
    rw [Mount.writePart, hc]
    refine h.send_finds hfaults ?_ (validNumber_of_numberOfIndex hnumber)
    rw [hobject.id]
    rfl
  complete object parts hobject hcheck := by
    obtain ⟨⟨id, choices⟩, hc⟩ := isOk_iff.mp hcheck
    obtain rfl : name.id = id :=
      Except.ok.inj (hobject.openUpload.symm.trans (checkCompletion_eq_ok hc).1)
    have hask : (m.askCompletion object parts).Finds start s .completeUpload
        (.error (.uploadNotThere name.id)) := by
      rw [Mount.askCompletion, hc]
      refine h.send_finds hfaults ?_ trivial
      rw [hobject.id]
      rfl
    rw [Mount.map_fst_completeUpload]
    exact hask.map _
  list object hobject := by
    obtain ⟨f, hf, hwhy⟩ := answer_of_none_open
      (.listParts ⟨m.bucket, name.key, name.id, m.pageSize, none⟩) rfl trivial h.bucketThere h.absent
    obtain ⟨l', s', hnext, -⟩ := Listing.next_start_error (Mount.partPage_of_fault hf)
    refine ⟨_, .error (.ofFault f), l', s', Mount.listParts_of_isFor hobject, hnext, ?_, ?_⟩
    · rcases hwhy with rfl | hwaits
      · exact .inl rfl
      · exact .inr ⟨f, hfaults _ hwaits, rfl⟩
    · have hs : Undisturbed s ((Operation.nextPart (Listing.start m.partPage
          (m.partPlace name.key name.id none)).feed).perform m s).2 := undisturbed_perform rfl
      rw [Operation.perform, Operation.advance] at hs
      rw [Listing.start] at hnext hs
      rw [hnext] at hs
      exact hs.buckets
  stat path key hkey := by
    have hstat : m.stat path (.upload name.id) key =
        .send (.listParts ⟨m.bucket, m.keyOf path false, name.id, 1, none⟩) fun _ =>
          .ok (.upload (m.keyOf path false) path name.id) := rfl
    rw [hstat, hkey]
    exact h.send_finds hfaults rfl trivial
  abort object hobject := by
    have habort : m.abortUpload object = m.dropUpload name.key name.id := by
      rw [Mount.abortUpload, hobject.openUpload, hobject.id]
      rfl
    rw [habort]
    exact h.drop_finds hfaults
  delete path hkey := by
    have hdelete : m.delete path (.upload name.id) = m.dropUpload (m.keyOf path false) name.id := rfl
    rw [hdelete, hkey]
    exact h.drop_finds hfaults

end

/-- **A finished upload stays finished.** Before it is finished, calls on other uploads leave it with
all its parts. Where ids are fresh, an upload that a call closes is not open after any further calls;
and whoever holds an object of it, through any mount of the bucket, finds it gone. -/
theorem finished_upload (start : Store) (hids : start.FreshIds) (before : List (Mount × Operation))
    (bucket : String) (name : UploadName)
    (hopen : ((Run.calls ⟨start, []⟩ before).state.uploadAt? bucket name).isSome = true) :
    let r := Run.calls ⟨start, []⟩ before
    (∀ m op, ¬ (m.bucket = bucket ∧ op.uploadName? m = some name) →
      (r.call m op).state.uploadAt? bucket name = r.state.uploadAt? bucket name) ∧
      ∀ m op after, (r.call m op).state.uploadAt? bucket name = none →
        let s := ((r.call m op).calls after).state
        s.uploadAt? bucket name = none ∧
          ∀ n : Mount, n.bucket = bucket → n.FindsGone start s name := by
  intro r
  have hfresh : r.state.FreshIds := hids.calls before
  refine ⟨fun m op hother => ?_, fun m op after hclosed => ?_⟩
  · exact (UploadStep.of_perform m op r.state bucket name).uploadAt?_of_other (hfresh.spent hopen)
      hother
  · have hgone := (hfresh.gone_call hopen hclosed).calls after
    refine ⟨hgone.absent, ?_⟩
    rintro n rfl
    refine hgone.finds fun f hf => ?_
    have hbefore := Store.Keeps.calls ⟨start, []⟩ before
    have hcall := Store.Keeps.perform m op r.state
    have hafter := Store.Keeps.calls (r.call m op) after
    exact hbefore.faults f (hcall.faults f (hafter.faults f hf))

/-- A part comes too late for an upload that is completed, and so does an abort: the object stays. -/
theorem finished_upload_late_calls :
    let m : Mount := ⟨"b", .root, 200, none, none, by decide⟩
    let upload := Object.upload "k" "k" "|"
    let start := Store.withBuckets ["b"] Store.tally 0 false
    let r := Run.calls ⟨start, []⟩ [(m, .createUpload "k" {}), (m, .writePart upload 0 [1] 1 none none)]
    let completion := Operation.completeUpload upload [⟨0, 1, Store.bodyEtag [1]⟩]
    let s := ((r.call m completion).calls [(m, .createUpload "k" {}), (m, .write "l" [2] 1 {})]).state
    start.FreshIds ∧ (r.state.uploadAt? "b" ⟨"k", "|"⟩).isSome = true ∧
      (r.call m completion).state.uploadAt? "b" ⟨"k", "|"⟩ = none ∧
      ((m.writePart upload 0 [3] 1 none none).run s).1 = .error (.uploadNotThere "|") ∧
      ((m.abortUpload upload).run s).1 = .ok () ∧
      ((m.abortUpload upload).run s).2.bodyAt? "b" "k" = some [1] := by
  intro m upload start r completion s
  have hids : start.FreshIds := .withBuckets ["b"] 0 false Store.tally_injective
  have hopen : (r.state.uploadAt? "b" ⟨"k", "|"⟩).isSome = true := by decide +kernel
  have hclosed : (r.call m completion).state.uploadAt? "b" ⟨"k", "|"⟩ = none :=
    Option.isNone_iff_eq_none.mp (by decide +kernel)
  have hfinds := ((finished_upload start hids _ "b" ⟨"k", "|"⟩ hopen).2 m completion
    [(m, .createUpload "k" {}), (m, .write "l" [2] 1 {})] hclosed).2 m rfl
  have hobject : upload.IsFor ⟨"k", "|"⟩ := ⟨rfl, by decide, rfl⟩
  have hnone : ∀ (kind : Request.Kind) (f : Fault), (kind, f) ∉ start.faults := fun _ _ => nofun
  have habort := hfinds.abort upload hobject
  refine ⟨hids, hopen, hclosed, ?_, habort.1.eq (hnone _), ?_⟩
  · exact (hfinds.write upload 0 [3] 1 none none hobject (by decide +kernel)).1.eq (hnone _)
  · rw [Store.bodyAt?_eq, Store.objectAt?_congr habort.2, ← Store.bodyAt?_eq]
    decide +kernel

end ObjectStore
