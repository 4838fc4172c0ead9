import ObjectStore.Proofs.Finished
import ObjectStore.Proofs.Frame
import ObjectStore.Proofs.Listing.Names
import ObjectStore.Proofs.Origins

/-!
# Open uploads

Which uploads are open is told by the calls alone: an upload is open if, of the calls that opened or
closed it, the last one opened it (`OpenIn`). In a run without waiting faults the store has just these
uploads open (`Store.open_calls`), and a listing of uploads shows just them. Whatever object of an
upload a caller holds, the calls on the upload do the same with it (`Object.Alike`): it does not matter
whether the object was got when the upload was opened, from a listing, or by looking at the upload.
-/

namespace ObjectStore

/-! ## What a history tells of open uploads -/

/-- Whether a history tells that an upload is open: of the calls that opened or closed it, the last one
opened it. -/
def OpenIn (bucket : String) (name : UploadName) : List Event → Prop
  | [] => False
  | e :: earlier =>
    e.opened? = some (bucket, name) ∨ ¬ e.Closes bucket name ∧ OpenIn bucket name earlier

namespace Store

variable {m : Mount} {s s' : Store} {bucket : String} {name : UploadName} {op : Operation}
  {a : op.Answer}

/-- A call that leaves everything but the log and the waiting faults has opened no upload. -/
theorem not_opened_of_undisturbed (hreports : s.ReportsUploads) (h : op.perform m s = (a, s'))
    (hs : Undisturbed s s') (hidle : op.succeeded a = true → op.mayIdle = true) :
    (⟨m, op, a⟩ : Event).opened? = none := by
  cases op with
  | createUpload path choices =>
    cases a with
    | ok object => cases hidle rfl
    | error e => exact if_neg (createUpload_error hreports h hs)
  | _ => rfl

/-- An upload that cannot be dropped is not open, or a fault waited. -/
theorem answer_abortUpload_error {r : Request.AbortUpload} {f : Fault}
    (h : s.answer (.abortUpload r) = (.error f, s')) :
    (Request.Kind.abortUpload, f) ∈ s.faults ∨ s.uploadAt? r.bucket ⟨r.key, r.uploadId⟩ = none := by
  cases ht : takeFault? (Request.abortUpload r).kind s.faults with
  | some p =>
    rw [answer_of_some ht] at h
    cases h
    exact .inl (mem_of_takeFault? ht)
  | none =>
    -- Were the upload open, it would be dropped.
    refine .inr (Option.eq_none_iff_forall_ne_some.mpr fun u hu => ?_)
    obtain ⟨b, hb, hget⟩ := Option.bind_eq_some_iff.mp hu
    have hok : (abortUpload r).on (s.record (.abortUpload r)) = (.ok (), _) :=
      abortUpload_ok.mpr ⟨b, u, hb, hget, rfl⟩
    rw [answer_of_none ht] at h
    cases hok.symm.trans h

/-- Where no fault waits, an upload that was to be dropped is not open after that. -/
theorem not_open_of_dropped (hfaults : s.faults = []) (key id : String) :
    ((m.dropUpload key id).run s).2.uploadAt? m.bucket ⟨key, id⟩ = none := by
  rw [Mount.dropUpload, Call.run_map]
  rcases run_send (.abortUpload ⟨m.bucket, key, id⟩) (fun _ => .ok ()) s with
    ⟨f, s', ha, hs, hrun⟩ | ⟨_, s', ha, hrun⟩
  · rw [hrun]
    rcases answer_abortUpload_error ha with hmem | hnone
    · rw [hfaults] at hmem
      cases hmem
    · exact (uploadAt?_congr hs.buckets _ _).trans hnone
  · rw [hrun]
    exact (answer_abortUpload_ok ha).uploadAt?_self rfl

/-- Where no fault waits, an upload that a call closed is not open after it. -/
theorem not_open_of_closes (hfaults : s.faults = []) (h : op.perform m s = (a, s'))
    (hcloses : (⟨m, op, a⟩ : Event).Closes bucket name) : s'.uploadAt? bucket name = none := by
  obtain ⟨hsucceeded, hclosing, rfl, hname⟩ := hcloses
  cases op with
  | completeUpload object parts =>
    rcases perform_cases h with ⟨-, hidle⟩ | ⟨c, hmakes, hs⟩
    · cases hidle hsucceeded
    · cases hmakes with
      | completeUpload hopen hu o completed =>
        have hid := Operation.uploadName?_of_openUpload hopen
        cases hid.symm.trans hname
        exact hs.uploadAt?_self rfl
  | abortUpload object =>
    cases hopen : object.openUpload with
    | error e =>
      have hfails : (⟨m, .abortUpload object, a⟩ : Event).succeeded = false := by
        have hrun : (Operation.abortUpload object).perform m s = (.error e, s) := by
          simp only [Operation.perform, Mount.abortUpload, hopen]
          rfl
        cases hrun.symm.trans h
        rfl
      rw [hfails] at hsucceeded
      cases hsucceeded
    | ok id =>
      have hid := Operation.uploadName?_of_openUpload hopen
      cases hid.symm.trans hname
      have hrun : (Operation.abortUpload object).perform m s =
          (m.dropUpload object.id id).run s := by
        simp only [Operation.perform, Mount.abortUpload, hopen]
        rfl
      have hgone := not_open_of_dropped (m := m) hfaults object.id id
      rw [← hrun, h] at hgone
      exact hgone
  | delete path target =>
    cases target with
    | upload id =>
      cases hname
      have hgone := not_open_of_dropped (m := m) hfaults (m.keyOf path false) id
      have hrun : (m.dropUpload (m.keyOf path false) id).run s = (a, s') := h
      rw [hrun] at hgone
      exact hgone
    | object | dir => cases hclosing
  | _ => cases hclosing

/-- A change of a call that does not close an upload: the upload is open after it if the call opened
it, or if it was open before. -/
theorem open_of_makes {c : Change} (h : Makes m s s' op a c) (hs : Alters s c s')
    (hcloses : ¬ (⟨m, op, a⟩ : Event).Closes bucket name) :
    (s'.uploadAt? bucket name).isSome = true ↔
      (⟨m, op, a⟩ : Event).opened? = some (bucket, name) ∨
        (s.uploadAt? bucket name).isSome = true := by
  have hget := hs.uploadAt? bucket name
  cases h with
  | write o | makeDir o | makeLink o | delete hkey =>
    rw [hget]
    exact (or_iff_right nofun).symm
  | @createUpload path choices u hparts hdrawn =>
    have hopened : (⟨m, .createUpload path choices, _⟩ : Event).opened? = some (bucket, name) ↔
        m.bucket = bucket ∧ (⟨m.keyOf path false, s.nextId⟩ : UploadName) = name :=
      (Eq.congr_left (Event.opened?_createUpload rfl)).trans (by rw [Option.some.injEq, Prod.mk.injEq])
    refine Iff.trans ?_ (or_congr_left hopened).symm
    rw [hget]
    by_cases hname : m.bucket = bucket ∧ (⟨m.keyOf path false, s.nextId⟩ : UploadName) = name
    · simp [hname]
    · simp [hname]
  | @writePart object index body size contentMd5 key id number u hcheck hu now =>
    rw [hget]
    by_cases hname : m.bucket = bucket ∧ (⟨object.id, id⟩ : UploadName) = name
    · obtain ⟨rfl, rfl⟩ := hname
      simp [hu]
    · simp [hname, Event.opened?]
  | @deleteUpload path id =>
    have hother : ¬ (m.bucket = bucket ∧ (⟨m.keyOf path false, id⟩ : UploadName) = name) :=
      fun hname => hcloses ⟨rfl, rfl, hname.1, congrArg some hname.2⟩
    rw [hget]
    simp [hother, Event.opened?]
  | @completeUpload object parts id u hopen hu o completed =>
    have hid := Operation.uploadName?_of_openUpload hopen
    have hother : ¬ (m.bucket = bucket ∧ (⟨object.id, id⟩ : UploadName) = name) :=
      fun hname => hcloses ⟨rfl, rfl, hname.1, hid.trans (congrArg some hname.2)⟩
    rw [hget]
    simp [hother, Event.opened?]
  | @abortUpload object id hopen =>
    have hid := Operation.uploadName?_of_openUpload hopen
    have hother : ¬ (m.bucket = bucket ∧ (⟨object.id, id⟩ : UploadName) = name) :=
      fun hname => hcloses ⟨rfl, rfl, hname.1, hid.trans (congrArg some hname.2)⟩
    rw [hget]
    simp [hother, Event.opened?]

/-- A call that closes an upload opens none. -/
theorem not_opened_of_closes {e : Event} (h : e.Closes bucket name) : e.opened? = none := by
  obtain ⟨m, op, a⟩ := e
  obtain ⟨-, hclosing, -⟩ := h
  cases op <;> first | rfl | cases hclosing

/-- **What a call does to open uploads**, where no fault waits: an upload is open after it if the call
opened it, or if it was open before and the call did not close it. -/
theorem open_perform (hfaults : s.faults = []) (h : op.perform m s = (a, s')) :
    (s'.uploadAt? bucket name).isSome = true ↔
      (⟨m, op, a⟩ : Event).opened? = some (bucket, name) ∨
        ¬ (⟨m, op, a⟩ : Event).Closes bucket name ∧ (s.uploadAt? bucket name).isSome = true := by
  by_cases hcloses : (⟨m, op, a⟩ : Event).Closes bucket name
  · rw [not_open_of_closes hfaults h hcloses, not_opened_of_closes hcloses]
    simp [hcloses]
  rw [and_iff_right hcloses]
  rcases perform_cases h with ⟨hs, hidle⟩ | ⟨c, hmakes, hs⟩
  · have hreports : s.ReportsUploads := fun f hf => by
      rw [hfaults] at hf
      cases hf
    rw [not_opened_of_undisturbed hreports h hs hidle, uploadAt?_congr hs.buckets]
    exact (or_iff_right nofun).symm
  · exact open_of_makes hmakes hs hcloses

/-- **What a run preserves.** Where no fault waits, just those uploads are open that the history of a
run tells, if there were none at its start. -/
theorem open_calls {start : Store} (hfaults : start.faults = [])
    (hnone : ∀ bucket name, start.uploadAt? bucket name = none) (cs : List (Mount × Operation))
    (bucket : String) (name : UploadName) :
    ((Run.calls ⟨start, []⟩ cs).state.uploadAt? bucket name).isSome = true ↔
      OpenIn bucket name (Run.calls ⟨start, []⟩ cs).history := by
  refine (Run.calls_induct (P := fun r : Run Store => r.state.faults = [] ∧
    ((r.state.uploadAt? bucket name).isSome = true ↔ OpenIn bucket name r.history))
    (fun r m op h => ?_) ⟨hfaults, by simp [hnone, OpenIn]⟩ cs).2
  obtain ⟨hquiet, hopen⟩ := h
  rcases hperform : op.perform m r.state with ⟨a, s'⟩
  simp only [Run.call, hperform, OpenIn]
  have hkeeps := Keeps.perform m op r.state
  rw [hperform] at hkeeps
  refine ⟨hkeeps.no_faults hquiet, ?_⟩
  rw [← hopen]
  exact open_perform hquiet hperform

/-- What looking at an upload gives, where no fault waits: an object of it if it is open, and an error
if not. -/
theorem stat_upload (hfaults : s.faults = []) (hb : (s.buckets.get? m.bucket).isSome = true)
    (path id : String) (key : Option CustomerKey) :
    (∃ u, s.uploadAt? m.bucket ⟨m.keyOf path false, id⟩ = some u ∧
        ((m.stat path (.upload id) key).run s).1 = .ok (.upload (m.keyOf path false) path id)) ∨
      ∃ e, s.uploadAt? m.bucket ⟨m.keyOf path false, id⟩ = none ∧
        ((m.stat path (.upload id) key).run s).1 = .error e := by
  let request : Request.ListParts := ⟨m.bucket, m.keyOf path false, id, 1, none⟩
  have hrun : (m.stat path (.upload id) key).run s = (Call.send (.listParts request)
      fun _ => .ok (.upload (m.keyOf path false) path id)).run s := rfl
  rw [hrun]
  cases hu : s.uploadAt? m.bucket ⟨m.keyOf path false, id⟩ with
  | some u =>
    have hnone : takeFault? .listParts s.faults = none := by
      rw [hfaults]
      rfl
    refine .inl ⟨u, rfl, ?_⟩
    have hanswer : s.answer (.listParts request) = _ := answer_listParts_of_open hu hnone
    simp only [Call.send, Call.run, Backend.exchange, hanswer]
  | none =>
    obtain ⟨f, hf, -⟩ := answer_of_none_open (.listParts request) rfl trivial hb hu
    refine .inr ⟨.ofFault f, rfl, ?_⟩
    simp only [Call.send, Call.run, Backend.exchange, hf]

end Store

/-- A call that opened an upload has answered with an object of its path. -/
theorem Run.opened_calls {start : Store} {cs : List (Mount × Operation)} {m : Mount} {path : String}
    {choices : Mount.UploadChoices} {o : Object}
    (h : (⟨m, .createUpload path choices, .ok o⟩ : Event) ∈ (Run.calls ⟨start, []⟩ cs).history) :
    ∃ id, o = .upload (m.keyOf path false) path id := by
  obtain ⟨s, hanswer⟩ := Run.performed_calls h
  have hrun : (.ok o : Except Error Object) = ((m.createUpload path choices).run s).1 := hanswer
  rcases Store.run_createUpload m s path choices with ⟨e, s', hx, -⟩ | ⟨_, s', -, hx, -⟩
  · rw [hx] at hrun
    cases hrun
  · rw [hx] at hrun
    by_cases hid : s.nextId = ""
    · rw [if_pos hid] at hrun
      cases hrun
    · rw [if_neg hid] at hrun
      exact ⟨_, Except.ok.inj hrun⟩

/-! ## Objects of an upload -/

/-- The calls on an upload do the same with two objects: they ask the same, and so have the same result
and leave the same store. -/
structure Object.Alike (o o' : Object) : Prop where
  write : ∀ (m : Mount) index body size contentMd5 key,
    m.writePart o index body size contentMd5 key = m.writePart o' index body size contentMd5 key
  list : ∀ m : Mount, m.listParts o = m.listParts o'
  complete : ∀ (m : Mount) parts (s : Store),
    ((m.completeUpload o parts).run s).1.1 = ((m.completeUpload o' parts).run s).1.1 ∧
      ((m.completeUpload o parts).run s).2 = ((m.completeUpload o' parts).run s).2
  abort : ∀ m : Mount, m.abortUpload o = m.abortUpload o'

/-- Two objects of one upload are alike. -/
theorem Object.IsFor.alike {o o' : Object} {name : UploadName} (h : o.IsFor name)
    (h' : o'.IsFor name) : o.Alike o' := by
  have hid : o.id = o'.id := h.id.trans h'.id.symm
  have hopen : o.openUpload = o'.openUpload := h.openUpload.trans h'.openUpload.symm
  refine ⟨fun m index body size contentMd5 key => ?_, fun m => ?_, fun m parts s => ?_, fun m => ?_⟩
  · have hcheck : Mount.checkPart o index body size = Mount.checkPart o' index body size := by
      simp only [Mount.checkPart, hopen]
    rw [Mount.writePart, Mount.writePart, hcheck, hid]
  · rw [Mount.listParts, Mount.listParts, hopen, hid]
  · have hcheck : Mount.checkCompletion o parts = Mount.checkCompletion o' parts := by
      simp only [Mount.checkCompletion, hopen]
    have hask : m.askCompletion o parts = m.askCompletion o' parts := by
      rw [Mount.askCompletion, Mount.askCompletion, hcheck, hid]
    rw [Mount.fst_run_completeUpload, Mount.fst_run_completeUpload, Mount.completeUpload,
      Mount.completeUpload, Call.run_map, Call.run_map, hask]
    exact ⟨rfl, rfl⟩
  · rw [Mount.abortUpload, Mount.abortUpload, hopen, hid]

/-- An object that carries key and id of an upload, and has the mode of one, is an object of it. -/
theorem Object.IsFor.of_mode {o : Object} {name : UploadName} (hid : o.id = name.key)
    (hmode : o.mode = .part) (hupload : o.uploadId = some name.id) : o.IsFor name :=
  ⟨hid, hmode ▸ (by decide : Mode.part.contains .part = true), hupload⟩

/-! ## Listing open uploads -/

namespace Mount

variable {m : Mount} {s : Store}

/-- A listing of uploads shows each of them once, by key and id. -/
theorem names_uploads (m : Mount) (stem : String) (s : Store) :
    (items (m.uploadEntries stem s)).map (fun o => (o.id, o.uploadId)) =
      (s.uploadNames m.bucket stem).map fun name => (name.key, some name.id) := by
  rw [← marks_uploads, uploadEntries]
  cases s.buckets.get? m.bucket with
  | none => rfl
  | some b =>
    rw [Option.elim_some, items_showing, List.map_filterMap, showing, List.map_map, List.map_map]
    exact List.filterMap_eq_map_iff_forall_eq_some.mpr fun e _ => rfl

/-- What a listing of uploads shows is an object of an upload, under the path of its key. -/
theorem isFor_of_shows {stem : String} {o : Object} (h : m.ShowsUpload stem s o) :
    ∃ name ∈ s.uploadNames m.bucket stem, o.IsFor name ∧ o.mode = .part ∧
      o.path = m.workDir.pathOf o.id := by
  obtain ⟨rest, id, u, hu, rfl⟩ := h
  refine ⟨⟨stem ++ rest, id⟩, Store.mem_uploadNames.mpr ⟨?_, rest, rfl⟩,
    .of_mode rfl rfl rfl, rfl, rfl⟩
  rw [hu]
  rfl

/-- In a store where no fault waits, a listing of uploads fails at once where its first page ends with
an upload to the empty key and has more behind it, and brings just the uploads that are open in any
other case. -/
theorem list_uploads (hquiet : s.faults = []) (hbucket : (s.buckets.get? m.bucket).isSome = true)
    (path : String) :
    let stem := m.workDir.keyOf path
    let names := s.uploadNames m.bucket stem
    let size := m.pageSize.toInt.toNat
    ∃ l, m.list path .part = .ok l ∧
      (EndsWithEmptyKey size (names.map (·.key)) → l.FailsAtOnce s .uploadMarkerMissing) ∧
      (¬ EndsWithEmptyKey size (names.map (·.key)) → ∃ objects requests,
        l.collect s = some (.ok objects, { s with log := s.log ++ requests }) ∧
        objects.map (fun o => (o.id, o.uploadId)) = names.map (fun name => (name.key, some name.id)) ∧
        (∀ o ∈ objects, ∃ name ∈ names, o.IsFor name ∧ o.mode = .part ∧
          o.path = m.workDir.pathOf o.id) ∧
        requests.length = max 1 ((names.length + size - 1) / size) ∧
        ∀ request ∈ requests, request.kind = .listUploads) := by
  intro stem names size
  have hlimit : Store.pageLimit m.pageSize = size := Store.pageLimit_of_pos m.pageSize_mem.1
  have hbroken : (m.uploadPaging stem).BrokenOff s ↔ EndsWithEmptyKey size (names.map (·.key)) := by
    rw [← hlimit]
    exact m.brokenOff_uploads_iff stem s
  obtain ⟨b, hb⟩ := Option.isSome_iff_exists.mp hbucket
  have hnofault : Store.takeFault? .listUploads s.faults = none := by
    rw [hquiet]
    rfl
  have hanswered := answeredBy_uploads (Store.refusal?_eq_none.mpr ⟨hnofault, b, hb⟩) stem
  refine ⟨_, rfl, fun hends => hanswered.failsAtOnce (fun _ _ => rfl) (hbroken.mpr hends),
    fun hother => ?_⟩
  obtain ⟨marks, hcollect, hmarks⟩ := hanswered.collect (fun _ _ => rfl) (mt hbroken.mp hother)
  refine ⟨_, _, hcollect, m.names_uploads stem s, fun o ho => ?_, ?_, fun request hr => ?_⟩
  · obtain ⟨name, hname⟩ := mem_items.mp ho
    exact isFor_of_shows (mem_uploadEntries.mp hname).1
  · have hlength : (m.uploadEntries stem s).length = names.length := by
      rw [← List.length_map (f := (·.1)), marks_uploads]
    have hpages : marks.length = pageCount (Store.pageLimit m.pageSize) names.length :=
      hlength ▸ hmarks
    rw [List.length_map, hpages, hlimit]
    rfl
  · obtain ⟨mark, -, rfl⟩ := List.mem_map.mp hr
    rfl

end Mount

/-- **Open uploads.** In a run where no fault waits, those uploads are open that its history tells. A
listing of uploads fails at once where its first page ends with an upload to the empty key and has more
behind it; in any other case it brings just the open uploads below its path, in the order of key and id,
each once, by one request for each page. Looking at an upload succeeds just where it is open, and then
gives the object that its opening gave under the same path and work directory. Whatever object of an
upload a caller holds, the calls on the upload do the same with it. -/
theorem open_uploads_exact (start : Store) (hfaults : start.faults = [])
    (hnone : ∀ bucket name, start.uploadAt? bucket name = none) (before : List (Mount × Operation))
    (m : Mount) (hb : (start.buckets.get? m.bucket).isSome = true) (path : String) :
    let r := Run.calls ⟨start, []⟩ before
    let stem := m.workDir.keyOf path
    let names := r.state.uploadNames m.bucket stem
    let size := m.pageSize.toInt.toNat
    names.Pairwise (· < ·) ∧
    (∀ name, name ∈ names ↔
      OpenIn m.bucket name r.history ∧ ∃ rest, name.key = stem ++ rest) ∧
    (∃ l, m.list path .part = .ok l ∧
      (EndsWithEmptyKey size (names.map (·.key)) →
        l.FailsAtOnce r.state .uploadMarkerMissing) ∧
      (¬ EndsWithEmptyKey size (names.map (·.key)) → ∃ objects requests,
        l.collect r.state =
          some (.ok objects, { r.state with log := r.state.log ++ requests }) ∧
        objects.map (fun o => (o.id, o.uploadId)) = names.map (fun name => (name.key, some name.id)) ∧
        (∀ o ∈ objects, ∃ name ∈ names, o.IsFor name ∧ o.mode = .part ∧
          o.path = m.workDir.pathOf o.id) ∧
        requests.length = max 1 ((names.length + size - 1) / size) ∧
        ∀ request ∈ requests, request.kind = .listUploads)) ∧
    (∀ id key,
      let answer := ((m.stat path (.upload id) key).run r.state).1
      (answer.isOk = true ↔ OpenIn m.bucket ⟨stem, id⟩ r.history) ∧
      ∀ o, answer = .ok o → o.IsFor ⟨stem, id⟩ ∧
        ∀ (m' : Mount) choices o', m'.workDir = m.workDir → o'.uploadId = some id →
          (⟨m', .createUpload path choices, .ok o'⟩ : Event) ∈ r.history → o = o') ∧
    (∀ (m' : Mount) path' choices o,
      (⟨m', .createUpload path' choices, .ok o⟩ : Event) ∈ r.history →
        ∃ id, o.IsFor ⟨m'.workDir.keyOf path', id⟩) ∧
    ∀ name (o o' : Object), o.IsFor name → o'.IsFor name → o.Alike o' := by
  intro r stem names size
  have hkeeps : Store.Keeps start r.state := Store.Keeps.calls ⟨start, []⟩ before
  have hquiet : r.state.faults = [] := hkeeps.no_faults hfaults
  have hbucket := hkeeps.buckets m.bucket hb
  have hopen := Store.open_calls hfaults hnone before m.bucket
  have hmem (name : UploadName) : name ∈ names ↔
      OpenIn m.bucket name r.history ∧ ∃ rest, name.key = stem ++ rest := by
    rw [← hopen name]
    exact Store.mem_uploadNames
  refine ⟨r.state.ascending_uploadNames m.bucket stem, hmem, m.list_uploads hquiet hbucket path,
    fun id key => ?_, fun m' path' choices o he => ?_, fun name o o' h h' => h.alike h'⟩
  · -- Looking at an upload.
    intro answer
    rw [← hopen]
    rcases Store.stat_upload hquiet hbucket path id key with ⟨u, hu, hrun⟩ | ⟨e, hgone, hrun⟩
    · have hanswer : answer = .ok (.upload stem path id) := hrun
      refine ⟨⟨fun _ => Option.isSome_iff_exists.mpr ⟨u, hu⟩, fun _ => by rw [hanswer]; rfl⟩,
        fun o ho => ?_⟩
      cases hanswer.symm.trans ho
      refine ⟨.of_mode rfl rfl rfl, fun m' choices o' hdir hid he => ?_⟩
      obtain ⟨id', rfl⟩ := Run.opened_calls he
      cases hid
      rw [Mount.keyOf, hdir]
      rfl
    · have hanswer : answer = .error e := hrun
      have hclosed : ¬ (r.state.uploadAt? m.bucket ⟨stem, id⟩).isSome = true := by
        rw [show r.state.uploadAt? m.bucket ⟨stem, id⟩ = none from hgone]
        exact Bool.false_ne_true
      refine ⟨⟨fun hok => ?_, fun h => absurd h hclosed⟩, fun o ho => ?_⟩
      · rw [hanswer] at hok
        cases hok
      · cases hanswer.symm.trans ho
  · obtain ⟨id, rfl⟩ := Run.opened_calls he
    exact ⟨id, .of_mode rfl rfl rfl⟩

/-- Of four uploads, two to one key, one is dropped and one completed. The others are listed by pages of
one, and an object from the listing is as good as the one that the upload was opened with. -/
theorem open_uploads_exact_two_left :
    let m : Mount := ⟨"b", .root, 1, none, none, by decide⟩
    let start := Store.withBuckets ["b"] Store.tally 0 false
    let r := Run.calls ⟨start, []⟩ [(m, .createUpload "k" {}), (m, .createUpload "k" {}),
      (m, .createUpload "a" {}), (m, .createUpload "k/x" {}),
      (m, .writePart (.upload "k" "k" "|") 0 [7] 1 none none),
      (m, .abortUpload (.upload "a" "a" "|||")),
      (m, .completeUpload (.upload "k" "k" "|") [⟨0, 1, Store.bodyEtag [7]⟩])]
    r.state.uploadNames "b" "" = [⟨"k", "||"⟩, ⟨"k/x", "||||"⟩] ∧
      OpenIn "b" ⟨"k", "||"⟩ r.history ∧ ¬ OpenIn "b" ⟨"k", "|"⟩ r.history ∧
      ∃ l objects requests, m.list "" .part = .ok l ∧
        l.collect r.state =
          some (.ok objects, { r.state with log := r.state.log ++ requests }) ∧
        objects.map (fun o => (o.id, o.uploadId)) = [("k", some "||"), ("k/x", some "||||")] ∧
        requests.length = 2 ∧ ∀ o ∈ objects, o.id = "k" → o.Alike (.upload "k" "k" "||") := by
  intro m start r
  obtain ⟨-, hmem, ⟨l, hl, -, hcollect⟩, -, -, halike⟩ := open_uploads_exact start rfl
    (fun bucket name => Store.uploadAt?_withBuckets ..)
    [(m, .createUpload "k" {}), (m, .createUpload "k" {}), (m, .createUpload "a" {}),
      (m, .createUpload "k/x" {}), (m, .writePart (.upload "k" "k" "|") 0 [7] 1 none none),
      (m, .abortUpload (.upload "a" "a" "|||")),
      (m, .completeUpload (.upload "k" "k" "|") [⟨0, 1, Store.bodyEtag [7]⟩])]
    m (by decide +kernel) ""
  have hnames : r.state.uploadNames "b" "" = [⟨"k", "||"⟩, ⟨"k/x", "||||"⟩] := by decide +kernel
  have hopen (name : UploadName) : name ∈ r.state.uploadNames "b" "" ↔
      OpenIn "b" name r.history ∧ ∃ rest, name.key = "" ++ rest := hmem name
  obtain ⟨objects, requests, hobjects, hids, hfor, hcount, -⟩ := hcollect (by decide +kernel)
  have hids' : objects.map (fun o => (o.id, o.uploadId)) =
      (r.state.uploadNames "b" "").map fun name => (name.key, some name.id) := hids
  have hfor' : ∀ o ∈ objects, ∃ name ∈ r.state.uploadNames "b" "", o.IsFor name := fun o ho =>
    (hfor o ho).imp fun name h => ⟨h.1, h.2.1⟩
  have hcount' : requests.length =
      max 1 (((r.state.uploadNames "b" "").length + 1 - 1) / 1) := hcount
  rw [hnames] at hopen hids' hfor' hcount'
  refine ⟨hnames, ((hopen _).mp List.mem_cons_self).1, fun h => ?_, l, objects, requests, hl, hobjects,
    hids', hcount'.trans (by decide), fun o ho hid => ?_⟩
  · have hlisted := (hopen ⟨"k", "|"⟩).mpr ⟨h, "k", rfl⟩
    revert hlisted
    decide
  · obtain ⟨name, hname, hisFor⟩ := hfor' o ho
    have hkey : name.key = "k" := hisFor.id.symm.trans hid
    have hname' : name = ⟨"k", "||"⟩ := by
      rcases List.mem_pair.mp hname with rfl | rfl
      · rfl
      · revert hkey
        decide
    exact halike _ _ _ (hname' ▸ hisFor) (.of_mode rfl rfl rfl)

end ObjectStore
