import ObjectStore.Proofs.Completion
import ObjectStore.Proofs.PartList

/-!
# The order of writes to parts

Whether a write to a part is carried out depends on the call and on the lock of the upload, and on
nothing else, as long as no fault waits. So what a part holds after a run is told by the writes to its
own place, in their order (`partAfter`); how the writes to different places are mixed, and what is
called in between, makes no difference. Two runs with the same writes to each place leave uploads that
are listed alike and completed alike (`Upload.SameParts.finds`).
-/

namespace ObjectStore

/-! ## What a write puts into a part -/

/-- The place of the part that an operation is to write. -/
def Operation.partPlace? (m : Mount) : Operation → Option PartPlace
  | .writePart object index .. => object.uploadId.map fun id => ⟨m.bucket, object.id, id, index⟩
  | _ => none

/-- Whether a call is to write the part of a place. -/
def writesTo (place : PartPlace) (c : Mount × Operation) : Bool :=
  decide (c.2.partPlace? c.1 = some place)

/-- What a call puts into the part of a place, where the upload has this lock and no fault waits: the
body of a write that passes all checks. -/
def Operation.puts? (m : Mount) (lock : Option KeyStamp) (place : PartPlace) :
    Operation → Option Bytes
  | .writePart object index body size contentMd5 key =>
    if (Operation.writePart object index body size contentMd5 key).partPlace? m = some place ∧
        (Mount.checkPart object index body size).isOk = true ∧
        (Store.checkLock lock key).isOk = true ∧
        (Store.checkDigest contentMd5 body).isOk = true then some body
    else none
  | _ => none

/-- What is kept of a part, but for the time. -/
def KeptPart.content (kept : KeptPart) : Bytes × String := (kept.body, kept.etag)

/-- What a part holds after calls, from what it held before them. -/
def partAfter (lock : Option KeyStamp) (place : PartPlace) (held : Option (Bytes × String))
    (cs : List (Mount × Operation)) : Option (Bytes × String) :=
  cs.foldl
    (fun held c => ((c.2.puts? c.1 lock place).map fun body => (body, Store.bodyEtag body)).or held)
    held

/-- Only the writes to its own place matter to a part. -/
theorem partAfter_filter (lock : Option KeyStamp) (place : PartPlace)
    (held : Option (Bytes × String)) (cs : List (Mount × Operation)) :
    partAfter lock place held (cs.filter (writesTo place)) = partAfter lock place held cs := by
  rw [partAfter, List.foldl_filter, partAfter]
  congr 1
  funext held c
  obtain ⟨m, op⟩ := c
  by_cases hplace : writesTo place (m, op) = true
  · rw [if_pos hplace]
  · have hputs : op.puts? m lock place = none := by
      cases op with
      | writePart object index body size contentMd5 key =>
        exact if_neg fun h => hplace (decide_eq_true h.1)
      | _ => rfl
    rw [if_neg hplace, hputs]
    rfl

namespace Store

variable {m : Mount} {s : Store} {bucket : String} {name : UploadName} {u : Upload}

theorem unit_isOk {ε : Type} {x : Except ε Unit} : x.isOk = true ↔ x = .ok () :=
  isOk_iff.trans ⟨fun ⟨_, h⟩ => h, fun h => ⟨(), h⟩⟩

/-- A part is stored just where no fault waits and all checks pass. -/
theorem answer_uploadPart_isOk {r : Request.UploadPart} :
    (∃ reply s', s.answer (.uploadPart r) = (.ok reply, s')) ↔
      takeFault? .uploadPart s.faults = none ∧ validNumber r.number = true ∧
        ∃ u, s.uploadAt? r.bucket ⟨r.key, r.uploadId⟩ = some u ∧
          checkLock u.lock r.customerKey = .ok () ∧ checkDigest r.contentMd5 r.body = .ok () := by
  constructor
  · rintro ⟨reply, s', hanswer⟩
    obtain ⟨hnone, hserve⟩ := answer_eq_ok hanswer
    obtain ⟨b, u, hb, hvalid, hu, hlock, hdigest, -⟩ := uploadPart_ok.mp hserve
    exact ⟨hnone, hvalid, u, (uploadAt?_of_bucket hb _).trans hu, hlock, hdigest⟩
  · rintro ⟨hnone, hvalid, u, hu, hlock, hdigest⟩
    obtain ⟨b, hb, hget⟩ := Option.bind_eq_some_iff.mp hu
    have hserve := (uploadPart_ok (s := s.record (.uploadPart r)) (r := r)).mpr
      ⟨b, u, hb, hvalid, hget, hlock, hdigest, rfl, rfl⟩
    have hanswer : s.answer (.uploadPart r) = (s.record (.uploadPart r)).serve (.uploadPart r) :=
      answer_of_none hnone
    exact ⟨_, _, hanswer.trans hserve⟩

/-- **When a write of a part succeeds.** -/
theorem writePart_isOk {object : Object} {index : UInt32} {body : Bytes} {size : UInt64}
    {contentMd5 : Option String} {key : Option CustomerKey} :
    ((m.writePart object index body size contentMd5 key).run s).1.isOk = true ↔
      takeFault? .uploadPart s.faults = none ∧
        ∃ id number u, Mount.checkPart object index body size = .ok (id, number) ∧
          s.uploadAt? m.bucket ⟨object.id, id⟩ = some u ∧ checkLock u.lock key = .ok () ∧
          checkDigest contentMd5 body = .ok () := by
  rw [Mount.writePart]
  cases hcheck : Mount.checkPart object index body size with
  | error e =>
    refine ⟨(fun h => by cases h), fun h => ?_⟩
    obtain ⟨-, id, number, u, h, -⟩ := h
    cases h
  | ok upload =>
    obtain ⟨id, number⟩ := upload
    have hvalid := validNumber_of_numberOfIndex (checkPart_eq_ok hcheck).2.1
    have hiff := answer_uploadPart_isOk (s := s)
      (r := m.partRequest object.id id number body size contentMd5 key)
    constructor
    · intro hok
      rcases hanswer : s.answer (.uploadPart
        (m.partRequest object.id id number body size contentMd5 key)) with ⟨f | reply, s'⟩
      · simp only [Mount.partRequest] at hanswer
        simp only [Call.after, Call.send, Call.run, Backend.exchange, hanswer] at hok
        cases hok
      · obtain ⟨hnone, -, u, hu, hlock, hdigest⟩ := hiff.mp ⟨reply, s', hanswer⟩
        exact ⟨hnone, id, number, u, rfl, hu, hlock, hdigest⟩
    · rintro ⟨hnone, id', number', u, h, hu, hlock, hdigest⟩
      cases h
      obtain ⟨reply, s', hanswer⟩ := hiff.mpr ⟨hnone, hvalid, u, hu, hlock, hdigest⟩
      obtain ⟨rfl, -⟩ := answer_uploadPart_ok hanswer
      simp only [Mount.partRequest] at hanswer
      simp only [Call.after, Call.send, Call.run, Backend.exchange, hanswer]
      rfl

end Store

/-! ## What a run puts into the parts -/

section

variable {s s' : Store} {bucket : String} {name : UploadName} {u : Upload} {m : Mount}

/-- A call that puts something into a part of an open upload writes it. -/
theorem writes_of_puts {op : Operation} {index : UInt32} {body : Bytes}
    (hu : s.uploadAt? bucket name = some u) (hnone : Store.takeFault? .uploadPart s.faults = none)
    (hputs : op.puts? m u.lock (name.place bucket index) = some body) :
    Event.Writes ⟨m, op, (op.perform m s).1⟩ bucket name := by
  cases op with
  | writePart object written body' size contentMd5 key =>
    rw [Operation.puts?] at hputs
    split at hputs
    · rename_i h
      obtain ⟨hplace, hcheck, hlock, hdigest⟩ := h
      obtain ⟨⟨id, number⟩, hcheck⟩ := isOk_iff.mp hcheck
      have hid := Store.uploadId_of_openUpload (Store.checkPart_eq_ok hcheck).1
      rw [Operation.partPlace?, hid] at hplace
      obtain ⟨hbucket, hkey, hid', -⟩ := PartPlace.mk.inj (Option.some.inj hplace)
      have hname : (⟨object.id, id⟩ : UploadName) = name := by rw [hkey, hid']
      refine ⟨Store.writePart_isOk.mpr ⟨hnone, id, number, u, hcheck, ?_,
        Store.unit_isOk.mp hlock, Store.unit_isOk.mp hdigest⟩, rfl, hbucket, ?_⟩
      · rw [hbucket, hname]
        exact hu
      · rw [Operation.uploadName?, hid, ← hname]
        rfl
    · cases hputs
  | _ => cases hputs

/-- **What a call puts into the parts** of an upload that it does not close. -/
theorem content_perform (op : Operation) (hu : s.uploadAt? bucket name = some u)
    (hnumbered : u.Numbered) (hspent : s.Spent name.id)
    (hnone : Store.takeFault? .uploadPart s.faults = none)
    (hcloses : ¬ Event.Closes ⟨m, op, (op.perform m s).1⟩ bucket name) :
    ∃ u', (op.perform m s).2.uploadAt? bucket name = some u' ∧ u'.Numbered ∧ u'.lock = u.lock ∧
      ∀ index, (u'.part? index).map KeptPart.content =
        partAfter u.lock (name.place bucket index) ((u.part? index).map KeptPart.content)
          [(m, op)] := by
  have hstep := UploadStep.of_perform m op s bucket name
  have hputs : ∀ index body, op.puts? m u.lock (name.place bucket index) = some body →
      Event.Writes ⟨m, op, (op.perform m s).1⟩ bucket name :=
    fun index body => writes_of_puts hu hnone
  rcases hperform : op.perform m s with ⟨answer, s'⟩
  rw [hperform] at hstep hcloses hputs
  cases hstep with
  | kept hidle hsame =>
    refine ⟨u, hsame.trans hu, hnumbered, rfl, fun index => ?_⟩
    cases h : op.puts? m u.lock (name.place bucket index) with
    | none =>
      rw [partAfter, List.foldl_cons, h]
      rfl
    | some body => exact absurd (hputs index body h) hidle
  | opened hidle hid => exact absurd hid (hspent s.drawn (Nat.le_refl _))
  | closed hidle hclosed => exact absurd hclosed hcloses
  | @written m' object written body size contentMd5 key he hbucket hkey number hcheck u' hu' now hnew =>
    cases hu'.symm.trans hu
    cases he
    obtain ⟨hopen, hnumber, -⟩ := Store.checkPart_eq_ok hcheck
    have hid := Store.uploadId_of_openUpload hopen
    -- The call was a success, so all its checks pass.
    have hok : ((m.writePart object written body size contentMd5 key).run s).1.isOk = true :=
      congrArg (fun r => Except.isOk r.1) hperform
    obtain ⟨-, id', number', u', hcheck', hu', hlock, hdigest⟩ := Store.writePart_isOk.mp hok
    cases hcheck.symm.trans hcheck'
    have hsame : s.uploadAt? bucket name = some u' := by
      rw [← hbucket, ← hu', hkey]
    cases hu.symm.trans hsame
    refine ⟨_, hnew, hnumbered.insert hnumber _, rfl, fun index => ?_⟩
    have hplace : (Operation.writePart object written body size contentMd5 key).partPlace? m =
        some (name.place bucket written) := by
      rw [Operation.partPlace?, hid, hbucket, hkey]
      rfl
    rw [Upload.part?_insert hnumber, partAfter, List.foldl_cons, List.foldl_nil, Operation.puts?,
      hplace]
    by_cases hindex : written = index
    · subst hindex
      rw [if_pos rfl, if_pos ⟨rfl, isOk_iff.mpr ⟨_, hcheck⟩, Store.unit_isOk.mpr hlock,
        Store.unit_isOk.mpr hdigest⟩]
      rfl
    · have hother : ¬ some (name.place bucket written) = some (name.place bucket index) :=
        fun h => hindex (congrArg PartPlace.index (Option.some.inj h))
      rw [if_neg hindex, if_neg fun h => hother h.1]
      rfl

end

/-- A run goes on with its history. -/
theorem Run.mem_history_calls {r : Run Store} {e : Event} (h : e ∈ r.history)
    (cs : List (Mount × Operation)) : e ∈ (r.calls cs).history :=
  Run.calls_induct (P := fun r : Run Store => e ∈ r.history)
    (fun _ _ _ h => List.mem_cons_of_mem _ h) h cs

/-- Calls that are not to close an upload close none. -/
theorem Run.not_closes_of_calls {r : Run Store} {bucket : String} {name : UploadName}
    (h : ∀ e ∈ r.history, ¬ e.Closes bucket name) {cs : List (Mount × Operation)}
    (hcs : ∀ c ∈ cs, c.2.isClosing = false) :
    ∀ e ∈ (r.calls cs).history, ¬ e.Closes bucket name := by
  induction cs generalizing r with
  | nil => exact h
  | cons c cs ih =>
    obtain ⟨hfirst, hrest⟩ := List.forall_mem_cons.mp hcs
    refine ih (r := r.call c.1 c.2) (List.forall_mem_cons.mpr ⟨fun hcloses => ?_, h⟩) hrest
    have hclosing : c.2.isClosing = true := hcloses.2.1
    rw [hfirst] at hclosing
    cases hclosing

/-- **What a run puts into the parts** of an upload that it does not close, where no fault waits for a
part. -/
theorem content_calls {r : Run Store} {bucket : String} {name : UploadName} {u : Upload}
    {cs : List (Mount × Operation)} (hu : r.state.uploadAt? bucket name = some u)
    (hnumbered : u.Numbered) (hspent : r.state.Spent name.id)
    (hfaults : ∀ f, (Request.Kind.uploadPart, f) ∉ r.state.faults)
    (hcloses : ∀ e ∈ (r.calls cs).history, ¬ e.Closes bucket name) :
    ∃ u', (r.calls cs).state.uploadAt? bucket name = some u' ∧ u'.Numbered ∧
      ∀ index, (u'.part? index).map KeptPart.content =
        partAfter u.lock (name.place bucket index) ((u.part? index).map KeptPart.content) cs := by
  induction cs generalizing r u with
  | nil => exact ⟨u, hu, hnumbered, fun _ => rfl⟩
  | cons c cs ih =>
    obtain ⟨m, op⟩ := c
    have hkeeps := Store.Keeps.perform m op r.state
    have hfirst : ¬ Event.Closes ⟨m, op, (op.perform m r.state).1⟩ bucket name :=
      hcloses _ (Run.mem_history_calls (r := r.call m op) List.mem_cons_self cs)
    obtain ⟨u₁, hu₁, hnumbered₁, hlock, hcontent⟩ :=
      content_perform op hu hnumbered hspent (Store.takeFault?_eq_none hfaults) hfirst
    obtain ⟨u', hu', hnumbered', hcontent'⟩ := ih (r := r.call m op) hu₁ hnumbered₁
      (hspent.keeps hkeeps) (fun f hf => hfaults f (hkeeps.faults _ hf)) hcloses
    refine ⟨u', hu', hnumbered', fun index => ?_⟩
    rw [hcontent', hcontent, hlock]
    rfl

/-! ## Uploads with the same parts -/

/-- Two uploads have the same parts, but for the times. -/
def Upload.SameParts (u u' : Upload) : Prop :=
  ∀ index, (u.part? index).map KeptPart.content = (u'.part? index).map KeptPart.content

section

variable {u u' : Upload}

/-- Uploads with the same parts are listed alike. -/
theorem Upload.SameParts.listed (h : u.SameParts u') : u.listed = u'.listed := by
  have hview : ∀ (u : Upload) index, (u.part? index).map (fun kept => kept.listed index) =
      ((u.part? index).map KeptPart.content).map fun c => ⟨index, UInt64.ofNat c.1.length, c.2⟩ := by
    intro u index
    rw [Option.map_map]
    rfl
  refine eq_of_ascending (f := fun p => p.index.toNat) ?_ ?_ fun p => ?_
  · exact u.ascending_listed.imp fun hlt => UInt32.lt_iff_toNat_lt.mp hlt
  · exact u'.ascending_listed.imp fun hlt => UInt32.lt_iff_toNat_lt.mp hlt
  · rw [mem_listed, mem_listed, hview, hview, h p.index]

/-- From uploads with the same parts the same bodies are gathered. -/
theorem Upload.SameParts.gather (h : u.SameParts u') (leastSize : UInt64) {parts : List Part}
    {choices : List Request.PartChoice} (hchosen : List.Forall₂ Mount.Chooses parts choices) :
    Store.gather leastSize u.parts choices = Store.gather leastSize u'.parts choices := by
  induction hchosen with
  | nil => rfl
  | @cons p choice parts choices hchoice hrest ih =>
    have hsame := h p.index
    rw [Store.gather, Store.gather, ← part?_of_number hchoice.1, ← part?_of_number hchoice.1, ih]
    cases hpart : u.part? p.index with
    | none =>
      rw [hpart] at hsame
      rw [Option.map_eq_none_iff.mp hsame.symm]
    | some kept =>
      rw [hpart] at hsame
      obtain ⟨kept', hkept', hcontent⟩ := Option.map_eq_some_iff.mp hsame.symm
      obtain ⟨hbody, hetag⟩ := Prod.mk.inj hcontent
      have hbody' : kept'.body = kept.body := hbody
      have hetag' : kept'.etag = kept.etag := hetag
      rw [hkept', Option.filter_some, Option.filter_some, hetag']
      by_cases hmatch : kept.etag = choice.etag
      · simp only [hmatch, decide_true, if_true, hbody']
      · simp only [hmatch, decide_false, Bool.false_eq_true, if_false]

end

namespace Store

variable {m : Mount} {s : Store} {object : Object} {parts : List Part} {u : Upload}

/-- A completion of an open upload that gets past the mount comes down to the gathering of the
parts. -/
theorem completeUpload_of_open {id : String} {choices : List Request.PartChoice}
    (hnone : takeFault? .completeUpload s.faults = none)
    (hcheck : Mount.checkCompletion object parts = .ok (id, choices))
    (hu : s.uploadAt? m.bucket ⟨object.id, id⟩ = some u) :
    (∃ f, gather s.minPartSize u.parts choices = .error f ∧
        ((m.completeUpload object parts).run s).1 = (.error (.ofFault f), object)) ∨
      ∃ bodies o, gather s.minPartSize u.parts choices = .ok bodies ∧
        ((m.completeUpload object parts).run s).1 =
          (.ok (), { object.completed (some (partsEtag bodies)) with
            contentLength := some (Mount.totalSize parts) }) ∧
        ((m.completeUpload object parts).run s).2.objectAt? m.bucket object.id = some o ∧
        o.body = bodies.flatten ∧ o.etag = partsEtag bodies := by
  cases hgather : gather s.minPartSize u.parts choices with
  | ok bodies =>
    have hcompletable := completable_iff.mpr ⟨choices, bodies, hcheck, hu, hgather⟩
    have hok := completeUpload_isOk.mpr ⟨hnone, id, u, hcompletable⟩
    rcases run_completeUpload m s object parts with
      ⟨e, s', hrun, -⟩ | ⟨id', choices', u', bodies', s', hcheck', hu', hgather', hrun, hs⟩
    · rw [hrun] at hok
      cases hok
    · cases hcheck.symm.trans hcheck'
      cases hu.symm.trans hu'
      cases hgather.symm.trans hgather'
      rw [hrun]
      exact .inr ⟨bodies, _, rfl, rfl, hs.objectAt?_self rfl, rfl, rfl⟩
  | error f =>
    refine .inl ⟨f, rfl, ?_⟩
    obtain ⟨-, hne, hasc, hchoices⟩ := checkCompletion_eq_ok hcheck
    have hchosen := Mount.chooseParts_eq_ok.mp hchoices
    have hanswer := answer_completeUpload_of_open hnone hu (Mount.choices_ne_nil hchosen hne)
      (Mount.ascending_choices hchosen hasc)
    rw [hgather] at hanswer
    have hask : ((m.askCompletion object parts).run s).1 = .error (.ofFault f) := by
      rw [Mount.askCompletion, hcheck]
      simp only [Call.after, Call.send, Call.run, Backend.exchange, hanswer, Except.map]
    rw [Mount.completeUpload, Call.run_map, hask, Mount.on_finish_error]

end Store

/-! ## Runs with the same writes -/

/-- A client finds the same of its upload in two stores: they list the same parts; and from the same
parts the upload is completed in both with the same answer, and becomes the same object. A fault that
waits may come in between. -/
structure Mount.FindsSame (m : Mount) (object : Object) (s s' : Store) : Prop where
  listing : ∀ l, m.listParts object = .ok l → Store.takeFault? .listParts s.faults = none →
    Store.takeFault? .listParts s'.faults = none →
      ∃ parts, (l.collect s).map Prod.fst = some (.ok parts) ∧
        (l.collect s').map Prod.fst = some (.ok parts)
  completion : Store.takeFault? .completeUpload s.faults = none →
    Store.takeFault? .completeUpload s'.faults = none → ∀ parts,
      ((m.completeUpload object parts).run s).1 = ((m.completeUpload object parts).run s').1 ∧
        (((m.completeUpload object parts).run s).1.1.isOk = true → ∃ o o',
          ((m.completeUpload object parts).run s).2.objectAt? m.bucket object.id = some o ∧
          ((m.completeUpload object parts).run s').2.objectAt? m.bucket object.id = some o' ∧
          o.body = o'.body ∧ o.etag = o'.etag)

/-- Uploads with the same parts are the same to a client. -/
theorem Upload.SameParts.finds {u u' : Upload} {m : Mount} {object : Object} {name : UploadName}
    {s s' : Store} (h : u.SameParts u') (hobject : object.IsFor name)
    (hu : s.uploadAt? m.bucket name = some u) (hu' : s'.uploadAt? m.bucket name = some u')
    (hnumbered : u.Numbered) (hnumbered' : u'.Numbered) (hleast : s.minPartSize = s'.minPartSize) :
    m.FindsSame object s s' where
  listing l hl hnone hnone' := by
    rw [Mount.listParts_of_isFor hobject] at hl
    cases hl
    obtain ⟨marks, hcollect, -⟩ := Store.collect_parts hu hnumbered hnone
    obtain ⟨marks', hcollect', -⟩ := Store.collect_parts hu' hnumbered' hnone'
    refine ⟨u.listed, by rw [hcollect]; rfl, ?_⟩
    rw [hcollect', h.listed]
    rfl
  completion hnone hnone' parts := by
    cases hcheck : Mount.checkCompletion object parts with
    | error e =>
      -- The mount refuses before it looks at the store.
      have hrefused : ∀ s : Store, ((m.completeUpload object parts).run s).1 = (.error e, object) := by
        intro s
        rw [Mount.completeUpload, Mount.askCompletion, hcheck]
        exact Mount.on_finish_error parts e object
      rw [hrefused, hrefused]
      exact ⟨rfl, fun h => by cases h⟩
    | ok upload =>
      obtain ⟨id, choices⟩ := upload
      obtain ⟨hopen, -, -, hchoices⟩ := Store.checkCompletion_eq_ok hcheck
      obtain rfl : name.id = id := Except.ok.inj (hobject.openUpload.symm.trans hopen)
      have hname : (⟨object.id, name.id⟩ : UploadName) = name := by rw [hobject.id]
      have hgather := h.gather s'.minPartSize (Mount.chooseParts_eq_ok.mp hchoices)
      have hfirst := Store.completeUpload_of_open hnone hcheck (hname ▸ hu)
      have hsecond := Store.completeUpload_of_open hnone' hcheck (hname ▸ hu')
      rw [hleast, hgather] at hfirst
      rcases hfirst with ⟨f, hf, hrun⟩ | ⟨bodies, o, hf, hrun, ho, hbody, hetag⟩
      · rcases hsecond with ⟨f', hf', hrun'⟩ | ⟨bodies', o', hf', -⟩
        · cases hf.symm.trans hf'
          rw [hrun, hrun']
          exact ⟨rfl, fun h => by cases h⟩
        · cases hf.symm.trans hf'
      · rcases hsecond with ⟨f', hf', -⟩ | ⟨bodies', o', hf', hrun', ho', hbody', hetag'⟩
        · cases hf.symm.trans hf'
        · cases hf.symm.trans hf'
          rw [hrun, hrun']
          exact ⟨rfl, fun _ => ⟨o, o', ho, ho', hbody.trans hbody'.symm, hetag.trans hetag'.symm⟩⟩

/-- A fault that waits is met by the first page of the parts. -/
theorem Mount.listParts_failsAtOnce {m : Mount} {object : Object} {name : UploadName} {s : Store}
    {l : Listing PartPosition Part} {f : Fault} {rest : List (Request.Kind × Fault)}
    (hobject : object.IsFor name) (hl : m.listParts object = .ok l)
    (hwaits : Store.takeFault? .listParts s.faults = some (f, rest)) :
    l.FailsAtOnce s (.ofFault f) := by
  rw [listParts_of_isFor hobject] at hl
  cases hl
  refine Listing.next_start_error (Mount.partPage_of_fault ?_)
  have hanswer : s.answer (Store.partRequest m name none) =
      (.error f, { s.record (Store.partRequest m name none) with faults := rest }) :=
    Store.answer_of_some hwaits
  exact congrArg Prod.fst hanswer

/-- **Writes to different parts commute, and are listed back.** After any run that does not close an
upload, whose id is not given away again, its parts are listed in order, each as the last successful
write to its index told, by one request for each page; a fault that waits for the listing is met at
once. A run with the same writes to each part, mixed in any other way among themselves and with other
calls, leaves an upload that is listed alike and completed alike, as long as no fault waits for the
writes. -/
theorem part_writes_commute (start : Store) (bucket : String) (name : UploadName) (u : Upload)
    (hopen : start.uploadAt? bucket name = some u) (hnumbered : u.Numbered)
    (hspent : start.Spent name.id) (cs : List (Mount × Operation))
    (hcloses : ∀ e ∈ (Run.calls ⟨start, []⟩ cs).history, ¬ e.Closes bucket name)
    (m : Mount) (hbucket : m.bucket = bucket) (object : Object) (hobject : object.IsFor name) :
    let r := Run.calls ⟨start, []⟩ cs
    let size := m.pageSize.toInt.toNat
    (∃ l, m.listParts object = .ok l ∧
      (∀ p, Store.takeFault? .listParts r.state.faults = some p →
        l.FailsAtOnce r.state (.ofFault p.1)) ∧
      (Store.takeFault? .listParts r.state.faults = none → ∃ parts requests,
        l.collect r.state = some (.ok parts, { r.state with log := r.state.log ++ requests }) ∧
        parts.Pairwise (fun p q => p.index < q.index) ∧
        (∀ p, p ∈ parts ↔ lastWritten start bucket name p.index r.history = some p) ∧
        requests.length = max 1 ((parts.length + size - 1) / size) ∧
        ∀ q ∈ requests, q.kind = .listParts)) ∧
    ∀ cs', (∀ e ∈ (Run.calls ⟨start, []⟩ cs').history, ¬ e.Closes bucket name) →
      (∀ f, (Request.Kind.uploadPart, f) ∉ start.faults) →
      (∀ index, cs.filter (writesTo (name.place bucket index)) =
        cs'.filter (writesTo (name.place bucket index))) →
      m.FindsSame object r.state (Run.calls ⟨start, []⟩ cs').state := by
  intro r size
  subst hbucket
  constructor
  · refine ⟨_, Mount.listParts_of_isFor hobject, fun p hp => ?_, fun hnone => ?_⟩
    · exact Mount.listParts_failsAtOnce hobject (Mount.listParts_of_isFor hobject) hp
    · obtain ⟨u', htracks⟩ := (Tracks.initially hopen hnumbered).calls hspent hcloses
      obtain ⟨marks, hcollect, hmarks⟩ :=
        Store.collect_parts htracks.isOpen htracks.numbered hnone
      refine ⟨_, _, hcollect, u'.ascending_listed, fun p => ?_, ?_, fun q hq => ?_⟩
      · rw [Upload.mem_listed, htracks.parts]
      · rw [List.length_map, hmarks, Store.pageLimit_of_pos m.pageSize_mem.1]
        rfl
      · obtain ⟨mark, -, rfl⟩ := List.mem_map.mp hq
        rfl
  · intro cs' hcloses' hfaults hsame
    obtain ⟨u₁, hu₁, hnumbered₁, hcontent₁⟩ :=
      content_calls (r := ⟨start, []⟩) hopen hnumbered hspent hfaults hcloses
    obtain ⟨u₂, hu₂, hnumbered₂, hcontent₂⟩ :=
      content_calls (r := ⟨start, []⟩) hopen hnumbered hspent hfaults hcloses'
    have hparts : u₁.SameParts u₂ := by
      intro index
      rw [hcontent₁, hcontent₂, ← partAfter_filter _ _ _ cs, hsame index, partAfter_filter]
    refine hparts.finds hobject hu₁ hu₂ hnumbered₁ hnumbered₂ ?_
    exact (Store.Keeps.calls ⟨start, []⟩ cs).minPartSize.trans
      (Store.Keeps.calls ⟨start, []⟩ cs').minPartSize.symm

/-- Three writes to two parts, in two orders. -/
theorem part_writes_commute_two_orders :
    let m : Mount := ⟨"b", .root, 1, none, none, by decide⟩
    let fresh := Store.withBuckets ["b"] Store.tally 0 false
    let start := (Run.calls ⟨fresh, []⟩ [(m, .createUpload "k" {})]).state
    let object := Object.upload "k" "k" "|"
    let first : Mount × Operation := (m, .writePart object 0 [1] 1 none none)
    let again : Mount × Operation := (m, .writePart object 0 [2, 2] 2 none none)
    let other : Mount × Operation := (m, .writePart object 4 [5] 1 none none)
    let r := Run.calls ⟨start, []⟩ [first, again, other]
    let r' := Run.calls ⟨start, []⟩ [other, first, (m, .write "k" [] 0 {}), again]
    ∃ l parts requests, m.listParts object = .ok l ∧
      l.collect r.state = some (.ok parts, { r.state with log := r.state.log ++ requests }) ∧
      (l.collect r'.state).map Prod.fst = some (.ok parts) ∧
      ⟨0, 2, Store.bodyEtag [2, 2]⟩ ∈ parts ∧ ⟨4, 1, Store.bodyEtag [5]⟩ ∈ parts := by
  intro m fresh start object first again other r r'
  have hfresh : fresh.FreshIds := .withBuckets ["b"] 0 false Store.tally_injective
  obtain ⟨u, hu⟩ : ∃ u, start.uploadAt? "b" ⟨"k", "|"⟩ = some u :=
    Option.isSome_iff_exists.mp (by decide +kernel)
  have hspent : start.Spent "|" :=
    (hfresh.calls (r := ⟨fresh, []⟩) _).unused "b" ⟨"k", "|"⟩ (Option.isSome_iff_exists.mpr ⟨u, hu⟩)
  have hnew : ∀ bucket name u, fresh.uploadAt? bucket name = some u → u.Numbered := by
    intro bucket name u hu
    cases (Store.uploadAt?_withBuckets ["b"] Store.tally 0 false bucket name).symm.trans hu
  have hnumbered : u.Numbered :=
    Store.numbered_calls (r := ⟨fresh, []⟩) hnew [(m, .createUpload "k" {})] "b" ⟨"k", "|"⟩ u hu
  have hobject : object.IsFor ⟨"k", "|"⟩ := ⟨rfl, by decide, rfl⟩
  have hcloses : ∀ cs : List (Mount × Operation), (∀ c ∈ cs, c.2.isClosing = false) →
      ∀ e ∈ (Run.calls ⟨start, []⟩ cs).history, ¬ e.Closes "b" ⟨"k", "|"⟩ :=
    fun cs => Run.not_closes_of_calls (r := ⟨start, []⟩) fun _ h => absurd h List.not_mem_nil
  -- No place is that of both parts, so the two orders have the same writes to each.
  have hfilter : ∀ place, [first, again, other].filter (writesTo place) =
      [other, first, (m, .write "k" [] 0 {}), again].filter (writesTo place) := by
    intro place
    have hagain : writesTo place again = writesTo place first := rfl
    have hwrite : writesTo place (m, .write "k" [] 0 {}) = false := rfl
    by_cases hfirst : writesTo place first = true
    · have hother : writesTo place other = false := by
        obtain rfl := Option.some.inj (of_decide_eq_true hfirst)
        rfl
      simp [hfirst, hagain, hwrite, hother]
    · simp [List.filter_cons, hfirst, hagain, hwrite]
  obtain ⟨⟨l, hl, -, hlisted⟩, hcommute⟩ := part_writes_commute start "b" ⟨"k", "|"⟩ u hu hnumbered
    hspent [first, again, other] (hcloses _ (by simp [first, again, other, Operation.isClosing]))
    m rfl object hobject
  obtain ⟨parts, requests, hcollect, -, hparts, -⟩ := hlisted
    (Option.isNone_iff_eq_none.mp (by decide +kernel))
  have hsame := hcommute [other, first, (m, .write "k" [] 0 {}), again]
    (hcloses _ (by simp [first, again, other, Operation.isClosing]))
    (fun f hf => absurd ((Store.Keeps.calls ⟨fresh, []⟩ [(m, .createUpload "k" {})]).faults _ hf) nofun)
    fun index => hfilter _
  obtain ⟨parts', hcollect₁, hcollect₂⟩ := hsame.listing l hl
    (Option.isNone_iff_eq_none.mp (by decide +kernel))
    (Option.isNone_iff_eq_none.mp (by decide +kernel))
  rw [hcollect] at hcollect₁
  obtain rfl : parts = parts' := Except.ok.inj (Option.some.inj hcollect₁)
  exact ⟨l, parts, requests, hl, hcollect, hcollect₂, (hparts _).mpr (by decide +kernel),
    (hparts _).mpr (by decide +kernel)⟩

/-- A fault that waits for the listing comes in place of the parts; one that waits for a write falls on
the write that is the first in its order; and an upload whose id is given away again starts anew. -/
theorem part_writes_disturbed :
    let m : Mount := ⟨"b", .root, 200, none, none, by decide⟩
    let fault := Fault.http "SlowDown" 503 "slow"
    let object := Object.upload "k" "k" "0"
    let opening : Mount × Operation := (m, .createUpload "k" {})
    let first : Mount × Operation := (m, .writePart object 0 [97] 1 none none)
    let second : Mount × Operation := (m, .writePart object 1 [98] 1 none none)
    let shown (s : Store) := (m.listParts object).toOption.bind fun l => (l.collect s).map Prod.fst
    let start :=
      (Run.calls ⟨Store.withBuckets ["b"] (fun n => toString n) 0 false, []⟩ [opening]).state
    let waiting := start.arrangeFault .uploadPart fault
    let other := (Run.calls ⟨Store.withBuckets ["b"] (fun _ => "0") 0 false, []⟩ [opening]).state
    shown ((Run.calls ⟨start, []⟩ [first]).state.arrangeFault .listParts fault) =
        some (.error (.ofFault fault)) ∧
      shown (Run.calls ⟨waiting, []⟩ [first, second]).state =
        some (.ok [⟨1, 1, Store.bodyEtag [98]⟩]) ∧
      shown (Run.calls ⟨waiting, []⟩ [second, first]).state =
        some (.ok [⟨0, 1, Store.bodyEtag [97]⟩]) ∧
      shown (Run.calls ⟨other, []⟩ [first, opening]).state = some (.ok []) ∧
      lastWritten other "b" ⟨"k", "0"⟩ 0 (Run.calls ⟨other, []⟩ [first, opening]).history =
        some ⟨0, 1, Store.bodyEtag [97]⟩ := by
  decide +kernel

end ObjectStore
