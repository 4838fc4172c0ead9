import ObjectStore.Proofs.Effects

/-!
# What a call may do to a store

Two facts about every call, whatever it is. A call keeps what a store goes by: its settings, its
buckets, the ids it gave away; and it arranges no faults (`Keeps`). And it either leaves everything
but the log and the waiting faults, or makes just one change, which its operation names (`Makes`,
`perform_cases`). What a run preserves is read off these two, with no look at single operations: ids
of uploads, for one, that were fresh stay so (`FreshIds.calls`).
-/

namespace ObjectStore

namespace Store

variable {s s' : Store}

/-! ## What a store keeps -/

/-- What no request takes from a store. Ids that were given away stay so, and faults that wait were
arranged before. -/
structure Keeps (s s' : Store) : Prop where
  minPartSize : s'.minPartSize = s.minPartSize
  ids : s'.ids = s.ids
  drawn : s.drawn ≤ s'.drawn
  faults : ∀ f ∈ s'.faults, f ∈ s.faults
  buckets : ∀ name, (s.buckets.get? name).isSome = true → (s'.buckets.get? name).isSome = true

namespace Keeps

theorem refl (s : Store) : Keeps s s :=
  ⟨rfl, rfl, Nat.le_refl _, fun _ hf => hf, fun _ hb => hb⟩

theorem trans {s₁ s₂ s₃ : Store} (h₁ : Keeps s₁ s₂) (h₂ : Keeps s₂ s₃) : Keeps s₁ s₃ where
  minPartSize := h₂.minPartSize.trans h₁.minPartSize
  ids := h₂.ids.trans h₁.ids
  drawn := Nat.le_trans h₁.drawn h₂.drawn
  faults f hf := h₁.faults f (h₂.faults f hf)
  buckets name hb := h₂.buckets name (h₁.buckets name hb)

/-- Where no fault waits, none will. -/
theorem no_faults (h : Keeps s s') (hnone : s.faults = []) : s'.faults = [] :=
  List.eq_nil_of_subset_nil fun f hf => hnone ▸ h.faults f hf

theorem of_undisturbed (h : Undisturbed s s') : Keeps s s' := by
  obtain ⟨log, faults, rfl, hf⟩ := h
  exact ⟨rfl, rfl, Nat.le_refl _, hf, fun _ hb => hb⟩

theorem tick (s : Store) : Keeps s s.tick :=
  ⟨rfl, rfl, Nat.le_refl _, fun _ hf => hf, fun _ hb => hb⟩

theorem draw (s : Store) : Keeps s s.draw :=
  ⟨rfl, rfl, Nat.le_succ _, fun _ hf => hf, fun _ hb => hb⟩

theorem setBucket (s : Store) (name : String) (b : Bucket) : Keeps s (s.setBucket name b) := by
  refine ⟨rfl, rfl, Nat.le_refl _, fun _ hf => hf, fun other hb => ?_⟩
  rw [Store.setBucket, Table.get?_insert]
  split
  · rfl
  · exact hb

/-- No request changes the rules of the store, or takes a bucket away. -/
theorem serve (s : Store) (request : Request) : Keeps s (s.serve request).2 := by
  rcases h : s.serve request with ⟨f | reply, s'⟩
  · exact serve_of_error h ▸ refl s
  cases request with
  | putObject r =>
    obtain ⟨b, -, -, -, -, rfl⟩ := putObject_ok.mp h
    exact (tick s).trans (setBucket _ _ _)
  | deleteObject r =>
    obtain ⟨b, -, -, rfl⟩ := deleteObject_ok.mp h
    exact setBucket _ _ _
  | createUpload r =>
    obtain ⟨b, -, -, -, rfl⟩ := createUpload_ok.mp h
    exact ((tick s).trans (draw _)).trans (setBucket _ _ _)
  | uploadPart r =>
    obtain ⟨b, u, -, -, -, -, -, -, rfl⟩ := uploadPart_ok.mp h
    exact (tick s).trans (setBucket _ _ _)
  | completeUpload r =>
    obtain ⟨b, u, bodies, -, -, -, -, -, -, rfl⟩ := completeUpload_ok.mp h
    exact (tick s).trans (setBucket _ _ _)
  | abortUpload r =>
    obtain ⟨b, u, -, -, rfl⟩ := abortUpload_ok.mp h
    exact setBucket _ _ _
  | listBuckets | listObjects r | listUploads r | listParts r | headObject r | getObject r =>
    obtain rfl : s = s' := congrArg Prod.snd h
    exact refl s

theorem answer (s : Store) (request : Request) : Keeps s (s.answer request).2 := by
  have hrecord : Keeps s (s.record request) := of_undisturbed (undisturbed_record s request)
  cases ht : takeFault? request.kind s.faults with
  | some p =>
    rw [answer_of_some ht]
    exact of_undisturbed ⟨s.log ++ [request], p.2, rfl, takeFault?_subset ht⟩
  | none =>
    rw [answer_of_none ht]
    exact hrecord.trans (serve _ request)

theorem run {α : Type} (c : Call α) (s : Store) : Keeps s (c.run s).2 := by
  cases c with
  | done a => exact refl s
  | ask request read => exact answer s request

/-- No call of a mount does, whether it sends a request or not. -/
theorem perform (m : Mount) (op : Operation) (s : Store) : Keeps s (op.perform m s).2 := by
  by_cases hlook : op.isLook = true
  · exact of_undisturbed (undisturbed_perform hlook)
  · cases op with
    | write | delete | makeDir | makeLink | createUpload | writePart | completeUpload
    | abortUpload =>
      rw [Operation.perform]
      exact run _ s
    | _ => exact absurd rfl hlook

/-- Nor do any number of calls in a row. -/
theorem calls (r : Run Store) (cs : List (Mount × Operation)) :
    Keeps r.state (r.calls cs).state :=
  Run.calls_induct (P := fun r' => Keeps r.state r'.state)
    (fun r' m op h => h.trans (perform m op r'.state)) (refl r.state) cs

end Keeps

/-! ## The change of a call -/

theorem Alters.objectAt?_self {c : Change} (h : Alters s c s') {key : String} {o? : Option KeptObject}
    (hc : c.object = some (key, o?)) : s'.objectAt? c.bucket key = o? := by
  rw [h.objectAt?, hc]
  exact if_pos ⟨rfl, rfl⟩

theorem Alters.uploadAt?_self {c : Change} (h : Alters s c s') {name : UploadName}
    {u? : Option Upload} (hc : c.upload = some (name, u?)) : s'.uploadAt? c.bucket name = u? := by
  rw [h.uploadAt?, hc]
  exact if_pos ⟨rfl, rfl⟩

/-- The one change that a call makes where it makes one, and what it answers then. -/
inductive Makes (m : Mount) (s s' : Store) : (op : Operation) → op.Answer → Change → Prop where
  | write {path : String} {body : Bytes} {size : UInt64} {choices : Mount.ObjectChoices}
    (o : KeptObject) : Makes m s s' (.write path body size choices) (.ok size)
      { bucket := m.bucket, object := some (m.keyOf path false, some o) }
  | makeDir {path : String} (o : KeptObject) :
    Makes m s s' (.makeDir path) (.ok (.dir (m.keyOf path true) path))
      { bucket := m.bucket, object := some (m.keyOf path true, some o) }
  | makeLink {path target : String} (o : KeptObject) :
    Makes m s s' (.makeLink path target)
      (.ok (.link (m.keyOf path false) path (m.workDir.keyOf target)))
      { bucket := m.bucket, object := some (m.keyOf path false, some o) }
  | delete {path key : String} {target : Mount.Target} (hkey : objectKey? m path target = some key) :
    Makes m s s' (.delete path target) (.ok ()) { bucket := m.bucket, object := some (key, none) }
  | deleteUpload {path id : String} : Makes m s s' (.delete path (.upload id)) (.ok ())
      { bucket := m.bucket, upload := some (⟨m.keyOf path false, id⟩, none) }
  /-- An upload that is opened under an empty id is not reported, but the id is given away. -/
  | createUpload {path : String} {choices : Mount.UploadChoices} (u : Upload) (hparts : u.parts = ∅)
    (hdrawn : s.drawn < s'.drawn) :
    Makes m s s' (.createUpload path choices)
      (if s.nextId = "" then .error .uploadIdNotReturned
        else .ok (.upload (m.keyOf path false) path s.nextId))
      { bucket := m.bucket, upload := some (⟨m.keyOf path false, s.nextId⟩, some u) }
  | writePart {object : Object} {index : UInt32} {body : Bytes} {size : UInt64}
    {contentMd5 : Option String} {key : Option CustomerKey} {id : String} {number : Int32} {u : Upload}
    (hcheck : Mount.checkPart object index body size = .ok (id, number))
    (hu : s.uploadAt? m.bucket ⟨object.id, id⟩ = some u) (now : Instant) :
    Makes m s s' (.writePart object index body size contentMd5 key) (.ok ⟨index, size, bodyEtag body⟩)
      { bucket := m.bucket
        upload := some (⟨object.id, id⟩,
          some { u with parts := u.parts.insert number ⟨body, bodyEtag body, now⟩ }) }
  | completeUpload {object : Object} {parts : List Part} {id : String} {u : Upload}
    (hopen : object.openUpload = .ok id) (hu : s.uploadAt? m.bucket ⟨object.id, id⟩ = some u)
    (o : KeptObject) (completed : Object) :
    Makes m s s' (.completeUpload object parts) (.ok (), completed)
      { bucket := m.bucket, object := some (object.id, some o)
        upload := some (⟨object.id, id⟩, none) }
  | abortUpload {object : Object} {id : String} (hopen : object.openUpload = .ok id) :
    Makes m s s' (.abortUpload object) (.ok ())
      { bucket := m.bucket, upload := some (⟨object.id, id⟩, none) }

/-- A call that makes a change is a success, unless it opens an upload under an empty id. -/
theorem Makes.succeeded {m : Mount} {op : Operation} {a : op.Answer} {c : Change}
    (h : Makes m s s' op a c) (hid : s.nextId ≠ "") : op.succeeded a = true := by
  cases h with
  | createUpload u hparts hdrawn =>
    have hanswer : ∀ x y : Except Error Object, (if s.nextId = "" then x else y) = y :=
      fun _ _ => if_neg hid
    exact congrArg Except.isOk (hanswer _ _)
  | _ => rfl

end Store

/-- Whether a call may succeed and change nothing: it only looks, or what it takes away is gone. -/
def Operation.mayIdle : Operation → Bool
  | .delete .. | .abortUpload _ => true
  | op => op.isLook

namespace Store

variable {m : Mount} {s s' : Store}

/-- Taking an object away changes nothing, or takes it away. -/
theorem delete_cases {path key : String} {target : Mount.Target} {a : Except Error Unit}
    (hkey : objectKey? m path target = some key) (h : (m.delete path target).run s = (a, s')) :
    Undisturbed s s' ∨
      a = .ok () ∧ Alters s { bucket := m.bucket, object := some (key, none) } s' := by
  have hdelete : m.delete path target =
      (Call.send (.deleteObject ⟨m.bucket, key⟩) fun _ => .ok ()).map ignoreMissing := by
    cases target <;> cases hkey <;> rfl
  rw [hdelete, Call.run_map] at h
  rcases run_send (.deleteObject ⟨m.bucket, key⟩) (fun _ => .ok ()) s with
    ⟨f, s'', -, hs, hrun⟩ | ⟨_, s'', ha, hrun⟩
  · rw [hrun] at h
    cases h
    exact .inl hs
  · rw [hrun] at h
    cases h
    exact .inr ⟨rfl, answer_deleteObject_ok ha⟩

/-- **What a call does.** It leaves everything but the log and the waiting faults, or makes the change
of its operation. -/
theorem perform_cases {op : Operation} {a : op.Answer} (h : op.perform m s = (a, s')) :
    (Undisturbed s s' ∧ (op.succeeded a = true → op.mayIdle = true)) ∨
      ∃ c, Makes m s s' op a c ∧ Alters s c s' := by
  by_cases hlook : op.isLook = true
  · have hs : Undisturbed s (op.perform m s).2 := undisturbed_perform hlook
    rw [h] at hs
    refine .inl ⟨hs, fun _ => ?_⟩
    cases op <;> first | rfl | cases hlook
  cases op with
  | write path body size o =>
    rcases run_write m s path body size o with ⟨e, s', hx, hs⟩ | ⟨encryption, s', -, hx, hs⟩
    · cases hx.symm.trans h
      exact .inl ⟨hs, nofun⟩
    · cases hx.symm.trans h
      exact .inr ⟨_, .write _, hs⟩
  | makeDir path =>
    rcases run_makeDir m s path with ⟨e, s', hx, hs⟩ | ⟨s', hx, hs⟩
    · cases hx.symm.trans h
      exact .inl ⟨hs, nofun⟩
    · cases hx.symm.trans h
      exact .inr ⟨_, .makeDir _, hs⟩
  | makeLink path target =>
    rcases run_makeLink m s path target with ⟨e, s', hx, hs⟩ | ⟨s', hx, hs⟩
    · cases hx.symm.trans h
      exact .inl ⟨hs, nofun⟩
    · cases hx.symm.trans h
      exact .inr ⟨_, .makeLink _, hs⟩
  | delete path target =>
    cases hkey : objectKey? m path target with
    | some key =>
      rcases delete_cases hkey h with hs | ⟨rfl, hs⟩
      · exact .inl ⟨hs, fun _ => rfl⟩
      · exact .inr ⟨_, .delete hkey, hs⟩
    | none =>
      cases target with
      | upload id =>
        rcases run_dropUpload m s (m.keyOf path false) id with ⟨r, s', hx, hs⟩ | ⟨s', hx, hs⟩
        · cases hx.symm.trans h
          exact .inl ⟨hs, fun _ => rfl⟩
        · cases hx.symm.trans h
          exact .inr ⟨_, .deleteUpload, hs⟩
      | object | dir => cases hkey
  | createUpload path o =>
    rcases run_createUpload m s path o with
      ⟨e, s', hx, hs⟩ | ⟨encryption, s', -, hx, hs, hdrawn⟩
    · cases hx.symm.trans h
      exact .inl ⟨hs, nofun⟩
    · cases hx.symm.trans h
      exact .inr ⟨_, .createUpload _ rfl (by omega), hs⟩
  | writePart object index body size contentMd5 key =>
    rcases run_writePart m s object index body size contentMd5 key with
      ⟨e, s', hx, hs⟩ | ⟨id, number, u, s', hc, hu, hx, hs⟩
    · cases hx.symm.trans h
      exact .inl ⟨hs, nofun⟩
    · cases hx.symm.trans h
      exact .inr ⟨_, .writePart hc hu _, hs⟩
  | completeUpload object parts =>
    rcases run_completeUpload m s object parts with
      ⟨e, s', hx, hs⟩ | ⟨id, choices, u, bodies, s', hc, hu, -, hx, hs⟩
    · cases hx.symm.trans h
      exact .inl ⟨hs, nofun⟩
    · cases hx.symm.trans h
      exact .inr ⟨_, .completeUpload (checkCompletion_eq_ok hc).1 hu _ _, hs⟩
  | abortUpload object =>
    rcases Call.run_after object.openUpload (fun id => m.dropUpload object.id id) s with
      ⟨e, -, hx⟩ | ⟨id, hopen, hx⟩
    · cases hx.symm.trans h
      exact .inl ⟨.refl s, fun _ => rfl⟩
    · rcases run_dropUpload m s object.id id with ⟨r, s', hdrop, hs⟩ | ⟨s', hdrop, hs⟩
      · cases (hx.trans hdrop).symm.trans h
        exact .inl ⟨hs, fun _ => rfl⟩
      · cases (hx.trans hdrop).symm.trans h
        exact .inr ⟨_, .abortUpload hopen, hs⟩
  | _ => exact absurd rfl hlook

/-! ## Ids of uploads -/

/-- An upload that a call leaves open was open before, or is opened under an id that is given away. -/
theorem Makes.upload_cases {op : Operation} {a : op.Answer} {c : Change} {name : UploadName}
    {u : Upload} (h : Makes m s s' op a c) (hc : c.upload = some (name, some u)) :
    (s.uploadAt? c.bucket name).isSome = true ∨ (name.id = s.nextId ∧ s.drawn < s'.drawn) := by
  cases h with
  | createUpload u' hparts hdrawn =>
    cases hc
    exact .inr ⟨rfl, hdrawn⟩
  | writePart hcheck hu now =>
    cases hc
    exact .inl (by rw [hu]; rfl)
  | _ => cases hc

/-- Ids that never come twice: each is a stroke longer than the one before. -/
def tally (n : Nat) : String := String.ofList (.replicate (n + 1) '|')

/-- No id is drawn twice. -/
theorem tally_injective (i j : Nat) (h : tally i = tally j) : i = j := by
  have hlength := congrArg List.length (String.ofList_injective h)
  simpa using hlength

/-- A store that is new has no uploads, and goes by the ids it was given. -/
theorem foldl_addBucket (names : List String) (s : Store)
    (h : ∀ bucket name, s.uploadAt? bucket name = none) :
    (names.foldl addBucket s).ids = s.ids ∧
      ∀ bucket name, (names.foldl addBucket s).uploadAt? bucket name = none := by
  induction names generalizing s with
  | nil => exact ⟨rfl, h⟩
  | cons first names ih =>
    refine ih (s.addBucket first) fun bucket name => ?_
    have hset := uploadAt?_setBucket s first { created := s.now } bucket name
    have htick : (s.addBucket first).uploadAt? bucket name =
        (s.setBucket first { created := s.now }).uploadAt? bucket name := rfl
    rw [htick, hset]
    split
    · rfl
    · exact h bucket name

/-- A new store has no uploads. -/
theorem uploadAt?_withBuckets (names : List String) (ids : Nat → String) (minPartSize : UInt64)
    (strictDelete : Bool) (bucket : String) (name : UploadName) :
    (Store.withBuckets names ids minPartSize strictDelete).uploadAt? bucket name = none :=
  (foldl_addBucket names { ids, minPartSize, strictDelete } fun _ _ => rfl).2 bucket name

/-- The ids that are still to be given away are all different, and no open upload has one of them. -/
structure FreshIds (s : Store) : Prop where
  distinct : ∀ i j, s.drawn ≤ i → s.drawn ≤ j → s.ids i = s.ids j → i = j
  unused : ∀ bucket name, (s.uploadAt? bucket name).isSome = true →
    ∀ n, s.drawn ≤ n → s.ids n ≠ name.id

namespace FreshIds

/-- A store without uploads has fresh ids if no id comes twice. -/
theorem of_injective (h : ∀ i j, s.ids i = s.ids j → i = j)
    (hnone : ∀ bucket name, s.uploadAt? bucket name = none) : FreshIds s := by
  refine ⟨fun i j _ _ => h i j, fun bucket name hopen => ?_⟩
  rw [hnone] at hopen
  cases hopen

/-- A new store has fresh ids if no id comes twice. -/
theorem withBuckets (names : List String) {ids : Nat → String} (minPartSize : UInt64)
    (strictDelete : Bool) (h : ∀ i j, ids i = ids j → i = j) :
    FreshIds (.withBuckets names ids minPartSize strictDelete) := by
  refine of_injective (fun i j hij => h i j ?_)
    (uploadAt?_withBuckets names ids minPartSize strictDelete)
  have hids : (Store.withBuckets names ids minPartSize strictDelete).ids = ids :=
    (foldl_addBucket names { ids, minPartSize, strictDelete } fun _ _ => rfl).1
  rw [hids] at hij
  exact hij

/-- No upload is open under the id that is given away next. -/
theorem nextId_unused (h : FreshIds s) (bucket key : String) :
    s.uploadAt? bucket ⟨key, s.nextId⟩ = none := by
  cases hu : s.uploadAt? bucket ⟨key, s.nextId⟩ with
  | none => rfl
  | some u => exact absurd rfl (h.unused bucket _ (by rw [hu]; rfl) s.drawn (Nat.le_refl _))

/-- Ids stay fresh over a call. -/
theorem perform (h : FreshIds s) (m : Mount) (op : Operation) : FreshIds (op.perform m s).2 := by
  have hkeeps := Keeps.perform m op s
  rcases hperform : op.perform m s with ⟨a, s'⟩
  rw [hperform] at hkeeps
  refine ⟨fun i j hi hj => ?_, fun bucket name hopen n hn => ?_⟩
  · rw [hkeeps.ids]
    exact h.distinct i j (Nat.le_trans hkeeps.drawn hi) (Nat.le_trans hkeeps.drawn hj)
  rw [hkeeps.ids]
  have hn' : s.drawn ≤ n := Nat.le_trans hkeeps.drawn hn
  rcases perform_cases hperform with ⟨hs, -⟩ | ⟨c, hmakes, hs⟩
  · rw [uploadAt?_congr hs.buckets] at hopen
    exact h.unused bucket name hopen n hn'
  · rw [hs.uploadAt?] at hopen
    split at hopen
    · exact h.unused bucket name hopen n hn'
    · rename_i name' u? hc
      split at hopen
      · -- The upload that the call names: if it is new, its id is given away now.
        rename_i hsame
        obtain ⟨rfl, rfl⟩ := hsame
        obtain ⟨u, rfl⟩ := Option.isSome_iff_exists.mp hopen
        rcases hmakes.upload_cases hc with hopen' | ⟨hid, hdrawn⟩
        · exact h.unused c.bucket name' hopen' n hn'
        · intro heq
          have hsame := h.distinct n s.drawn hn' (Nat.le_refl _) (heq.trans hid)
          have hn'' : s'.drawn ≤ n := hn
          omega
      · exact h.unused bucket name hopen n hn'

theorem calls {r : Run Store} (h : FreshIds r.state) (cs : List (Mount × Operation)) :
    FreshIds (r.calls cs).state :=
  Run.calls_induct (P := fun r => FreshIds r.state) (fun _ m op h => h.perform m op) h cs

end FreshIds

end Store

end ObjectStore
