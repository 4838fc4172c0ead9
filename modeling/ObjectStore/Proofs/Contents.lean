import ObjectStore.Store.Serving

/-!
# What a store holds, and what a request does to it

The contents of a store are seen through two look-ups: `objectAt?` for the object under a key and
`uploadAt?` for an open upload. Each request that changes contents has one lemma that says when it is
fulfilled and what the new store is (`putObject_ok`, `deleteObject_ok`, `createUpload_ok`,
`uploadPart_ok`, `completeUpload_ok`, `abortUpload_ok`).

A fault stops the work of a request where it is, and some requests have changed their bucket by then.
Still each of them leaves the bucket as it was (`deleteIn_atomic`, `completeIn_atomic` and the others),
for what it took away was not there. So a request that faults, and one that only looks, leave
everything but the log and the waiting faults (`undisturbed_answer`). Any other answer
*alters* one bucket: it sets or takes away at most one object and at most one upload (`Change`), and
the two look-ups say what that does to all others (`Alters.objectAt?`, `Alters.uploadAt?`).
-/

namespace ObjectStore

/-- A computation in steps succeeds when its first step does and the rest does from there. -/
theorem bind_eq_ok {ε α β : Type} {x : Except ε α} {f : α → Except ε β} {b : β} :
    (x >>= f) = .ok b ↔ ∃ a, x = .ok a ∧ f a = .ok b := by
  cases x with
  | error e => simp [bind, Except.bind]
  | ok a => simp [bind, Except.bind]

theorem isOk_iff {ε α : Type} {x : Except ε α} : x.isOk = true ↔ ∃ a, x = .ok a := by
  cases x with
  | error e => exact ⟨nofun, nofun⟩
  | ok a => exact ⟨fun _ => ⟨a, rfl⟩, fun _ => rfl⟩

theorem isOk_map {ε α β : Type} (f : α → β) (x : Except ε α) : (x.map f).isOk = x.isOk := by
  cases x <;> rfl

namespace Store

/-! ## Views -/

/-- The object under a key of a bucket. -/
def objectAt? (s : Store) (bucket key : String) : Option KeptObject :=
  (s.buckets.get? bucket).bind fun b => b.objects.get? key

/-- The open upload of a name in a bucket. -/
def uploadAt? (s : Store) (bucket : String) (name : UploadName) : Option Upload :=
  (s.buckets.get? bucket).bind fun b => b.uploads.get? name

theorem bodyAt?_eq (s : Store) (bucket key : String) :
    s.bodyAt? bucket key = (s.objectAt? bucket key).map (·.body) := by
  rw [bodyAt?, objectAt?]
  cases s.buckets.get? bucket with
  | none => rfl
  | some b => cases hb : b.objects.get? key <;> simp [hb]

variable {s s' : Store}

theorem objectAt?_of_bucket {bucket : String} {b : Bucket} (h : s.buckets.get? bucket = some b)
    (key : String) : s.objectAt? bucket key = b.objects.get? key := by
  rw [objectAt?, h, Option.bind_some]

theorem objectAt?_eq_some {bucket key : String} {o : KeptObject} :
    s.objectAt? bucket key = some o ↔
      ∃ b, s.buckets.get? bucket = some b ∧ (key, o) ∈ b.objects.entries := by
  rw [objectAt?, Option.bind_eq_some_iff]
  exact exists_congr fun b => and_congr_right fun _ => Table.get?_eq_some_iff b.objects

theorem uploadAt?_of_bucket {bucket : String} {b : Bucket} (h : s.buckets.get? bucket = some b)
    (name : UploadName) : s.uploadAt? bucket name = b.uploads.get? name := by
  rw [uploadAt?, h, Option.bind_some]

/-- Stores with the same buckets show the same objects. -/
theorem objectAt?_congr (h : s'.buckets = s.buckets) (bucket key : String) :
    s'.objectAt? bucket key = s.objectAt? bucket key := by
  rw [objectAt?, objectAt?, h]

/-- Stores with the same buckets show the same uploads. -/
theorem uploadAt?_congr (h : s'.buckets = s.buckets) (bucket : String) (name : UploadName) :
    s'.uploadAt? bucket name = s.uploadAt? bucket name := by
  rw [uploadAt?, uploadAt?, h]

/-- The objects of a store in which one bucket was replaced. -/
theorem objectAt?_setBucket (s : Store) (name : String) (b : Bucket) (bucket key : String) :
    (s.setBucket name b).objectAt? bucket key =
      if name = bucket then b.objects.get? key else s.objectAt? bucket key := by
  simp only [objectAt?, setBucket, Table.get?_insert]
  split <;> rfl

/-- The uploads of a store in which one bucket was replaced. -/
theorem uploadAt?_setBucket (s : Store) (name : String) (b : Bucket) (bucket : String)
    (upload : UploadName) :
    (s.setBucket name b).uploadAt? bucket upload =
      if name = bucket then b.uploads.get? upload else s.uploadAt? bucket upload := by
  simp only [uploadAt?, setBucket, Table.get?_insert]
  split <;> rfl

/-! ## Looking up buckets and uploads -/

theorem bucket_eq_ok {name : String} {b : Bucket} :
    s.bucket name = .ok b ↔ s.buckets.get? name = some b := by
  rw [bucket]
  cases s.buckets.get? name <;> simp

theorem bucket_eq_error {name : String} {f : Fault} :
    s.bucket name = .error f ↔ s.buckets.get? name = none ∧ f = .bucketNotThere name := by
  rw [bucket]
  cases s.buckets.get? name <;> simp [eq_comm]

theorem findUpload_eq_ok {b : Bucket} {key id : String} {u : Upload} :
    findUpload b key id = .ok u ↔ b.uploads.get? ⟨key, id⟩ = some u := by
  rw [findUpload]
  cases b.uploads.get? ⟨key, id⟩ <;> simp

/-- A choice of parts passes just where the upload is open, there are parts in ascending order, and all
of them can be gathered. -/
theorem chosenBodies_eq_ok {minPartSize : UInt64} {b : Bucket} {r : Request.CompleteUpload}
    {bodies : List Bytes} :
    chosenBodies minPartSize b r = .ok bodies ↔
      ∃ u, b.uploads.get? ⟨r.key, r.uploadId⟩ = some u ∧ r.parts ≠ [] ∧ ascending r.parts = true ∧
        gather minPartSize u.parts r.parts = .ok bodies := by
  rw [chosenBodies]
  simp only [bind_eq_ok, findUpload_eq_ok]
  refine exists_congr fun u => and_congr_right fun _ => ?_
  constructor
  · intro h
    by_cases hne : r.parts = []
    · rw [if_pos hne] at h
      cases h
    by_cases hasc : ascending r.parts = true
    · rw [if_neg hne, if_pos hasc] at h
      exact ⟨hne, hasc, h⟩
    · rw [if_neg hne, if_neg hasc] at h
      cases h
  · rintro ⟨hne, hasc, hg⟩
    rw [if_neg hne, if_pos hasc]
    exact hg

/-! ## What requests do to a bucket -/

/-- The object that a request to store one makes. -/
def kept (r : Request.PutObject) (now : Instant) : KeptObject where
  body := r.body
  etag := bodyEtag r.body
  contentType := r.contentType
  lastModified := now
  storageClass := r.storageClass
  encryption := r.encryption
  lock := r.customerKey.map (·.stamp)
  metadata := r.metadata

/-- The upload that a request to open one makes. -/
def opened (r : Request.CreateUpload) (now : Instant) : Upload where
  initiated := now
  contentType := r.contentType
  storageClass := r.storageClass
  encryption := r.encryption
  lock := r.customerKey.map (·.stamp)
  parts := ∅

/-- The part that a request to store one makes. -/
def keptPart (r : Request.UploadPart) (now : Instant) : KeptPart := ⟨r.body, bodyEtag r.body, now⟩

/-- The object that an upload becomes. -/
def assembled (u : Upload) (bodies : List Bytes) (now : Instant) : KeptObject where
  body := bodies.flatten
  etag := partsEtag bodies
  contentType := u.contentType
  lastModified := now
  storageClass := u.storageClass
  encryption := u.encryption
  lock := u.lock
  metadata := ∅

section Bucket

variable {b b' : Bucket} {strict : Bool} {minPartSize : UInt64} {now : Instant} {key id : String}

/-- Storing an object succeeds just where both checks pass. -/
theorem putIn_ok {r : Request.PutObject} {reply : Reply.Stored} :
    (putIn r now).on b = (.ok reply, b') ↔
      checkEncryption r.encryption r.customerKey = .ok () ∧
        checkDigest r.contentMd5 r.body = .ok () ∧ reply = ⟨some (bodyEtag r.body)⟩ ∧
        b' = { b with objects := b.objects.insert r.key (kept r now) } := by
  simp only [putIn, Work.on_bind_eq_ok, Work.on_check, Work.on_modify, Work.on_pure, Prod.mk.injEq,
    Except.ok.injEq]
  constructor
  · rintro ⟨⟨⟩, _, ⟨he, rfl⟩, ⟨⟩, _, ⟨hd, rfl⟩, _, _, ⟨-, rfl⟩, rfl, rfl⟩
    exact ⟨he, hd, rfl, rfl⟩
  · rintro ⟨he, hd, rfl, rfl⟩
    exact ⟨(), b, ⟨he, rfl⟩, (), b, ⟨hd, rfl⟩, (), _, ⟨trivial, rfl⟩, rfl, rfl⟩

theorem putIn_atomic (r : Request.PutObject) (now : Instant) : (putIn r now).Atomic :=
  .check_bind fun _ _ => .check_bind fun _ _ => .of_ok fun _ => ⟨_, _, rfl⟩

/-- What comes of taking an object away. The bucket is without it in either case. -/
theorem on_deleteIn (strict : Bool) (r : Request.DeleteObject) (b : Bucket) :
    (deleteIn strict r).on b =
      (if (!b.objects.contains r.key && strict) = true then .error (.objectNotThere r.key)
        else .ok (), { b with objects := b.objects.erase r.key }) := by
  cases h : !b.objects.contains r.key && strict <;>
    simp only [deleteIn, Work.on_bind, Work.on_get, Work.on_modify, h] <;> rfl

/-- Taking an object away succeeds where it is there; a lenient store does not mind. -/
theorem deleteIn_ok {r : Request.DeleteObject} {reply : Unit} :
    (deleteIn strict r).on b = (.ok reply, b') ↔
      (strict = true → b.objects.contains r.key = true) ∧
        b' = { b with objects := b.objects.erase r.key } := by
  rw [on_deleteIn]
  cases b.objects.contains r.key <;> cases strict <;> simp [eq_comm]

/-- The object is gone before the fault comes, but then it was not there. -/
theorem deleteIn_atomic (strict : Bool) (r : Request.DeleteObject) : (deleteIn strict r).Atomic := by
  intro b f b' h
  rw [on_deleteIn] at h
  obtain ⟨hfault, rfl⟩ := Prod.mk.inj h
  split at hfault
  · rename_i hstrict
    have hkey : b.objects.contains r.key = false := by
      simpa using (Bool.and_eq_true_iff.mp hstrict).1
    rw [Table.erase_of_contains hkey]
  · cases hfault

/-- Opening an upload succeeds just where the encryption is no conflict. -/
theorem openIn_ok {r : Request.CreateUpload} {reply : Reply.Opened} :
    (openIn r id now).on b = (.ok reply, b') ↔
      checkEncryption r.encryption r.customerKey = .ok () ∧ reply = ⟨some id⟩ ∧
        b' = { b with uploads := b.uploads.insert ⟨r.key, id⟩ (opened r now) } := by
  simp only [openIn, Work.on_bind_eq_ok, Work.on_check, Work.on_modify, Work.on_pure, Prod.mk.injEq,
    Except.ok.injEq]
  constructor
  · rintro ⟨⟨⟩, _, ⟨he, rfl⟩, _, _, ⟨-, rfl⟩, rfl, rfl⟩
    exact ⟨he, rfl, rfl⟩
  · rintro ⟨he, rfl, rfl⟩
    exact ⟨(), b, ⟨he, rfl⟩, (), _, ⟨trivial, rfl⟩, rfl, rfl⟩

theorem openIn_atomic (r : Request.CreateUpload) (id : String) (now : Instant) :
    (openIn r id now).Atomic :=
  .check_bind fun _ _ => .of_ok fun _ => ⟨_, _, rfl⟩

theorem checkNumber_eq_ok {number : Int32} :
    checkNumber number = .ok () ↔ validNumber number = true := by
  rw [checkNumber]
  cases validNumber number <;> simp

/-- Storing a part succeeds just where the number is in bounds, the upload is open, and the key and
the digest pass. -/
theorem putPartIn_ok {r : Request.UploadPart} {reply : Reply.Stored} :
    (putPartIn r now).on b = (.ok reply, b') ↔
      ∃ u, validNumber r.number = true ∧ b.uploads.get? ⟨r.key, r.uploadId⟩ = some u ∧
        checkLock u.lock r.customerKey = .ok () ∧ checkDigest r.contentMd5 r.body = .ok () ∧
        reply = ⟨some (bodyEtag r.body)⟩ ∧
        b' = { b with
          uploads := b.uploads.insert ⟨r.key, r.uploadId⟩
            { u with parts := u.parts.insert r.number (keptPart r now) } } := by
  simp only [putPartIn, Work.on_bind_eq_ok, Work.on_check, Work.on_get, Work.on_modify,
    Work.on_pure, Prod.mk.injEq, Except.ok.injEq, findUpload_eq_ok]
  constructor
  · rintro ⟨⟨⟩, _, ⟨hn, rfl⟩, _, _, ⟨rfl, rfl⟩, u, _, ⟨hu, rfl⟩, ⟨⟩, _, ⟨hl, rfl⟩, ⟨⟩, _, ⟨hd, rfl⟩,
      _, _, ⟨-, rfl⟩, rfl, rfl⟩
    exact ⟨u, checkNumber_eq_ok.mp hn, hu, hl, hd, rfl, rfl⟩
  · rintro ⟨u, hn, hu, hl, hd, rfl, rfl⟩
    exact ⟨(), b, ⟨checkNumber_eq_ok.mpr hn, rfl⟩, b, b, ⟨rfl, rfl⟩, u, b, ⟨hu, rfl⟩, (), b,
      ⟨hl, rfl⟩, (), b, ⟨hd, rfl⟩, (), _, ⟨trivial, rfl⟩, rfl, rfl⟩

theorem putPartIn_atomic (r : Request.UploadPart) (now : Instant) : (putPartIn r now).Atomic :=
  .check_bind fun _ _ => .get_bind fun _ => .check_bind fun _ _ => .check_bind fun _ _ =>
    .check_bind fun _ _ => .of_ok fun _ => ⟨_, _, rfl⟩

/-- What comes of taking an upload. The bucket is without it in either case. -/
theorem on_takeUpload (key id : String) (b : Bucket) :
    (takeUpload key id).on b =
      (findUpload b key id, { b with uploads := b.uploads.erase ⟨key, id⟩ }) := rfl

/-- The upload is taken out before the fault comes, but then there was none. -/
theorem takeUpload_atomic (key id : String) : (takeUpload key id).Atomic := by
  intro b f b' h
  rw [on_takeUpload] at h
  obtain ⟨hfault, rfl⟩ := Prod.mk.inj h
  have hid : b.uploads.contains ⟨key, id⟩ = false := by
    rw [findUpload] at hfault
    rw [Table.contains]
    cases hu : b.uploads.get? ⟨key, id⟩ with
    | none => rfl
    | some u =>
      rw [hu] at hfault
      cases hfault
  rw [Table.erase_of_contains hid]

/-- Completing an upload succeeds just where it is open, there are parts in ascending order, and all
of them can be gathered. -/
theorem completeIn_ok {r : Request.CompleteUpload} {reply : Reply.Stored} :
    (completeIn minPartSize r now).on b = (.ok reply, b') ↔
      ∃ u bodies, b.uploads.get? ⟨r.key, r.uploadId⟩ = some u ∧ r.parts ≠ [] ∧
        ascending r.parts = true ∧ gather minPartSize u.parts r.parts = .ok bodies ∧
        reply = ⟨some (partsEtag bodies)⟩ ∧
        b' = { b with
          objects := b.objects.insert r.key (assembled u bodies now)
          uploads := b.uploads.erase ⟨r.key, r.uploadId⟩ } := by
  simp only [completeIn, Work.on_bind_eq_ok, Work.on_check, Work.on_get, Work.on_modify,
    Work.on_pure, Prod.mk.injEq, Except.ok.injEq, chosenBodies_eq_ok, on_takeUpload, findUpload_eq_ok]
  constructor
  · rintro ⟨_, _, ⟨rfl, rfl⟩, bodies, _, ⟨⟨u, hu, hne, hasc, hg⟩, rfl⟩, u', _, ⟨hu', rfl⟩, _, _,
      ⟨-, rfl⟩, rfl, rfl⟩
    -- Both look-ups find the same upload.
    cases hu.symm.trans hu'
    exact ⟨u, bodies, hu, hne, hasc, hg, rfl, rfl⟩
  · rintro ⟨u, bodies, hu, hne, hasc, hg, rfl, rfl⟩
    exact ⟨b, b, ⟨rfl, rfl⟩, bodies, b, ⟨⟨u, hu, hne, hasc, hg⟩, rfl⟩, u, _, ⟨hu, rfl⟩, (), _,
      ⟨trivial, rfl⟩, rfl, rfl⟩

/-- A completion stops at the checks of its parts, or where there is no upload to take. -/
theorem completeIn_atomic (minPartSize : UInt64) (r : Request.CompleteUpload) (now : Instant) :
    (completeIn minPartSize r now).Atomic :=
  .get_bind fun _ => .check_bind fun _ _ =>
    (takeUpload_atomic r.key r.uploadId).bind_ok fun _ _ => ⟨_, _, rfl⟩

end Bucket

/-! ## Requests that are fulfilled -/

/-- Work on a bucket in its place succeeds just where the bucket is there and the work succeeds. -/
theorem inBucket_ok {α : Type} {name : String} {w : Work Bucket Fault α} {a : α} :
    (inBucket name w).on s = (.ok a, s') ↔
      ∃ b b', s.buckets.get? name = some b ∧ w.on b = (.ok a, b') ∧ s' = s.setBucket name b' := by
  simp only [inBucket, Work.on_bind_eq_ok, Work.on_check, Work.on_get, Work.on_modify,
    Prod.mk.injEq, Except.ok.injEq, bucket_eq_ok]
  constructor
  · rintro ⟨_, _, ⟨rfl, rfl⟩, b, _, ⟨hb, rfl⟩, _, _, ⟨-, rfl⟩, hw, rfl⟩
    exact ⟨b, _, hb, Prod.ext hw rfl, rfl⟩
  · rintro ⟨b, b', hb, hw, rfl⟩
    exact ⟨s, s, ⟨rfl, rfl⟩, b, s, ⟨hb, rfl⟩, (), _, ⟨trivial, rfl⟩, by rw [hw], by rw [hw]⟩

/-- Work on a bucket that leaves it where it fails leaves the store, too. -/
theorem inBucket_atomic {α : Type} {name : String} {w : Work Bucket Fault α} (h : w.Atomic) :
    (inBucket name w).Atomic := by
  intro s f s' hon
  rw [inBucket, Work.on_get_bind] at hon
  cases hb : s.bucket name with
  | error f' =>
    rw [hb, Work.on_bind_of_error (Work.on_check _ s)] at hon
    cases hon
    rfl
  | ok b =>
    rw [hb, Work.on_bind_of_ok (Work.on_check _ s), Work.on_bind_of_ok (Work.on_modify _ s)] at hon
    obtain ⟨hw, rfl⟩ := Prod.mk.inj hon
    have hsame : (w.on b).2 = b := h b f _ (Prod.ext hw rfl)
    rw [hsame, setBucket, Table.insert_of_get? (bucket_eq_ok.mp hb)]

/-- Work at the time of the clock leaves the clock at the next reading. -/
theorem stamped_ok {α : Type} {name : String} {w : Instant → Work Bucket Fault α} {a : α} :
    (stamped name w).on s = (.ok a, s') ↔
      ∃ b b', s.buckets.get? name = some b ∧ (w s.now).on b = (.ok a, b') ∧
        s' = s.tick.setBucket name b' := by
  simp only [stamped, Work.on_bind_eq_ok, Work.on_get, Work.on_modify, Work.on_pure, Prod.mk.injEq,
    Except.ok.injEq, inBucket_ok]
  constructor
  · rintro ⟨_, _, ⟨rfl, rfl⟩, a, _, ⟨b, b', hb, hw, rfl⟩, _, _, ⟨-, rfl⟩, rfl, rfl⟩
    exact ⟨b, b', hb, hw, rfl⟩
  · rintro ⟨b, b', hb, hw, rfl⟩
    exact ⟨s, s, ⟨rfl, rfl⟩, a, _, ⟨b, b', hb, hw, rfl⟩, (), _, ⟨trivial, rfl⟩, rfl, rfl⟩

theorem stamped_atomic {α : Type} {name : String} {w : Instant → Work Bucket Fault α}
    (h : ∀ now, (w now).Atomic) : (stamped name w).Atomic :=
  .get_bind fun s => (inBucket_atomic (h s.now)).bind_ok fun _ _ => ⟨_, _, rfl⟩

/-- Storing an object succeeds just where the bucket is there and both checks pass. -/
theorem putObject_ok {r : Request.PutObject} {reply : Reply.Stored} :
    (putObject r).on s = (.ok reply, s') ↔
      ∃ b, s.buckets.get? r.bucket = some b ∧ checkEncryption r.encryption r.customerKey = .ok () ∧
        checkDigest r.contentMd5 r.body = .ok () ∧ reply = ⟨some (bodyEtag r.body)⟩ ∧
        s' = s.tick.setBucket r.bucket
          { b with objects := b.objects.insert r.key (kept r s.now) } := by
  rw [putObject, stamped_ok]
  simp only [putIn_ok]
  constructor
  · rintro ⟨b, _, hb, ⟨he, hd, hreply, rfl⟩, hs⟩
    exact ⟨b, hb, he, hd, hreply, hs⟩
  · rintro ⟨b, hb, he, hd, hreply, hs⟩
    exact ⟨b, _, hb, ⟨he, hd, hreply, rfl⟩, hs⟩

/-- Taking an object away succeeds where the bucket is there; a strict store wants the object to be
there as well. -/
theorem deleteObject_ok {r : Request.DeleteObject} {reply : Unit} :
    (deleteObject r).on s = (.ok reply, s') ↔
      ∃ b, s.buckets.get? r.bucket = some b ∧
        (s.strictDelete = true → b.objects.contains r.key = true) ∧
        s' = s.setBucket r.bucket { b with objects := b.objects.erase r.key } := by
  rw [deleteObject, Work.on_get_bind, inBucket_ok]
  simp only [deleteIn_ok]
  constructor
  · rintro ⟨b, _, hb, ⟨hthere, rfl⟩, hs⟩
    exact ⟨b, hb, hthere, hs⟩
  · rintro ⟨b, hb, hthere, hs⟩
    exact ⟨b, _, hb, ⟨hthere, rfl⟩, hs⟩

/-- Opening an upload succeeds just where the bucket is there and the encryption is no conflict. -/
theorem createUpload_ok {r : Request.CreateUpload} {reply : Reply.Opened} :
    (createUpload r).on s = (.ok reply, s') ↔
      ∃ b, s.buckets.get? r.bucket = some b ∧ checkEncryption r.encryption r.customerKey = .ok () ∧
        reply = ⟨some s.nextId⟩ ∧
        s' = s.tick.draw.setBucket r.bucket
          { b with uploads := b.uploads.insert ⟨r.key, s.nextId⟩ (opened r s.now) } := by
  simp only [createUpload, Work.on_bind_eq_ok, Work.on_get, Work.on_modify, Work.on_pure,
    Prod.mk.injEq, Except.ok.injEq, stamped_ok, openIn_ok]
  constructor
  · rintro ⟨_, _, ⟨rfl, rfl⟩, _, _, ⟨b, _, hb, ⟨he, rfl, rfl⟩, rfl⟩, _, _, ⟨-, rfl⟩, rfl, rfl⟩
    exact ⟨b, hb, he, rfl, rfl⟩
  · rintro ⟨b, hb, he, rfl, rfl⟩
    exact ⟨s, s, ⟨rfl, rfl⟩, _, _, ⟨b, _, hb, ⟨he, rfl, rfl⟩, rfl⟩, (), _, ⟨trivial, rfl⟩, rfl, rfl⟩

/-- Storing a part succeeds just where the number is in bounds, the upload is open, and the key and
the digest pass. -/
theorem uploadPart_ok {r : Request.UploadPart} {reply : Reply.Stored} :
    (uploadPart r).on s = (.ok reply, s') ↔
      ∃ b u, s.buckets.get? r.bucket = some b ∧ validNumber r.number = true ∧
        b.uploads.get? ⟨r.key, r.uploadId⟩ = some u ∧ checkLock u.lock r.customerKey = .ok () ∧
        checkDigest r.contentMd5 r.body = .ok () ∧ reply = ⟨some (bodyEtag r.body)⟩ ∧
        s' = s.tick.setBucket r.bucket
          { b with
            uploads := b.uploads.insert ⟨r.key, r.uploadId⟩
              { u with parts := u.parts.insert r.number (keptPart r s.now) } } := by
  rw [uploadPart, stamped_ok]
  simp only [putPartIn_ok]
  constructor
  · rintro ⟨b, _, hb, ⟨u, hn, hu, hl, hd, hreply, rfl⟩, hs⟩
    exact ⟨b, u, hb, hn, hu, hl, hd, hreply, hs⟩
  · rintro ⟨b, u, hb, hn, hu, hl, hd, hreply, hs⟩
    exact ⟨b, _, hb, ⟨u, hn, hu, hl, hd, hreply, rfl⟩, hs⟩

/-- Completing an upload succeeds just where it is open, there are parts in ascending order, and all
of them can be gathered. -/
theorem completeUpload_ok {r : Request.CompleteUpload} {reply : Reply.Stored} :
    (completeUpload r).on s = (.ok reply, s') ↔
      ∃ b u bodies, s.buckets.get? r.bucket = some b ∧
        b.uploads.get? ⟨r.key, r.uploadId⟩ = some u ∧ r.parts ≠ [] ∧ ascending r.parts = true ∧
        gather s.minPartSize u.parts r.parts = .ok bodies ∧
        reply = ⟨some (partsEtag bodies)⟩ ∧
        s' = s.tick.setBucket r.bucket
          { b with
            objects := b.objects.insert r.key (assembled u bodies s.now)
            uploads := b.uploads.erase ⟨r.key, r.uploadId⟩ } := by
  rw [completeUpload, Work.on_get_bind, stamped_ok]
  simp only [completeIn_ok]
  constructor
  · rintro ⟨b, _, hb, ⟨u, bodies, hu, hne, hasc, hg, hreply, rfl⟩, hs⟩
    exact ⟨b, u, bodies, hb, hu, hne, hasc, hg, hreply, hs⟩
  · rintro ⟨b, u, bodies, hb, hu, hne, hasc, hg, hreply, hs⟩
    exact ⟨b, _, hb, ⟨u, bodies, hu, hne, hasc, hg, hreply, rfl⟩, hs⟩

/-- Dropping an upload succeeds just where it is open. -/
theorem abortUpload_ok {r : Request.AbortUpload} {reply : Unit} :
    (abortUpload r).on s = (.ok reply, s') ↔
      ∃ b u, s.buckets.get? r.bucket = some b ∧ b.uploads.get? ⟨r.key, r.uploadId⟩ = some u ∧
        s' = s.setBucket r.bucket { b with uploads := b.uploads.erase ⟨r.key, r.uploadId⟩ } := by
  simp only [abortUpload, Work.on_bind_eq_ok, Work.on_pure, Prod.mk.injEq, inBucket_ok, on_takeUpload,
    findUpload_eq_ok]
  constructor
  · rintro ⟨u, _, ⟨b, _, hb, ⟨hu, rfl⟩, rfl⟩, -, rfl⟩
    exact ⟨b, u, hb, hu, rfl⟩
  · rintro ⟨b, u, hb, hu, rfl⟩
    exact ⟨u, _, ⟨b, _, hb, ⟨hu, rfl⟩, rfl⟩, trivial, rfl⟩

/-! ## What requests come to

How the work of a request ends is told by its checks alone, one after the other. -/

theorem fst_on_inBucket {α : Type} (name : String) (w : Work Bucket Fault α) (s : Store) :
    ((inBucket name w).on s).1 = (s.bucket name).bind fun b => (w.on b).1 := by
  rw [inBucket, Work.on_get_bind, Work.fst_on_check_bind]
  rfl

theorem fst_on_stamped {α : Type} (name : String) (w : Instant → Work Bucket Fault α) (s : Store) :
    ((stamped name w).on s).1 = (s.bucket name).bind fun b => ((w s.now).on b).1 := by
  rw [stamped, Work.on_get_bind, Work.fst_on_bind_return fun _ _ => rfl, fst_on_inBucket]

theorem fst_on_putObject (s : Store) (r : Request.PutObject) :
    ((putObject r).on s).1 = (s.bucket r.bucket).bind fun _ =>
      (checkEncryption r.encryption r.customerKey).bind fun _ =>
        (checkDigest r.contentMd5 r.body).bind fun _ => .ok ⟨some (bodyEtag r.body)⟩ := by
  simp only [putObject, fst_on_stamped, putIn, Work.fst_on_check_bind]
  rfl

theorem fst_on_deleteObject (s : Store) (r : Request.DeleteObject) :
    ((deleteObject r).on s).1 = (s.bucket r.bucket).bind fun b =>
      if (!b.objects.contains r.key && s.strictDelete) = true then .error (.objectNotThere r.key)
      else .ok () := by
  rw [deleteObject, Work.on_get_bind, fst_on_inBucket]
  simp only [on_deleteIn]

theorem fst_on_createUpload (s : Store) (r : Request.CreateUpload) :
    ((createUpload r).on s).1 = (s.bucket r.bucket).bind fun _ =>
      (checkEncryption r.encryption r.customerKey).bind fun _ => .ok ⟨some s.nextId⟩ := by
  rw [createUpload, Work.on_get_bind, Work.fst_on_bind_return fun _ _ => rfl, fst_on_stamped]
  simp only [openIn, Work.fst_on_check_bind]
  rfl

theorem fst_on_uploadPart (s : Store) (r : Request.UploadPart) :
    ((uploadPart r).on s).1 = (s.bucket r.bucket).bind fun b =>
      (checkNumber r.number).bind fun _ => (findUpload b r.key r.uploadId).bind fun u =>
        (checkLock u.lock r.customerKey).bind fun _ =>
          (checkDigest r.contentMd5 r.body).bind fun _ => .ok ⟨some (bodyEtag r.body)⟩ := by
  simp only [uploadPart, fst_on_stamped, putPartIn, Work.on_get_bind, Work.fst_on_check_bind]
  rfl

theorem fst_on_completeUpload (s : Store) (r : Request.CompleteUpload) :
    ((completeUpload r).on s).1 = (s.bucket r.bucket).bind fun b =>
      (chosenBodies s.minPartSize b r).bind fun bodies =>
        (findUpload b r.key r.uploadId).bind fun _ => .ok ⟨some (partsEtag bodies)⟩ := by
  rw [completeUpload, Work.on_get_bind, fst_on_stamped]
  simp only [completeIn, Work.on_get_bind, Work.fst_on_check_bind]
  refine congrArg (Except.bind _) (funext fun b => congrArg (Except.bind _) (funext fun _ => ?_))
  cases hu : findUpload b r.key r.uploadId with
  | error f => rw [Work.on_bind_of_error (by rw [on_takeUpload, hu])]; rfl
  | ok u => rw [Work.on_bind_of_ok (by rw [on_takeUpload, hu])]; rfl

theorem fst_on_abortUpload (s : Store) (r : Request.AbortUpload) :
    ((abortUpload r).on s).1 = (s.bucket r.bucket).bind fun b =>
      (findUpload b r.key r.uploadId).map fun _ => () := by
  rw [abortUpload, Work.fst_on_bind_of_ok fun _ _ => rfl, fst_on_inBucket]
  simp only [on_takeUpload]
  cases s.bucket r.bucket <;> rfl

/-! ## Requests that are not fulfilled -/

/-- **A request that is not fulfilled leaves the store**, wherever the fault stops the work on it. -/
theorem serve_of_error {request : Request} {f : Fault} (h : s.serve request = (.error f, s')) :
    s' = s := by
  cases request with
  | putObject r => exact stamped_atomic (putIn_atomic r) s f s' h
  | deleteObject r =>
    refine Work.Atomic.get_bind (fun t => ?_) s f s' h
    exact inBucket_atomic (deleteIn_atomic t.strictDelete r)
  | createUpload r =>
    refine Work.Atomic.get_bind (fun t => ?_) s f s' h
    exact (stamped_atomic (openIn_atomic r t.nextId)).bind_ok fun _ _ => ⟨_, _, rfl⟩
  | uploadPart r => exact stamped_atomic (putPartIn_atomic r) s f s' h
  | completeUpload r =>
    refine Work.Atomic.get_bind (fun t => ?_) s f s' h
    exact stamped_atomic (completeIn_atomic t.minPartSize r)
  | abortUpload r =>
    refine Work.Atomic.bind_ok (inBucket_atomic (takeUpload_atomic r.key r.uploadId)) ?_ s f s' h
    exact fun _ _ => ⟨_, _, rfl⟩
  | listBuckets | listObjects r | listUploads r | listParts r | headObject r | getObject r =>
    exact (congrArg Prod.snd h).symm

/-! ## Answering -/

/-- Whether a request only looks. -/
def isLook : Request → Bool
  | .listBuckets | .listObjects _ | .listUploads _ | .listParts _ | .headObject _ | .getObject _ =>
    true
  | _ => false

/-- A request that only looks leaves the store. -/
theorem serve_of_isLook {request : Request} (h : isLook request = true) :
    (s.serve request).2 = s := by
  cases request <;> first | rfl | cases h

/-- Nothing of a store has changed but its log and the faults that wait: some may be gone. -/
def Undisturbed (s s' : Store) : Prop :=
  ∃ log faults, s' = { s with log := log, faults := faults } ∧ ∀ f ∈ faults, f ∈ s.faults

theorem Undisturbed.refl (s : Store) : Undisturbed s s := ⟨s.log, s.faults, rfl, fun _ h => h⟩

theorem Undisturbed.trans {s₁ s₂ s₃ : Store} (h₁ : Undisturbed s₁ s₂) (h₂ : Undisturbed s₂ s₃) :
    Undisturbed s₁ s₃ := by
  obtain ⟨log₁, faults₁, rfl, hf₁⟩ := h₁
  obtain ⟨log₂, faults₂, rfl, hf₂⟩ := h₂
  exact ⟨log₂, faults₂, rfl, fun f hf => hf₁ f (hf₂ f hf)⟩

theorem Undisturbed.buckets (h : Undisturbed s s') : s'.buckets = s.buckets := by
  obtain ⟨log, faults, rfl, -⟩ := h
  rfl

theorem Undisturbed.faults (h : Undisturbed s s') : ∀ f ∈ s'.faults, f ∈ s.faults := by
  obtain ⟨log, faults, rfl, hf⟩ := h
  exact hf

theorem undisturbed_record (s : Store) (request : Request) : Undisturbed s (s.record request) :=
  ⟨s.log ++ [request], s.faults, rfl, fun _ h => h⟩

/-- Taking a fault leaves only faults that waited before. -/
theorem takeFault?_subset {kind : Request.Kind} {faults rest : List (Request.Kind × Fault)}
    {f : Fault} (h : takeFault? kind faults = some (f, rest)) : ∀ x ∈ rest, x ∈ faults := by
  induction faults generalizing rest with
  | nil => cases h
  | cons first more ih =>
    obtain ⟨k, g⟩ := first
    rw [takeFault?] at h
    split at h
    · cases h
      exact fun x hx => List.mem_cons_of_mem _ hx
    · obtain ⟨⟨f', rest'⟩, hr, he⟩ := Option.map_eq_some_iff.mp h
      cases he
      intro x hx
      rcases List.mem_cons.mp hx with rfl | hx
      · exact List.mem_cons_self
      · exact List.mem_cons_of_mem _ (ih hr x hx)

/-- The fault that is taken waited for its kind. -/
theorem mem_of_takeFault? {kind : Request.Kind} {faults rest : List (Request.Kind × Fault)}
    {f : Fault} (h : takeFault? kind faults = some (f, rest)) : (kind, f) ∈ faults := by
  induction faults generalizing rest with
  | nil => cases h
  | cons first more ih =>
    obtain ⟨k, g⟩ := first
    rw [takeFault?] at h
    split at h
    · rename_i hk
      cases h
      subst hk
      exact List.mem_cons_self
    · obtain ⟨⟨f', rest'⟩, hr, he⟩ := Option.map_eq_some_iff.mp h
      cases he
      exact List.mem_cons_of_mem _ (ih hr)

/-- Without a waiting fault, an answer is what serving gives. -/
theorem answer_of_none {request : Request} (h : takeFault? request.kind s.faults = none) :
    s.answer request = (s.record request).serve request := by
  have h' : takeFault? request.kind (s.record request).faults = none := h
  simp only [answer, h']

/-- With a waiting fault, that fault is the answer. -/
theorem answer_of_some {request : Request} {f : Fault} {rest : List (Request.Kind × Fault)}
    (h : takeFault? request.kind s.faults = some (f, rest)) :
    s.answer request = (.error f, { s.record request with faults := rest }) := by
  have h' : takeFault? request.kind (s.record request).faults = some (f, rest) := h
  simp only [answer, h']

/-- A request is fulfilled only if no fault waited for it. -/
theorem answer_eq_ok {request : Request} {reply : request.Reply}
    (h : s.answer request = (.ok reply, s')) :
    takeFault? request.kind s.faults = none ∧
      (s.record request).serve request = (.ok reply, s') := by
  cases ht : takeFault? request.kind s.faults with
  | none => exact ⟨rfl, (answer_of_none ht).symm.trans h⟩
  | some p =>
    rw [answer_of_some ht] at h
    cases h

/-- A request that faults, and one that only looks, leave everything but log and waiting faults. -/
theorem undisturbed_answer {request : Request}
    (h : isLook request = true ∨ ∃ f, (s.answer request).1 = .error f) :
    Undisturbed s (s.answer request).2 := by
  cases ht : takeFault? request.kind s.faults with
  | some p =>
    rw [answer_of_some ht]
    exact ⟨s.log ++ [request], p.2, rfl, takeFault?_subset ht⟩
  | none =>
    have hs : ((s.record request).serve request).2 = s.record request := by
      rcases h with h | ⟨f, h⟩
      · exact serve_of_isLook h
      · rw [answer_of_none ht] at h
        exact serve_of_error (Prod.ext h rfl)
    rw [answer_of_none ht, hs]
    exact undisturbed_record s request

end Store

/-! ## Changes -/

/-- What a request changes in a bucket: at most one object and at most one upload. Each is given by
its name and by what is there afterwards, if anything. -/
structure Change where
  bucket : String
  object : Option (String × Option KeptObject) := none
  upload : Option (UploadName × Option Upload) := none

namespace Store

/-- Sets the value under a key, or takes it away. -/
def putOrErase {κ α : Type} [LT κ] [DecidableLT κ] [LE κ] [Std.IsLinearOrder κ]
    [Std.LawfulOrderLT κ] (t : Table κ α) : Option (κ × Option α) → Table κ α
  | none => t
  | some (k, none) => t.erase k
  | some (k, some a) => t.insert k a

theorem get?_putOrErase {κ α : Type} [LT κ] [DecidableLT κ] [LE κ] [Std.IsLinearOrder κ]
    [Std.LawfulOrderLT κ] [DecidableEq κ] (t : Table κ α) (e : Option (κ × Option α)) (q : κ) :
    (putOrErase t e).get? q =
      match e with
      | none => t.get? q
      | some (k, a) => if k = q then a else t.get? q := by
  match e with
  | none => rfl
  | some (k, none) => exact t.get?_erase k q
  | some (k, some a) => exact t.get?_insert k q a

/-- The bucket after a change. -/
def changed (b : Bucket) (c : Change) : Bucket :=
  { b with objects := putOrErase b.objects c.object, uploads := putOrErase b.uploads c.upload }

/-- One store comes from another by a change to a bucket that is there; no fault was taken. -/
structure Alters (s : Store) (c : Change) (s' : Store) : Prop where
  buckets : ∃ b, s.buckets.get? c.bucket = some b ∧
    s'.buckets = s.buckets.insert c.bucket (changed b c)
  faults : s'.faults = s.faults

variable {s s' : Store} {c : Change}

/-- The objects after a change: the one that it names, and all others as before. -/
theorem Alters.objectAt? (h : Alters s c s') (bucket key : String) :
    s'.objectAt? bucket key =
      match c.object with
      | none => s.objectAt? bucket key
      | some (k, o) => if c.bucket = bucket ∧ k = key then o else s.objectAt? bucket key := by
  obtain ⟨b, hb, hs⟩ := h.buckets
  have hget : s'.objectAt? bucket key = if c.bucket = bucket
      then (putOrErase b.objects c.object).get? key else s.objectAt? bucket key := by
    rw [objectAt?_congr (s := s.setBucket c.bucket (changed b c)) hs, objectAt?_setBucket]
    rfl
  rw [hget, get?_putOrErase]
  by_cases hbucket : c.bucket = bucket
  · subst hbucket
    rw [if_pos rfl, objectAt?_of_bucket hb]
    cases c.object with
    | none => rfl
    | some e => simp only [true_and]
  · rw [if_neg hbucket]
    cases c.object with
    | none => rfl
    | some e => simp only [hbucket, false_and, if_false]

/-- The uploads after a change: the one that it names, and all others as before. -/
theorem Alters.uploadAt? (h : Alters s c s') (bucket : String) (name : UploadName) :
    s'.uploadAt? bucket name =
      match c.upload with
      | none => s.uploadAt? bucket name
      | some (n, u) => if c.bucket = bucket ∧ n = name then u else s.uploadAt? bucket name := by
  obtain ⟨b, hb, hs⟩ := h.buckets
  have hget : s'.uploadAt? bucket name = if c.bucket = bucket
      then (putOrErase b.uploads c.upload).get? name else s.uploadAt? bucket name := by
    rw [uploadAt?_congr (s := s.setBucket c.bucket (changed b c)) hs, uploadAt?_setBucket]
    rfl
  rw [hget, get?_putOrErase]
  by_cases hbucket : c.bucket = bucket
  · subst hbucket
    rw [if_pos rfl, uploadAt?_of_bucket hb]
    cases c.upload with
    | none => rfl
    | some e => simp only [true_and]
  · rw [if_neg hbucket]
    cases c.upload with
    | none => rfl
    | some e => simp only [hbucket, false_and, if_false]

/-! ## What an answer alters -/

theorem answer_putObject_ok {r : Request.PutObject} {reply : Reply.Stored}
    (h : s.answer (.putObject r) = (.ok reply, s')) :
    reply = ⟨some (bodyEtag r.body)⟩ ∧
      Alters s { bucket := r.bucket, object := some (r.key, some (kept r s.now)) } s' := by
  obtain ⟨-, hs⟩ := answer_eq_ok h
  obtain ⟨b, hb, -, -, hreply, rfl⟩ := putObject_ok.mp hs
  exact ⟨hreply, ⟨b, hb, rfl⟩, rfl⟩

theorem answer_deleteObject_ok {r : Request.DeleteObject} {reply : Unit}
    (h : s.answer (.deleteObject r) = (.ok reply, s')) :
    Alters s { bucket := r.bucket, object := some (r.key, none) } s' := by
  obtain ⟨-, hs⟩ := answer_eq_ok h
  obtain ⟨b, hb, -, rfl⟩ := deleteObject_ok.mp hs
  exact ⟨⟨b, hb, rfl⟩, rfl⟩

theorem answer_createUpload_ok {r : Request.CreateUpload} {reply : Reply.Opened}
    (h : s.answer (.createUpload r) = (.ok reply, s')) :
    reply = ⟨some s.nextId⟩ ∧
      Alters s { bucket := r.bucket, upload := some (⟨r.key, s.nextId⟩, some (opened r s.now)) }
        s' := by
  obtain ⟨-, hs⟩ := answer_eq_ok h
  obtain ⟨b, hb, -, hreply, rfl⟩ := createUpload_ok.mp hs
  exact ⟨hreply, ⟨b, hb, rfl⟩, rfl⟩

/-- Opening an upload gives an id away. -/
theorem drawn_answer_createUpload {r : Request.CreateUpload} {reply : Reply.Opened}
    (h : s.answer (.createUpload r) = (.ok reply, s')) : s'.drawn = s.drawn + 1 := by
  obtain ⟨-, hs⟩ := answer_eq_ok h
  obtain ⟨b, -, -, -, rfl⟩ := createUpload_ok.mp hs
  rfl

theorem answer_uploadPart_ok {r : Request.UploadPart} {reply : Reply.Stored}
    (h : s.answer (.uploadPart r) = (.ok reply, s')) :
    reply = ⟨some (bodyEtag r.body)⟩ ∧ ∃ u, s.uploadAt? r.bucket ⟨r.key, r.uploadId⟩ = some u ∧
      Alters s
        { bucket := r.bucket
          upload := some (⟨r.key, r.uploadId⟩,
            some { u with parts := u.parts.insert r.number (keptPart r s.now) }) } s' := by
  obtain ⟨-, hs⟩ := answer_eq_ok h
  obtain ⟨b, u, hb, -, hu, -, -, hreply, rfl⟩ := uploadPart_ok.mp hs
  exact ⟨hreply, u, (uploadAt?_of_bucket hb _).trans hu, ⟨b, hb, rfl⟩, rfl⟩

theorem answer_completeUpload_ok {r : Request.CompleteUpload} {reply : Reply.Stored}
    (h : s.answer (.completeUpload r) = (.ok reply, s')) :
    ∃ u bodies, s.uploadAt? r.bucket ⟨r.key, r.uploadId⟩ = some u ∧
      gather s.minPartSize u.parts r.parts = .ok bodies ∧ reply = ⟨some (partsEtag bodies)⟩ ∧
      Alters s
        { bucket := r.bucket
          object := some (r.key, some (assembled u bodies s.now))
          upload := some (⟨r.key, r.uploadId⟩, none) } s' := by
  obtain ⟨-, hs⟩ := answer_eq_ok h
  obtain ⟨b, u, bodies, hb, hu, -, -, hg, hreply, rfl⟩ := completeUpload_ok.mp hs
  exact ⟨u, bodies, (uploadAt?_of_bucket hb _).trans hu, hg, hreply, ⟨b, hb, rfl⟩, rfl⟩

theorem answer_abortUpload_ok {r : Request.AbortUpload} {reply : Unit}
    (h : s.answer (.abortUpload r) = (.ok reply, s')) :
    Alters s { bucket := r.bucket, upload := some (⟨r.key, r.uploadId⟩, none) } s' := by
  obtain ⟨-, hs⟩ := answer_eq_ok h
  obtain ⟨b, u, hb, -, rfl⟩ := abortUpload_ok.mp hs
  exact ⟨⟨b, hb, rfl⟩, rfl⟩

end Store

end ObjectStore
