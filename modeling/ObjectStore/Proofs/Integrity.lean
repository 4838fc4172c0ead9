import ObjectStore.Proofs.Contents
import ObjectStore.Proofs.Paging

/-!
# Integrity of what is kept

Some facts about what a store keeps can be checked on the contents alone, with no look at how they came
to be: a part has a number in bounds, an entity tag belongs to the body beside it, and nothing is both
encrypted by the backend and guarded by a customer key (`Store.Intact`).

They hold in buckets without contents, and a request preserves them whatever is in its fields, also when
it is sent past a mount and its checks. A request does one of two things to the buckets of a store:
nothing, or it puts another bucket in the place of one that is there, and does no harm to it
(`BucketStep`). So a store has the same buckets after any requests, and what is in them is intact
(`contents_intact`).
-/

namespace ObjectStore

/-! ## What is intact -/

/-- That an entity tag belongs to a body: it is the MD5 of the body, or the body is put together from
pieces and it is the MD5 of their MD5s, with their number. -/
inductive TagsBody : (etag : String) → (body : Bytes) → Prop where
  | whole (body : Bytes) : TagsBody (Store.quoted (md5 body).hex) body
  | pieces (bodies : List Bytes) (hbodies : bodies ≠ []) :
    TagsBody (Store.quoted ((md5 (bodies.map md5).flatten).hex ++ "-" ++ toString bodies.length))
      bodies.flatten

/-- An object with a tag that belongs to its body, and at most one of the two encryptions. -/
structure KeptObject.Intact (o : KeptObject) : Prop where
  etag : TagsBody o.etag o.body
  encryption : o.encryption = none ∨ o.lock = none

/-- A part with a number in bounds and the tag of its body. -/
structure KeptPart.Intact (number : Int32) (p : KeptPart) : Prop where
  number_mem : 1 ≤ number.toInt ∧ number.toInt ≤ 10000
  etag : p.etag = Store.quoted (md5 p.body).hex

/-- An upload whose parts are intact, with at most one of the two encryptions. -/
structure Upload.Intact (u : Upload) : Prop where
  parts : ∀ number p, u.parts.get? number = some p → KeptPart.Intact number p
  encryption : u.encryption = none ∨ u.lock = none

/-- A bucket with nothing in it that is not intact. -/
structure Bucket.Intact (b : Bucket) : Prop where
  objects : ∀ key o, b.objects.get? key = some o → o.Intact
  uploads : ∀ name u, b.uploads.get? name = some u → u.Intact

/-- A store with nothing in it that is not intact. -/
def Store.Intact (s : Store) : Prop := ∀ name b, s.buckets.get? name = some b → b.Intact

/-! ## What stays intact -/

/-- An upload stays intact with one more part that is so. -/
theorem Upload.Intact.insertPart {u : Upload} (h : u.Intact) {number : Int32} {p : KeptPart}
    (hp : KeptPart.Intact number p) :
    Upload.Intact { u with parts := u.parts.insert number p } := by
  refine ⟨fun number' p' hp' => ?_, h.encryption⟩
  rw [Table.get?_insert] at hp'
  split at hp'
  · rename_i hsame
    cases hp'
    exact hsame ▸ hp
  · exact h.parts number' p' hp'

namespace Bucket.Intact

variable {b : Bucket} {key : String} {name : UploadName}

/-- A bucket without contents. -/
theorem of_empty (hobjects : b.objects = ∅) (huploads : b.uploads = ∅) : b.Intact := by
  constructor
  · intro key o ho
    rw [hobjects] at ho
    cases ho
  · intro name u hu
    rw [huploads] at hu
    cases hu

theorem insertObject (h : b.Intact) {o : KeptObject} (ho : o.Intact) :
    Bucket.Intact { b with objects := b.objects.insert key o } := by
  refine ⟨fun key' o' ho' => ?_, h.uploads⟩
  rw [Table.get?_insert] at ho'
  split at ho'
  · cases ho'
    exact ho
  · exact h.objects key' o' ho'

theorem eraseObject (h : b.Intact) : Bucket.Intact { b with objects := b.objects.erase key } := by
  refine ⟨fun key' o' ho' => ?_, h.uploads⟩
  rw [Table.get?_erase] at ho'
  split at ho'
  · cases ho'
  · exact h.objects key' o' ho'

theorem insertUpload (h : b.Intact) {u : Upload} (hu : u.Intact) :
    Bucket.Intact { b with uploads := b.uploads.insert name u } := by
  refine ⟨h.objects, fun name' u' hu' => ?_⟩
  rw [Table.get?_insert] at hu'
  split at hu'
  · cases hu'
    exact hu
  · exact h.uploads name' u' hu'

theorem eraseUpload (h : b.Intact) : Bucket.Intact { b with uploads := b.uploads.erase name } := by
  refine ⟨h.objects, fun name' u' hu' => ?_⟩
  rw [Table.get?_erase] at hu'
  split at hu'
  · cases hu'
  · exact h.uploads name' u' hu'

end Bucket.Intact

namespace Store

variable {s : Store}

/-! ## What requests make -/

/-- A request that passes the check of its encryption asks for at most one. -/
theorem eq_none_of_checkEncryption {encryption : Option Encryption} {key : Option CustomerKey}
    (h : checkEncryption encryption key = .ok ()) :
    encryption = none ∨ key.map (·.stamp) = none := by
  cases encryption with
  | none => exact .inl rfl
  | some e =>
    cases key with
    | none => exact .inr rfl
    | some k => cases h

theorem intact_kept {r : Request.PutObject} (h : checkEncryption r.encryption r.customerKey = .ok ())
    (now : Instant) : (kept r now).Intact where
  etag := .whole r.body
  encryption := eq_none_of_checkEncryption h

theorem intact_opened {r : Request.CreateUpload}
    (h : checkEncryption r.encryption r.customerKey = .ok ()) (now : Instant) :
    (opened r now).Intact where
  parts number p hp := by cases hp
  encryption := eq_none_of_checkEncryption h

/-- Numbers that a part may have are those in bounds. -/
theorem validNumber_iff {number : Int32} :
    validNumber number = true ↔ 1 ≤ number.toInt ∧ number.toInt ≤ 10000 := by
  simp only [validNumber, Bool.and_eq_true, decide_eq_true_eq]
  omega

theorem intact_keptPart {r : Request.UploadPart} (h : validNumber r.number = true) (now : Instant) :
    KeptPart.Intact r.number (keptPart r now) where
  number_mem := validNumber_iff.mp h
  etag := rfl

/-- As many bodies are gathered as there are parts chosen. -/
theorem length_gather {least : UInt64} {parts : Table Int32 KeptPart}
    {choices : List Request.PartChoice} {bodies : List Bytes}
    (h : gather least parts choices = .ok bodies) : bodies.length = choices.length := by
  induction choices generalizing bodies with
  | nil =>
    cases h
    rfl
  | cons choice rest ih =>
    rw [gather] at h
    split at h
    · cases h
    · split at h
      · cases h
      · cases hrest : gather least parts rest with
        | error f =>
          rw [hrest] at h
          cases h
        | ok more =>
          rw [hrest] at h
          cases h
          exact congrArg (· + 1) (ih hrest)

theorem intact_assembled {u : Upload} (hu : u.Intact) {bodies : List Bytes} (h : bodies ≠ [])
    (now : Instant) : (assembled u bodies now).Intact where
  etag := by
    have hpieces := TagsBody.pieces bodies h
    rw [← List.flatMap_def] at hpieces
    exact hpieces
  encryption := hu.encryption

end Store

/-! ## Requests -/

/-- What a request may do to the buckets of a store: nothing, or it puts another bucket in the place of
one that is there, and does no harm to what is in it. -/
inductive BucketStep (buckets : Table String Bucket) : Table String Bucket → Prop where
  | stays : BucketStep buckets buckets
  | replaces {name : String} {b b' : Bucket} (hb : buckets.get? name = some b)
    (hharmless : b.Intact → b'.Intact) : BucketStep buckets (buckets.insert name b')

/-- A table has the same keys with another value under one of them. -/
theorem Table.keys_insert_of_get? {α : Type} {t : Table String α} {k : String} {a : α}
    (h : t.get? k = some a) (a' : α) : (t.insert k a').keys = t.keys := by
  refine eq_of_ascending (f := id) (List.pairwise_map.mpr (t.insert k a').ascending)
    (List.pairwise_map.mpr t.ascending) fun q => ?_
  simp only [mem_keys_iff, get?_insert]
  split
  · rename_i hsame
    simp [← hsame, h]
  · rfl

namespace BucketStep

variable {buckets buckets' : Table String Bucket}

/-- The names of the buckets stay. -/
theorem keys (h : BucketStep buckets buckets') : buckets'.keys = buckets.keys := by
  cases h with
  | stays => rfl
  | replaces hb _ => exact Table.keys_insert_of_get? hb _

/-- What is intact stays so. -/
theorem intact (h : BucketStep buckets buckets')
    (hintact : ∀ name b, buckets.get? name = some b → b.Intact) :
    ∀ name b, buckets'.get? name = some b → b.Intact := by
  cases h with
  | stays => exact hintact
  | replaces hb hharmless =>
    intro name b hget
    rw [Table.get?_insert] at hget
    split at hget
    · cases hget
      exact hharmless (hintact _ _ hb)
    · exact hintact name b hget

end BucketStep

namespace Store

variable {s : Store}

/-- **What serving a request does to the buckets.** -/
theorem bucketStep_serve (s : Store) (request : Request) :
    BucketStep s.buckets (s.serve request).2.buckets := by
  rcases hserve : s.serve request with ⟨f | reply, s'⟩
  · rw [serve_of_error hserve]
    exact .stays
  cases request with
  | putObject r =>
    obtain ⟨b, hb, hencryption, -, -, rfl⟩ := putObject_ok.mp hserve
    exact .replaces hb fun hintact => hintact.insertObject (intact_kept hencryption s.now)
  | deleteObject r =>
    obtain ⟨b, hb, -, rfl⟩ := deleteObject_ok.mp hserve
    exact .replaces hb fun hintact => hintact.eraseObject
  | createUpload r =>
    obtain ⟨b, hb, hencryption, -, rfl⟩ := createUpload_ok.mp hserve
    exact .replaces hb fun hintact => hintact.insertUpload (intact_opened hencryption s.now)
  | uploadPart r =>
    obtain ⟨b, u, hb, hnumber, hu, -, -, -, rfl⟩ := uploadPart_ok.mp hserve
    refine .replaces hb fun hintact => hintact.insertUpload ?_
    exact (hintact.uploads _ u hu).insertPart (intact_keptPart hnumber s.now)
  | completeUpload r =>
    obtain ⟨b, u, bodies, hb, hu, hparts, -, hgather, -, rfl⟩ := completeUpload_ok.mp hserve
    have hbodies : bodies ≠ [] := by
      intro hnil
      have hlength := length_gather hgather
      rw [hnil] at hlength
      exact hparts (List.eq_nil_of_length_eq_zero hlength.symm)
    refine .replaces hb fun hintact => ?_
    have hobject := intact_assembled (hintact.uploads _ u hu) hbodies s.now
    exact (hintact.insertObject hobject).eraseUpload
  | abortUpload r =>
    obtain ⟨b, u, hb, -, rfl⟩ := abortUpload_ok.mp hserve
    exact .replaces hb fun hintact => hintact.eraseUpload
  | listBuckets | listObjects r | listUploads r | listParts r | headObject r | getObject r =>
    cases (congrArg Prod.snd hserve : s = s')
    exact .stays

/-- A fault that waits is answered with no look at the buckets. -/
theorem bucketStep_answer (s : Store) (request : Request) :
    BucketStep s.buckets (s.answer request).2.buckets := by
  cases ht : takeFault? request.kind s.faults with
  | some p =>
    rw [answer_of_some ht]
    exact .stays
  | none =>
    rw [answer_of_none ht]
    exact bucketStep_serve (s.record request) request

/-! ## Runs of requests -/

/-- The store after several requests, in their order. -/
def answers (s : Store) (requests : List Request) : Store :=
  requests.foldl (fun s request => (s.answer request).2) s

/-- Any requests leave the names of the buckets, and what is intact. -/
theorem Intact.answers (h : s.Intact) (requests : List Request) :
    (s.answers requests).buckets.keys = s.buckets.keys ∧ (s.answers requests).Intact := by
  induction requests generalizing s with
  | nil => exact ⟨rfl, h⟩
  | cons request requests ih =>
    have hstep := s.bucketStep_answer request
    obtain ⟨hkeys, hintact⟩ := ih (s := (s.answer request).2) (hstep.intact h)
    exact ⟨hkeys.trans hstep.keys, hintact⟩

end Store

/-- **What a store keeps is intact** after any requests to a store whose buckets were empty, and it has
the buckets that it had. -/
theorem contents_intact (start : Store)
    (hempty : ∀ name b, start.buckets.get? name = some b → b.objects = ∅ ∧ b.uploads = ∅)
    (requests : List Request) :
    (start.answers requests).buckets.keys = start.buckets.keys ∧
      (start.answers requests).Intact := by
  have hstart : start.Intact := by
    intro name b hb
    obtain ⟨hobjects, huploads⟩ := hempty name b hb
    exact .of_empty hobjects huploads
  exact hstart.answers requests

/-- An object is made from two parts, after requests that fault: one for a part with a number out of
bounds, and one for an object with two encryptions. -/
theorem contents_intact_two_pieces :
    let key : CustomerKey := ⟨"AES256", List.replicate 32 1, rfl⟩
    let start := Store.withBuckets ["b"] (fun n => toString n) 0 false
    let s := start.answers [
      .createUpload { bucket := "b", key := "k", encryption := some .aes256 },
      .uploadPart { bucket := "b", key := "k", uploadId := "0", number := 10001, body := [1] },
      .uploadPart { bucket := "b", key := "k", uploadId := "0", number := 10000, body := [3] },
      .uploadPart { bucket := "b", key := "k", uploadId := "0", number := 1, body := [1, 2] },
      .completeUpload ⟨"b", "k", "0",
        [⟨1, Store.bodyEtag [1, 2]⟩, ⟨10000, Store.bodyEtag [3]⟩]⟩,
      .putObject { bucket := "b", key := "k", encryption := some .aes256, customerKey := some key }]
    (∀ name b, start.buckets.get? name = some b → b.objects = ∅ ∧ b.uploads = ∅) ∧
      s.buckets.keys = ["b"] ∧ s.bodyAt? "b" "k" = some [1, 2, 3] ∧
      ∃ o, s.objectAt? "b" "k" = some o ∧ TagsBody o.etag [1, 2, 3] ∧ o.lock = none := by
  intro key start s
  have hempty : ∀ name b, start.buckets.get? name = some b → b.objects = ∅ ∧ b.uploads = ∅ := by
    intro name b hb
    have hentries : start.buckets.entries = [("b", { created := .epoch })] := rfl
    rw [Table.get?_eq_some_iff, hentries, List.mem_singleton] at hb
    cases hb
    exact ⟨rfl, rfl⟩
  obtain ⟨hkeys, hintact⟩ := contents_intact start hempty _
  have hbody : s.bodyAt? "b" "k" = some [1, 2, 3] := by decide +kernel
  obtain ⟨o, ho, hdata⟩ := Option.map_eq_some_iff.mp ((s.bodyAt?_eq "b" "k").symm.trans hbody)
  obtain ⟨b, hb, hget⟩ := Option.bind_eq_some_iff.mp ho
  have hobject := (hintact "b" b hb).objects "k" o hget
  have hencrypted : (s.objectAt? "b" "k").map (·.encryption) = some (some .aes256) := by
    decide +kernel
  rw [ho] at hencrypted
  refine ⟨hempty, hkeys, hbody, o, ho, hdata ▸ hobject.etag, ?_⟩
  refine hobject.encryption.resolve_left fun hnone => ?_
  rw [Option.map_some, hnone] at hencrypted
  cases hencrypted

end ObjectStore
