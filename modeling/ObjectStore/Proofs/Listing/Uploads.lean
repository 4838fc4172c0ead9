import ObjectStore.Mount.Uploads
import ObjectStore.Proofs.Listing.Objects

/-!
# Listings of uploads and of parts

The open uploads below a stem are entries under two marks, key and id, which a request passes on one
by one; past two markers that come from one name are just the uploads past that name. The parts of an
upload are entries under their numbers. A number that has no index shows nothing, and a page with such
a number fails.
-/

namespace ObjectStore

/-! ## Listings of open uploads -/

namespace Store

variable {s s' : Store}

/-- A request for uploads meets a fault, or is answered with a page and leaves but its record. -/
theorem answer_listUploads (s : Store) (r : Request.ListUploads) :
    (∃ f, s.refusal? .listUploads r.bucket = some f ∧ (s.answer (.listUploads r)).1 = .error f) ∨
      ∃ b, s.refusal? .listUploads r.bucket = none ∧ s.buckets.get? r.bucket = some b ∧
        s.answer (.listUploads r) = (.ok (listUploads b r), s.record (.listUploads r)) :=
  @answer_showing (.listUploads r) r.bucket (fun b => listUploads b r) (fun _ => rfl) s

/-- A request for uploads that is fulfilled is answered with a page of the bucket. -/
theorem answer_listUploads_ok {r : Request.ListUploads} {reply : Reply.Uploads}
    (h : s.answer (.listUploads r) = (.ok reply, s')) :
    ∃ b, s.buckets.get? r.bucket = some b ∧ reply = listUploads b r := by
  obtain ⟨-, hs⟩ := answer_eq_ok h
  cases hb : (s.record (.listUploads r)).bucket r.bucket with
  | error f =>
    simp only [serve, hb] at hs
    cases hs
  | ok b =>
    simp only [serve, hb] at hs
    cases hs
    exact ⟨b, bucket_eq_ok.mp hb, rfl⟩

/-- Past two markers that come from one name are the uploads past that name. -/
theorem pastMarkers_eq (mark : Option UploadName) (name : UploadName) :
    pastMarkers (mark.map (·.key)) (mark.map (·.id)) name = mark.all fun k => decide (k < name) := by
  cases mark <;> rfl

/-- The open uploads below a stem. -/
def uploadsBelow (stem : String) (b : Bucket) : List (UploadName × Upload) :=
  b.uploads.entries.filter fun e => Text.startsWith stem e.1.key

theorem ascending_uploadsBelow (stem : String) (b : Bucket) :
    (uploadsBelow stem b).Pairwise fun x y => x.1 < y.1 :=
  b.uploads.ascending.filter _

section

variable {b : Bucket} {bucket stem : String} {limit : Int32} {mark : Option UploadName}

theorem past_uploadsBelow :
    (b.uploads.entries.filter fun e => Text.startsWith stem e.1.key &&
      pastMarkers (mark.map (·.key)) (mark.map (·.id)) e.1) = past mark (uploadsBelow stem b) := by
  rw [past, uploadsBelow, List.filter_filter]
  refine List.filter_congr fun e _ => ?_
  rw [pastMarkers_eq, Bool.and_comm]

/-- A page of uploads is the first of those past the markers. -/
theorem listUploads_uploads :
    (listUploads b ⟨bucket, stem, limit, mark.map (·.key), mark.map (·.id)⟩).uploads =
      ((past mark (uploadsBelow stem b)).take (pageLimit limit)).map fun e =>
        ⟨e.1.key, e.1.id, some e.2.initiated, e.2.storageClass⟩ := by
  rw [← past_uploadsBelow]
  rfl

/-- A page of uploads that leaves some out names its last one. -/
theorem listUploads_more (bucket : String) {last : UploadName × Upload}
    (h : pageLimit limit < (past mark (uploadsBelow stem b)).length)
    (hlast : ((past mark (uploadsBelow stem b)).take (pageLimit limit)).getLast? = some last) :
    (listUploads b ⟨bucket, stem, limit, mark.map (·.key), mark.map (·.id)⟩).truncated = true ∧
      (listUploads b ⟨bucket, stem, limit, mark.map (·.key), mark.map (·.id)⟩).nextKey =
        some last.1.key ∧
      (listUploads b ⟨bucket, stem, limit, mark.map (·.key), mark.map (·.id)⟩).nextId =
        some last.1.id := by
  rw [← past_uploadsBelow] at h hlast
  exact ⟨decide_eq_true h, congrArg (Option.map UploadName.key) (last_mark h hlast),
    congrArg (Option.map UploadName.id) (last_mark h hlast)⟩

theorem listUploads_last (bucket : String)
    (h : ¬ pageLimit limit < (past mark (uploadsBelow stem b)).length) :
    (listUploads b ⟨bucket, stem, limit, mark.map (·.key), mark.map (·.id)⟩).truncated = false := by
  rw [← past_uploadsBelow] at h
  exact decide_eq_false h

end

end Store

namespace Mount

/-- What a listing of uploads shows for an entry. -/
def uploadItem (m : Mount) (e : UploadName × Upload) : Option Object :=
  some (m.ofUpload ⟨e.1.key, e.1.id, some e.2.initiated, e.2.storageClass⟩)

/-- The position past a mark in a listing of uploads. -/
def uploadPlace (m : Mount) (stem : String) (mark : Option UploadName) : ListingPosition :=
  .uploads ⟨stem, m.pageSize, mark.map (·.key), mark.map (·.id)⟩

/-- All open uploads that a listing goes through. -/
def uploadEntries (m : Mount) (stem : String) (s : Store) : List (UploadName × Option Object) :=
  (s.buckets.get? m.bucket).elim [] fun b => showing m.uploadItem (Store.uploadsBelow stem b)

/-- A fetch of uploads, where the bucket is there: the page that is cut from the entries. -/
theorem fetched_listUploads (m : Mount) (b : Bucket) (stem : String) (mark : Option UploadName) :
    let c : UploadPosition := ⟨stem, m.pageSize, mark.map (·.key), mark.map (·.id)⟩
    let reply := Store.listUploads b ⟨m.bucket, c.stem, c.limit, c.keyMarker, c.idMarker⟩
    fetched c .uploads (nextUpload c reply) (reply.uploads.map m.ofUpload) =
      cut (m.uploadPlace stem) (fun n => decide (n.key ≠ "")) .uploadMarkerMissing
        (Store.pageLimit m.pageSize) mark
        (past mark (showing m.uploadItem (Store.uploadsBelow stem b))) := by
  intro c reply
  have hitems : reply.uploads.map m.ofUpload =
      ((past mark (Store.uploadsBelow stem b)).take (Store.pageLimit m.pageSize)).filterMap
        m.uploadItem := by
    rw [Store.listUploads_uploads, List.map_map, ← List.filterMap_eq_map]
    rfl
  rw [past_showing]
  refine fetched_eq_cut m.pageLimit_pos rfl hitems (fun hall => ?_) fun last hmore hlast => ?_
  · rw [nextUpload, if_neg (Bool.eq_false_iff.mp (Store.listUploads_last m.bucket hall))]
  · obtain ⟨htruncated, hkey, hid⟩ := Store.listUploads_more m.bucket hmore hlast
    rw [nextUpload, if_pos htruncated, hkey, hid, Option.filter_some]
    constructor
    · intro haccepts
      rw [if_pos haccepts]
      exact ⟨_, rfl, rfl⟩
    · intro hrefused
      rw [if_neg (Bool.eq_false_iff.mp hrefused)]

/-- The request for the page of uploads past a mark. -/
def uploadsRequest (m : Mount) (stem : String) (mark : Option UploadName) : Request :=
  .listUploads ⟨m.bucket, stem, m.pageSize, mark.map (·.key), mark.map (·.id)⟩

/-- The page of uploads that is cut from entries past a mark. -/
def uploadsPage (m : Mount) (stem : String) (mark : Option UploadName)
    (entries : List (UploadName × Option Object)) : Fetch ListingPosition Object :=
  cut (m.uploadPlace stem) (fun n => decide (n.key ≠ "")) .uploadMarkerMissing
    (Store.pageLimit m.pageSize) mark (past mark entries)

/-- **A fetch of uploads** is refused, or cuts a page from the entries and leaves but the record of its
request. -/
theorem run_uploadPlace (m : Mount) (stem : String) (mark : Option UploadName) (s : Store) :
    (∃ f, s.refusal? .listUploads m.bucket = some f ∧
        ((m.objectPage (m.uploadPlace stem mark)).run s).1 =
          ⟨m.uploadPlace stem mark, .failed (.ofFault f)⟩) ∨
      (s.refusal? .listUploads m.bucket = none ∧
        (m.objectPage (m.uploadPlace stem mark)).run s =
          (m.uploadsPage stem mark (m.uploadEntries stem s),
            s.record (m.uploadsRequest stem mark))) := by
  rcases s.answer_listUploads ⟨m.bucket, stem, m.pageSize, mark.map (·.key), mark.map (·.id)⟩ with
    ⟨f, hf, h⟩ | ⟨b, hf, hb, h⟩
  · exact .inl ⟨f, hf, run_askPage_error h⟩
  · refine .inr ⟨hf, ?_⟩
    rw [uploadsPage, uploadEntries, hb, Option.elim_some, ← fetched_listUploads]
    exact run_askPage_ok h

/-- The listing of open uploads as pages of its entries. -/
def uploadPaging (m : Mount) (stem : String) : Paging Store ListingPosition Object UploadName where
  source position s := (m.objectPage position).run s
  place := m.uploadPlace stem
  limit := Store.pageLimit m.pageSize
  accepts n := decide (n.key ≠ "")
  entries := m.uploadEntries stem
  mark o := ⟨o.id, o.uploadId.getD ""⟩
  limit_pos := m.pageLimit_pos
  ascending _ := ascending_elim_showing _ m.uploadItem (Store.ascending_uploadsBelow stem)
  mark_eq := by
    intro s k i h
    obtain ⟨b, -, u, -, hitem⟩ := mem_elim_showing.mp h
    cases hitem
    rfl
  steady t s := by
    rw [uploadEntries, uploadEntries, (m.undisturbed_objectPage (m.uploadPlace stem t) s).buckets]
  page_ok := by
    intro t s isLast _ h
    rcases ha : s.answer (.listUploads
      ⟨m.bucket, stem, m.pageSize, t.map (·.key), t.map (·.id)⟩) with ⟨f | reply, s'⟩
    · have hrun : ((m.objectPage (m.uploadPlace stem t)).run s).1 =
          ⟨m.uploadPlace stem t, .failed (.ofFault f)⟩ :=
        run_askPage_error (congrArg Prod.fst ha)
      rw [hrun] at h
      cases h
    · obtain ⟨b, hb, rfl⟩ := Store.answer_listUploads_ok ha
      have hrun : (m.objectPage (m.uploadPlace stem t)).run s =
          (cut (m.uploadPlace stem) (fun n => decide (n.key ≠ "")) .uploadMarkerMissing
            (Store.pageLimit m.pageSize) t (past t (m.uploadEntries stem s)), s') := by
        rw [uploadEntries, hb, Option.elim_some, ← fetched_listUploads]
        exact run_askPage_ok ha
      rw [hrun] at h ⊢
      exact isPageOf_cut m.pageLimit_pos h

/-- An object of a listing of uploads: an open upload of a key that starts with the stem. -/
def ShowsUpload (m : Mount) (stem : String) (s : Store) (i : Object) : Prop :=
  ∃ rest id u, s.uploadAt? m.bucket ⟨stem ++ rest, id⟩ = some u ∧
    i = m.ofUpload ⟨stem ++ rest, id, some u.initiated, u.storageClass⟩

end Mount

/-- The entries of a listing of uploads show just the open uploads below the stem. -/
theorem mem_uploadEntries {m : Mount} {stem : String} {s : Store} {n : UploadName} {i : Object} :
    (n, some i) ∈ m.uploadEntries stem s ↔
      m.ShowsUpload stem s i ∧ (⟨i.id, i.uploadId.getD ""⟩ : UploadName) = n := by
  rw [Mount.uploadEntries, mem_elim_showing]
  constructor
  · rintro ⟨b, hb, u, hmem, hitem⟩
    obtain ⟨hmem, hstem⟩ := List.mem_filter.mp hmem
    obtain ⟨rest, hrest⟩ := Text.startsWith_iff.mp hstem
    obtain ⟨key, id⟩ := n
    obtain rfl : key = stem ++ rest := hrest
    cases hitem
    refine ⟨⟨rest, id, u, ?_, rfl⟩, rfl⟩
    rw [Store.uploadAt?_of_bucket hb]
    exact (Table.get?_eq_some_iff b.uploads).mpr hmem
  · rintro ⟨⟨rest, id, u, hu, rfl⟩, rfl⟩
    obtain ⟨b, hb, hget⟩ := Option.bind_eq_some_iff.mp hu
    refine ⟨b, hb, u, List.mem_filter.mpr ⟨(Table.get?_eq_some_iff b.uploads).mp hget, ?_⟩, rfl⟩
    exact Text.startsWith_iff.mpr ⟨rest, rfl⟩

theorem Mount.length_uploadEntries_le (m : Mount) (stem : String) (s : Store) :
    (m.uploadEntries stem s).length ≤ s.entryCount := by
  rw [uploadEntries]
  cases hb : s.buckets.get? m.bucket with
  | none => exact Nat.zero_le _
  | some b =>
    have hbucket := Store.entryCount_le hb
    have hbelow : (Store.uploadsBelow stem b).length ≤ b.uploads.size := List.length_filter_le _ _
    rw [Option.elim_some, length_showing]
    rw [Bucket.entryCount] at hbucket
    omega

/-! ### Going on from upload to upload -/

/-- A listing of uploads breaks off at an upload to the empty key. -/
theorem breaksOff_names {size : Nat} {names : List UploadName} :
    BreaksOff (fun n : UploadName => decide (n.key ≠ "")) size names ↔
      EndsWithEmptyKey size (names.map (·.key)) := by
  simp [BreaksOff, EndsWithEmptyKey]

/-- An upload that comes after one to a key that is not empty has such a key too. -/
theorem UploadName.key_ne_empty_of_lt {j k : UploadName} (h : j < k) (hj : j.key ≠ "") :
    k.key ≠ "" := by
  rcases h with hlt | ⟨heq, -⟩
  · exact ne_empty_of_lt hlt
  · rw [← heq]
    exact hj

namespace Mount

/-- Listings of uploads go on from any upload after one that they go on from. -/
theorem upward_uploads (m : Mount) (stem : String) : (m.uploadPaging stem).Upward :=
  fun _ _ hlt hj => decide_eq_true (UploadName.key_ne_empty_of_lt hlt (of_decide_eq_true hj))

/-- A store that does not refuse listings of uploads answers their fetches. -/
theorem answeredBy_uploads {m : Mount} {s : Store}
    (hrefusal : s.refusal? .listUploads m.bucket = none) (stem : String) :
    (m.uploadPaging stem).AnsweredBy s .uploadMarkerMissing (m.uploadsRequest stem) where
  upward := m.upward_uploads stem
  length_le := m.length_uploadEntries_le stem s
  fetch t s' _ hbuckets hfaults := by
    have hsame : s'.refusal? .listUploads m.bucket = s.refusal? .listUploads m.bucket := by
      rw [Store.refusal?, Store.refusal?, hbuckets, hfaults]
    have hentries : m.uploadEntries stem s' = m.uploadEntries stem s := by
      rw [uploadEntries, uploadEntries, hbuckets]
    rcases m.run_uploadPlace stem t s' with ⟨f, hf, -⟩ | ⟨-, hrun⟩
    · rw [hsame, hrefusal] at hf
      cases hf
    · rw [hentries] at hrun
      exact hrun

end Mount

/-! ## Listings of parts -/

namespace Store

variable {s s' : Store}

/-- A request for parts that is fulfilled is answered with a page of the upload. -/
theorem answer_listParts_ok {r : Request.ListParts} {reply : Reply.Parts}
    (h : s.answer (.listParts r) = (.ok reply, s')) :
    ∃ u, s.uploadAt? r.bucket ⟨r.key, r.uploadId⟩ = some u ∧ reply = listParts u r := by
  obtain ⟨-, hs⟩ := answer_eq_ok h
  cases hb : (s.record (.listParts r)).bucket r.bucket with
  | error f =>
    simp only [serve, hb] at hs
    cases hs
  | ok b =>
    cases hu : findUpload b r.key r.uploadId with
    | error f =>
      simp only [serve, hb, Except.bind, hu] at hs
      cases hs
    | ok u =>
      simp only [serve, hb, Except.bind, hu] at hs
      cases hs
      exact ⟨u, (uploadAt?_of_bucket (bucket_eq_ok.mp hb) _).trans (findUpload_eq_ok.mp hu), rfl⟩

/-- Where no fault waits, a request for the parts of an open upload is answered with a page of them,
and leaves but its record. -/
theorem answer_listParts_of_open {r : Request.ListParts} {u : Upload}
    (hu : s.uploadAt? r.bucket ⟨r.key, r.uploadId⟩ = some u)
    (hnone : takeFault? .listParts s.faults = none) :
    s.answer (.listParts r) = (.ok (listParts u r), s.record (.listParts r)) := by
  obtain ⟨b, hb, hget⟩ := Option.bind_eq_some_iff.mp hu
  have hserved : s.answer (.listParts r) = (s.record (.listParts r)).serve (.listParts r) :=
    answer_of_none hnone
  have hbucket : (s.record (.listParts r)).bucket r.bucket = .ok b := bucket_eq_ok.mpr hb
  have hfind : findUpload b r.key r.uploadId = .ok u := findUpload_eq_ok.mpr hget
  rw [hserved]
  simp only [serve, hbucket, Except.bind, hfind]
  rfl

/-- The parts of an upload that a listing goes through: markers count from zero, so it starts at
part number one. -/
def numberedParts (u : Upload) : List (Int32 × KeptPart) :=
  u.parts.entries.filter fun e => decide (0 < e.1)

theorem ascending_numberedParts (u : Upload) :
    (numberedParts u).Pairwise fun x y => x.1 < y.1 :=
  u.parts.ascending.filter _

section

variable {u : Upload} {bucket key id : String} {limit : Int32} {mark : Option Int32}

theorem past_numberedParts (hmark : ∀ k ∈ mark, decide (0 < k) = true) :
    (u.parts.entries.filter fun e => decide (mark.getD 0 < e.1)) = past mark (numberedParts u) := by
  rw [past, numberedParts, List.filter_filter]
  refine List.filter_congr fun e _ => ?_
  cases mark with
  | none => exact (Bool.true_and _).symm
  | some k =>
    -- A marker is a number that was listed, so what is past it is past zero as well.
    have hpositive : 0 < k := of_decide_eq_true (hmark k rfl)
    rw [Option.all_some, Option.getD_some, ← Bool.decide_and]
    exact decide_eq_decide.mpr ⟨fun h => ⟨h, Std.lt_trans hpositive h⟩, And.left⟩

/-- A page of parts is the first of those past the marker. -/
theorem listParts_parts (hmark : ∀ k ∈ mark, decide (0 < k) = true) :
    (listParts u ⟨bucket, key, id, limit, mark⟩).parts =
      ((past mark (numberedParts u)).take (pageLimit limit)).map fun e =>
        ⟨e.1, UInt64.ofNat e.2.body.length, e.2.etag, some e.2.lastModified⟩ := by
  rw [← past_numberedParts hmark]
  rfl

/-- A page of parts that leaves some out names its last one. -/
theorem listParts_more (bucket key id : String) {last : Int32 × KeptPart}
    (hmark : ∀ k ∈ mark, decide (0 < k) = true)
    (h : pageLimit limit < (past mark (numberedParts u)).length)
    (hlast : ((past mark (numberedParts u)).take (pageLimit limit)).getLast? = some last) :
    (listParts u ⟨bucket, key, id, limit, mark⟩).truncated = true ∧
      (listParts u ⟨bucket, key, id, limit, mark⟩).nextMarker = some last.1 := by
  rw [← past_numberedParts hmark] at h hlast
  exact ⟨decide_eq_true h, last_mark h hlast⟩

theorem listParts_last (bucket key id : String) (hmark : ∀ k ∈ mark, decide (0 < k) = true)
    (h : ¬ pageLimit limit < (past mark (numberedParts u)).length) :
    (listParts u ⟨bucket, key, id, limit, mark⟩).truncated = false := by
  rw [← past_numberedParts hmark] at h
  exact decide_eq_false h

end

end Store

namespace Mount

/-- What a listing of parts shows for an entry: nothing for a number without an index. -/
def partItem (e : Int32 × KeptPart) : Option Part :=
  (indexOfNumber e.1).toOption.map fun index =>
    ⟨index, UInt64.ofNat e.2.body.length, e.2.etag⟩

/-- A part number is found again from its index. -/
theorem numberOfIndex_indexOfNumber {number : Int32} {index : UInt32}
    (h : indexOfNumber number = .ok index) : numberOfIndex index = .ok number := by
  simp only [indexOfNumber] at h
  split at h
  · rename_i hn
    obtain ⟨hone, hbound⟩ := hn
    -- In these bounds neither the subtraction nor the conversion loses anything.
    have hlt : number.toInt.toNat - 1 < 2 ^ 32 := by
      rw [partBound] at hbound
      omega
    have hnat : (UInt32.ofNat (number.toInt.toNat - 1)).toNat = number.toInt.toNat - 1 :=
      UInt32.toNat_ofNat_of_lt' hlt
    cases h
    have hback : Int32.ofNat number.toInt.toNat = number := by
      rw [← Int32.ofInt_eq_ofNat, Int.toNat_of_nonneg (by omega), Int32.ofInt_toInt]
    rw [numberOfIndex, hnat, if_pos (by omega), Nat.sub_add_cancel hone, hback]
  · cases h

/-- Part numbers count from one. -/
theorem toInt_numberOfIndex {index : UInt32} {number : Int32}
    (h : numberOfIndex index = .ok number) : number.toInt = index.toNat + 1 := by
  rw [numberOfIndex] at h
  split at h
  · rename_i hlt
    have hlt' : index.toNat + 1 < 2 ^ 31 := by
      rw [partBound] at hlt
      omega
    cases h
    rw [Int32.toInt_ofNat_of_lt hlt', Int.natCast_add]
    rfl
  · cases h

/-- The number of a part that has one. -/
def partMark (i : Part) : Int32 := ((numberOfIndex i.index).toOption).getD 0

theorem partMark_eq {i : Part} {number : Int32} (h : numberOfIndex i.index = .ok number) :
    partMark i = number := by
  rw [partMark, h]
  rfl

theorem partItem_eq_some {e : Int32 × KeptPart} {i : Part} (h : partItem e = some i) :
    numberOfIndex i.index = .ok e.1 ∧ i.size = UInt64.ofNat e.2.body.length ∧
      i.etag = e.2.etag := by
  obtain ⟨index, hindex, rfl⟩ := Option.map_eq_some_iff.mp h
  cases hn : indexOfNumber e.1 with
  | error e =>
    rw [hn] at hindex
    cases hindex
  | ok j =>
    rw [hn] at hindex
    cases hindex
    exact ⟨numberOfIndex_indexOfNumber hn, rfl, rfl⟩

theorem partItem_of_partOf {e : Int32 × KeptPart} {i : Part}
    (h : partOf ⟨e.1, UInt64.ofNat e.2.body.length, e.2.etag, some e.2.lastModified⟩ = .ok i) :
    partItem e = some i := by
  obtain ⟨index, hindex, hi⟩ := bind_eq_ok.mp h
  rw [partItem, hindex]
  exact congrArg some (Except.ok.inj hi)

/-- The parts of a page are what its entries show, if they all have an index. -/
theorem eq_filterMap_partItem {page : List (Int32 × KeptPart)} {parts : List Part}
    (h : (page.map fun e =>
        ⟨e.1, UInt64.ofNat e.2.body.length, e.2.etag, some e.2.lastModified⟩).map partOf =
      parts.map .ok) : parts = page.filterMap partItem := by
  induction page generalizing parts with
  | nil =>
    cases parts with
    | nil => rfl
    | cons i parts => cases h
  | cons e page ih =>
    cases parts with
    | nil => cases h
    | cons i parts =>
      obtain ⟨hi, hmore⟩ := List.cons.inj h
      rw [List.filterMap_cons, partItem_of_partOf hi, ih hmore]

/-- The position past a mark in a listing of parts. -/
def partPlace (m : Mount) (key id : String) (mark : Option Int32) : PartPosition :=
  ⟨key, id, m.pageSize, mark⟩

/-- A page of parts that is read is a page of what is left. -/
theorem isPageOf_readPartPage {m : Mount} {u : Upload} {key id : String} {mark : Option Int32}
    {isLast : Bool} (hmark : ∀ k ∈ mark, decide (0 < k) = true)
    (h : (readPartPage (m.partPlace key id mark)
      (Store.listParts u ⟨m.bucket, key, id, m.pageSize, mark⟩)).page.outcome = .ok isLast) :
    IsPageOf (m.partPlace key id) (fun n => decide (0 < n)) (Store.pageLimit m.pageSize)
      (past mark (showing partItem (Store.numberedParts u)))
      (readPartPage (m.partPlace key id mark)
        (Store.listParts u ⟨m.bucket, key, id, m.pageSize, mark⟩)).position
      (readPartPage (m.partPlace key id mark)
        (Store.listParts u ⟨m.bucket, key, id, m.pageSize, mark⟩)).page.items isLast := by
  have hread : ∀ {goesLast : Bool},
      (Page.filled partOf (Store.listParts u ⟨m.bucket, key, id, m.pageSize, mark⟩).parts
        goesLast).outcome = .ok isLast →
      isLast = goesLast ∧
        (Page.filled partOf (Store.listParts u ⟨m.bucket, key, id, m.pageSize, mark⟩).parts
          goesLast).items = items
            ((showing partItem (past mark (Store.numberedParts u))).take
              (Store.pageLimit m.pageSize)) := by
    intro goesLast hpage
    obtain ⟨hlast, hmade⟩ := Page.filled_of_outcome_ok hpage
    refine ⟨hlast, ?_⟩
    rw [Store.listParts_parts hmark] at hmade ⊢
    rw [take_showing, items_showing]
    exact eq_filterMap_partItem hmade
  rw [past_showing]
  by_cases hmore : Store.pageLimit m.pageSize < (past mark (Store.numberedParts u)).length
  · obtain ⟨last, hlast⟩ := exists_last m.pageLimit_pos hmore
    obtain ⟨htruncated, hnext⟩ :=
      Store.listParts_more m.bucket key id hmark hmore hlast
    have hlast' := getLast?_showing partItem hlast
    rw [← take_showing] at hlast'
    rw [readPartPage, if_pos htruncated, hnext, Option.filter_some] at h ⊢
    by_cases haccepts : decide (0 < last.1) = true
    · rw [if_pos haccepts] at h ⊢
      obtain ⟨hgoes, hitems⟩ := hread h
      exact .inr ⟨hgoes, _, hlast', haccepts, rfl, hitems⟩
    · -- The page is refused, whatever its parts are.
      rw [if_neg haccepts] at h
      cases h
  · have htruncated :=
      Store.listParts_last m.bucket key id hmark hmore
    rw [readPartPage, if_neg (Bool.eq_false_iff.mp htruncated)] at h ⊢
    obtain ⟨hend, hitems⟩ := hread h
    rw [take_showing, List.take_of_length_le (Nat.le_of_not_lt hmore)] at hitems
    exact .inl ⟨hend, hitems⟩

/-- All parts that a listing goes through. -/
def partEntries (m : Mount) (key id : String) (s : Store) : List (Int32 × Option Part) :=
  (s.uploadAt? m.bucket ⟨key, id⟩).elim [] fun u => showing partItem (Store.numberedParts u)

/-- The listing of the parts of an upload as pages of its entries. -/
def partPaging (m : Mount) (key id : String) : Paging Store PartPosition Part Int32 where
  source position s := (m.partPage position).run s
  place := m.partPlace key id
  limit := Store.pageLimit m.pageSize
  accepts n := decide (0 < n)
  entries := m.partEntries key id
  mark := partMark
  limit_pos := m.pageLimit_pos
  ascending _ := ascending_elim_showing _ partItem Store.ascending_numberedParts
  mark_eq := by
    intro s k i h
    obtain ⟨u, -, p, -, hitem⟩ := mem_elim_showing.mp h
    exact partMark_eq (partItem_eq_some hitem).1
  steady t s := by
    have hs : Store.Undisturbed s ((m.partPage (m.partPlace key id t)).run s).2 :=
      Store.undisturbed_run (m.partPage (m.partPlace key id t)) fun request hr => by cases hr; rfl
    rw [partEntries, partEntries, Store.uploadAt?_congr hs.buckets]
  page_ok := by
    intro t s isLast ht h
    rcases ha : s.answer (.listParts ⟨m.bucket, key, id, m.pageSize, t⟩) with ⟨f | reply, s'⟩
    · have hrun : (m.partPage (m.partPlace key id t)).run s =
          (⟨m.partPlace key id t, .failed (.ofFault f)⟩, s') := by
        simp only [partPage, partPlace, Call.run, Backend.exchange, ha]
      rw [hrun] at h
      cases h
    · obtain ⟨u, hu, rfl⟩ := Store.answer_listParts_ok ha
      have hrun : (m.partPage (m.partPlace key id t)).run s =
          (readPartPage (m.partPlace key id t)
            (Store.listParts u ⟨m.bucket, key, id, m.pageSize, t⟩), s') := by
        simp only [partPage, partPlace, Call.run, Backend.exchange, ha]
      rw [hrun] at h ⊢
      rw [partEntries, hu]
      exact isPageOf_readPartPage ht h

/-- A part of a listing of parts: one that the upload has under the number of its index. -/
def ShowsPart (m : Mount) (key id : String) (s : Store) (i : Part) : Prop :=
  ∃ number u p, numberOfIndex i.index = .ok number ∧ s.uploadAt? m.bucket ⟨key, id⟩ = some u ∧
    u.parts.get? number = some p ∧ i.size = UInt64.ofNat p.body.length ∧ i.etag = p.etag

end Mount

/-- The entries of a listing of parts show just the parts that have an index. -/
theorem mem_partEntries {m : Mount} {key id : String} {s : Store} {n : Int32} {i : Part} :
    (n, some i) ∈ m.partEntries key id s ↔
      m.ShowsPart key id s i ∧ Mount.partMark i = n := by
  rw [Mount.partEntries, mem_elim_showing]
  constructor
  · rintro ⟨u, hu, p, hmem, hitem⟩
    obtain ⟨hnumber, hsize, hetag⟩ := Mount.partItem_eq_some hitem
    have hget := (Table.get?_eq_some_iff u.parts).mpr (List.mem_filter.mp hmem).1
    exact ⟨⟨n, u, p, hnumber, hu, hget, hsize, hetag⟩, Mount.partMark_eq hnumber⟩
  · rintro ⟨⟨number, u, p, hnumber, hu, hget, hsize, hetag⟩, hn⟩
    obtain rfl : number = n := (Mount.partMark_eq hnumber).symm.trans hn
    have hindex := Mount.indexOfNumber_numberOfIndex hnumber
    have hmem := (Table.get?_eq_some_iff u.parts).mp hget
    refine ⟨u, hu, p, List.mem_filter.mpr ⟨hmem, ?_⟩, ?_⟩
    · have hpositive := Mount.toInt_numberOfIndex hnumber
      have hzero : (0 : Int32).toInt = 0 := rfl
      have hlt : (0 : Int32) < number := Int32.lt_iff_toInt_lt.mpr (by omega)
      exact decide_eq_true hlt
    · obtain ⟨index, size, etag⟩ := i
      obtain rfl : size = UInt64.ofNat p.body.length := hsize
      obtain rfl : etag = p.etag := hetag
      rw [Mount.partItem, hindex]
      rfl

theorem Mount.length_partEntries_le (m : Mount) (key id : String) (s : Store) :
    (m.partEntries key id s).length ≤ s.entryCount := by
  rw [partEntries]
  cases hu : s.uploadAt? m.bucket ⟨key, id⟩ with
  | none => exact Nat.zero_le _
  | some u =>
    obtain ⟨b, hb, hget⟩ := Option.bind_eq_some_iff.mp hu
    have hbucket := Store.entryCount_le hb
    have hupload := Store.le_foldr_add (fun e : UploadName × Upload => e.2.parts.size)
      ((Table.get?_eq_some_iff b.uploads).mp hget)
    have hparts : (Store.numberedParts u).length ≤ u.parts.size := List.length_filter_le _ _
    rw [Option.elim_some, length_showing]
    rw [Bucket.entryCount] at hbucket
    simp only at hupload
    omega

/-- Listings of parts go on from any number above one that they go on from. -/
theorem Mount.upward_parts (m : Mount) (key id : String) : (m.partPaging key id).Upward :=
  fun _ _ hlt hj => decide_eq_true (Std.lt_trans (of_decide_eq_true hj) hlt)

/-- A listing of parts does not break off: part numbers are above zero. -/
theorem Mount.not_brokenOff_parts (m : Mount) (key id : String) (s : Store) :
    ¬ (m.partPaging key id).BrokenOff s := by
  rintro ⟨-, k, hk, hrefused⟩
  obtain ⟨⟨k, i⟩, he, rfl⟩ := List.mem_map.mp (List.mem_of_getElem? hk)
  obtain ⟨u, -, kept, hmem, -⟩ := mem_elim_showing.mp he
  have hpos := (List.mem_filter.mp hmem).2
  rw [show (m.partPaging key id).accepts k = decide (0 < k) from rfl, hpos] at hrefused
  cases hrefused

end ObjectStore
