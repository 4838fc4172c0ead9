import ObjectStore.Proofs.Completion
import ObjectStore.Proofs.Listing.Names

/-!
# A flat listing is exact

A flat listing goes through the keys of the objects below a path, in their order, and shows one object
for each. Three answers tell about an object that is kept: the entry of a listing, the attributes, and
the body. They agree (`Mount.Confirms`): an object of a listing can be looked at and read under its own
path, with the customer key that it was stored with, and all three tell the same id, path, length and
entity tag. They differ in two ways that are meant. A listing shows a storage class also for an object
that has none, and it tells from a slash at the end of the key what is a directory, while looking at an
object tells that it can be read, and from its metadata that it is a link.
-/

namespace ObjectStore

namespace Mount

/-- That looking at an object and reading it confirm what a listing shows of an object that is kept,
for whoever has its customer key, as long as no fault waits for that. -/
structure Confirms (m : Mount) (s : Store) (shown : Object) (kept : KeptObject) : Prop where
  stat : ∀ customerKey, kept.lock.map (·.md5) = customerKey.map (·.secretMd5) →
    ∃ told : Object, s.Gives .headObject (.ok told) ((m.stat shown.path .object customerKey).run s).1 ∧
      told.id = shown.id ∧ told.path = shown.path ∧ told.contentLength = shown.contentLength ∧
      told.etag = shown.etag ∧
      shown.metadata.storageClass = some (told.metadata.storageClass.getD "STANDARD") ∧
      told.mode = if (kept.metadata.get? linkTargetName).isSome then .union .read .link else .read
  read : ∀ customerKey, kept.lock.map (·.md5) = customerKey.map (·.secretMd5) →
    ∃ bytes, s.Gives .getObject (.ok bytes) ((m.read shown.path {} customerKey).run s).1 ∧
      ∃ length, shown.contentLength = some length ∧ length = UInt64.ofNat bytes.length ∧
        (bytes.length < UInt64.size → length.toNat = bytes.length)

/-- An object of a listing is confirmed in every store that keeps the same under its key. -/
theorem confirms_ofEntry {m : Mount} {s : Store} {path : String} {kept : KeptObject}
    (h : s.objectAt? m.bucket (m.workDir.keyOf path) = some kept) :
    m.Confirms s (m.ofEntry (Store.listedObject (m.workDir.keyOf path) kept)) kept := by
  have hpath : (m.ofEntry (Store.listedObject (m.workDir.keyOf path) kept)).path = path :=
    m.workDir.pathOf_keyOf path
  have hopens (customerKey : Option CustomerKey)
      (hkey : kept.lock.map (·.md5) = customerKey.map (·.secretMd5)) :
      s.Opens m.bucket (m.keyOf path false) customerKey := by
    rintro o ho
    cases h.symm.trans ho
    exact hkey
  constructor
  · intro customerKey hkey
    rw [hpath]
    exact ⟨_, Store.gives_stat h (hopens customerKey hkey), rfl, rfl, rfl, rfl, rfl, rfl⟩
  · intro customerKey hkey
    rw [hpath]
    refine ⟨_, Store.gives_read h (hopens customerKey hkey), _, rfl, rfl, fun hlength => ?_⟩
    exact UInt64.toNat_ofNat_of_lt' hlength

end Mount

/-- A flat listing shows one object for each key below its stem. -/
theorem ids_flat (m : Mount) (stem : String) (s : Store) :
    (items ((StemListing.flat m stem).entries s)).map Object.id = s.keysBelow m.bucket stem := by
  have hasc := (StemListing.flat m stem).ascending_items s
  refine eq_of_ascending (List.pairwise_map.mpr hasc) (s.ascending_keysBelow m.bucket stem)
    fun key => ?_
  rw [List.mem_map, Store.mem_keysBelow]
  simp only [mem_items_flat]
  constructor
  · rintro ⟨i, ⟨rest, o, ho, rfl⟩, rfl⟩
    exact ⟨⟨o, ho⟩, rest, rfl⟩
  · rintro ⟨⟨o, ho⟩, rest, rfl⟩
    exact ⟨_, ⟨rest, o, ho, rfl⟩, rfl⟩

/-- **A flat listing is exact.** A fault that waits for a listing is met at once. Otherwise the listing
shows each object below the path once and in the order of the keys, by one request for each page of
keys; unless the first page, with more behind it, ends with the empty key. What it shows is confirmed by
looking at each object under its path and by reading it. -/
theorem flat_listing_exact (m : Mount) (s : Store) (b : Bucket)
    (hb : s.buckets.get? m.bucket = some b) (path : String) :
    let stem := m.workDir.keyOf path
    let keys := s.keysBelow m.bucket stem
    let size := m.pageSize.toInt.toNat
    keys.Pairwise (· < ·) ∧
    (∀ key, key ∈ keys ↔
      (∃ o, s.objectAt? m.bucket key = some o) ∧ ∃ rest, key = stem ++ rest) ∧
    ∃ l, m.list path .flat = .ok l ∧
      (∀ p, Store.takeFault? .listObjects s.faults = some p → l.FailsAtOnce s (.ofFault p.1)) ∧
      (Store.takeFault? .listObjects s.faults = none →
        (EndsWithEmptyKey size keys → l.FailsAtOnce s .objectTokenMissing) ∧
        (¬ EndsWithEmptyKey size keys → ∃ objects requests,
          l.collect s = some (.ok objects, { s with log := s.log ++ requests }) ∧
          objects.map Object.id = keys ∧
          requests.length = max 1 ((keys.length + size - 1) / size) ∧
          (∀ r ∈ requests, r.kind = .listObjects) ∧
          ∀ o ∈ objects, ∃ kept, s.objectAt? m.bucket o.id = some kept ∧
            o.mode = (if Text.endsWith '/' o.id then .dir else .read) ∧
            ∀ s' : Store, s'.buckets = s.buckets → m.Confirms s' o kept)) := by
  intro stem keys size
  obtain ⟨hfault, hcollect⟩ := (StemListing.flat m stem).collect_cases hb (marks_flat m stem s)
  refine ⟨s.ascending_keysBelow m.bucket stem, fun key => Store.mem_keysBelow,
    (StemListing.flat m stem).listing, rfl, hfault, fun hnone => ?_⟩
  refine ⟨(hcollect hnone).1, fun hother => ?_⟩
  obtain ⟨requests, hitems, hcount, hkind⟩ := (hcollect hnone).2 hother
  refine ⟨_, requests, hitems, ids_flat m stem s, hcount, hkind, fun o ho => ?_⟩
  obtain ⟨rest, kept, hkept, rfl⟩ := mem_items_flat.mp ho
  refine ⟨kept, hkept, rfl, fun s' hs' => ?_⟩
  -- The key comes from a path: the one of the listing with the rest of the key behind it.
  have hkey : stem ++ rest = m.workDir.keyOf (path ++ rest) := String.append_assoc
  have hkept' : s'.objectAt? m.bucket (stem ++ rest) = some kept :=
    (Store.objectAt?_congr hs' m.bucket (stem ++ rest)).trans hkept
  rw [hkey] at hkept' ⊢
  exact Mount.confirms_ofEntry hkept'

/-- A directory, a link and an object with a customer key, by pages of two. Whoever has the key reads as
many bytes as the listing shows. -/
theorem flat_listing_exact_two_pages :
    let m : Mount := ⟨"b", .root, 2, none, none, by decide⟩
    let key : CustomerKey := ⟨"AES256", List.replicate 32 1, rfl⟩
    let s := (Run.calls ⟨Store.withBuckets ["b"] (fun n => toString n) 0 false, []⟩
      [(m, .makeDir "d"), (m, .makeLink "d/l" "x"),
        (m, .write "d/x" [1, 2] 2 { customerKey := some key })]).state
    s.keysBelow "b" "d" = ["d/", "d/l", "d/x"] ∧
      ∃ l objects requests, m.list "d" .flat = .ok l ∧
        l.collect s = some (.ok objects, { s with log := s.log ++ requests }) ∧
        objects.map Object.id = ["d/", "d/l", "d/x"] ∧ requests.length = 2 ∧
        ∀ o ∈ objects, o.id = "d/x" → ∃ bytes,
          ((m.read o.path {} (some key)).run s).1 = .ok bytes ∧
            o.contentLength = some (UInt64.ofNat bytes.length) := by
  intro m key s
  have hkeys : s.keysBelow "b" "d" = ["d/", "d/l", "d/x"] := by decide +kernel
  obtain ⟨b, hb⟩ : ∃ b, s.buckets.get? m.bucket = some b :=
    Option.isSome_iff_exists.mp (by decide +kernel)
  obtain ⟨-, -, l, hl, -, hcollect⟩ := flat_listing_exact m s b hb "d"
  have hstem : m.workDir.keyOf "d" = "d" := rfl
  have hbucket : m.bucket = "b" := rfl
  have hsize : m.pageSize.toInt.toNat = 2 := rfl
  simp only [hstem, hbucket, hsize, hkeys] at hcollect
  obtain ⟨objects, requests, hitems, hids, hcount, -, hagree⟩ :=
    (hcollect (by decide +kernel)).2 (by decide)
  refine ⟨hkeys, l, objects, requests, hl, hitems, hids, hcount, fun o ho hid => ?_⟩
  obtain ⟨kept, hkept, -, hconfirms⟩ := hagree o ho
  have hlock : (s.objectAt? "b" "d/x").map (fun kept => kept.lock.map (·.md5)) =
      some (some key.secretMd5) := by decide +kernel
  rw [← hid, hkept] at hlock
  obtain ⟨bytes, hread, length, hlength, hbytes, -⟩ :=
    (hconfirms s rfl).read (some key) (Option.some.inj hlock)
  have hquiet : ∀ f, (Request.Kind.getObject, f) ∉ s.faults := by
    have hnil : s.faults = [] := by decide +kernel
    rw [hnil]
    exact fun f => List.not_mem_nil
  exact ⟨bytes, hread.eq hquiet, hbytes ▸ hlength⟩

/-- While a fault waits, not even a bucket without objects can be listed. -/
theorem flat_listing_waiting_fault :
    let m : Mount := ⟨"b", .root, 2, none, none, by decide⟩
    let fault := Fault.http "SlowDown" 503 "slow"
    let s := (Store.withBuckets ["b"] (fun n => toString n) 0 false).arrangeFault .listObjects fault
    (s.buckets.get? m.bucket).isSome ∧ s.keysBelow "b" "" = [] ∧
      ∀ l objects s', m.list "" .flat = .ok l → l.collect s ≠ some (.ok objects, s') := by
  intro m fault s
  refine ⟨by decide +kernel, by decide +kernel, ?_⟩
  rintro l objects s' ⟨⟩ hcollect
  have hrefusal : s.refusal? .listObjects m.bucket = some fault := by decide +kernel
  obtain ⟨s'', hfails⟩ :=
    Listing.collect_start_error ((StemListing.flat m "").page_refused hrefusal)
  cases hfails.symm.trans hcollect

end ObjectStore
