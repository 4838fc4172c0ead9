import ObjectStore.Proofs.Directory
import ObjectStore.Proofs.Listing.Uploads

/-!
# The names that listings go through

A listing goes through the names that a bucket has below a stem, in their order: the keys of objects
(`Store.keysBelow`), the children of a directory (`Store.childNames`), or the names of open uploads
(`Store.uploadNames`).
-/

namespace ObjectStore

namespace Store

/-- The keys of a bucket that start with a stem, in order. -/
def keysBelow (s : Store) (bucket stem : String) : List String :=
  (s.keysIn bucket).filter (Text.startsWith stem)

/-- These are the keys that have an object. -/
theorem mem_keysBelow {s : Store} {bucket stem key : String} :
    key ∈ s.keysBelow bucket stem ↔
      (∃ o, s.objectAt? bucket key = some o) ∧ ∃ rest, key = stem ++ rest := by
  rw [keysBelow, List.mem_filter, mem_keysIn, Text.startsWith_iff]

theorem ascending_keysIn (s : Store) (bucket : String) :
    (s.keysIn bucket).Pairwise (· < ·) := by
  rw [keysIn]
  cases s.buckets.get? bucket with
  | none => exact .nil
  | some b => exact List.pairwise_map.mpr b.objects.ascending

theorem ascending_keysBelow (s : Store) (bucket stem : String) :
    (s.keysBelow bucket stem).Pairwise (· < ·) :=
  (s.ascending_keysIn bucket).filter _

/-- The names of the open uploads of a bucket whose key starts with a stem, in order. -/
def uploadNames (s : Store) (bucket stem : String) : List UploadName :=
  ((s.buckets.get? bucket).elim [] fun b => b.uploads.keys).filter fun name =>
    Text.startsWith stem name.key

/-- These are the names that an upload is open under. -/
theorem mem_uploadNames {s : Store} {bucket stem : String} {name : UploadName} :
    name ∈ s.uploadNames bucket stem ↔
      (s.uploadAt? bucket name).isSome = true ∧ ∃ rest, name.key = stem ++ rest := by
  rw [uploadNames, List.mem_filter, Text.startsWith_iff, uploadAt?]
  cases s.buckets.get? bucket with
  | none => simp
  | some b =>
    rw [Option.elim_some, Table.mem_keys_iff, Option.bind_some]

theorem ascending_uploadNames (s : Store) (bucket stem : String) :
    (s.uploadNames bucket stem).Pairwise (· < ·) := by
  refine List.Pairwise.filter _ ?_
  cases s.buckets.get? bucket with
  | none => exact .nil
  | some b => exact List.pairwise_map.mpr b.uploads.ascending

end Store

/-! ## Names and entries -/

/-- A flat listing goes through just the keys below its stem. -/
theorem marks_flat (m : Mount) (stem : String) (s : Store) :
    ((StemListing.flat m stem).entries s).map (·.1) = s.keysBelow m.bucket stem := by
  refine eq_of_ascending (List.pairwise_map.mpr ((StemListing.flat m stem).ascending_entries s))
    (s.ascending_keysBelow m.bucket stem) fun key => ?_
  rw [Store.mem_keysBelow, List.mem_map]
  constructor
  · rintro ⟨⟨key, i⟩, he, rfl⟩
    obtain ⟨o?, hget, -⟩ := (StemListing.flat m stem).mem_entries.mp he
    obtain ⟨o, -, ho, hrest⟩ := Store.shownAt?_flat.mp hget
    exact ⟨⟨o, ho⟩, hrest⟩
  · rintro ⟨⟨o, ho⟩, hrest⟩
    have hget := Store.shownAt?_flat.mpr ⟨o, rfl, ho, hrest⟩
    exact ⟨_, (StemListing.flat m stem).mem_entries.mpr ⟨some o, hget, rfl⟩, rfl⟩

/-- A listing of uploads goes through just the names of the open uploads below its stem. -/
theorem marks_uploads (m : Mount) (stem : String) (s : Store) :
    (m.uploadEntries stem s).map (·.1) = s.uploadNames m.bucket stem := by
  rw [Mount.uploadEntries, Store.uploadNames]
  cases s.buckets.get? m.bucket with
  | none => rfl
  | some b =>
    rw [Option.elim_some, Option.elim_some, showing, List.map_map, Table.keys, List.filter_map]
    rfl

/-- A listing of uploads breaks off where its first page ends with the empty key. -/
theorem Mount.brokenOff_uploads_iff (m : Mount) (stem : String) (s : Store) :
    (m.uploadPaging stem).BrokenOff s ↔
      EndsWithEmptyKey (Store.pageLimit m.pageSize) ((s.uploadNames m.bucket stem).map (·.key)) := by
  rw [← marks_uploads]
  exact breaksOff_names

end ObjectStore
