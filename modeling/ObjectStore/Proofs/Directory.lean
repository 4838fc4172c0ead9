import Mathlib.Data.List.Dedup
import ObjectStore.Proofs.Listing.Objects

/-!
# A directory listing is exact

The children of a directory are told by the keys of its bucket alone: `childNames` takes from each key
below the stem the key itself, or, where a slash follows, the key up to the first one; and puts these
names in order, each once. A listing of the directory goes through just these names, page by page, and
shows all of them but the name of the directory itself.

One case is different. A page that ends with the empty name cannot be gone on from, since an empty
marker counts as none; and only the first page can end there, if it has one entry.
-/

namespace ObjectStore

namespace Store

/-- The name of the child that a key is, or is found under, in the directory of a stem. -/
def childName? (stem key : String) : Option String :=
  (Text.after? stem key).map fun rest =>
    let step := String.ofList (rest.toList.takeWhile (· ≠ '/'))
    if step = rest then key else stem ++ (step ++ "/")

/-- The names of the children of a directory, in order, each once. -/
def childNames (s : Store) (bucket stem : String) : List String :=
  ((s.keysIn bucket).filterMap (childName? stem)).dedup.mergeSort

/-- The part of a text before its first slash. -/
theorem takeWhile_step {step : String} (h : Text.IsStep step) :
    String.ofList (step.toList.takeWhile (· ≠ '/')) = step := by
  have hall : ∀ c ∈ step.toList, decide (c ≠ '/') = true :=
    fun c hc => decide_eq_true fun heq => h (heq ▸ hc)
  have htake : (step.toList ++ []).takeWhile (· ≠ '/') = step.toList ++ [] :=
    List.takeWhile_append_of_pos hall
  rw [List.append_nil] at htake
  rw [htake, String.ofList_toList]

theorem takeWhile_path {step : String} (h : Text.IsStep step) (rest : String) :
    String.ofList ((step ++ "/" ++ rest).toList.takeWhile (· ≠ '/')) = step := by
  have hall : ∀ c ∈ step.toList, decide (c ≠ '/') = true :=
    fun c hc => decide_eq_true fun heq => h (heq ▸ hc)
  have hslash : "/".toList = ['/'] := rfl
  rw [String.toList_append, String.toList_append, List.append_assoc, List.takeWhile_append_of_pos hall,
    hslash, List.singleton_append, List.takeWhile_cons_of_neg (by decide), List.append_nil,
    String.ofList_toList]

/-- A key is a child itself if one step follows the stem, and is found under the first step if there
are more. -/
theorem childName?_eq_some {stem key name : String} :
    childName? stem key = some name ↔
      (∃ step, Text.IsStep step ∧ key = stem ++ step ∧ name = key) ∨
        ∃ step rest, Text.IsStep step ∧ key = stem ++ (step ++ "/" ++ rest) ∧
          name = stem ++ (step ++ "/") := by
  have hbelow : ∀ rest, childName? stem (stem ++ rest) =
      some (if String.ofList (rest.toList.takeWhile (· ≠ '/')) = rest then stem ++ rest
        else stem ++ (String.ofList (rest.toList.takeWhile (· ≠ '/')) ++ "/")) := fun rest => by
    rw [childName?, Text.after?_eq_some_iff.mpr rfl]
    rfl
  have hstep : ∀ {step}, Text.IsStep step →
      childName? stem (stem ++ step) = some (stem ++ step) := fun {step} hs => by
    rw [hbelow, takeWhile_step hs, if_pos rfl]
  have hpath : ∀ {step} rest, Text.IsStep step →
      childName? stem (stem ++ (step ++ "/" ++ rest)) = some (stem ++ (step ++ "/")) :=
    fun {step} rest hs => by
      rw [hbelow, takeWhile_path hs, if_neg]
      intro heq
      exact Text.not_isStep step rest (heq ▸ hs)
  constructor
  · intro h
    -- A key that has a child name is below the stem.
    obtain ⟨rest, hrest, -⟩ := Option.map_eq_some_iff.mp h
    obtain rfl := Text.after?_eq_some_iff.mp hrest
    rcases Text.step_cases rest with hs | ⟨step, rest, hs, rfl⟩
    · rw [hstep hs] at h
      exact .inl ⟨rest, hs, rfl, (Option.some.inj h).symm⟩
    · rw [hpath rest hs] at h
      exact .inr ⟨step, rest, hs, rfl, (Option.some.inj h).symm⟩
  · rintro (⟨step, hs, rfl, rfl⟩ | ⟨step, rest, hs, rfl, rfl⟩)
    · exact hstep hs
    · exact hpath rest hs

theorem mem_keysIn {s : Store} {bucket key : String} :
    key ∈ s.keysIn bucket ↔ ∃ o, s.objectAt? bucket key = some o := by
  rw [keysIn, objectAt?]
  cases s.buckets.get? bucket with
  | none => simp
  | some b => exact (Table.mem_keys_iff b.objects).trans Option.isSome_iff_exists

theorem mem_childNames {s : Store} {bucket stem name : String} :
    name ∈ s.childNames bucket stem ↔
      (∃ step, Text.IsStep step ∧ name = stem ++ step ∧
        ∃ o, s.objectAt? bucket name = some o) ∨
      ∃ step, Text.IsStep step ∧ name = stem ++ (step ++ "/") ∧
        ∃ rest o, s.objectAt? bucket (stem ++ (step ++ "/" ++ rest)) = some o := by
  rw [childNames, List.mem_mergeSort, List.mem_dedup, List.mem_filterMap]
  constructor
  · rintro ⟨key, hkey, hname⟩
    have ho := mem_keysIn.mp hkey
    rcases childName?_eq_some.mp hname with ⟨step, hs, rfl, rfl⟩ | ⟨step, rest, hs, rfl, rfl⟩
    · exact .inl ⟨step, hs, rfl, ho⟩
    · exact .inr ⟨step, hs, rfl, rest, ho⟩
  · rintro (⟨step, hs, rfl, ho⟩ | ⟨step, hs, rfl, rest, ho⟩)
    · exact ⟨_, mem_keysIn.mpr ho, childName?_eq_some.mpr (.inl ⟨step, hs, rfl, rfl⟩)⟩
    · exact ⟨_, mem_keysIn.mpr ho, childName?_eq_some.mpr (.inr ⟨step, rest, hs, rfl, rfl⟩)⟩

theorem ascending_childNames (s : Store) (bucket stem : String) :
    (s.childNames bucket stem).Pairwise (· < ·) := by
  have hsorted : (s.childNames bucket stem).Pairwise (· ≤ ·) := Text.pairwise_mergeSort id _
  have hnodup : (s.childNames bucket stem).Nodup :=
    (List.mergeSort_perm _ _).nodup_iff.mpr (List.nodup_dedup _)
  exact (hsorted.and hnodup).imp fun h => Std.lt_of_le_of_ne h.1 h.2

end Store

/-! ## The entries of a directory listing -/

/-- A directory listing goes through just the names of the children. -/
theorem marks_dir (m : Mount) (stem : String) (s : Store) :
    ((StemListing.dir m stem).entries s).map (·.1) = s.childNames m.bucket stem := by
  refine eq_of_ascending (List.pairwise_map.mpr ((StemListing.dir m stem).ascending_entries s))
    (s.ascending_childNames m.bucket stem) fun name => ?_
  rw [Store.mem_childNames, List.mem_map]
  constructor
  · rintro ⟨⟨name, i⟩, he, rfl⟩
    obtain ⟨o?, hget, -⟩ := (StemListing.dir m stem).mem_entries.mp he
    rcases o? with _ | o
    · exact .inr (Store.shownAt?_path.mp hget)
    · obtain ⟨ho, step, hs, hname⟩ := Store.shownAt?_step.mp hget
      exact .inl ⟨step, hs, hname, o, ho⟩
  · rintro (⟨step, hs, hname, o, ho⟩ | hpath)
    · have hget := Store.shownAt?_step.mpr ⟨ho, step, hs, hname⟩
      exact ⟨_, (StemListing.dir m stem).mem_entries.mpr ⟨some o, hget, rfl⟩, rfl⟩
    · have hget := Store.shownAt?_path.mpr hpath
      exact ⟨_, (StemListing.dir m stem).mem_entries.mpr ⟨none, hget, rfl⟩, rfl⟩

/-- A directory listing shows all children but the directory itself. -/
theorem ids_dir (m : Mount) (stem : String) (s : Store) :
    (items ((StemListing.dir m stem).entries s)).map Object.id =
      (s.childNames m.bucket stem).filter (· ≠ stem) := by
  have hasc := (StemListing.dir m stem).ascending_items s
  refine eq_of_ascending (List.pairwise_map.mpr hasc)
    ((s.ascending_childNames m.bucket stem).filter _) fun name => ?_
  rw [List.mem_map, List.mem_filter, Store.mem_childNames]
  simp only [mem_items_dir]
  constructor
  · rintro ⟨i, ⟨step, o, hs, hstep, ho, rfl⟩ | ⟨step, hs, ⟨rest, o, ho⟩, rfl⟩, rfl⟩
    · exact ⟨.inl ⟨step, hs, rfl, o, ho⟩, decide_eq_true fun h => hstep (String.append_eq_left_iff.mp h)⟩
    · refine ⟨.inr ⟨step, hs, rfl, rest, o, ho⟩, decide_eq_true fun h => ?_⟩
      have hempty := congrArg String.toList (String.append_eq_left_iff.mp h)
      simp at hempty
  · rintro ⟨⟨step, hs, rfl, o, ho⟩ | ⟨step, hs, rfl, rest, o, ho⟩, hname⟩
    · have hstep : step ≠ "" := fun h => of_decide_eq_true hname (String.append_eq_left_iff.mpr h)
      exact ⟨_, .inl ⟨step, o, hs, hstep, ho, rfl⟩, rfl⟩
    · exact ⟨_, .inr ⟨step, hs, ⟨rest, o, ho⟩, rfl⟩, rfl⟩

/-- A child as a directory listing shows it. Its path is its key without the work directory; a group
is a directory without content, and a key that is a child itself can be read. -/
def Mount.IsChild (m : Mount) (stem : String) (s : Store) (o : Object) : Prop :=
  o.id = m.workDir.stem ++ o.path ∧
    ((∃ step, Text.IsStep step ∧ o.id = stem ++ (step ++ "/") ∧
        o.mode = .dir ∧ o.contentLength = some 0 ∧ o.etag = none) ∨
      ∃ step k, Text.IsStep step ∧ o.id = stem ++ step ∧ s.objectAt? m.bucket o.id = some k ∧
        o.mode = .read ∧ o.contentLength = some (UInt64.ofNat k.body.length) ∧
        o.etag = some k.etag)

/-- What a directory listing shows is a child. -/
theorem Mount.isChild_of_shows {m : Mount} {path : String} {s : Store} {o : Object}
    (h : m.ShowsChild (m.workDir.keyOf path) s o) : m.IsChild (m.workDir.keyOf path) s o := by
  have hpath : ∀ rest, m.workDir.keyOf path ++ rest =
      m.workDir.stem ++ m.workDir.pathOf (m.workDir.keyOf path ++ rest) := fun rest => by
    have hkey : m.workDir.keyOf path ++ rest = m.workDir.keyOf (path ++ rest) := by
      rw [WorkDir.keyOf, WorkDir.keyOf, String.append_assoc]
    rw [hkey, WorkDir.pathOf_keyOf]
    rfl
  rcases h with ⟨step, k, hs, hne, hk, rfl⟩ | ⟨step, hs, -, rfl⟩
  · refine ⟨hpath step, .inr ⟨step, k, hs, rfl, hk, if_neg fun hends => ?_, rfl, rfl⟩⟩
    exact Bool.eq_false_iff.mp (Text.endsWith_step (m.workDir.keyOf path) hs hne) hends
  · exact ⟨hpath _, .inl ⟨step, hs, rfl, rfl, rfl, rfl⟩⟩

/-! ## Collecting a directory -/

/-- **A directory listing is exact.** A fault that waits for a listing is met at once. Otherwise the
listing shows each child once and in order, all but the name of the directory itself, by one request
for each page of names; unless the first page, with more behind it, ends with the empty name. -/
theorem dir_listing_exact (m : Mount) (s : Store) (b : Bucket)
    (hb : s.buckets.get? m.bucket = some b) (path : String) :
    let stem := m.workDir.keyOf path
    let names := s.childNames m.bucket stem
    let size := m.pageSize.toInt.toNat
    ∃ l, m.list path .dir = .ok l ∧
      (∀ p, Store.takeFault? .listObjects s.faults = some p → l.FailsAtOnce s (.ofFault p.1)) ∧
      (Store.takeFault? .listObjects s.faults = none →
        (size < names.length ∧ names[size - 1]? = some "" → l.FailsAtOnce s .objectTokenMissing) ∧
        (¬ (size < names.length ∧ names[size - 1]? = some "") →
          ∃ objects requests,
            l.collect s = some (.ok objects, { s with log := s.log ++ requests }) ∧
            objects.map Object.id = names.filter (· ≠ stem) ∧
            (∀ o ∈ objects, m.IsChild stem s o) ∧
            requests.length = max 1 ((names.length + size - 1) / size) ∧
            ∀ r ∈ requests, r.kind = .listObjects)) := by
  intro stem names size
  obtain ⟨hfault, hcollect⟩ := (StemListing.dir m stem).collect_cases hb (marks_dir m stem s)
  refine ⟨(StemListing.dir m stem).listing, rfl, hfault, fun hnone => ?_⟩
  refine ⟨(hcollect hnone).1, fun hother => ?_⟩
  obtain ⟨requests, hitems, hcount, hkind⟩ := (hcollect hnone).2 hother
  refine ⟨_, requests, hitems, ids_dir m stem s, fun o ho => ?_, hcount, hkind⟩
  exact Mount.isChild_of_shows (mem_items_dir.mp ho)

/-- A directory of two pages, with an object of its own and a child between slashes. -/
theorem dir_listing_exact_two_pages :
    let m : Mount := ⟨"b", .root, 2, none, none, by decide⟩
    let s := (Run.calls ⟨Store.withBuckets ["b"] (fun n => toString n) 0 false, []⟩
      [(m, .write "d/" [] 0 {}), (m, .write "d/x" [1] 1 {}), (m, .write "d//x" [] 0 {}),
        (m, .write "d/y/z" [] 0 {}), (m, .write "e" [] 0 {})]).state
    s.childNames "b" "d/" = ["d/", "d//", "d/x", "d/y/"] ∧
      ∃ l objects requests, m.list "d/" .dir = .ok l ∧
        l.collect s = some (.ok objects, { s with log := s.log ++ requests }) ∧
        objects.map Object.id = ["d//", "d/x", "d/y/"] ∧
        (∀ o ∈ objects, m.IsChild "d/" s o) ∧ requests.length = 2 := by
  intro m s
  have hnames : s.childNames "b" "d/" = ["d/", "d//", "d/x", "d/y/"] := by
    rw [Store.childNames, List.mergeSort_of_pairwise (by decide +kernel)]
    decide +kernel
  obtain ⟨b, hb⟩ : ∃ b, s.buckets.get? m.bucket = some b :=
    Option.isSome_iff_exists.mp (by decide +kernel)
  obtain ⟨l, hl, -, hexact⟩ := dir_listing_exact m s b hb "d/"
  have hkey : m.workDir.keyOf "d/" = "d/" := rfl
  have hsize : m.pageSize.toInt.toNat = 2 := rfl
  have hbucket : m.bucket = "b" := rfl
  simp only [hkey, hbucket, hnames, hsize] at hexact
  obtain ⟨objects, requests, hcollect, hids, hchild, hcount, -⟩ :=
    (hexact (by decide +kernel)).2 (by decide)
  exact ⟨hnames, l, objects, requests, hl, hcollect, hids, hchild, hcount⟩

/-- While a fault waits, not even a directory without children can be listed. -/
theorem dir_listing_waiting_fault :
    let m : Mount := ⟨"b", .root, 2, none, none, by decide⟩
    let fault := Fault.http "SlowDown" 503 "slow"
    let s := (Store.withBuckets ["b"] (fun n => toString n) 0 false).arrangeFault .listObjects fault
    (s.buckets.get? m.bucket).isSome ∧ s.childNames "b" "" = [] ∧
      ∀ l objects s', m.list "" .dir = .ok l → l.collect s ≠ some (.ok objects, s') := by
  intro m fault s
  refine ⟨by decide +kernel, by decide +kernel, ?_⟩
  rintro l objects s' ⟨⟩ hcollect
  have hrefusal : s.refusal? .listObjects m.bucket = some fault := by decide +kernel
  obtain ⟨s'', hfails⟩ :=
    Listing.collect_start_error ((StemListing.dir m "").page_refused hrefusal)
  cases hfails.symm.trans hcollect

end ObjectStore
