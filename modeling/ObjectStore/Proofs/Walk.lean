import ObjectStore.Proofs.Directory
import ObjectStore.Proofs.Steps

/-!
# Walking through directories

A walk lists a directory and puts, in the place of each directory that is shown, the walk of that
one. What it brings is what a flat listing of the same path has to read, in the same order
(`walk_eq_flat`).

One level of the walk parts the objects below a stem by the first step of their keys, and the parts
stand in the order of the children (`readable_eq_flatMap`). Each level takes a slash at least from
what is left of the keys, so that a walk finds its end (`walk_brings`).
-/

namespace ObjectStore

/-! ## Walks -/

/-- Collects a listing. -/
def Steps.collect (l : Listing ListingPosition Object) : Steps (List Object) :=
  ExceptT.mk fun s => l.collect s

namespace Mount

/-- Goes on from an item of a directory: what can be read is brought as it is, and a directory is
replaced by what entering it brings. -/
def enterOr (enter : String → Steps (List Object)) (o : Object) : Steps (List Object) :=
  if o.mode.contains .dir then enter o.path else pure ([o].filter (·.mode.contains .read))

/-- Goes through the items of a directory one after another. -/
def through (enter : String → Steps (List Object)) : List Object → Steps (List Object)
  | [] => return []
  | o :: rest => do return (← enterOr enter o) ++ (← through enter rest)

/-- Walks through the directory at a path, and through those it shows, down to a depth. -/
def walk (m : Mount) : Nat → String → Steps (List Object)
  | 0, _ => ExceptT.mk fun _ => none
  | depth + 1, path => do
    let l ← MonadExcept.ofExcept (m.list path .dir)
    through (m.walk depth) (← Steps.collect l)

/-- What stands for an item of a directory, given what is below each directory. -/
def block (below : Object → List Object) (o : Object) : List Object :=
  if o.mode.contains .dir then below o else [o].filter (·.mode.contains .read)

theorem block_dir {below : Object → List Object} {o : Object} (h : o.mode = .dir) :
    block below o = below o := by
  rw [block, h, if_pos (by decide)]

theorem block_read {below : Object → List Object} {o : Object} (h : o.mode = .read) :
    block below o = [o] := by
  rw [block, h, if_neg (by decide), List.filter_cons_of_pos (by rw [h]; decide), List.filter_nil]

/-- Going through items brings their blocks one after another, if entering a directory brings what is
below it. -/
theorem through_brings {enter : String → Steps (List Object)} {below : Object → List Object}
    {s : Store} {items : List Object}
    (h : ∀ o ∈ items, o.mode.contains .dir = true → (enter o.path).Brings s (below o)) :
    (through enter items).Brings s (items.flatMap (block below)) := by
  induction items with
  | nil => exact Steps.brings_pure []
  | cons o rest ih =>
    have hhere : (enterOr enter o).Brings s (block below o) := by
      rw [enterOr, block]
      split
      · exact h o List.mem_cons_self ‹_›
      · exact Steps.brings_pure _
    have hrest := ih fun o' ho' => h o' (List.mem_cons_of_mem o ho')
    rw [List.flatMap_cons]
    refine hhere.bind (hrest.bind ?_)
    exact Steps.brings_pure _

/-! ## What there is to read below a stem -/

/-- What a flat listing shows that can be read. -/
def readable (m : Mount) (stem : String) (s : Store) : List Object :=
  (items ((StemListing.flat m stem).entries s)).filter (·.mode.contains .read)

theorem mem_readable {m : Mount} {stem : String} {s : Store} {o : Object} :
    o ∈ m.readable stem s ↔ m.ShowsObject stem s o ∧ o.mode.contains .read = true := by
  rw [readable, List.mem_filter, mem_items_flat]

theorem ascending_readable (m : Mount) (stem : String) (s : Store) :
    (m.readable stem s).Pairwise fun a b => a.id < b.id :=
  ((StemListing.flat m stem).ascending_items s).filter _

/-- What can be read has a key that does not end with a slash. -/
theorem read_ofEntry {m : Mount} {key : String} {k : KeptObject} :
    (m.ofEntry (Store.listedObject key k)).mode.contains .read = true ↔
      Text.endsWith '/' key = false := by
  have hmode : (m.ofEntry (Store.listedObject key k)).mode =
      if Text.endsWith '/' key then Mode.dir else Mode.read := rfl
  rw [hmode]
  cases Text.endsWith '/' key <;> decide

end Mount

/-- A stem that stands for a directory: it ends with a slash, or it is empty while nothing is stored
under the empty key. -/
def Store.IsDirectory (s : Store) (bucket stem : String) : Prop :=
  Text.endsWith '/' stem = true ∨ stem = "" ∧ s.objectAt? bucket "" = none

namespace Mount

variable {m : Mount} {stem : String} {s : Store}

/-- A child is an object that can be read, or a group. -/
theorem child_cases {o : Object} (h : m.ShowsChild stem s o) :
    (o.mode = .read ∧ m.ShowsObject stem s o ∧ ∃ step, Text.IsStep step ∧ o.id = stem ++ step) ∨
      o.mode = .dir ∧ ∃ step, Text.IsStep step ∧ o.id = stem ++ (step ++ "/") ∧
        ∃ rest k, s.objectAt? m.bucket (o.id ++ rest) = some k := by
  rcases h with ⟨step, k, hs, hne, hk, rfl⟩ | ⟨step, hs, ⟨rest, k, hk⟩, rfl⟩
  · refine .inl ⟨if_neg (Bool.eq_false_iff.mp ?_), ⟨step, k, hk, rfl⟩, step, hs, rfl⟩
    exact Text.endsWith_step stem hs hne
  · refine .inr ⟨rfl, step, hs, rfl, rest, k, ?_⟩
    rw [← String.append_assoc] at hk
    exact hk

/-- A group is a directory, and its name is longer than the stem. -/
theorem group_facts {o : Object} (h : m.ShowsChild stem s o) (hmode : o.mode = .dir) :
    s.IsDirectory m.bucket o.id ∧ stem.length < o.id.length ∧
      ∃ rest k, s.objectAt? m.bucket (o.id ++ rest) = some k := by
  rcases child_cases h with ⟨hread, -⟩ | ⟨-, step, -, hid, hkey⟩
  · rw [hmode] at hread
    cases hread
  · have hslash : "/".length = 1 := rfl
    refine ⟨.inl ?_, ?_, hkey⟩
    · rw [hid, ← String.append_assoc]
      exact Text.endsWith_slash _
    · rw [hid, String.length_append, String.length_append, hslash]
      omega

/-- All that stands for a child has a key that goes on from its id. -/
theorem id_block {o x : Object} (h : m.ShowsChild stem s o)
    (hx : x ∈ block (fun o => m.readable o.id s) o) : ∃ rest, x.id = o.id ++ rest := by
  rcases child_cases h with ⟨hmode, -⟩ | ⟨hmode, -⟩
  · rw [block_read hmode, List.mem_singleton] at hx
    exact ⟨"", by rw [hx, String.append_empty]⟩
  · rw [block_dir hmode] at hx
    obtain ⟨⟨rest, k, -, rfl⟩, -⟩ := mem_readable.mp hx
    exact ⟨rest, rfl⟩

/-- No child has an id that goes on from the id of a group before it. -/
theorem not_below_group {o o' : Object} (h : m.ShowsChild stem s o) (hmode : o.mode = .dir)
    (h' : m.ShowsChild stem s o') (hlt : o.id < o'.id) : ¬ ∃ z, o'.id = o.id ++ z := by
  rcases child_cases h with ⟨hread, -⟩ | ⟨-, step, hs, hid, -⟩
  · rw [hmode] at hread
    cases hread
  rintro ⟨z, hz⟩
  rw [hid, String.append_assoc] at hz
  rcases child_cases h' with ⟨-, -, step', hs', hid'⟩ | ⟨-, step', hs', hid', -⟩
  · rw [hid'] at hz
    rw [(String.append_right_inj stem).mp hz] at hs'
    exact Text.not_isStep step z hs'
  · rw [hid'] at hz
    have hsame : step' ++ "/" ++ "" = step ++ "/" ++ z := by
      rw [String.append_empty]
      exact (String.append_right_inj stem).mp hz
    obtain ⟨rfl, -⟩ := Text.step_inj hs' hs hsame
    rw [hid, hid'] at hlt
    exact Std.lt_irrefl hlt

/-- What stands for a child is before what stands for the children after it. -/
theorem block_lt_block {o o' x x' : Object} (h : m.ShowsChild stem s o)
    (h' : m.ShowsChild stem s o') (hlt : o.id < o'.id)
    (hx : x ∈ block (fun o => m.readable o.id s) o)
    (hx' : x' ∈ block (fun o => m.readable o.id s) o') : x.id < x'.id := by
  obtain ⟨rest, hrest⟩ := id_block h hx
  obtain ⟨rest', hrest'⟩ := id_block h' hx'
  rw [hrest, hrest']
  rcases child_cases h with ⟨hmode, -⟩ | ⟨hmode, -⟩
  · -- The id of an object may start the id of a later one, but nothing goes on from it.
    rw [block_read hmode, List.mem_singleton] at hx
    rw [hx] at hrest
    rw [← hrest]
    by_cases hempty : rest' = ""
    · rw [hempty, String.append_empty]
      exact hlt
    · exact Std.lt_trans hlt (Text.lt_append_of_ne hempty)
  · exact Text.append_lt_append hlt (not_below_group h hmode h' hlt) rest rest'

/-- The parts that the children stand for hold just what can be read below the stem. -/
theorem mem_blocks (hdir : s.IsDirectory m.bucket stem) {x : Object} :
    (∃ o, m.ShowsChild stem s o ∧ x ∈ block (fun o => m.readable o.id s) o) ↔
      x ∈ m.readable stem s := by
  constructor
  · rintro ⟨o, ho, hx⟩
    rcases child_cases ho with ⟨hmode, hshows, -⟩ | ⟨hmode, step, -, hid, -⟩
    · rw [block_read hmode, List.mem_singleton] at hx
      subst hx
      exact mem_readable.mpr ⟨hshows, by rw [hmode]; decide⟩
    · rw [block_dir hmode] at hx
      obtain ⟨⟨rest, k, hk, rfl⟩, hread⟩ := mem_readable.mp hx
      rw [hid, String.append_assoc] at hk hread ⊢
      exact mem_readable.mpr ⟨⟨_, k, hk, rfl⟩, hread⟩
  · intro hx
    obtain ⟨⟨rest, k, hk, rfl⟩, hread⟩ := mem_readable.mp hx
    rcases Text.step_cases rest with hs | ⟨step, rest, hs, rfl⟩
    · -- The object of the directory itself cannot be read, and the empty key is not there.
      have hne : rest ≠ "" := by
        rintro rfl
        rw [String.append_empty] at hk hread
        rcases hdir with hslash | ⟨rfl, hnone⟩
        · rw [read_ofEntry.mp hread] at hslash
          cases hslash
        · rw [hnone] at hk
          cases hk
      have hchild : m.ShowsChild stem s (m.ofEntry (Store.listedObject (stem ++ rest) k)) :=
        .inl ⟨rest, k, hs, hne, hk, rfl⟩
      refine ⟨_, hchild, ?_⟩
      have hmode : (m.ofEntry (Store.listedObject (stem ++ rest) k)).mode = .read :=
        if_neg (Bool.eq_false_iff.mp (read_ofEntry.mp hread))
      rw [block_read hmode]
      exact List.mem_singleton.mpr rfl
    · refine ⟨m.ofGroup (stem ++ (step ++ "/")), .inr ⟨step, hs, ⟨rest, k, hk⟩, rfl⟩, ?_⟩
      rw [block_dir rfl]
      have hkey : stem ++ (step ++ "/" ++ rest) = stem ++ (step ++ "/") ++ rest :=
        String.append_assoc.symm
      rw [hkey] at hk hread ⊢
      exact mem_readable.mpr ⟨⟨rest, k, hk, rfl⟩, hread⟩

/-- **One level of a walk**: what can be read below a stem is, child by child, what stands for the
child. -/
theorem readable_eq_flatMap (hdir : s.IsDirectory m.bucket stem) :
    m.readable stem s = (items ((StemListing.dir m stem).entries s)).flatMap
      (block fun o => m.readable o.id s) := by
  have hasc := (StemListing.dir m stem).ascending_items s
  -- Both sides are in the order of their ids, so it is enough that their members are the same.
  refine eq_of_ascending (m.ascending_readable stem s) ?_ fun x => ?_
  · rw [List.pairwise_flatMap]
    refine ⟨fun o ho => ?_, hasc.imp_of_mem fun ho ho' hlt x hx x' hx' =>
      block_lt_block (mem_items_dir.mp ho) (mem_items_dir.mp ho') hlt hx hx'⟩
    rcases child_cases (mem_items_dir.mp ho) with ⟨hmode, -⟩ | ⟨hmode, -⟩
    · rw [block_read hmode]
      exact List.pairwise_singleton _ _
    · rw [block_dir hmode]
      exact m.ascending_readable o.id s
  · rw [List.mem_flatMap, ← mem_blocks hdir]
    simp only [mem_items_dir]

end Mount

/-! ## Walks find their end -/

/-- Below a directory no entry has the empty key. -/
theorem StemListing.mark_ne_empty {m : Mount} (L : StemListing m) {s : Store}
    (hdir : s.IsDirectory m.bucket L.stem) {e : String × Option Object} (he : e ∈ L.entries s) :
    e.1 ≠ "" := by
  intro hempty
  obtain ⟨k, i⟩ := e
  obtain rfl : k = "" := hempty
  obtain ⟨o?, hget, -⟩ := L.mem_entries.mp he
  cases o? with
  | some o =>
    obtain ⟨ho, hshown⟩ := (Store.shownAt?_object L.delimited).mp hget
    rcases hdir with hslash | ⟨-, hnone⟩
    · have hno : ∀ rest, "" ≠ L.stem ++ rest := by
        intro rest h
        rw [(String.append_eq_empty_iff.mp h.symm).1] at hslash
        cases hslash
      rw [Store.shown?_none hno] at hshown
      cases hshown
    · rw [hnone] at ho
      cases ho
  | none =>
    obtain ⟨key, o, -, hshown⟩ := (Store.shownAt?_group L.delimited).mp hget
    rcases L.delimited with hd | hd
    · rw [hd] at hshown
      cases (Store.shown?_flat.mp hshown).1
    · rw [hd] at hshown
      obtain ⟨step, rest, -, -, hname⟩ := Store.shown?_group.mp hshown
      have hslash := congrArg String.toList hname
      simp at hslash

/-- Collecting a listing of a directory brings its items. -/
theorem StemListing.collect_brings {m : Mount} (L : StemListing m) {s : Store}
    (hrefusal : s.refusal? .listObjects m.bucket = none) (hdir : s.IsDirectory m.bucket L.stem) :
    (Steps.collect L.listing).Brings s (items (L.entries s)) := by
  intro log
  have hsame : ({ s with log } : Store).refusal? .listObjects m.bucket = none := hrefusal
  have hgoes : ¬ L.paging.BrokenOff ({ s with log } : Store) := by
    rintro ⟨-, k, hk, hrefused⟩
    obtain ⟨e, he, rfl⟩ := List.mem_map.mp (List.mem_of_getElem? hk)
    exact of_decide_eq_false hrefused (L.mark_ne_empty (s := s) hdir he)
  obtain ⟨tokens, hcollect, -⟩ := (L.answeredBy hsame).collect (fun _ _ => rfl) hgoes
  exact ⟨tokens.map L.request, hcollect⟩

namespace Mount

/-- A walk of one level more brings what can be read below a path, if the walks of the groups there
do. -/
theorem walk_level {m : Mount} {s : Store} {depth : Nat} {path : String}
    (hrefusal : s.refusal? .listObjects m.bucket = none)
    (hdir : s.IsDirectory m.bucket (m.workDir.keyOf path))
    (henter : ∀ o, m.ShowsChild (m.workDir.keyOf path) s o → o.mode = .dir →
      (m.walk depth o.path).Brings s (m.readable o.id s)) :
    (m.walk (depth + 1) path).Brings s (m.readable (m.workDir.keyOf path) s) := by
  have hlist : m.list path .dir = .ok (StemListing.dir m (m.workDir.keyOf path)).listing := rfl
  have hcollect := (StemListing.dir m (m.workDir.keyOf path)).collect_brings hrefusal hdir
  rw [walk, hlist, readable_eq_flatMap hdir]
  refine (Steps.brings_pure _).bind (hcollect.bind (through_brings fun o ho hmode => ?_))
  have hchild := mem_items_dir.mp ho
  rcases child_cases hchild with ⟨hread, -⟩ | ⟨hmode', -⟩
  · rw [hread] at hmode
    cases hmode
  · exact henter o hchild hmode'

/-- **A walk finds its end** if it may go as deep as the longest key is long past the stem. It brings
what can be read below the stem. -/
theorem walk_brings {m : Mount} {s : Store} {depth : Nat} {path : String}
    (hrefusal : s.refusal? .listObjects m.bucket = none)
    (hdir : s.IsDirectory m.bucket (m.workDir.keyOf path))
    (hdepth : ∀ key o, s.objectAt? m.bucket key = some o →
      key.length ≤ (m.workDir.keyOf path).length + depth) :
    (m.walk (depth + 1) path).Brings s (m.readable (m.workDir.keyOf path) s) := by
  induction depth generalizing path with
  | zero =>
    refine walk_level hrefusal hdir fun o ho hmode => ?_
    obtain ⟨-, hlonger, rest, k, hk⟩ := group_facts ho hmode
    -- A group holds a key that is longer than the stem.
    have hkey := hdepth _ k hk
    rw [String.length_append] at hkey
    omega
  | succ depth ih =>
    refine walk_level hrefusal hdir fun o ho hmode => ?_
    -- What a group's name has more than the stem pays for the level.
    obtain ⟨hgroup, hlonger, -⟩ := group_facts ho hmode
    have hkey : m.workDir.keyOf o.path = o.id := (isChild_of_shows ho).1.symm
    have hbelow : ∀ key k, s.objectAt? m.bucket key = some k →
        key.length ≤ o.id.length + depth := fun key k hk => by
      have hlength := hdepth key k hk
      omega
    rw [← hkey] at hgroup hbelow ⊢
    exact ih hgroup hbelow

/-- A walk of a path that cannot be listed ends with the fault that the listing meets. -/
theorem walk_refused {m : Mount} {s : Store} {f : Fault}
    (hrefusal : s.refusal? .listObjects m.bucket = some f) (depth : Nat) (path : String) :
    ∃ s', (m.walk (depth + 1) path).run.run s = some (.error (.ofFault f), s') := by
  have hlist : m.list path .dir = .ok (StemListing.dir m (m.workDir.keyOf path)).listing := rfl
  have hpage := (StemListing.dir m (m.workDir.keyOf path)).page_refused hrefusal
  obtain ⟨s', hcollect⟩ := Listing.collect_start_error hpage
  refine ⟨s', ?_⟩
  rw [walk, hlist]
  exact Steps.bind_error (x := Steps.collect _) hcollect

end Mount

/-- A length that no key of a bucket passes. -/
theorem Store.exists_length_le (s : Store) (bucket : String) :
    ∃ depth, ∀ key o, s.objectAt? bucket key = some o → key.length ≤ depth :=
  ⟨_, fun _ o ho => le_foldr_add String.length (mem_keysIn.mpr ⟨o, ho⟩)⟩

/-- **A walk through directories equals the flat listing.** A fault that waits for a listing is met by
both. Otherwise both find their end, and the walk brings what the flat listing shows and can be read,
in the same order; it takes any depth that is enough. -/
theorem walk_eq_flat (m : Mount) (s : Store) (b : Bucket) (hb : s.buckets.get? m.bucket = some b)
    (path : String) (hdir : s.IsDirectory m.bucket (m.workDir.keyOf path)) :
    ∃ l, m.list path .flat = .ok l ∧
      (∀ p, Store.takeFault? .listObjects s.faults = some p →
        (∃ s', l.collect s = some (.error (.ofFault p.1), s')) ∧
          ∀ depth, ∃ s', (m.walk (depth + 1) path).run.run s = some (.error (.ofFault p.1), s')) ∧
      (Store.takeFault? .listObjects s.faults = none →
        ∃ objects requests depth,
          l.collect s = some (.ok objects, { s with log := s.log ++ requests }) ∧
            ∀ d, depth ≤ d → ∃ requests, (m.walk d path).run.run s =
              some (.ok (objects.filter (·.mode.contains .read)),
                { s with log := s.log ++ requests })) := by
  refine ⟨(StemListing.flat m (m.workDir.keyOf path)).listing, rfl, fun p hp => ?_, fun hnone => ?_⟩
  · have hrefusal : s.refusal? .listObjects m.bucket = some p.1 := by
      rw [Store.refusal?, hp]
      rfl
    have hpage := (StemListing.flat m (m.workDir.keyOf path)).page_refused hrefusal
    exact ⟨Listing.collect_start_error hpage, fun depth => Mount.walk_refused hrefusal depth path⟩
  · have hrefusal := Store.refusal?_eq_none.mpr ⟨hnone, b, hb⟩
    have hcollect := (StemListing.flat m (m.workDir.keyOf path)).collect_brings hrefusal hdir
    obtain ⟨requests, hflat⟩ := hcollect s.log
    obtain ⟨longest, hlongest⟩ := s.exists_length_le m.bucket
    refine ⟨_, requests, longest + 1, hflat, fun d hd => ?_⟩
    obtain ⟨depth, rfl⟩ : ∃ depth, d = depth + 1 := Nat.exists_eq_add_one.mpr (by omega)
    refine Mount.walk_brings hrefusal hdir (fun key o ho => ?_) s.log
    have hkey := hlongest key o ho
    omega

/-- Keys below and above the slash, an object between two slashes, and one of a directory itself. -/
theorem walk_eq_flat_nested :
    let m : Mount := ⟨"b", .root, 1, none, none, by decide⟩
    let s := (Run.calls ⟨Store.withBuckets ["b"] (fun n => toString n) 0 false, []⟩
      [(m, .write "d" [] 0 {}), (m, .write "d!" [] 0 {}), (m, .write "d/" [] 0 {}),
        (m, .write "d//x" [] 0 {}), (m, .write "d/e/f" [] 0 {}), (m, .write "d0" [] 0 {})]).state
    ((m.walk 3 "").run.run s).map (fun r => r.1.toOption.map (·.map Object.id)) =
        some (some ["d", "d!", "d//x", "d/e/f", "d0"]) ∧
      ∃ l objects s' depth, m.list "" .flat = .ok l ∧ l.collect s = some (.ok objects, s') ∧
        ∀ d, depth ≤ d → ∃ s', (m.walk d "").run.run s =
          some (.ok (objects.filter (·.mode.contains .read)), s') := by
  intro m s
  obtain ⟨b, hb⟩ : ∃ b, s.buckets.get? m.bucket = some b :=
    Option.isSome_iff_exists.mp (by decide +kernel)
  obtain ⟨l, hl, -, hwalk⟩ := walk_eq_flat m s b hb "" (.inr ⟨rfl, by decide +kernel⟩)
  obtain ⟨objects, requests, depth, hflat, hsame⟩ := hwalk (by decide +kernel)
  refine ⟨by decide +kernel, l, objects, _, depth, hl, hflat, fun d hd => ?_⟩
  obtain ⟨requests, hrun⟩ := hsame d hd
  exact ⟨_, hrun⟩

end ObjectStore
