import ObjectStore.Proofs.CustomerKeys
import ObjectStore.Proofs.Frame
import ObjectStore.Proofs.Paths

/-!
# Addressing listed directories

A directory in a listing has a key that ends with a slash, and so does its path (`Mount.Item.slashed`).
An operation on the directory at a path sets a slash after the path. So a listed directory is reached
as the directory at its path without that slash, or at its path as it is, like any other object.
-/

namespace ObjectStore

namespace Text

theorem exists_of_endsWith {text : String} (h : endsWith '/' text = true) :
    ∃ start, text = start ++ "/" := by
  obtain ⟨start, hstart⟩ := List.getLast?_eq_some_iff.mp (eq_of_beq h)
  exact ⟨String.ofList start, String.toList_inj.mp (by simp [hstart])⟩

/-- The last character of a text is that of its rest, if there is a rest. -/
theorem endsWith_append {c : Char} {stem rest : String} (h : endsWith c (stem ++ rest) = true)
    (hne : rest ≠ "") : endsWith c rest = true := by
  have hlist : rest.toList ≠ [] := fun hnil => hne (String.toList_inj.mp (by rw [hnil]; rfl))
  rw [endsWith, String.toList_append, List.getLast?_append, List.getLast?_eq_some_getLast hlist,
    Option.some_or] at h
  rw [endsWith, List.getLast?_eq_some_getLast hlist]
  exact h

end Text

/-! ## Keys of directories -/

namespace Store

/-- A group by slashes has a slash at its end. -/
theorem slashed_of_group {b : Bucket} {r : Request.ListObjects} (hd : r.delimiter = some "/")
    {group : String} (h : group ∈ (listObjects b r).groups) : Text.endsWith '/' group = true := by
  obtain ⟨e, he, hgroup⟩ := List.mem_filterMap.mp h
  have hmem : e ∈ (shownTable r.stem r.delimiter b.objects).entries :=
    (List.mem_filter.mp (List.mem_of_mem_take he)).1
  split at hgroup
  · rename_i hnone
    obtain ⟨name, o?⟩ := e
    cases hgroup
    obtain rfl : o? = none := Option.isNone_iff_eq_none.mp hnone
    have hget := (Table.get?_eq_some_iff _).mpr hmem
    rw [hd] at hget
    obtain ⟨_, -, hshown⟩ := (get?_shownTable r.stem (.inr rfl) b.objects name).2.mp hget
    obtain ⟨step, _, -, -, rfl⟩ := shown?_group.mp hshown
    rw [← String.append_assoc]
    exact Text.endsWith_slash _
  · cases hgroup

end Store

/-- What a position groups by, if it does. -/
def ListingPosition.delimiter? : ListingPosition → Option String
  | .grouped _ d => some d
  | _ => none

namespace Mount

variable {m : Mount}

/-- That an object has a slash at the end of its key if it is a directory. -/
def Slashed (o : Object) : Prop := o.mode.contains .dir = true → Text.endsWith '/' o.id = true

theorem Item.slashed {position : ListingPosition} {o : Object} (h : m.Item position o)
    (hd : ∀ d ∈ position.delimiter?, d = "/") : Slashed o := by
  intro hdir
  cases h with
  | @entry _ b r e hstem he =>
    have hmode : (m.ofEntry e).mode = if Text.endsWith '/' e.key then Mode.dir else Mode.read := rfl
    cases hends : Text.endsWith '/' e.key with
    | true => exact hends
    | false =>
      rw [hmode, hends] at hdir
      cases hdir
  | @group c d b group hgroup =>
    obtain rfl : d = "/" := hd d rfl
    exact Store.slashed_of_group rfl hgroup
  | @upload _ b r u hstem hu =>
    have hmode : (m.ofUpload u).mode.contains .dir = false := by
      have hpart : (m.ofUpload u).mode = .part := rfl
      rw [hpart]
      decide
    rw [hmode] at hdir
    cases hdir

theorem delimiter?_fetched {κ : Type} {position : κ} {wrap : κ → ListingPosition}
    {next : Except Error (Option κ)} {items : List Object} {d? : Option String}
    (h : ∀ position', (wrap position').delimiter? = d?) :
    (fetched position wrap next items).position.delimiter? = d? := by
  match next with
  | .error e => exact h position
  | .ok none => exact h position
  | .ok (some position') => exact h position'

/-- A listing groups by the same from page to page. -/
theorem delimiter?_objectPage (m : Mount) (position : ListingPosition) (s : Store) :
    ((m.objectPage position).run s).1.position.delimiter? = position.delimiter? := by
  cases position with
  | flat c =>
    rw [objectPage, askPage, Call.run]
    cases (Backend.exchange (.listObjects ⟨m.bucket, c.stem, none, c.limit, c.token?⟩) s).1 with
    | error f => rfl
    | ok reply => exact delimiter?_fetched fun _ => rfl
  | grouped c d =>
    rw [objectPage, askPage, Call.run]
    cases (Backend.exchange (.listObjects ⟨m.bucket, c.stem, some d, c.limit, c.token?⟩) s).1 with
    | error f => rfl
    | ok reply => exact delimiter?_fetched fun _ => rfl
  | uploads c =>
    rw [objectPage, askPage, Call.run]
    cases (Backend.exchange
      (.listUploads ⟨m.bucket, c.stem, c.limit, c.keyMarker, c.idMarker⟩) s).1 with
    | error f => rfl
    | ok reply => exact delimiter?_fetched fun _ => rfl

theorem brings_slashed (m : Mount) : m.Brings (fun k => ∀ d ∈ k.delimiter?, d = "/") Slashed := by
  intro position s hposition
  constructor
  · have hsame : ∀ d ∈ ((m.objectPage position).run s).1.position.delimiter?, d = "/" := by
      rw [m.delimiter?_objectPage position s]
      exact hposition
    exact hsame
  · intro o ho
    exact (m.item_objectPage ho).slashed hposition

theorem delimiter?_startPosition (path : String) (kind : ListingKind) (position : ListingPosition)
    (h : m.startPosition path kind = .ok position) : ∀ d ∈ position.delimiter?, d = "/" := by
  intro d hd
  cases kind <;> cases h <;> cases hd
  rfl

/-! ## Reaching an object -/

/-- That a target at a path stands for the object under a key: unless a fault waits, it can be told
about, and taken away without anything else. -/
structure Addresses (m : Mount) (s : Store) (path : String) (target : Target) (key : String) :
    Prop where
  stat : (∀ f, (Request.Kind.headObject, f) ∉ s.faults) →
    ∃ o, ((m.stat path target none).run s).1 = .ok o ∧ o.id = key
  delete : (∀ f, (Request.Kind.deleteObject, f) ∉ s.faults) →
    ∃ s', (m.delete path target).run s = (.ok (), s') ∧ s'.objectAt? m.bucket key = none ∧
      Frame m.bucket (.object key) s s'

/-- An object that is there without a customer key can be told about. -/
theorem stat_of_objectKey {s : Store} {path key : String} {target : Target} {o : KeptObject}
    (hkey : Store.objectKey? m path target = some key) (ho : s.objectAt? m.bucket key = some o)
    (hlock : o.lock = none) (hfaults : ∀ f, (Request.Kind.headObject, f) ∉ s.faults) :
    ∃ o, ((m.stat path target none).run s).1 = .ok o ∧ o.id = key := by
  refine ⟨ofHead key path (Store.modeOf target) (Store.head o), ?_, rfl⟩
  rw [Store.run_stat hkey ho hfaults none, hlock]
  rfl

/-- An object that is there is taken away, and nothing else. -/
theorem delete_of_objectKey {s : Store} {path key : String} {target : Target} {o : KeptObject}
    (hkey : Store.objectKey? m path target = some key) (ho : s.objectAt? m.bucket key = some o)
    (hfaults : ∀ f, (Request.Kind.deleteObject, f) ∉ s.faults) :
    ∃ s', (m.delete path target).run s = (.ok (), s') ∧ s'.objectAt? m.bucket key = none ∧
      Frame m.bucket (.object key) s s' := by
  have hdelete : m.delete path target =
      (Call.send (.deleteObject ⟨m.bucket, key⟩) fun _ => .ok ()).map ignoreMissing := by
    cases target <;> cases hkey <;> rfl
  rw [hdelete, Call.run_map]
  rcases Store.run_send (.deleteObject ⟨m.bucket, key⟩) (fun _ => .ok ()) s with
    ⟨f, s', ha, -, -⟩ | ⟨_, s', ha, hrun⟩
  · rcases Store.answer_deleteObject_error ha with hwaits | hnone
    · exact absurd hwaits (hfaults f)
    · rw [ho] at hnone
      cases hnone
  · -- Fulfilled: the store differs by this one object.
    have halters := Store.answer_deleteObject_ok ha
    refine ⟨s', by rw [hrun]; rfl, ?_, halters.frame_object rfl rfl rfl trivial⟩
    rw [halters.objectAt?]
    exact if_pos ⟨rfl, rfl⟩

theorem Addresses.of_objectKey {s : Store} {path key : String} {target : Target} {o : KeptObject}
    (hkey : Store.objectKey? m path target = some key) (ho : s.objectAt? m.bucket key = some o)
    (hlock : o.lock = none) : m.Addresses s path target key where
  stat := stat_of_objectKey hkey ho hlock
  delete := delete_of_objectKey hkey ho

/-- An object whose key can be told from its path is addressed by the path. -/
theorem Homed.objectKey {o : Object} (h : m.Homed o) :
    Store.objectKey? m o.path .object = some o.id :=
  congrArg some h.id

/-- It is addressed as a directory by what stands before the slash of its path. -/
theorem Homed.objectKey_dir {o : Object} (h : m.Homed o) {path : String}
    (hpath : path ++ "/" = o.path) :
    Store.objectKey? m path .dir = some o.id := by
  have hkey : m.keyOf path true = m.workDir.keyOf (path ++ "/") := String.append_assoc
  exact congrArg some (hkey.trans (by rw [hpath, h.id]))

/-- The path of a directory ends with a slash, but for the work directory itself. -/
theorem Homed.exists_path {o : Object} (h : m.Homed o) (hslash : Text.endsWith '/' o.id = true) :
    o.id = m.workDir.stem ∨ ∃ path, path ++ "/" = o.path := by
  have hid : m.workDir.stem ++ o.path = o.id := h.id
  by_cases hempty : o.path = ""
  · refine .inl ?_
    rw [← hid, hempty, String.append_empty]
  · rw [← hid] at hslash
    obtain ⟨path, hpath⟩ := Text.exists_of_endsWith (Text.endsWith_append hslash hempty)
    exact .inr ⟨path, hpath.symm⟩

end Mount

/-- **Listed directories can be addressed.** A directory that a listing has shown, and under whose key
an object is stored without a customer key, is addressed by its path like any object, and as a
directory by its path without the slash that the path ends with. Only the path of the work directory
itself does not. -/
theorem listed_directory_addressed {m : Mount} {feed feed' : Feed ListingPosition Object}
    {d : Object} {s t : Store} {o : KeptObject} (hfeed : m.Feeds feed)
    (hshown : (Operation.advance m.objectPage feed t).1 = some (.ok (some d), feed'))
    (hdir : d.mode.contains .dir = true) (ho : s.objectAt? m.bucket d.id = some o)
    (hlock : o.lock = none) :
    m.Addresses s d.path .object d.id ∧
      (∀ path, path ++ "/" = d.path → m.Addresses s path .dir d.id) ∧
      (d.id = m.workDir.stem ∨ ∃ path, path ++ "/" = d.path) := by
  have hhomed : m.Homed d := hfeed.holds_item m.brings_homed m.owns_startPosition hshown
  have hslashed : Mount.Slashed d :=
    hfeed.holds_item m.brings_slashed Mount.delimiter?_startPosition hshown
  exact ⟨.of_objectKey hhomed.objectKey ho hlock,
    fun path hpath => .of_objectKey (hhomed.objectKey_dir hpath) ho hlock,
    hhomed.exists_path (hslashed hdir)⟩

/-- A directory that was made is found in the listing, and reached by its path without the slash. -/
theorem listed_directory_addressed_photos :
    let m : Mount := ⟨"b", .root, 200, none, none, by decide⟩
    let s := ((m.makeDir "photos").run (Store.withBuckets ["b"] (fun n => toString n) 0 false)).2
    let feed : Feed ListingPosition Object :=
      { position := .grouped ⟨m.workDir.keyOf "", 200, none⟩ "/" }
    let d := Object.dir "photos/" "photos/"
    m.Feeds feed ∧
      (∃ feed', (Operation.advance m.objectPage feed s).1 = some (.ok (some d), feed')) ∧
      (∃ o, s.objectAt? m.bucket d.id = some o ∧ o.lock = none) ∧
      (∃ o, ((m.stat "photos" .dir none).run s).1 = .ok o ∧ o.id = d.id) ∧
      ∃ s', (m.delete "photos" .dir).run s = (.ok (), s') ∧ s'.objectAt? m.bucket d.id = none ∧
        Frame m.bucket (.object d.id) s s' := by
  intro m s feed d
  have hopen : m.list "" .dir =
      .ok (.start m.objectPage (.grouped ⟨m.workDir.keyOf "", 200, none⟩ "/")) := rfl
  have hfeed : m.Feeds feed := .opened hopen
  have hd : d ∈ Event.objects
      ⟨m, .nextObject feed, (Operation.advance m.objectPage feed s).1⟩ := by decide +kernel
  obtain ⟨feed', hshown⟩ := Event.mem_objects_nextObject.mp hd
  have hlocks : (s.objectAt? m.bucket d.id).map (·.lock) = some none := by decide +kernel
  obtain ⟨o, ho, hlock⟩ := Option.map_eq_some_iff.mp hlocks
  have hnone (kind : Request.Kind) (f : Fault) : (kind, f) ∉ s.faults := by
    have hfaults : s.faults = [] := by decide +kernel
    rw [hfaults]
    exact List.not_mem_nil
  have haddressed := (listed_directory_addressed hfeed hshown (by decide) ho hlock).2.1 "photos"
    (by decide)
  exact ⟨hfeed, ⟨feed', hshown⟩, ⟨o, ho, hlock⟩, haddressed.stat fun f => hnone _ f,
    haddressed.delete fun f => hnone _ f⟩

/-- As a directory at its own path it is not found, and to take it away there takes nothing away. -/
theorem listed_directory_not_at_path :
    let m : Mount := ⟨"b", .root, 200, none, none, by decide⟩
    let s := ((m.makeDir "photos").run (Store.withBuckets ["b"] (fun n => toString n) 0 false)).2
    let take := Operation.nextObject { position := .grouped ⟨m.workDir.keyOf "", 200, none⟩ "/" }
    (∀ feed ∈ take.feeds, m.Feeds feed) ∧ s.faults = [] ∧
      ∃ d ∈ Event.objects ⟨m, take, (take.perform m s).1⟩, d.mode.contains .dir = true ∧
        (s.objectAt? m.bucket d.id).map (·.lock) = some none ∧
        ((m.stat d.path .dir none).run s).1.isOk = false ∧
        ((m.delete d.path .dir).run s).1.isOk = true ∧
        (((m.delete d.path .dir).run s).2.objectAt? m.bucket d.id).isSome = true := by
  intro m s take
  have hopen : m.list "" .dir =
      .ok (.start m.objectPage (.grouped ⟨m.workDir.keyOf "", 200, none⟩ "/")) := rfl
  refine ⟨fun feed hfeed => ?_, by decide +kernel, .dir "photos/" "photos/", by decide +kernel,
    by decide +kernel, by decide +kernel, by decide +kernel, by decide +kernel, by decide +kernel⟩
  rw [List.mem_singleton.mp hfeed]
  exact .opened hopen

end ObjectStore
