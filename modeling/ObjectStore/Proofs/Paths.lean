import ObjectStore.Proofs.Isolation
import ObjectStore.Proofs.WorkDirs

/-!
# Paths of objects

An object that a mount hands out carries its key and its path below the work directory. Where the path
comes from the key, as in listings, or the key from the path, each can be told from the other
(`Mount.Homed`). A directory that is made or looked up is handed out under the path that the caller
gave, while its key has a slash after it: there the path of the key is another one.

A listing goes on over many calls, so what it hands out is told by an invariant of its feed
(`Mount.Feeds.holds`).
-/

namespace ObjectStore

namespace Mount

/-- That a feed was opened by a listing of a mount, and has been taken from since, with whatever the
store was each time. -/
inductive Feeds (m : Mount) : Feed ListingPosition Object → Prop
  | opened {path : String} {kind : ListingKind} {l : Listing ListingPosition Object}
    (h : m.list path kind = .ok l) : Feeds m l.feed
  | advanced {feed feed' : Feed ListingPosition Object} {s : Store}
    {answer : Except Error (Option Object)} (h : Feeds m feed)
    (hadvance : (Operation.advance m.objectPage feed s).1 = some (answer, feed')) : Feeds m feed'

variable {m : Mount} {P : ListingPosition → Prop} {Q : Object → Prop}

namespace Feeds

variable {feed feed' : Feed ListingPosition Object} {s : Store}

/-- What is true where listings start, and fetches keep, is true of every feed. -/
theorem holds (h : m.Feeds feed) (hbrings : m.Brings P Q)
    (hstart : ∀ path kind position, m.startPosition path kind = .ok position → P position) :
    P feed.position ∧ ∀ o ∈ feed.buffer, Q o := by
  induction h with
  | @opened path kind l hl =>
    rw [list] at hl
    cases hposition : m.startPosition path kind with
    | error e =>
      rw [hposition] at hl
      cases hl
    | ok position =>
      rw [hposition] at hl
      cases hl
      exact ⟨hstart path kind position hposition, fun o ho => by cases ho⟩
  | advanced _ hadvance ih => exact (hbrings.advance ih hadvance).1

/-- So is what it makes true of the objects that are taken. -/
theorem holds_item (h : m.Feeds feed) (hbrings : m.Brings P Q)
    (hstart : ∀ path kind position, m.startPosition path kind = .ok position → P position) {o : Object}
    (hadvance : (Operation.advance m.objectPage feed s).1 = some (.ok (some o), feed')) : Q o :=
  (hbrings.advance (h.holds hbrings hstart) hadvance).2 o rfl

end Feeds

/-! ## Keys and paths -/

theorem keyOf_pathOf {key : String} (h : m.Owns key) :
    m.workDir.keyOf (m.workDir.pathOf key) = key := WorkDir.keyOf_pathOf_iff.mpr h

/-- That key and path of an object can be told from each other. -/
structure Homed (m : Mount) (o : Object) : Prop where
  path : o.path = m.workDir.pathOf o.id
  id : m.workDir.keyOf o.path = o.id

/-- An object that has its key from its path. -/
theorem Homed.of_id {o : Object} (h : o.id = m.workDir.keyOf o.path) : m.Homed o where
  path := by rw [h, WorkDir.pathOf_keyOf]
  id := h.symm

/-- An object that has its path from its key. -/
theorem Homed.of_path {o : Object} (hpath : o.path = m.workDir.pathOf o.id) (howns : m.Owns o.id) :
    m.Homed o where
  path := hpath
  id := by rw [hpath, keyOf_pathOf howns]

/-! ## Listings -/

theorem Item.path {m : Mount} {position : ListingPosition} {o : Object} (h : m.Item position o) :
    o.path = m.workDir.pathOf o.id := by
  cases h <;> rfl

theorem brings_homed (m : Mount) : m.Brings (fun k => m.Owns k.stem) m.Homed := by
  intro position s hposition
  obtain ⟨hnext, howns⟩ := m.brings_owns position s hposition
  refine ⟨hnext, fun o ho => ?_⟩
  exact .of_path (m.item_objectPage ho).path (howns o ho)

theorem owns_startPosition (path : String) (kind : ListingKind) (position : ListingPosition)
    (h : m.startPosition path kind = .ok position) : m.Owns position.stem := by
  cases kind <;> cases h <;> exact m.owns_keyOf path false

/-! ## What is handed out -/

/-- That an object is handed out under the path of its key without the slash at the end. -/
structure Trimmed (m : Mount) (o : Object) : Prop where
  path : m.workDir.pathOf o.id = o.path ++ delimiter
  id : m.workDir.keyOf o.path ++ delimiter = o.id

/-- An object that has its key from its path, with a slash after it. -/
theorem Trimmed.of_id {o : Object} (h : o.id = m.keyOf o.path true) : m.Trimmed o where
  path := by
    have hid : o.id = m.workDir.keyOf (o.path ++ delimiter) := h.trans String.append_assoc
    rw [hid, WorkDir.pathOf_keyOf]
  id := h.symm

/-- A slash makes another path. -/
theorem Trimmed.not_homed {o : Object} (h : m.Trimmed o) : ¬ m.Homed o := by
  intro hhomed
  have hsame : o.path = o.path ++ delimiter := hhomed.path.trans h.path
  have hlength := congrArg String.length hsame
  rw [String.length_append] at hlength
  have hdelimiter : delimiter.length = 1 := rfl
  omega

end Mount

/-- The object that a listing hands out is the item that is taken. -/
theorem Event.mem_objects_nextObject {m : Mount} {feed : Feed ListingPosition Object}
    {a : (Operation.nextObject feed).Answer} {o : Object} :
    o ∈ Event.objects ⟨m, .nextObject feed, a⟩ ↔ ∃ feed', a = some (.ok (some o), feed') := by
  constructor
  · intro ho
    obtain ⟨⟨answer, feed'⟩, rfl, hitem⟩ := Option.bind_eq_some_iff.mp (Option.mem_toList.mp ho)
    cases answer with
    | error e => cases hitem
    | ok item =>
      cases hitem
      exact ⟨feed', rfl⟩
  · rintro ⟨feed', rfl⟩
    exact List.mem_singleton.mpr rfl

namespace Operation

variable {m : Mount} {s : Store}

/-- Whether an operation is about the directory at a path. -/
def aimsAtDir : Operation → Bool
  | makeDir _ | stat _ .dir _ => true
  | _ => false

/-- **What an operation hands out** is told from its key, unless it is about a directory. -/
theorem homed_perform {op : Operation} (hfeeds : ∀ feed ∈ op.feeds, m.Feeds feed) {o : Object}
    (ho : o ∈ Event.objects ⟨m, op, (op.perform m s).1⟩) :
    if op.aimsAtDir then m.Trimmed o else m.Homed o := by
  cases op with
  | stat path target key =>
    have hrun : ((m.stat path target key).run s).1 = .ok o := mem_toList_toOption.mp ho
    cases target with
    | object =>
      obtain ⟨reply, hreply⟩ := Call.exists_reply hrun
      cases hreply
      exact .of_id rfl
    | dir =>
      obtain ⟨reply, hreply⟩ := Call.exists_reply hrun
      cases hreply
      exact Mount.Trimmed.of_id rfl
    | upload id =>
      obtain ⟨reply, hreply⟩ := Call.exists_reply hrun
      cases hreply
      exact .of_id rfl
  | makeDir path =>
    obtain ⟨reply, hreply⟩ := Call.exists_reply (mem_toList_toOption.mp ho)
    cases hreply
    exact Mount.Trimmed.of_id rfl
  | makeLink path target =>
    obtain ⟨reply, hreply⟩ := Call.exists_reply (mem_toList_toOption.mp ho)
    cases hreply
    exact .of_id rfl
  | createUpload path choices =>
    obtain ⟨id, rfl⟩ := Mount.object_of_createUpload (mem_toList_toOption.mp ho)
    exact .of_id rfl
  | nextObject feed =>
    obtain ⟨feed', hanswer⟩ := Event.mem_objects_nextObject.mp ho
    exact (hfeeds feed List.mem_cons_self).holds_item m.brings_homed m.owns_startPosition hanswer
  | _ => cases ho

end Operation

/-- **The path of an object** that a call or a listing hands out is its key without the work directory,
and its key is found again from the path — just when the operation is not about a directory. The path
that comes with a directory that was made or looked up lacks the slash that its key ends with. -/
theorem path_of_handed_out (m : Mount) (op : Operation) (s : Store)
    (hfeeds : ∀ feed ∈ op.feeds, m.Feeds feed) :
    ∀ o ∈ Event.objects ⟨m, op, (op.perform m s).1⟩,
      ((o.path = m.workDir.pathOf o.id ∧ m.workDir.keyOf o.path = o.id) ↔ op.aimsAtDir = false) ∧
        (op.aimsAtDir = true → m.workDir.pathOf o.id = o.path ++ "/" ∧
          m.workDir.keyOf o.path ++ "/" = o.id) := by
  intro o ho
  have hhanded := Operation.homed_perform hfeeds ho
  cases haims : op.aimsAtDir with
  | false =>
    rw [haims] at hhanded
    exact ⟨iff_of_true ⟨hhanded.path, hhanded.id⟩ rfl, nofun⟩
  | true =>
    rw [haims] at hhanded
    have hnot : ¬ (o.path = m.workDir.pathOf o.id ∧ m.workDir.keyOf o.path = o.id) :=
      fun h => hhanded.not_homed ⟨h.1, h.2⟩
    exact ⟨iff_of_false hnot nofun, fun _ => ⟨hhanded.path, hhanded.id⟩⟩

/-- A listed object: its path is what is left of its key after the work directory. -/
theorem path_of_listed_object :
    let m : Mount := ⟨"b", .ofStem "root", 200, none, none, by decide⟩
    let s := (Run.calls ⟨Store.withBuckets ["b"] (fun n => toString n) 0 false, []⟩
      [(m, .write "k" [7] 1 {})]).state
    let op := Operation.nextObject { position := .flat ⟨m.workDir.keyOf "", 200, none⟩ }
    (∀ feed ∈ op.feeds, m.Feeds feed) ∧
      ∃ o ∈ Event.objects ⟨m, op, (op.perform m s).1⟩, o.id = "root/k" ∧ o.path = "k" ∧
        m.workDir.keyOf o.path = o.id := by
  intro m s op
  have hopen : m.list "" .flat = .ok (.start m.objectPage (.flat ⟨m.workDir.keyOf "", 200, none⟩)) :=
    rfl
  have hfeeds : ∀ feed ∈ op.feeds, m.Feeds feed := by
    intro feed hfeed
    rw [List.mem_singleton.mp hfeed]
    exact .opened hopen
  have hids : (Event.objects ⟨m, op, (op.perform m s).1⟩).map (·.id) = ["root/k"] := by
    decide +kernel
  obtain ⟨o, ho, hid⟩ := List.mem_map.mp (hids ▸ List.mem_singleton.mpr rfl)
  obtain ⟨hpath, hkey⟩ := (path_of_handed_out m op s hfeeds o ho).1.mpr rfl
  refine ⟨hfeeds, o, ho, hid, ?_, hkey⟩
  rw [hpath, hid]
  decide +kernel

/-- A directory is handed out under one path where it is made, and under another where it is listed. -/
theorem made_dir_path_lacks_slash :
    let m : Mount := ⟨"b", .root, 200, none, none, by decide⟩
    let make := Operation.makeDir "photos"
    let made := make.perform m (Store.withBuckets ["b"] (fun n => toString n) 0 false)
    let take := Operation.nextObject { position := .grouped ⟨m.workDir.keyOf "", 200, none⟩ "/" }
    (∀ feed ∈ take.feeds, m.Feeds feed) ∧
      ∃ o ∈ Event.objects ⟨m, make, made.1⟩, o.path ≠ m.workDir.pathOf o.id ∧
        m.workDir.keyOf o.path ≠ o.id ∧
        ∃ o' ∈ Event.objects ⟨m, take, (take.perform m made.2).1⟩,
          o'.id = o.id ∧ o'.path ≠ o.path := by
  intro m make made take
  have hopen : m.list "" .dir =
      .ok (.start m.objectPage (.grouped ⟨m.workDir.keyOf "", 200, none⟩ "/")) := rfl
  refine ⟨fun feed hfeed => ?_, .dir "photos/" "photos", by decide +kernel, by decide +kernel,
    by decide +kernel, .dir "photos/" "photos/", by decide +kernel, rfl, by decide +kernel⟩
  rw [List.mem_singleton.mp hfeed]
  exact .opened hopen

end ObjectStore
