import ObjectStore.Proofs.Frame
import ObjectStore.Proofs.Views

/-!
# Isolation

Two mounts are apart if they have different buckets, or one bucket and work directories of which
neither is within the other. What a caller does through one of them is not seen through the other.

A caller reaches its own keys by paths; but an upload is reached by the key of its object, so callers
are asked to hand in only objects that they were handed (`Run.Honest`). Whatever a mount hands out
has a key of its own, be it from a call or from a listing (`Mount.Holdings.calls`). So a change that
a call makes is below the stem of its mount (`Store.Makes.within`), where no mount looks that is
apart from it (`Store.alikeBelow_calls`).

One thing mounts do share: a fault that waits for a kind of request is met by the first that comes.
-/

namespace ObjectStore

/-! ## What a mount owns -/

namespace Mount

/-- Two mounts that share no keys. -/
def Apart (a b : Mount) : Prop :=
  a.bucket ≠ b.bucket ∨ (Text.startsWith a.workDir.stem b.workDir.stem = false ∧
    Text.startsWith b.workDir.stem a.workDir.stem = false)

/-- That a key is below the work directory of a mount. -/
def Owns (m : Mount) (key : String) : Prop := Text.startsWith m.workDir.stem key = true

/-- That a feed lists below the work directory of a mount, and holds only objects from there. -/
structure OwnsFeed (m : Mount) (feed : Feed ListingPosition Object) : Prop where
  stem : m.Owns feed.position.stem
  buffer : ∀ o ∈ feed.buffer, m.Owns o.id

variable {a b : Mount} {key : String}

/-- In one bucket, no key is below both work directories. -/
theorem Apart.not_owns (h : a.Apart b) (hbucket : a.bucket = b.bucket) (hkey : a.Owns key) :
    Text.startsWith b.workDir.stem key = false := by
  rcases h with hne | ⟨hab, hba⟩
  · exact absurd hbucket hne
  cases hb : Text.startsWith b.workDir.stem key with
  | false => rfl
  | true =>
    rcases Text.startsWith_or_startsWith hkey hb with h | h
    · rw [hab] at h
      cases h
    · rw [hba] at h
      cases h

theorem owns_keyOf (m : Mount) (path : String) (dir : Bool) : m.Owns (m.keyOf path dir) :=
  m.startsWith_keyOf path dir

theorem Owns.of_stem {m : Mount} {stem : String} (h : m.Owns stem)
    (hkey : Text.startsWith stem key = true) : m.Owns key :=
  Text.startsWith_trans h hkey

end Mount

/-! ## What is handed in and out -/

/-- The objects that a caller hands in to have their uploads worked on. -/
def Operation.objects : Operation → List Object
  | .writePart object .. | .completeUpload object _ | .abortUpload object => [object]
  | _ => []

/-- The feeds of objects that a caller hands in. -/
def Operation.feeds : Operation → List (Feed ListingPosition Object)
  | .nextObject feed => [feed]
  | _ => []

/-- The objects that a call hands to its caller. An object whose upload is complete is not among them:
there is nothing left to be done with it. -/
def Event.objects : Event → List Object
  | ⟨_, .stat .., a⟩ => a.toOption.toList
  | ⟨_, .makeDir _, a⟩ => a.toOption.toList
  | ⟨_, .makeLink .., a⟩ => a.toOption.toList
  | ⟨_, .createUpload .., a⟩ => a.toOption.toList
  | ⟨_, .nextObject _, a⟩ => (a.bind fun r => r.1.toOption.join).toList
  | _ => []

/-- The feeds of objects that a call hands to its caller. -/
def Event.feeds : Event → List (Feed ListingPosition Object)
  | ⟨_, .list .., a⟩ => a.toOption.toList.map (·.feed)
  | ⟨_, .nextObject _, a⟩ => (a.map (·.2)).toList
  | _ => []

/-- That a caller who hands in a feed, or an object with an open upload, was handed it by a call
through the same mount. -/
structure Operation.Honest (m : Mount) (history : List Event) (op : Operation) : Prop where
  objects : ∀ o ∈ op.objects, (∃ id, o.openUpload = .ok id) →
    ∃ e ∈ history, e.mount = m ∧ o ∈ e.objects
  feeds : ∀ feed ∈ op.feeds, ∃ e ∈ history, e.mount = m ∧ feed ∈ e.feeds

/-- To hand in nothing is honest. -/
theorem Operation.honest_of_nil {op : Operation} (m : Mount) (history : List Event)
    (hobjects : op.objects = []) (hfeeds : op.feeds = []) : op.Honest m history := by
  refine ⟨fun o ho => ?_, fun feed hfeed => ?_⟩
  · rw [hobjects] at ho
    cases ho
  · rw [hfeeds] at hfeed
    cases hfeed

/-- That the callers of a mount hand in only what they were handed, in calls that go on from a run. -/
def Run.Honest {σ : Type} [Backend σ] (m : Mount) : Run σ → List (Mount × Operation) → Prop
  | _, [] => True
  | r, (n, op) :: cs => (n = m → op.Honest m r.history) ∧ Run.Honest m (r.call n op) cs

/-! ## Items of a listing -/

namespace Store

variable {stem key : String} {delimiter : Option String}

/-- Whatever a key is shown as starts with the stem. -/
theorem startsWith_of_shown? {name : String}
    (h : shown? stem delimiter key = some (.object name) ∨
      shown? stem delimiter key = some (.group name)) : Text.startsWith stem name = true := by
  rw [shown?] at h
  cases hafter : Text.after? stem key with
  | none =>
    rw [hafter] at h
    rcases h with h | h <;> cases h
  | some rest =>
    obtain rfl := Text.after?_eq_some_iff.mp hafter
    simp only [hafter] at h
    split at h
    · rcases h with h | h <;> cases h
      exact Text.startsWith_append stem rest
    · split at h
      · rcases h with h | h <;> cases h
        exact Text.startsWith_append stem _
      · rcases h with h | h <;> cases h
        exact Text.startsWith_append stem rest

theorem startsWith_of_mem_shownTable {t : Table String KeptObject}
    {e : String × Option KeptObject} (h : e ∈ (shownTable stem delimiter t).entries) :
    Text.startsWith stem e.1 = true := by
  obtain ⟨entries, hasc⟩ := t
  induction entries with
  | nil => cases h
  | cons first entries ih =>
    cases hs : shown? stem delimiter first.1 with
    | none =>
      rw [shownTable_cons_none hs] at h
      exact ih hasc.of_cons h
    | some x =>
      cases x with
      | object name =>
        rw [shownTable_cons_object hs] at h
        rcases Table.mem_insertEntry h with rfl | h
        · exact startsWith_of_shown? (.inl hs)
        · exact ih hasc.of_cons h
      | group name =>
        rw [shownTable_cons_group hs] at h
        rcases Table.mem_insertEntry h with rfl | h
        · exact startsWith_of_shown? (.inr hs)
        · exact ih hasc.of_cons h

/-- A page of objects shows only what starts with its stem. -/
theorem startsWith_listObjects (b : Bucket) (r : Request.ListObjects) :
    (∀ e ∈ (listObjects b r).entries, Text.startsWith r.stem e.key = true) ∧
      ∀ group ∈ (listObjects b r).groups, Text.startsWith r.stem group = true := by
  have hshown (e : String × Option KeptObject)
      (he : e ∈ firstPage r.limit ((shownTable r.stem r.delimiter b.objects).entries.filter fun e =>
        r.token.all fun token => decide (token < e.1))) : Text.startsWith r.stem e.1 = true :=
    startsWith_of_mem_shownTable (List.mem_filter.mp (List.mem_of_mem_take he)).1
  constructor
  · intro listed hlisted
    obtain ⟨e, he, hmap⟩ := List.mem_filterMap.mp hlisted
    obtain ⟨o, -, rfl⟩ := Option.map_eq_some_iff.mp hmap
    exact hshown e he
  · intro group hgroup
    obtain ⟨e, he, hmap⟩ := List.mem_filterMap.mp hgroup
    split at hmap
    · cases hmap
      exact hshown e he
    · cases hmap

/-- A page of uploads shows only what starts with its stem. -/
theorem startsWith_listUploads (b : Bucket) (r : Request.ListUploads) :
    ∀ u ∈ (listUploads b r).uploads, Text.startsWith r.stem u.key = true := by
  intro u hu
  obtain ⟨e, he, rfl⟩ := List.mem_map.mp hu
  have hstem := (List.mem_filter.mp (List.mem_of_mem_take he)).2
  exact (Bool.and_eq_true_iff.mp hstem).1

end Store

namespace Mount

theorem mem_of_fetched {κ : Type} {position : κ} {wrap : κ → ListingPosition}
    {next : Except Error (Option κ)} {items : List Object} {o : Object}
    (h : o ∈ (fetched position wrap next items).page.items) : o ∈ items := by
  match next with
  | .error e => cases h
  | .ok none => exact h
  | .ok (some position') => exact h

/-- What the items of a page are: objects that a listing shows, groups by the delimiter of the
position, or uploads that a listing shows. -/
inductive Item (m : Mount) : ListingPosition → Object → Prop
  | entry {position : ListingPosition} {b : Bucket} {r : Request.ListObjects}
    {e : Reply.ListedObject} (hstem : r.stem = position.stem)
    (h : e ∈ (Store.listObjects b r).entries) : Item m position (m.ofEntry e)
  | group {c : StemPosition} {d : String} {b : Bucket} {group : String}
    (h : group ∈ (Store.listObjects b ⟨m.bucket, c.stem, some d, c.limit, c.token?⟩).groups) :
    Item m (.grouped c d) (m.ofGroup group)
  | upload {position : ListingPosition} {b : Bucket} {r : Request.ListUploads}
    {u : Reply.ListedUpload} (hstem : r.stem = position.stem)
    (h : u ∈ (Store.listUploads b r).uploads) : Item m position (m.ofUpload u)

/-- What a fetch brings. -/
theorem item_objectPage (m : Mount) {position : ListingPosition} {s : Store} {o : Object}
    (h : o ∈ ((m.objectPage position).run s).1.page.items) : m.Item position o := by
  cases position with
  | flat c =>
    rcases s.answer_listObjects ⟨m.bucket, c.stem, none, c.limit, c.token?⟩ with
      ⟨f, -, ha⟩ | ⟨b, -, -, ha⟩
    · rw [objectPage, run_askPage_error ha] at h
      cases h
    · rw [objectPage, run_askPage_ok ha] at h
      obtain ⟨e, he, rfl⟩ := List.mem_map.mp (mem_of_fetched h)
      exact .entry rfl he
  | grouped c d =>
    rcases s.answer_listObjects ⟨m.bucket, c.stem, some d, c.limit, c.token?⟩ with
      ⟨f, -, ha⟩ | ⟨b, -, -, ha⟩
    · rw [objectPage, run_askPage_error ha] at h
      cases h
    · rw [objectPage, run_askPage_ok ha] at h
      rcases List.mem_append.mp (List.mem_mergeSort.mp (mem_of_fetched h)) with ho | ho
      · obtain ⟨group, hgroup, rfl⟩ := List.mem_map.mp ho
        exact .group hgroup
      · obtain ⟨e, he, rfl⟩ := List.mem_map.mp ho
        exact .entry rfl (List.mem_filter.mp he).1
  | uploads c =>
    rcases ha : s.answer (.listUploads ⟨m.bucket, c.stem, c.limit, c.keyMarker, c.idMarker⟩) with
      ⟨f | reply, s'⟩
    · rw [objectPage, run_askPage_error (congrArg Prod.fst ha)] at h
      cases h
    · obtain ⟨b, -, rfl⟩ := Store.answer_listUploads_ok ha
      rw [objectPage, run_askPage_ok ha] at h
      obtain ⟨u, hu, rfl⟩ := List.mem_map.mp (mem_of_fetched h)
      exact .upload rfl hu

/-- The key of an item starts with the stem of its position. -/
theorem Item.startsWith {m : Mount} {position : ListingPosition} {o : Object}
    (h : m.Item position o) : Text.startsWith position.stem o.id = true := by
  cases h with
  | @entry _ b r e hstem he =>
    rw [← hstem]
    exact (Store.startsWith_listObjects b r).1 e he
  | @group c d b group hgroup =>
    exact (Store.startsWith_listObjects b
      ⟨m.bucket, c.stem, some d, c.limit, c.token?⟩).2 group hgroup
  | @upload _ b r u hstem hu =>
    rw [← hstem]
    exact Store.startsWith_listUploads b r u hu

end Mount

namespace Feed

variable {σ κ ι : Type} {source : PageSource σ κ ι} {P : κ → Prop} {Q : ι → Prop} {p p' : Feed κ ι}
  {s s' : σ}

/-- What is true of a feed's position and of its items stays so, if it is of what each fetch brings. -/
theorem load_holds
    (hsource : ∀ k s, P k → P (source k s).1.position ∧
      ∀ i ∈ (source k s).1.page.items, Q i)
    (hp : P p.position ∧ ∀ i ∈ p.buffer, Q i) :
    P (p.load source s).2.1.position ∧ ∀ i ∈ (p.load source s).2.1.buffer, Q i := by
  obtain ⟨hnext, hitems⟩ := hsource p.position s hp.1
  cases hpage : (source p.position s).1.page.outcome with
  | error e =>
    rw [load_of_error hpage]
    exact ⟨hnext, hp.2⟩
  | ok isLast =>
    rw [load_of_ok hpage]
    refine ⟨hnext, fun i hi => ?_⟩
    rcases List.mem_append.mp hi with hi | hi
    · exact hp.2 i hi
    · exact hitems i hi

theorem next_holds
    (hsource : ∀ k s, P k → P (source k s).1.position ∧
      ∀ i ∈ (source k s).1.page.items, Q i)
    {fuel : Nat} {answer : Except Error (Option ι)} (hp : P p.position ∧ ∀ i ∈ p.buffer, Q i)
    (h : p.next source fuel s = some (answer, p', s')) :
    (P p'.position ∧ ∀ i ∈ p'.buffer, Q i) ∧ ∀ i, answer = .ok (some i) → Q i := by
  fun_induction Feed.next source fuel p s with
  | case1 fuel p s i rest hb =>
    cases h
    rw [hb] at hp
    refine ⟨⟨hp.1, fun j hj => hp.2 j (List.mem_cons_of_mem i hj)⟩, ?_⟩
    rintro j ⟨⟩
    exact hp.2 i List.mem_cons_self
  | case2 fuel p s hb hx =>
    cases h
    refine ⟨hp, ?_⟩
    rintro j ⟨⟩
  | case3 p s hb hx => cases h
  | case4 p s hb hx fuel e q t hload =>
    cases h
    have hq := load_holds (s := s) hsource hp
    rw [hload] at hq
    refine ⟨hq, ?_⟩
    rintro j ⟨⟩
  | case5 p s hb hx fuel q t hload ih =>
    have hq := load_holds (s := s) hsource hp
    rw [hload] at hq
    exact ih hq h

end Feed

/-! ## What a mount hands out -/

theorem mem_toList_toOption {α : Type} {x : Except Error α} {a : α} :
    a ∈ x.toOption.toList ↔ x = .ok a := by
  cases x <;> simp [Except.toOption, eq_comm]

namespace Mount

variable {m : Mount} {s : Store}

/-- That a property of positions is kept by the fetches of a mount, and makes another one true of all
objects that they bring. -/
def Brings (m : Mount) (P : ListingPosition → Prop) (Q : Object → Prop) : Prop :=
  ∀ position (s : Store), P position → P ((m.objectPage position).run s).1.position ∧
    ∀ o ∈ ((m.objectPage position).run s).1.page.items, Q o

/-- Taking the next item keeps what fetches keep. -/
theorem Brings.advance {P : ListingPosition → Prop} {Q : Object → Prop} (hbrings : m.Brings P Q)
    {feed feed' : Feed ListingPosition Object} {answer : Except Error (Option Object)}
    (hfeed : P feed.position ∧ ∀ o ∈ feed.buffer, Q o)
    (hadvance : (Operation.advance m.objectPage feed s).1 = some (answer, feed')) :
    (P feed'.position ∧ ∀ o ∈ feed'.buffer, Q o) ∧ ∀ o, answer = .ok (some o) → Q o := by
  rw [Operation.advance, Listing.next] at hadvance
  rcases hnext : feed.next (Listing.source ⟨m.objectPage, feed⟩) (Backend.patience s) s with
    _ | ⟨item, p, s'⟩
  · rw [hnext] at hadvance
    cases hadvance
  · rw [hnext] at hadvance
    obtain ⟨rfl, rfl⟩ := Prod.mk.inj (Option.some.inj hadvance)
    exact Feed.next_holds hbrings hfeed hnext

/-- Below the work directory, fetches stay there. -/
theorem brings_owns (m : Mount) : m.Brings (fun k => m.Owns k.stem) (fun o => m.Owns o.id) := by
  intro position t hposition
  constructor
  · have hstem : m.Owns ((m.objectPage position).run t).1.position.stem := by
      rw [(m.position_objectPage position t).1]
      exact hposition
    exact hstem
  · exact fun o ho => hposition.of_stem (m.item_objectPage ho).startsWith

/-- A feed that a mount owns stays so, and what it hands out has a key of the mount. -/
theorem OwnsFeed.advance {feed feed' : Feed ListingPosition Object} (h : m.OwnsFeed feed)
    {answer : Except Error (Option Object)}
    (hadvance : (Operation.advance m.objectPage feed s).1 = some (answer, feed')) :
    m.OwnsFeed feed' ∧ ∀ o, answer = .ok (some o) → m.Owns o.id := by
  obtain ⟨⟨hstem, hbuffer⟩, hitem⟩ := m.brings_owns.advance ⟨h.stem, h.buffer⟩ hadvance
  exact ⟨⟨hstem, hbuffer⟩, hitem⟩

theorem owns_stat {path : String} {target : Target} {key : Option CustomerKey} {o : Object}
    (h : ((m.stat path target key).run s).1 = .ok o) : m.Owns o.id := by
  cases target with
  | object =>
    obtain ⟨reply, hreply⟩ := Call.exists_reply h
    cases hreply
    exact m.owns_keyOf path false
  | dir =>
    obtain ⟨reply, hreply⟩ := Call.exists_reply h
    cases hreply
    exact m.owns_keyOf path true
  | upload id =>
    obtain ⟨reply, hreply⟩ := Call.exists_reply h
    cases hreply
    exact m.owns_keyOf path false

/-- What is handed out when an upload is opened. -/
theorem object_of_createUpload {path : String} {choices : UploadChoices} {o : Object}
    (h : ((m.createUpload path choices).run s).1 = .ok o) :
    ∃ id, o = .upload (m.workDir.keyOf path) path id := by
  obtain ⟨encryption, -, hsend⟩ := Call.exists_passed h
  obtain ⟨reply, hreply⟩ := Call.exists_reply hsend
  cases hid : reply.uploadId.filter (· ≠ "") with
  | none =>
    rw [hid] at hreply
    cases hreply
  | some id =>
    rw [hid] at hreply
    cases hreply
    exact ⟨id, rfl⟩

theorem owns_createUpload {path : String} {choices : UploadChoices} {o : Object}
    (h : ((m.createUpload path choices).run s).1 = .ok o) : m.Owns o.id := by
  obtain ⟨id, rfl⟩ := object_of_createUpload h
  exact m.owns_keyOf path false

/-- A listing that a mount opens is one of its own. -/
theorem ownsFeed_list {path : String} {kind : ListingKind} {l : Listing ListingPosition Object}
    (h : m.list path kind = .ok l) : m.OwnsFeed l.feed := by
  obtain ⟨position, rfl, hposition, -⟩ := list_eq_ok h
  refine ⟨?_, fun o ho => by cases ho⟩
  have hstem : (Listing.start m.objectPage position).feed.position.stem = position.stem := rfl
  rw [hstem, hposition]
  exact m.owns_keyOf path false

/-- **What a call hands out** has keys of the mount, if the feeds that it is handed do. -/
theorem owns_perform {op : Operation} (hfeeds : ∀ feed ∈ op.feeds, m.OwnsFeed feed) :
    (∀ o ∈ Event.objects ⟨m, op, (op.perform m s).1⟩, m.Owns o.id) ∧
      ∀ feed ∈ Event.feeds ⟨m, op, (op.perform m s).1⟩, m.OwnsFeed feed := by
  cases op with
  | stat path target key =>
    exact ⟨fun o ho => owns_stat (mem_toList_toOption.mp ho), fun feed hfeed => by cases hfeed⟩
  | makeDir path =>
    refine ⟨fun o ho => ?_, fun feed hfeed => by cases hfeed⟩
    obtain ⟨reply, hreply⟩ := Call.exists_reply (mem_toList_toOption.mp ho)
    cases hreply
    exact m.owns_keyOf path true
  | makeLink path target =>
    refine ⟨fun o ho => ?_, fun feed hfeed => by cases hfeed⟩
    obtain ⟨reply, hreply⟩ := Call.exists_reply (mem_toList_toOption.mp ho)
    cases hreply
    exact m.owns_keyOf path false
  | createUpload path choices =>
    exact ⟨fun o ho => owns_createUpload (mem_toList_toOption.mp ho),
      fun feed hfeed => by cases hfeed⟩
  | list path kind =>
    refine ⟨fun o ho => (by cases ho), fun feed hfeed => ?_⟩
    obtain ⟨l, hl, rfl⟩ := List.mem_map.mp hfeed
    exact ownsFeed_list (mem_toList_toOption.mp hl)
  | nextObject feed =>
    have hfeed := hfeeds feed List.mem_cons_self
    refine ⟨fun o ho => ?_, fun feed' hfeed' => ?_⟩
    · obtain ⟨⟨answer, feed'⟩, hanswer, hitem⟩ :=
        Option.bind_eq_some_iff.mp (Option.mem_toList.mp ho)
      refine (hfeed.advance hanswer).2 o ?_
      cases answer with
      | error e => cases hitem
      | ok item =>
        cases hitem
        rfl
    · obtain ⟨⟨answer, feed''⟩, hanswer, rfl⟩ :=
        Option.map_eq_some_iff.mp (Option.mem_toList.mp hfeed')
      exact (hfeed.advance hanswer).1
  | _ => exact ⟨fun o ho => (by cases ho), fun feed hfeed => by cases hfeed⟩

/-- Whatever the calls of a history have handed out through a mount has a key of the mount. -/
structure Holdings (m : Mount) (history : List Event) : Prop where
  objects : ∀ e ∈ history, e.mount = m → ∀ o ∈ e.objects, m.Owns o.id
  feeds : ∀ e ∈ history, e.mount = m → ∀ feed ∈ e.feeds, m.OwnsFeed feed

namespace Holdings

variable {r : Run Store} {op : Operation} {history : List Event}

theorem nil (m : Mount) : m.Holdings [] :=
  ⟨fun e he => (by cases he), fun e he => (by cases he)⟩

/-- An object with an open upload that an honest caller hands in has a key of the mount. -/
theorem owns (h : m.Holdings history) (hop : op.Honest m history) :
    ∀ o ∈ op.objects, (∃ id, o.openUpload = .ok id) → m.Owns o.id := by
  intro o ho hopen
  obtain ⟨e, he, hmount, hobject⟩ := hop.objects o ho hopen
  exact h.objects e he hmount o hobject

theorem ownsFeed (h : m.Holdings history) (hop : op.Honest m history) :
    ∀ feed ∈ op.feeds, m.OwnsFeed feed := by
  intro feed hfeed
  obtain ⟨e, he, hmount, hobject⟩ := hop.feeds feed hfeed
  exact h.feeds e he hmount feed hobject

theorem call (h : m.Holdings r.history) (n : Mount) (hop : n = m → op.Honest m r.history) :
    m.Holdings (r.call n op).history := by
  constructor
  · intro e he hmount
    rcases List.mem_cons.mp he with rfl | he
    · obtain rfl : n = m := hmount
      exact (owns_perform (h.ownsFeed (hop rfl))).1
    · exact h.objects e he hmount
  · intro e he hmount
    rcases List.mem_cons.mp he with rfl | he
    · obtain rfl : n = m := hmount
      exact (owns_perform (h.ownsFeed (hop rfl))).2
    · exact h.feeds e he hmount

theorem calls {cs : List (Mount × Operation)} (h : m.Holdings r.history) (hcs : Run.Honest m r cs) :
    m.Holdings (r.calls cs).history := by
  induction cs generalizing r with
  | nil => exact h
  | cons c cs ih => exact ih (h.call c.1 hcs.1) hcs.2

end Holdings

end Mount

/-! ## What a call leaves alone -/

/-- That a change is in the bucket of a mount, and that all it names has keys of the mount. -/
structure Change.Within (m : Mount) (c : Change) : Prop where
  bucket : c.bucket = m.bucket
  object : ∀ key o?, c.object = some (key, o?) → m.Owns key
  upload : ∀ name u?, c.upload = some (name, u?) → m.Owns name.key

namespace Change.Within

variable {m : Mount}

theorem of_object {key : String} (h : m.Owns key) (o? : Option KeptObject) :
    Change.Within m { bucket := m.bucket, object := some (key, o?) } := by
  refine ⟨rfl, ?_, fun name u? hu => by cases hu⟩
  rintro key o? ⟨⟩
  exact h

theorem of_upload {name : UploadName} (h : m.Owns name.key) (u? : Option Upload) :
    Change.Within m { bucket := m.bucket, upload := some (name, u?) } := by
  refine ⟨rfl, fun key o? ho => (by cases ho), ?_⟩
  rintro name u? ⟨⟩
  exact h

end Change.Within

namespace Store

variable {a b m : Mount} {s s' : Store} {op : Operation} {c : Change}

/-- What a call changes has keys of its mount, if the objects that it is handed do. -/
theorem Makes.within {answer : op.Answer} (h : Makes m s s' op answer c)
    (hobjects : ∀ o ∈ op.objects, (∃ id, o.openUpload = .ok id) → m.Owns o.id) : c.Within m := by
  cases h with
  | write o | makeLink o =>
    refine .of_object ?_ _
    exact m.owns_keyOf _ false
  | makeDir o =>
    refine .of_object ?_ _
    exact m.owns_keyOf _ true
  | @delete path key target hkey =>
    refine .of_object ?_ _
    cases target with
    | object =>
      cases hkey
      exact m.owns_keyOf path false
    | dir =>
      cases hkey
      exact m.owns_keyOf path true
    | upload id => cases hkey
  | deleteUpload | createUpload =>
    refine .of_upload ?_ _
    exact m.owns_keyOf _ false
  | @writePart object index body size contentMd5 key id number u hcheck hu now =>
    refine .of_upload ?_ _
    exact hobjects object List.mem_cons_self ⟨id, (checkPart_eq_ok hcheck).1⟩
  | @completeUpload object parts id u hopen hu o completed =>
    -- The object is stored under the key of the upload that it comes from.
    have howns := hobjects object List.mem_cons_self ⟨id, hopen⟩
    refine ⟨rfl, ?_, ?_⟩
    · rintro key o? ⟨⟩
      exact howns
    · rintro name u? ⟨⟩
      exact howns
  | @abortUpload object id hopen =>
    refine .of_upload ?_ _
    exact hobjects object List.mem_cons_self ⟨id, hopen⟩

/-- A change leaves what is below a stem, if it is in another bucket or names nothing from there. -/
theorem Alters.alikeBelow {bucket stem : String} (h : Alters s c s')
    (hobject : c.bucket = bucket → ∀ key o?, c.object = some (key, o?) →
      Text.startsWith stem key = false)
    (hupload : c.bucket = bucket → ∀ name u?, c.upload = some (name, u?) →
      Text.startsWith stem name.key = false) : s.AlikeBelow bucket stem s' := by
  by_cases hbucket : c.bucket = bucket
  · subst hbucket
    obtain ⟨b, hb, hs⟩ := h.buckets
    have hb' : s'.buckets.get? c.bucket = some (changed b c) := by rw [hs, Table.get?_insert_self]
    refine .present hb hb' ⟨fun key hkey => ?_, fun name hname => ?_⟩
    · rw [changed, get?_putOrErase]
      cases ho : c.object with
      | none => rfl
      | some e =>
        refine if_neg ?_
        rintro rfl
        rw [hobject rfl e.1 e.2 ho] at hkey
        cases hkey
    · rw [changed, get?_putOrErase]
      cases hu : c.upload with
      | none => rfl
      | some e =>
        refine if_neg ?_
        rintro rfl
        rw [hupload rfl e.1 e.2 hu] at hname
        cases hname
  · exact .of_get? stem (h.get?_of_ne (Ne.symm hbucket))

/-- **What a call preserves.** Where another mount looks, everything is as it was. -/
theorem alikeBelow_perform (hapart : a.Apart b)
    (hobjects : ∀ o ∈ op.objects, (∃ id, o.openUpload = .ok id) → a.Owns o.id) (s : Store) :
    s.AlikeBelow b.bucket b.workDir.stem (op.perform a s).2 := by
  rcases h : op.perform a s with ⟨answer, s'⟩
  rcases perform_cases h with ⟨hs, -⟩ | ⟨c, hmakes, hs⟩
  · exact .of_get? _ (by rw [hs.buckets])
  · have hwithin := hmakes.within hobjects
    refine hs.alikeBelow (fun hsame key o? ho => ?_) fun hsame name u? hu => ?_
    · exact hapart.not_owns (hwithin.bucket.symm.trans hsame) (hwithin.object key o? ho)
    · exact hapart.not_owns (hwithin.bucket.symm.trans hsame) (hwithin.upload name u? hu)

/-- **What a run preserves.** -/
theorem alikeBelow_calls (hapart : a.Apart b) {r : Run Store} (hholdings : a.Holdings r.history)
    (ops : List Operation) (hops : Run.Honest a r (ops.map fun op => (a, op))) :
    r.state.AlikeBelow b.bucket b.workDir.stem (r.calls (ops.map fun op => (a, op))).state := by
  induction ops generalizing r with
  | nil => exact .of_get? _ rfl
  | cons op ops ih =>
    obtain ⟨hop, hrest⟩ := hops
    have hstep := alikeBelow_perform hapart (hholdings.owns (hop rfl)) r.state
    exact hstep.trans (ih (hholdings.call a hop) hrest)

end Store

/-! ## Isolation -/

/-- That a mount gives the same answers in two states of a store: each read, each report and each
collected listing, as far as no fault was taken that it would have met. -/
structure Mount.AnswersAlike (m : Mount) (s s' : Store) : Prop where
  read : ∀ path window key, (m.read path window key).Spared s s' →
    ((m.read path window key).run s').1 = ((m.read path window key).run s).1
  stat : ∀ path target key, (m.stat path target key).Spared s s' →
    ((m.stat path target key).run s').1 = ((m.stat path target key).run s).1
  collect : ∀ path kind l, m.list path kind = .ok l → (l.pages l.feed.position).Spared s s' →
    ∃ answer, (l.collect s).map Prod.fst = some answer ∧ (l.collect s').map Prod.fst = some answer

/-- **Mounts that are apart are isolated.** Whatever is called through one of them, the other gives
the same answers after it as before. -/
theorem apart_isolated (a b : Mount) (hapart : a.Apart b) (start : Store)
    (before : List (Mount × Operation)) (hbefore : Run.Honest a ⟨start, []⟩ before)
    (ops : List Operation)
    (hops : Run.Honest a (Run.calls ⟨start, []⟩ before) (ops.map fun op => (a, op))) :
    let r := Run.calls ⟨start, []⟩ before
    b.AnswersAlike r.state (r.calls (ops.map fun op => (a, op))).state := by
  intro r
  have hholdings : a.Holdings r.history := (Mount.Holdings.nil a).calls hbefore
  have halike := Store.alikeBelow_calls hapart hholdings ops hops
  constructor
  · intro path window key hspared
    exact Call.run_alike (b.looksBelow_read path window key) hspared halike
  · intro path target key hspared
    exact Call.run_alike (b.looksBelow_stat path target key) hspared halike
  · intro path kind l hl hspared
    exact Mount.collect_alike hl hspared halike

/-- Sibling directories whose names start alike: one writes to an upload that it was handed, the other
still reads and lists the same. -/
theorem apart_isolated_siblings :
    let a : Mount := ⟨"b", .ofStem "a", 200, none, none, by decide⟩
    let b : Mount := ⟨"b", .ofStem "ab", 200, none, none, by decide⟩
    let start := Store.withBuckets ["b"] (fun n => toString n) 0 false
    let before := [(b, Operation.write "k" [7] 1 {})]
    let ops : List Operation := [.write "b/k" [1] 1 {}, .createUpload "u" {},
      .writePart (.upload "a/u" "u" "0") 0 [2] 1 none none, .delete "k" .object]
    let r := Run.calls ⟨start, []⟩ before
    let s := (r.calls (ops.map fun op => (a, op))).state
    a.Apart b ∧ Run.Honest a ⟨start, []⟩ before ∧ Run.Honest a r (ops.map fun op => (a, op)) ∧
      ((b.read "k" {} none).run s).1 = .ok [7] ∧
      ∀ l, b.list "" .flat = .ok l →
        ∃ answer, (l.collect r.state).map Prod.fst = some answer ∧
          (l.collect s).map Prod.fst = some answer := by
  intro a b start before ops r s
  have hapart : a.Apart b := .inr (by decide +kernel)
  have hbefore : Run.Honest a ⟨start, []⟩ before :=
    ⟨fun _ => Operation.honest_of_nil a _ rfl rfl, trivial⟩
  have hops : Run.Honest a r (ops.map fun op => (a, op)) := by
    refine ⟨fun _ => Operation.honest_of_nil a _ rfl rfl,
      fun _ => Operation.honest_of_nil a _ rfl rfl, fun _ => ⟨?_, ?_⟩,
      fun _ => Operation.honest_of_nil a _ rfl rfl, trivial⟩
    · intro o ho hopen
      rw [List.mem_singleton.mp ho]
      exact ⟨_, List.mem_cons_self, rfl, by decide +kernel⟩
    · intro feed hfeed
      cases hfeed
  have hnone (kind : Request.Kind) (f : Fault) : (kind, f) ∉ r.state.faults := by
    intro hf
    cases (Store.Keeps.calls ⟨start, []⟩ before).faults _ hf
  have hkeeps : ∀ f ∈ s.faults, f ∈ r.state.faults := (Store.Keeps.calls r _).faults
  have hspared {α : Type} (c : Call α) : c.Spared r.state s :=
    Call.spared_of_none hkeeps fun _ _ f => hnone _ f
  have halike : b.AnswersAlike r.state s := apart_isolated a b hapart start before hbefore ops hops
  refine ⟨hapart, hbefore, hops, ?_, fun l hl => halike.collect "" .flat l hl (hspared _)⟩
  rw [halike.read "k" {} none (hspared _)]
  exact mem_toList_toOption.mp (by decide +kernel)

/-- A fault that waits is met by who asks first, in whatever bucket. -/
theorem apart_shared_fault :
    let a : Mount := ⟨"a", .root, 200, none, none, by decide⟩
    let b : Mount := ⟨"b", .root, 200, none, none, by decide⟩
    let start := ((Run.calls ⟨Store.withBuckets ["a", "b"] (fun n => toString n) 0 false, []⟩
      [(b, .write "k" [7] 1 {})]).state).arrangeFault .getObject (.http "SlowDown" 503 "slow")
    let ops : List Operation := [.read "z" {} none]
    let s := (Run.calls ⟨start, []⟩ (ops.map fun op => (a, op))).state
    a.Apart b ∧ Run.Honest a ⟨start, []⟩ (ops.map fun op => (a, op)) ∧
      ((b.read "k" {} none).run s).1 ≠ ((b.read "k" {} none).run start).1 := by
  intro a b start ops s
  refine ⟨.inl (by decide), ⟨fun _ => Operation.honest_of_nil a _ rfl rfl, trivial⟩, ?_⟩
  intro hsame
  have hafter : [7] ∈ ((b.read "k" {} none).run s).1.toOption.toList := by decide +kernel
  have hbefore : ((b.read "k" {} none).run start).1.toOption.toList = [] := by decide +kernel
  rw [hsame, hbefore] at hafter
  cases hafter

end ObjectStore
