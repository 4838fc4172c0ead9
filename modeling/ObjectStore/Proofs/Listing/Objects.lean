import ObjectStore.Mount.Listing
import ObjectStore.Proofs.Keys
import ObjectStore.Proofs.Paging
import ObjectStore.Proofs.Run

/-!
# Listings of objects

A flat listing and a listing of a directory ask alike and differ in what an entry shows: in a
directory each group is an entry too, and the object of the directory itself is an entry that shows
nothing. `StemListing` is what they have in common. A fetch fails just where a fault waits or the
bucket is not there (`Store.refusal?`), and any other is the page that `cut` makes of the entries
(`StemListing.run_place`); so both are a `Paging` over a store.
-/

namespace ObjectStore

/-! ## Requests for a page -/

namespace Store

variable {s s' : Store}

/-- The fault that a request for a listing of a bucket meets, if any: one that waits for its kind, or
that there is no such bucket. -/
def refusal? (s : Store) (kind : Request.Kind) (bucket : String) : Option Fault :=
  ((takeFault? kind s.faults).map (·.1)).or
    (if (s.buckets.get? bucket).isSome then none else some (.bucketNotThere bucket))

theorem refusal?_eq_none {kind : Request.Kind} {bucket : String} :
    s.refusal? kind bucket = none ↔
      takeFault? kind s.faults = none ∧ ∃ b, s.buckets.get? bucket = some b := by
  rw [refusal?, Option.or_eq_none_iff, Option.map_eq_none_iff]
  cases s.buckets.get? bucket <;> simp

/-- A request that shows something of a bucket meets a fault, or is answered with what it shows and
leaves but its record. -/
theorem answer_showing {request : Request} {bucket : String} {reply : Bucket → request.Reply}
    (hserve : ∀ t : Store, t.serve request = ((t.bucket bucket).map reply, t)) (s : Store) :
    (∃ f, s.refusal? request.kind bucket = some f ∧ (s.answer request).1 = .error f) ∨
      ∃ b, s.refusal? request.kind bucket = none ∧ s.buckets.get? bucket = some b ∧
        s.answer request = (.ok (reply b), s.record request) := by
  -- A fault that waits is met before the bucket is looked for.
  cases ht : takeFault? request.kind s.faults with
  | some p =>
    refine .inl ⟨p.1, ?_, congrArg Prod.fst (answer_of_some ht)⟩
    rw [refusal?, ht]
    rfl
  | none =>
    rw [answer_of_none ht, hserve]
    cases hb : s.buckets.get? bucket with
    | none =>
      have hbucket : (s.record request).bucket bucket = .error (.bucketNotThere bucket) :=
        bucket_eq_error.mpr ⟨hb, rfl⟩
      refine .inl ⟨.bucketNotThere bucket, ?_, ?_⟩
      · rw [refusal?, ht, hb]
        rfl
      · rw [hbucket]
        rfl
    | some b =>
      have hbucket : (s.record request).bucket bucket = .ok b := bucket_eq_ok.mpr hb
      refine .inr ⟨b, refusal?_eq_none.mpr ⟨ht, b, hb⟩, rfl, ?_⟩
      rw [hbucket]
      rfl

/-- A request for objects meets a fault, or is answered with a page and leaves but its record. -/
theorem answer_listObjects (s : Store) (r : Request.ListObjects) :
    (∃ f, s.refusal? .listObjects r.bucket = some f ∧ (s.answer (.listObjects r)).1 = .error f) ∨
      ∃ b, s.refusal? .listObjects r.bucket = none ∧ s.buckets.get? r.bucket = some b ∧
        s.answer (.listObjects r) = (.ok (listObjects b r), s.record (.listObjects r)) :=
  @answer_showing (.listObjects r) r.bucket (fun b => listObjects b r) (fun _ => rfl) s

theorem pageLimit_pos (limit : Int32) : 0 < pageLimit limit := by
  rw [pageLimit]
  split
  · rename_i h
    have h' : (0 : Int32).toInt < limit.toInt := Int32.lt_iff_toInt_lt.mp h
    have hzero : (0 : Int32).toInt = 0 := rfl
    omega
  · omega

/-- What a page that leaves some entries out names is the mark of its last entry. -/
theorem last_mark {μ α : Type} {asked : Int32} {left : List (μ × α)} {last : μ × α}
    (h : pageLimit asked < left.length)
    (hlast : (left.take (pageLimit asked)).getLast? = some last) :
    (if exceeds asked left then (firstPage asked left).getLast?.map (·.1) else none) =
      some last.1 := by
  rw [exceeds, if_pos (decide_eq_true h), firstPage, hlast]
  rfl

/-- What a listing of a bucket shows under a name, if anything: an object or a group. -/
def shownAt? (s : Store) (bucket stem : String) (delimiter : Option String) (name : String) :
    Option (Option KeptObject) :=
  (s.buckets.get? bucket).bind fun b => (shownTable stem delimiter b.objects).get? name

section

variable {bucket stem name : String} {delimiter : Option String}

theorem shownAt?_object (hd : delimiter = none ∨ delimiter = some "/") {o : KeptObject} :
    s.shownAt? bucket stem delimiter name = some (some o) ↔
      s.objectAt? bucket name = some o ∧ shown? stem delimiter name = some (.object name) := by
  rw [shownAt?, Option.bind_eq_some_iff, objectAt?_eq_some]
  constructor
  · rintro ⟨b, hb, hget⟩
    obtain ⟨hmem, hshown⟩ := ((get?_shownTable stem hd b.objects name).1 o).mp hget
    exact ⟨⟨b, hb, hmem⟩, hshown⟩
  · rintro ⟨⟨b, hb, hmem⟩, hshown⟩
    exact ⟨b, hb, ((get?_shownTable stem hd b.objects name).1 o).mpr ⟨hmem, hshown⟩⟩

theorem shownAt?_group (hd : delimiter = none ∨ delimiter = some "/") :
    s.shownAt? bucket stem delimiter name = some none ↔
      ∃ key o, s.objectAt? bucket key = some o ∧
        shown? stem delimiter key = some (.group name) := by
  rw [shownAt?, Option.bind_eq_some_iff]
  simp only [objectAt?_eq_some]
  constructor
  · rintro ⟨b, hb, hget⟩
    obtain ⟨e, he, hshown⟩ := (get?_shownTable stem hd b.objects name).2.mp hget
    exact ⟨e.1, e.2, ⟨b, hb, he⟩, hshown⟩
  · rintro ⟨key, o, ⟨b, hb, he⟩, hshown⟩
    exact ⟨b, hb, (get?_shownTable stem hd b.objects name).2.mpr ⟨(key, o), he, hshown⟩⟩

/-- Without a delimiter, the objects below the stem are shown. -/
theorem shownAt?_flat {o? : Option KeptObject} :
    s.shownAt? bucket stem none name = some o? ↔
      ∃ o, o? = some o ∧ s.objectAt? bucket name = some o ∧ ∃ rest, name = stem ++ rest := by
  cases o? with
  | none =>
    rw [shownAt?_group (.inl rfl)]
    simp [shown?_flat]
  | some o =>
    rw [shownAt?_object (.inl rfl)]
    simp [shown?_flat]

/-- With a delimiter, the objects with one step after the stem are shown. -/
theorem shownAt?_step {o : KeptObject} :
    s.shownAt? bucket stem (some "/") name = some (some o) ↔
      s.objectAt? bucket name = some o ∧ ∃ step, Text.IsStep step ∧ name = stem ++ step := by
  rw [shownAt?_object (.inr rfl), shown?_object]
  simp only [true_and]

/-- With a delimiter, a group is shown for each step that some key goes on after. -/
theorem shownAt?_path :
    s.shownAt? bucket stem (some "/") name = some none ↔
      ∃ step, Text.IsStep step ∧ name = stem ++ (step ++ "/") ∧
        ∃ rest o, s.objectAt? bucket (stem ++ (step ++ "/" ++ rest)) = some o := by
  rw [shownAt?_group (.inr rfl)]
  constructor
  · rintro ⟨key, o, ho, hshown⟩
    obtain ⟨step, rest, hstep, rfl, rfl⟩ := shown?_group.mp hshown
    exact ⟨step, hstep, rfl, rest, o, ho⟩
  · rintro ⟨step, hstep, rfl, rest, o, ho⟩
    exact ⟨_, o, ho, shown?_group.mpr ⟨step, rest, hstep, rfl, rfl⟩⟩

end

section

variable {b : Bucket} {r : Request.ListObjects}

/-- A page of objects that leaves some out names its last entry. -/
theorem listObjects_more {last : String × Option KeptObject}
    (h : pageLimit r.limit < (past r.token (shownTable r.stem r.delimiter b.objects).entries).length)
    (hlast : ((past r.token (shownTable r.stem r.delimiter b.objects).entries).take
      (pageLimit r.limit)).getLast? = some last) :
    (listObjects b r).truncated = true ∧ (listObjects b r).nextToken = some last.1 :=
  ⟨decide_eq_true h, last_mark h hlast⟩

theorem listObjects_last
    (h : ¬ pageLimit r.limit <
      (past r.token (shownTable r.stem r.delimiter b.objects).entries).length) :
    (listObjects b r).truncated = false :=
  decide_eq_false h

end

end Store

/-! ## Pages of objects -/

/-- Sorting what is in order already, up to where the items come from, gives the items in order. -/
theorem mergeSort_of_perm {xs ys : List Object} (hperm : xs.Perm ys)
    (hys : ys.Pairwise fun a b => a.id < b.id) :
    xs.mergeSort (fun a b => decide (a.id ≤ b.id)) = ys := by
  refine List.Perm.eq_of_pairwise ?_ (Text.pairwise_mergeSort Object.id xs)
    (hys.imp fun hlt => Std.le_of_lt hlt) ((List.mergeSort_perm xs _).trans hperm)
  intro a b ha hb hab hba
  have hid : a.id = b.id := Std.le_antisymm hab hba
  have ha' : a ∈ ys := hperm.subset ((List.mergeSort_perm xs _).subset ha)
  -- No two items of the ordered list have one id.
  have hone : ∀ x ∈ ys, ∀ y ∈ ys, x.id = y.id → x = y :=
    List.Pairwise.forall_of_forall_of_flip (fun _ _ _ => rfl)
      (hys.imp fun hlt heq => absurd (heq ▸ hlt) Std.lt_irrefl)
      (hys.imp fun hlt heq => absurd (heq ▸ hlt) Std.lt_irrefl)
  exact hone a ha' b hb hid

namespace Mount

/-- A page of a mount has room for an entry. -/
theorem pageLimit_pos (m : Mount) : 0 < Store.pageLimit m.pageSize := Store.pageLimit_pos m.pageSize

/-- What a listing of all objects shows for an entry. -/
def flatItem (m : Mount) (e : String × Option KeptObject) : Option Object :=
  e.2.map fun o => m.ofEntry (Store.listedObject e.1 o)

/-- What a listing of a directory shows for an entry: a group, or an object that is not the one of
the directory itself. -/
def dirItem (m : Mount) (stem : String) (e : String × Option KeptObject) : Option Object :=
  e.2.elim (some (m.ofGroup e.1)) fun o =>
    if e.1 = stem then none else some (m.ofEntry (Store.listedObject e.1 o))

/-- The page of entries that a request for objects is answered with. -/
def entryPage (b : Bucket) (r : Request.ListObjects) : List (String × Option KeptObject) :=
  (past r.token (Store.shownTable r.stem r.delimiter b.objects).entries).take
    (Store.pageLimit r.limit)

theorem flatItems_listObjects (m : Mount) (b : Bucket) (r : Request.ListObjects) :
    m.flatItems (Store.listObjects b r) = (entryPage b r).filterMap m.flatItem := by
  simp only [flatItems, Store.listObjects, List.map_filterMap, Option.map_map]
  rfl

theorem id_flatItem {m : Mount} {e : String × Option KeptObject} {i : Object}
    (h : m.flatItem e = some i) : i.id = e.1 := by
  obtain ⟨o, -, rfl⟩ := Option.map_eq_some_iff.mp h
  rfl

theorem id_dirItem {m : Mount} {stem : String} {e : String × Option KeptObject} {i : Object}
    (h : m.dirItem stem e = some i) : i.id = e.1 := by
  obtain ⟨k, o?⟩ := e
  cases o? with
  | none =>
    cases h
    rfl
  | some o =>
    rw [dirItem, Option.elim_some] at h
    split at h
    · cases h
    · cases h
      rfl

/-- The groups of a page and its objects are, in another order, what its entries show. -/
theorem perm_dirItem (m : Mount) (stem : String) (page : List (String × Option KeptObject)) :
    ((page.filterMap fun e => if e.2.isNone then some e.1 else none).map m.ofGroup ++
      ((page.filterMap fun e => e.2.map (Store.listedObject e.1)).filter fun e =>
        e.key ≠ stem).map m.ofEntry).Perm (page.filterMap (m.dirItem stem)) := by
  -- An object has to move past all groups of the page; a group is in front already.
  induction page with
  | nil => exact .refl _
  | cons e page ih =>
    obtain ⟨k, o?⟩ := e
    cases o? with
    | none => exact ih.cons (m.ofGroup k)
    | some o =>
      have hgroup : (if (some o).isNone then some k else none) = none := rfl
      simp only [List.filterMap_cons, hgroup, Option.map_some]
      by_cases hk : k = stem
      · have hshow : m.dirItem stem (k, some o) = none := if_pos hk
        rw [hshow, List.filter_cons_of_neg (by simp [Store.listedObject, hk])]
        exact ih
      · have hshow : m.dirItem stem (k, some o) = some (m.ofEntry (Store.listedObject k o)) :=
          if_neg hk
        rw [hshow, List.filter_cons_of_pos (by simp [Store.listedObject, hk]), List.map_cons]
        exact List.perm_middle.trans (ih.cons _)

/-- Entries in ascending order show items in the order of their ids. -/
theorem ascending_filterMap {item? : String × Option KeptObject → Option Object}
    (hid : ∀ {e i}, item? e = some i → i.id = e.1) {entries : List (String × Option KeptObject)}
    (h : entries.Pairwise fun a b => a.1 < b.1) :
    (entries.filterMap item?).Pairwise fun a b => a.id < b.id := by
  refine List.pairwise_filterMap.mpr (h.imp fun hlt i hi j hj => ?_)
  rw [hid hi, hid hj]
  exact hlt

theorem groupedItems_listObjects (m : Mount) (b : Bucket) (r : Request.ListObjects) :
    m.groupedItems r.stem (Store.listObjects b r) = (entryPage b r).filterMap (m.dirItem r.stem) := by
  have hasc : (entryPage b r).Pairwise fun a b => a.1 < b.1 :=
    (ascending_past (Store.shownTable r.stem r.delimiter b.objects).ascending).take
  exact mergeSort_of_perm (m.perm_dirItem r.stem (entryPage b r))
    (ascending_filterMap id_dirItem hasc)

/-- A fetch cuts a page from what is left if it shows the entries of that page, and goes on from the
last of them just where more is left and its mark is accepted. -/
theorem fetched_eq_cut {κ μ α : Type} {position : κ} {wrap : κ → ListingPosition}
    {next : Except Error (Option κ)} {shown : List Object} {place : Option μ → ListingPosition}
    {accepts : μ → Bool} {refusal : Error} {limit : Nat} {mark : Option μ} {left : List (μ × α)}
    {item? : μ × α → Option Object} (hlimit : 0 < limit) (hplace : place mark = wrap position)
    (hshown : shown = (left.take limit).filterMap item?)
    (hlast : ¬ limit < left.length → next = .ok none)
    (hmore : ∀ last, limit < left.length → (left.take limit).getLast? = some last →
      (accepts last.1 = true →
        ∃ position', next = .ok (some position') ∧ place (some last.1) = wrap position') ∧
      (accepts last.1 = false → next = .error refusal)) :
    fetched position wrap next shown =
      cut place accepts refusal limit mark (showing item? left) := by
  rw [hshown]
  by_cases h : limit < left.length
  · obtain ⟨last, hpage⟩ := exists_last hlimit h
    obtain ⟨hgoes, hrefused⟩ := hmore last h hpage
    have hpage' := getLast?_showing item? hpage
    rw [← take_showing] at hpage'
    rw [← length_showing item?] at h
    cases haccepts : accepts last.1 with
    | true =>
      obtain ⟨position', rfl, hposition'⟩ := hgoes haccepts
      rw [cut_more h hpage' haccepts, take_showing, items_showing, hposition']
      rfl
    | false =>
      obtain rfl := hrefused haccepts
      rw [cut_refused h hpage' haccepts, hplace]
      rfl
  · obtain rfl := hlast h
    rw [cut_last (by rwa [length_showing]), items_showing, hplace,
      List.take_of_length_le (Nat.le_of_not_lt h)]
    rfl

/-- A fetch of objects, where the bucket is there: the page that is cut from the entries. -/
theorem fetched_listObjects {b : Bucket} {bucket : String} {c : StemPosition} {d : Option String}
    {wrap : StemPosition → ListingPosition} {item? : String × Option KeptObject → Option Object}
    {shown : List Object}
    (h : shown = (entryPage b ⟨bucket, c.stem, d, c.limit, c.token?⟩).filterMap item?) :
    fetched c wrap (nextStem c (Store.listObjects b ⟨bucket, c.stem, d, c.limit, c.token?⟩)) shown =
      cut (fun token => wrap { c with token? := token }) (fun k => decide (k ≠ ""))
        .objectTokenMissing (Store.pageLimit c.limit) c.token?
        (past c.token? (showing item? (Store.shownTable c.stem d b.objects).entries)) := by
  rw [past_showing]
  refine fetched_eq_cut (Store.pageLimit_pos c.limit) rfl h (fun hall => ?_) fun last hmore hlast => ?_
  · rw [nextStem, if_neg (Bool.eq_false_iff.mp
      (Store.listObjects_last (r := ⟨bucket, c.stem, d, c.limit, c.token?⟩) hall))]
  · obtain ⟨htruncated, htoken⟩ :=
      Store.listObjects_more (r := ⟨bucket, c.stem, d, c.limit, c.token?⟩) hmore hlast
    rw [nextStem, if_pos htruncated, htoken, Option.filter_some]
    constructor
    · intro haccepts
      rw [if_pos haccepts]
      exact ⟨_, rfl, rfl⟩
    · intro hrefused
      rw [if_neg (Bool.eq_false_iff.mp hrefused)]

theorem run_askPage_ok {position : ListingPosition} {request : Request}
    {read : request.Reply → Fetch ListingPosition Object} {s s' : Store} {reply : request.Reply}
    (h : s.answer request = (.ok reply, s')) :
    (askPage position request read).run s = (read reply, s') := by
  simp only [askPage, Call.run, Backend.exchange, h]

theorem run_askPage_error {position : ListingPosition} {request : Request}
    {read : request.Reply → Fetch ListingPosition Object} {s : Store} {f : Fault}
    (h : (s.answer request).1 = .error f) :
    ((askPage position request read).run s).1 = ⟨position, .failed (.ofFault f)⟩ := by
  simp only [askPage, Call.run, Backend.exchange, h]

/-- Fetching a page of a listing only looks. -/
theorem undisturbed_objectPage (m : Mount) (position : ListingPosition) (s : Store) :
    Store.Undisturbed s ((m.objectPage position).run s).2 := by
  refine Store.undisturbed_run (m.objectPage position) fun request hr => ?_
  cases position <;> cases hr <;> rfl

end Mount

/-! ## Listings of the objects below a stem -/

/-- A listing of the objects below a stem, with or without groups. -/
structure StemListing (m : Mount) where
  stem : String
  delimiter : Option String
  wrap : StemPosition → ListingPosition
  /-- What the listing shows for an entry. -/
  item? : String × Option KeptObject → Option Object
  /-- What the listing takes from a reply. -/
  shown : Reply.Objects → List Object
  delimited : delimiter = none ∨ delimiter = some "/"
  page_eq : ∀ c : StemPosition, c.stem = stem → m.objectPage (wrap c) =
    Mount.askPage (wrap c) (.listObjects ⟨m.bucket, c.stem, delimiter, c.limit, c.token?⟩) fun reply =>
      Mount.fetched c wrap (Mount.nextStem c reply) (shown reply)
  shown_eq : ∀ b (r : Request.ListObjects), r.stem = stem →
    shown (Store.listObjects b r) = (Mount.entryPage b r).filterMap item?
  id_show : ∀ {e i}, item? e = some i → i.id = e.1

namespace StemListing

variable {m : Mount} (L : StemListing m)

/-- The listing of all objects below a stem. -/
def flat (m : Mount) (stem : String) : StemListing m where
  stem := stem
  delimiter := none
  wrap := .flat
  item? := m.flatItem
  shown := m.flatItems
  delimited := .inl rfl
  page_eq _ _ := rfl
  shown_eq b r _ := m.flatItems_listObjects b r
  id_show := Mount.id_flatItem

/-- The listing of a directory. -/
def dir (m : Mount) (stem : String) : StemListing m where
  stem := stem
  delimiter := some "/"
  wrap := (.grouped · "/")
  item? := m.dirItem stem
  shown := m.groupedItems stem
  delimited := .inr rfl
  page_eq c h := by subst h; rfl
  shown_eq b r h := by subst h; exact m.groupedItems_listObjects b r
  id_show := Mount.id_dirItem

/-- The position past a mark. -/
def place (token : Option String) : ListingPosition := L.wrap ⟨L.stem, m.pageSize, token⟩

/-- The request for the page past a mark. -/
def request (token : Option String) : Request :=
  .listObjects ⟨m.bucket, L.stem, L.delimiter, m.pageSize, token⟩

/-- The number of entries that a page may have. -/
def limit (_ : StemListing m) : Nat := Store.pageLimit m.pageSize

/-- The page that is cut from entries past a mark. -/
def page (token : Option String) (entries : List (String × Option Object)) :
    Fetch ListingPosition Object :=
  cut L.place (fun k => decide (k ≠ "")) .objectTokenMissing L.limit token (past token entries)

/-- All entries that the listing goes through. -/
def entries (s : Store) : List (String × Option Object) :=
  (s.buckets.get? m.bucket).elim [] fun b =>
    showing L.item? (Store.shownTable L.stem L.delimiter b.objects).entries

theorem entries_of_bucket {s : Store} {b : Bucket} (h : s.buckets.get? m.bucket = some b) :
    L.entries s = showing L.item? (Store.shownTable L.stem L.delimiter b.objects).entries := by
  rw [entries, h, Option.elim_some]

theorem entries_congr {s s' : Store} (h : s'.buckets = s.buckets) : L.entries s' = L.entries s := by
  rw [entries, entries, h]

theorem ascending_entries (s : Store) : (L.entries s).Pairwise fun a b => a.1 < b.1 :=
  ascending_elim_showing _ L.item? fun b => (Store.shownTable L.stem L.delimiter b.objects).ascending

/-- An entry stands for what the backend can show under its mark. -/
theorem mem_entries {s : Store} {k : String} {i : Option Object} :
    (k, i) ∈ L.entries s ↔ ∃ o?, s.shownAt? m.bucket L.stem L.delimiter k = some o? ∧
      L.item? (k, o?) = i := by
  rw [entries, mem_elim_showing]
  simp only [Store.shownAt?, Option.bind_eq_some_iff, Table.get?_eq_some_iff]
  constructor
  · rintro ⟨b, hb, o?, hmem, hitem⟩
    exact ⟨o?, ⟨b, hb, hmem⟩, hitem⟩
  · rintro ⟨o?, ⟨b, hb, hmem⟩, hitem⟩
    exact ⟨b, hb, o?, hmem, hitem⟩

/-- **A fetch** is refused, or cuts a page from the entries and leaves but the record of its
request. -/
theorem run_place (token : Option String) (s : Store) :
    (∃ f, s.refusal? .listObjects m.bucket = some f ∧
        ((m.objectPage (L.place token)).run s).1 = ⟨L.place token, .failed (.ofFault f)⟩) ∨
      (s.refusal? .listObjects m.bucket = none ∧
        (m.objectPage (L.place token)).run s =
          (L.page token (L.entries s), s.record (L.request token))) := by
  rw [place, L.page_eq _ rfl]
  rcases s.answer_listObjects ⟨m.bucket, L.stem, L.delimiter, m.pageSize, token⟩ with
    ⟨f, hf, h⟩ | ⟨b, hf, hb, h⟩
  · exact .inl ⟨f, hf, Mount.run_askPage_error h⟩
  · refine .inr ⟨hf, ?_⟩
    rw [Mount.run_askPage_ok h, L.entries_of_bucket hb]
    exact Prod.ext (Mount.fetched_listObjects (c := ⟨L.stem, m.pageSize, token⟩)
      (L.shown_eq b _ rfl)) rfl

/-- The listing as pages of its entries. -/
def paging : Paging Store ListingPosition Object String where
  source position s := (m.objectPage position).run s
  place := L.place
  limit := L.limit
  accepts k := decide (k ≠ "")
  entries := L.entries
  mark := Object.id
  limit_pos := m.pageLimit_pos
  ascending := L.ascending_entries
  mark_eq := by
    intro s k i h
    obtain ⟨o?, -, hitem⟩ := L.mem_entries.mp h
    exact L.id_show hitem
  steady t s := L.entries_congr (m.undisturbed_objectPage (L.place t) s).buckets
  page_ok := by
    intro t s isLast _ h
    rcases L.run_place t s with ⟨f, -, hrun⟩ | ⟨-, hrun⟩
    · rw [hrun] at h
      cases h
    · rw [hrun] at h ⊢
      exact isPageOf_cut m.pageLimit_pos h

end StemListing

/-! ## What a listing shows -/

namespace Mount

/-- An object of a flat listing: the one under a key that starts with the stem. -/
def ShowsObject (m : Mount) (stem : String) (s : Store) (i : Object) : Prop :=
  ∃ rest o, s.objectAt? m.bucket (stem ++ rest) = some o ∧
    i = m.ofEntry (Store.listedObject (stem ++ rest) o)

/-- An object of a directory listing: the one under a key with one step after the stem, or the group
of all keys that go on after that step. -/
def ShowsChild (m : Mount) (stem : String) (s : Store) (i : Object) : Prop :=
  (∃ step o, Text.IsStep step ∧ step ≠ "" ∧ s.objectAt? m.bucket (stem ++ step) = some o ∧
    i = m.ofEntry (Store.listedObject (stem ++ step) o)) ∨
  ∃ step, Text.IsStep step ∧
    (∃ rest o, s.objectAt? m.bucket (stem ++ (step ++ "/" ++ rest)) = some o) ∧
    i = m.ofGroup (stem ++ (step ++ "/"))

end Mount

/-- The entries of a flat listing show just the objects below the stem. -/
theorem mem_entries_flat {m : Mount} {stem : String} {s : Store} {k : String} {i : Object} :
    (k, some i) ∈ (StemListing.flat m stem).entries s ↔ m.ShowsObject stem s i ∧ i.id = k := by
  rw [StemListing.mem_entries]
  constructor
  · rintro ⟨o?, hget, hitem⟩
    obtain ⟨o, rfl, ho, rest, rfl⟩ := Store.shownAt?_flat.mp hget
    cases hitem
    exact ⟨⟨rest, o, ho, rfl⟩, rfl⟩
  · rintro ⟨⟨rest, o, ho, rfl⟩, rfl⟩
    exact ⟨some o, Store.shownAt?_flat.mpr ⟨o, rfl, ho, rest, rfl⟩, rfl⟩

/-- The entries of a directory listing show just the children of the directory. -/
theorem mem_entries_dir {m : Mount} {stem : String} {s : Store} {k : String} {i : Object} :
    (k, some i) ∈ (StemListing.dir m stem).entries s ↔ m.ShowsChild stem s i ∧ i.id = k := by
  rw [StemListing.mem_entries]
  constructor
  · rintro ⟨o?, hget, hitem⟩
    have hid : i.id = k := Mount.id_dirItem hitem
    refine ⟨?_, hid⟩
    rcases o? with _ | o
    · obtain ⟨step, hstep, rfl, hkey⟩ := Store.shownAt?_path.mp hget
      cases hitem
      exact .inr ⟨step, hstep, hkey, rfl⟩
    · obtain ⟨ho, step, hstep, rfl⟩ := Store.shownAt?_step.mp hget
      -- The object of the directory itself is an entry, but shows nothing.
      have hitem' : (if stem ++ step = stem then none
          else some (m.ofEntry (Store.listedObject (stem ++ step) o))) = some i := hitem
      split at hitem'
      · cases hitem'
      · rename_i hne
        cases hitem'
        have hstep' : step ≠ "" := fun hempty => hne (String.append_eq_left_iff.mpr hempty)
        exact .inl ⟨step, o, hstep, hstep', ho, rfl⟩
  · rintro ⟨⟨step, o, hstep, hne, ho, rfl⟩ | ⟨step, hstep, hkey, rfl⟩, rfl⟩
    · have hget := Store.shownAt?_step.mpr ⟨ho, step, hstep, rfl⟩
      exact ⟨some o, hget, if_neg fun heq => hne (String.append_eq_left_iff.mp heq)⟩
    · exact ⟨none, Store.shownAt?_path.mpr ⟨step, hstep, rfl, hkey⟩, rfl⟩

/-- A flat listing shows just the objects below the stem. -/
theorem mem_items_flat {m : Mount} {stem : String} {s : Store} {i : Object} :
    i ∈ items ((StemListing.flat m stem).entries s) ↔ m.ShowsObject stem s i := by
  rw [mem_items]
  simp only [mem_entries_flat, exists_and_left, exists_eq', and_true]

/-- A directory listing shows just the children of the directory. -/
theorem mem_items_dir {m : Mount} {stem : String} {s : Store} {i : Object} :
    i ∈ items ((StemListing.dir m stem).entries s) ↔ m.ShowsChild stem s i := by
  rw [mem_items]
  simp only [mem_entries_dir, exists_and_left, exists_eq', and_true]

theorem StemListing.ascending_items {m : Mount} (L : StemListing m) (s : Store) :
    (items (L.entries s)).Pairwise fun i j => i.id < j.id :=
  L.paging.ascending_items (fun _ he => he) (L.ascending_entries s)

/-! ## How many entries there are -/

namespace Store

/-- A sum over a list is at least each of its terms. -/
theorem le_foldr_add {α : Type} (f : α → Nat) {xs : List α} {x : α} (h : x ∈ xs) :
    f x ≤ xs.foldr (fun y n => f y + n) 0 := by
  induction xs with
  | nil => cases h
  | cons y xs ih =>
    rw [List.foldr_cons]
    rcases List.mem_cons.mp h with rfl | h
    · omega
    · have := ih h
      omega

theorem entryCount_le {s : Store} {name : String} {b : Bucket}
    (h : s.buckets.get? name = some b) : b.entryCount ≤ s.entryCount :=
  le_foldr_add (fun e => e.2.entryCount) ((Table.get?_eq_some_iff s.buckets).mp h)

theorem length_insertEntry {κ α : Type} [LT κ] [DecidableLT κ] (k : κ) (a : α)
    (entries : List (κ × α)) : (Table.insertEntry k a entries).length ≤ entries.length + 1 := by
  induction entries with
  | nil => exact Nat.le_refl _
  | cons e entries ih =>
    rw [Table.insertEntry]
    split
    · exact Nat.le_refl _
    · split
      · exact Nat.succ_le_succ ih
      · exact Nat.le_succ _

/-- A listing shows no more entries than there are objects. -/
theorem length_shownTable (stem : String) (delimiter : Option String)
    (t : Table String KeptObject) :
    (shownTable stem delimiter t).entries.length ≤ t.size := by
  obtain ⟨entries, hasc⟩ := t
  induction entries with
  | nil => exact Nat.le_refl _
  | cons e entries ih =>
    have hrest := ih hasc.of_cons
    -- A key adds one name at most, since it may set one that is there.
    have hinsert : ∀ k a,
        ((shownTable stem delimiter ⟨entries, hasc.of_cons⟩).insert k a).entries.length ≤
          entries.length + 1 := fun k a =>
      Nat.le_trans (length_insertEntry k a _) (Nat.succ_le_succ hrest)
    cases hs : shown? stem delimiter e.1 with
    | none =>
      rw [shownTable_cons_none hs]
      exact Nat.le_succ_of_le hrest
    | some x =>
      cases x with
      | object key =>
        rw [shownTable_cons_object hs]
        exact hinsert key _
      | group name =>
        rw [shownTable_cons_group hs]
        exact hinsert name _

end Store

theorem StemListing.length_entries_le {m : Mount} (L : StemListing m) (s : Store) :
    (L.entries s).length ≤ s.entryCount := by
  rw [entries]
  cases hb : s.buckets.get? m.bucket with
  | none => exact Nat.zero_le _
  | some b =>
    have hbucket := Store.entryCount_le hb
    have hshown := Store.length_shownTable L.stem L.delimiter b.objects
    rw [Option.elim_some, length_showing]
    rw [Bucket.entryCount] at hbucket
    omega

/-! ## Collecting a listing -/

/-- The first item of a listing is an error, and nothing comes after it. -/
def Listing.FailsAtOnce {κ ι : Type} (l : Listing κ ι) (s : Store) (e : Error) : Prop :=
  ∃ l' s', l.next s = some (.error e, l', s') ∧ ∀ t : Store, l'.next t = some (.ok none, l', t)

theorem Store.pageLimit_of_pos {limit : Int32} (h : 1 ≤ limit) :
    pageLimit limit = limit.toInt.toNat := by
  refine if_pos (Int32.lt_iff_toInt_lt.mpr ?_)
  have hle := Int32.le_iff_toInt_le.mp h
  have hone : (1 : Int32).toInt = 1 := rfl
  have hzero : (0 : Int32).toInt = 0 := rfl
  omega

/-- A listing whose first fetch fails shows nothing: its first item is the failure, and then it is at
its end. -/
theorem Listing.next_start_error {κ ι : Type} {pages : κ → Call (Fetch κ ι)} {position : κ} {s : Store}
    {e : Error} (h : ((pages position).run s).1.page.outcome = .error e) :
    (Listing.start pages position).FailsAtOnce s e := by
  have hload : (Listing.start pages position).feed.load (Listing.start pages position).source s =
      (some e, _, _) := Feed.load_of_error h
  refine ⟨⟨pages, { position := ((pages position).run s).1.position, exhausted := true }⟩,
    ((pages position).run s).2, ?_, fun t => ?_⟩
  · rw [Listing.next]
    exact congrArg (Option.map _) (Feed.next_of_load_error rfl rfl hload)
  · rw [Listing.next, Feed.next_of_exhausted rfl rfl]
    rfl

theorem Listing.collect_start_error {κ ι : Type} {pages : κ → Call (Fetch κ ι)} {position : κ}
    {s : Store} {e : Error} (h : ((pages position).run s).1.page.outcome = .error e) :
    ∃ s', (Listing.start pages position).collect s = some (.error e, s') := by
  have hload : (Listing.start pages position).feed.load (Listing.start pages position).source s =
      (some e, _, _) := Feed.load_of_error h
  refine ⟨((pages position).run s).2, ?_⟩
  rw [Listing.collect, Feed.collect]
  exact congrArg (Option.map _) (Feed.drain_of_load_error rfl hload)

/-- Requests that are recorded one after another stand in the log in that order. -/
theorem Store.foldl_record (requests : List Request) (s : Store) :
    requests.foldl Store.record s = { s with log := s.log ++ requests } := by
  induction requests generalizing s with
  | nil => simp
  | cons request requests ih =>
    rw [List.foldl_cons, ih]
    simp [Store.record]

namespace Paging

variable {κ ι μ : Type} [LT μ] [DecidableLT μ]

/-- A store answers the fetches of a listing: each cuts a page from the entries and leaves but the
record of its request, also when requests were recorded before. -/
structure AnsweredBy (P : Paging Store κ ι μ) (s : Store) (refusal : Error)
    (request : Option μ → Request) : Prop where
  upward : P.Upward
  length_le : (P.entries s).length ≤ s.entryCount
  fetch : ∀ t s', (∀ k ∈ t, P.accepts k = true) → s'.buckets = s.buckets → s'.faults = s.faults →
    P.source (P.place t) s' =
      (cut P.place P.accepts refusal P.limit t (past t (P.entries s)), s'.record (request t))

variable {P : Paging Store κ ι μ} {s : Store} {refusal : Error} {request : Option μ → Request}
  {pages : κ → Call (Fetch κ ι)}

/-- A listing that breaks off fails at once. -/
theorem AnsweredBy.failsAtOnce (h : P.AnsweredBy s refusal request)
    (hpages : ∀ c s, (pages c).run s = P.source c s) (hbroken : P.BrokenOff s) :
    (Listing.start pages (P.place none)).FailsAtOnce s refusal := by
  refine Listing.next_start_error ?_
  rw [hpages, h.fetch none s nofun rfl rfl, past_none]
  exact (cut_eq_error P.limit_pos).mpr ⟨rfl, hbroken⟩

/-- **Collecting a listing** that does not break off brings the items of all entries, by one request
for each page. -/
theorem AnsweredBy.collect [LE μ] [Std.IsLinearOrder μ] [Std.LawfulOrderLT μ]
    (h : P.AnsweredBy s refusal request) (hpages : ∀ c s, (pages c).run s = P.source c s)
    (hgoes : ¬ P.BrokenOff s) :
    ∃ marks : List (Option μ), (Listing.start pages (P.place none)).collect s =
        some (.ok (items (P.entries s)), { s with log := s.log ++ marks.map request }) ∧
      marks.length = pageCount P.limit (P.entries s).length := by
  have hsource : ∀ t (s' : Store), (∀ k ∈ t, P.accepts k = true) →
      (s'.buckets = s.buckets ∧ s'.faults = s.faults) →
      (Listing.start pages (P.place none)).source (P.place t) s' =
        (cut P.place P.accepts refusal P.limit t (past t (P.entries s)), s'.record (request t)) := by
    rintro t s' ht ⟨hbuckets, hfaults⟩
    exact (hpages _ _).trans (h.fetch t s' ht hbuckets hfaults)
  have hall : past none (P.entries s) = P.entries s := past_none (P.entries s)
  have hfuel : (past none (P.entries s)).length < Backend.patience s := by
    rw [hall]
    exact Nat.lt_succ_of_le h.length_le
  obtain ⟨p', marks, hdrain, hbuffer, hmarks⟩ :=
    drain_cut (p := (Listing.start pages (P.place none)).feed) P.limit_pos (P.ascending s) hsource
      (fun t s' h => h) (s := s) (t := none) nofun ⟨rfl, rfl⟩ rfl rfl hfuel (by
        rw [hall]
        exact accepts_of_not_breaksOff (P.ascending s) h.upward hgoes)
  rw [hall] at hbuffer hmarks
  refine ⟨marks, ?_, hmarks⟩
  rw [Listing.collect, Feed.collect, hdrain, Option.map_some, hbuffer, ← Store.foldl_record,
    List.foldl_map]
  rfl

end Paging

/-! ## The empty key -/

/-- The first page of a listing of keys ends with the empty key and has more behind it. -/
def EndsWithEmptyKey (size : Nat) (keys : List String) : Prop :=
  size < keys.length ∧ keys[size - 1]? = some ""

instance (size : Nat) (keys : List String) : Decidable (EndsWithEmptyKey size keys) :=
  inferInstanceAs (Decidable (_ ∧ _))

/-- A listing of objects breaks off at the empty key. -/
theorem breaksOff_keys {size : Nat} {keys : List String} :
    BreaksOff (fun k => decide (k ≠ "")) size keys ↔ EndsWithEmptyKey size keys := by
  simp [BreaksOff, EndsWithEmptyKey]

/-- A key above another one is not empty. -/
theorem ne_empty_of_lt {j k : String} (h : j < k) : k ≠ "" := by
  rintro rfl
  exact Text.not_lt_empty j h

namespace StemListing

variable {m : Mount} (L : StemListing m) {s : Store}

/-- The listing from its start. -/
def listing : Listing ListingPosition Object := .start m.objectPage (L.place none)

/-- A listing of a bucket that refuses it meets that fault. -/
theorem page_refused {f : Fault} (h : s.refusal? .listObjects m.bucket = some f) :
    ((m.objectPage (L.place none)).run s).1.page.outcome = .error (.ofFault f) := by
  rcases L.run_place none s with ⟨f', hf', hrun⟩ | ⟨hnone, -⟩
  · obtain rfl : f = f' := Option.some.inj (h.symm.trans hf')
    rw [hrun]
    rfl
  · rw [h] at hnone
    cases hnone

/-- Listings of objects go on from any key above one that they go on from. -/
theorem upward : L.paging.Upward := fun _ _ hlt _ => decide_eq_true (ne_empty_of_lt hlt)

theorem brokenOff_iff {keys : List String} (h : (L.entries s).map (·.1) = keys) :
    L.paging.BrokenOff s ↔ EndsWithEmptyKey L.limit keys := by
  subst h
  exact breaksOff_keys

/-- A store that does not refuse listings answers their fetches. -/
theorem answeredBy (hrefusal : s.refusal? .listObjects m.bucket = none) :
    L.paging.AnsweredBy s .objectTokenMissing L.request where
  upward := L.upward
  length_le := L.length_entries_le s
  fetch t s' _ hbuckets hfaults := by
    have hsame : s'.refusal? .listObjects m.bucket = s.refusal? .listObjects m.bucket := by
      rw [Store.refusal?, Store.refusal?, hbuckets, hfaults]
    rcases L.run_place t s' with ⟨f, hf, -⟩ | ⟨-, hrun⟩
    · rw [hsame, hrefusal] at hf
      cases hf
    · rw [L.entries_congr hbuckets] at hrun
      exact hrun

/-- **Collecting a listing of objects** of a bucket, where `keys` are the marks of its entries. A fault
that waits is met at once, and so is the empty key at the end of the first page, with more behind it. In
any other case the items of all entries come, by one request for each page. -/
theorem collect_cases {b : Bucket} {keys : List String} (hb : s.buckets.get? m.bucket = some b)
    (hkeys : (L.entries s).map (·.1) = keys) :
    let size := m.pageSize.toInt.toNat
    (∀ p, Store.takeFault? .listObjects s.faults = some p →
      L.listing.FailsAtOnce s (.ofFault p.1)) ∧
    (Store.takeFault? .listObjects s.faults = none →
      (EndsWithEmptyKey size keys → L.listing.FailsAtOnce s .objectTokenMissing) ∧
      (¬ EndsWithEmptyKey size keys → ∃ requests,
        L.listing.collect s =
          some (.ok (items (L.entries s)), { s with log := s.log ++ requests }) ∧
        requests.length = max 1 ((keys.length + size - 1) / size) ∧
        ∀ r ∈ requests, r.kind = .listObjects)) := by
  intro size
  have hlimit : L.limit = size := Store.pageLimit_of_pos m.pageSize_mem.1
  have hbroken : L.paging.BrokenOff s ↔ EndsWithEmptyKey size keys := hlimit ▸ L.brokenOff_iff hkeys
  refine ⟨fun p hp => ?_, fun hnone => ?_⟩
  · have hrefusal : s.refusal? .listObjects m.bucket = some p.1 := by
      rw [Store.refusal?, hp]
      rfl
    exact Listing.next_start_error (L.page_refused hrefusal)
  have hanswered := L.answeredBy (Store.refusal?_eq_none.mpr ⟨hnone, b, hb⟩)
  refine ⟨fun hends => hanswered.failsAtOnce (fun _ _ => rfl) (hbroken.mpr hends), fun hother => ?_⟩
  obtain ⟨tokens, hcollect, htokens⟩ := hanswered.collect (fun _ _ => rfl) (mt hbroken.mp hother)
  refine ⟨_, hcollect, ?_, fun r hr => ?_⟩
  · have hlength : (L.entries s).length = keys.length := by rw [← hkeys, List.length_map]
    have hpages : tokens.length = pageCount L.limit keys.length := hlength ▸ htokens
    rw [List.length_map, hpages, hlimit]
    rfl
  · obtain ⟨t, -, rfl⟩ := List.mem_map.mp hr
    rfl

end StemListing

end ObjectStore
