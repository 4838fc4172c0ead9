import ObjectStore.Proofs.Effects
import ObjectStore.Proofs.Listing.Uploads

/-!
# Listings while the store changes

A client goes through a listing by taking one item after another. Between two of its turns, others may
make any calls on the store: they may store keys before and behind the place where the listing stands,
take away the very key that it stands at, or empty a group.

A `Turn` keeps the answer that the client got and, beside it, the store at the latest fetch: an item
that comes from the buffer was there then, and may be gone by now. `Trace` follows the feed through the
turns, by the mark it stands at; what it has passed it never shows again, and what is ahead of it stays
ahead until it is shown. From that comes what a client may rely on (`Faithful`), for each of the four
listings.
-/

namespace ObjectStore

/-! ## Turns -/

/-- A turn of a client that goes through a listing. -/
structure Turn (ι : Type) where
  /-- The store at the latest fetch. -/
  seen : Store
  answer : Except Error (Option ι)

namespace Turn

variable {ι : Type}

/-- The item that the client got, if any. -/
def item? (t : Turn ι) : Option ι := t.answer.toOption.join

/-- Whether the client was told that the listing ends. -/
def isEnd (t : Turn ι) : Prop := t.answer = .ok none

/-- The items that a client got, in order. -/
def delivered (ts : List (Turn ι)) : List ι := ts.filterMap item?

theorem delivered_cons (v : Store) (item : Option ι) (ts : List (Turn ι)) :
    delivered (⟨v, .ok item⟩ :: ts) = item.toList ++ delivered ts := by
  cases item <;> rfl

end Turn

/-- The turns of a client that goes through a listing of a store. Before each of them, others make
some calls; `seen` is the store at the latest fetch before. The turns break off where the backend's
patience with the listing runs out. -/
def Listing.turns {κ ι : Type} (l : Listing κ ι) (seen s : Store) :
    List (List (Mount × Operation)) → List (Turn ι)
  | [] => []
  | calls :: others =>
    let s := (Run.calls ⟨s, []⟩ calls).state
    let seen := if l.feed.isDry then s else seen
    (l.next s).elim [] fun r => ⟨seen, r.1⟩ :: r.2.1.turns seen r.2.2 others

/-- What a client may rely on that goes through a listing while others change the store. An item is
known by its name, and `shows` says that an item is there. -/
structure Faithful {ι ν : Type} [LT ν] (name : ι → ν) (shows : Store → ι → Prop)
    (ts : List (Turn ι)) : Prop where
  /-- Names ascend, so no item comes twice. -/
  ascending : (Turn.delivered ts).Pairwise fun i j => name i < name j
  /-- Every item was there when it was fetched. -/
  shown : ∀ t ∈ ts, ∀ i ∈ t.item?, shows t.seen i
  /-- What was there at every fetch has come by the time the end is told. -/
  complete : ∀ earlier t later, ts = earlier ++ t :: later → t.isEnd →
    ∀ n, (∀ u ∈ earlier ++ [t], ∃ i, shows u.seen i ∧ name i = n) →
      ∃ i ∈ Turn.delivered earlier, name i = n

/-! ## Following a feed -/

namespace Paging

variable {κ ι μ : Type} [LT μ] [DecidableLT μ] (P : Paging Store κ ι μ)

/-- The turns that a feed takes from where it stands, none of which fails. -/
inductive Trace : Option μ → Feed κ ι → List (Turn ι) → Prop where
  | done (t : Option μ) (p : Feed κ ι) : Trace t p []
  | turn {v : Store} {t t' : Option μ} {p p' : Feed κ ι} {item : Option ι} {ts : List (Turn ι)}
    (step : P.Advanced v t p item t' p') (rest : Trace t' p' ts) : Trace t p (⟨v, .ok item⟩ :: ts)

variable {P} {t : Option μ} {p : Feed κ ι} {ts : List (Turn ι)}

/-- What a feed has passed, it does not show again. -/
theorem Trace.behind (h : P.Trace t p ts) {k : μ} (hk : P.Behind k t p) :
    ∀ i ∈ Turn.delivered ts, k < P.mark i := by
  induction h with
  | done => rintro i ⟨⟩
  | turn step rest ih =>
    obtain ⟨hrest, hitem⟩ := step.behind k hk
    intro i hi
    rw [Turn.delivered_cons] at hi
    rcases List.mem_append.mp hi with hi | hi
    · exact hitem i (Option.mem_toList.mp hi)
    · exact ih hrest i hi

/-- What a feed shows, it has passed then: so marks ascend. -/
theorem Trace.ascending (h : P.Trace t p ts) :
    (Turn.delivered ts).Pairwise fun i j => P.mark i < P.mark j := by
  induction h with
  | done => exact .nil
  | @turn v t t' p p' item ts step rest ih =>
    rw [Turn.delivered_cons]
    have hone : item.toList.Pairwise fun i j => P.mark i < P.mark j := by cases item <;> simp
    refine List.pairwise_append.mpr ⟨hone, ih, fun i hi j hj => ?_⟩
    exact rest.behind (step.passed i (Option.mem_toList.mp hi)) j hj

/-- What a feed shows was an entry when it was fetched. -/
theorem Trace.shown (h : P.Trace t p ts) :
    ∀ u ∈ ts, ∀ i ∈ u.item?, (P.mark i, some i) ∈ P.entries u.seen := by
  induction h with
  | done => rintro u ⟨⟩
  | turn step rest ih =>
    intro u hu i hi
    rcases List.mem_cons.mp hu with rfl | hu
    · exact step.shown i hi
    · exact ih u hu i hi

/-- What is ahead of a feed, and is there at every fetch, has come by the time the end is told. -/
theorem Trace.complete (h : P.Trace t p ts) {k : μ} (hk : P.Ahead k t p)
    {earlier later : List (Turn ι)} {u : Turn ι} (hts : ts = earlier ++ u :: later) (hend : u.isEnd)
    (hthere : ∀ w ∈ earlier ++ [u], ∃ i, (k, some i) ∈ P.entries w.seen) :
    ∃ i ∈ Turn.delivered earlier, P.mark i = k := by
  induction h generalizing earlier with
  | done => simp at hts
  | @turn v t t' p p' item ts step rest ih =>
    cases earlier with
    | nil =>
      -- The first turn tells the end, and then nothing is ahead.
      rw [List.nil_append, List.cons.injEq] at hts
      obtain ⟨rfl, rfl⟩ := hts
      obtain rfl : item = none := Except.ok.inj hend
      rcases step.ahead k hk (hthere _ (List.mem_singleton.mpr rfl)) with hahead | ⟨i, ⟨⟩, -⟩
      exact absurd hahead (step.ended rfl k)
    | cons w earlier =>
      rw [List.cons_append, List.cons.injEq] at hts
      obtain ⟨rfl, rfl⟩ := hts
      rw [Turn.delivered_cons]
      rcases step.ahead k hk (hthere _ List.mem_cons_self) with hahead | ⟨i, hi, hmark⟩
      · obtain ⟨i, hi, hmark⟩ := ih hahead rfl fun w hw => hthere w (List.mem_cons_of_mem _ hw)
        exact ⟨i, List.mem_append_right _ hi, hmark⟩
      · exact ⟨i, List.mem_append_left _ (Option.mem_toList.mpr hi), hmark⟩

variable [LE μ] [Std.IsLinearOrder μ] [Std.LawfulOrderLT μ]

/-- As long as the backend's patience lasts for all entries, the next item of a feed under way does
not run out of it. -/
theorem next_isSome_of_ready (hsize : ∀ s, (P.entries s).length ≤ s.entryCount) {v s : Store}
    (hp : P.Ready v t p) : (p.next P.source (Backend.patience s) s).isSome = true := by
  cases hb : p.buffer with
  | cons i rest =>
    rw [Feed.next_of_cons hb]
    rfl
  | nil =>
    cases hx : p.exhausted with
    | true =>
      rw [Feed.next_of_exhausted hb hx]
      rfl
    | false =>
      obtain ⟨hposition, haccepted⟩ := hp.position hx
      refine P.next_isSome ⟨hb, hx, hposition, haccepted⟩ ?_
      have hleft : (past t (P.entries s)).length ≤ (P.entries s).length := List.length_filter_le _ _
      exact Nat.lt_succ_of_le (Nat.le_trans hleft (hsize s))

/-- A client whose feed is under way has an answer in its next turn, and goes on from there. -/
theorem exists_turn (hsize : ∀ s, (P.entries s).length ≤ s.entryCount)
    {pages : κ → Call (Fetch κ ι)} (hpages : ∀ c s, (pages c).run s = P.source c s) {v : Store}
    (hp : P.Ready v t p) (seen s : Store) (calls : List (Mount × Operation))
    (others : List (List (Mount × Operation))) :
    let now := (Run.calls ⟨s, []⟩ calls).state
    let latest := if p.isDry then now else seen
    ∃ answer p' s', p.next P.source (Backend.patience now) now = some (answer, p', s') ∧
      Listing.turns ⟨pages, p⟩ seen s (calls :: others) =
        ⟨latest, answer⟩ :: Listing.turns ⟨pages, p'⟩ latest s' others := by
  intro now latest
  obtain ⟨⟨answer, p', s'⟩, hnext⟩ :=
    Option.isSome_iff_exists.mp (next_isSome_of_ready hsize hp (s := now))
  refine ⟨answer, p', s', hnext, ?_⟩
  have hsource : (Listing.mk pages p).source = P.source := funext fun c => funext (hpages c)
  have hturn : (Listing.mk pages p).next now = some (answer, ⟨pages, p'⟩, s') := by
    rw [Listing.next, hsource, hnext]
    rfl
  rw [Listing.turns]
  simp only [now] at hturn
  simp only [hturn, Option.elim_some]
  rfl

/-- The turns of a client of which none fails follow its feed, and the client gets an answer each
time. -/
theorem trace_turns (hsize : ∀ s, (P.entries s).length ≤ s.entryCount)
    {pages : κ → Call (Fetch κ ι)} (hpages : ∀ c s, (pages c).run s = P.source c s)
    {others : List (List (Mount × Operation))} {v s : Store} (hp : P.Ready v t p)
    (hok : ∀ u ∈ Listing.turns ⟨pages, p⟩ v s others, u.answer.isOk = true) :
    P.Trace t p (Listing.turns ⟨pages, p⟩ v s others) ∧
      (Listing.turns ⟨pages, p⟩ v s others).length = others.length := by
  induction others generalizing t p v s with
  | nil => exact ⟨.done t p, rfl⟩
  | cons calls others ih =>
    obtain ⟨answer, p', s', hnext, hturns⟩ := exists_turn hsize hpages hp v s calls others
    rw [hturns] at hok ⊢
    -- The calls of others leave the feed alone, and any store may come of them.
    generalize (Run.calls ⟨s, []⟩ calls).state = s₁ at hok hnext ⊢
    cases answer with
    | error e => cases hok _ List.mem_cons_self
    | ok item =>
      obtain ⟨t', hstep⟩ := P.advance hp hnext
      obtain ⟨htrace, hlength⟩ :=
        ih hstep.ready fun u hu => hok u (List.mem_cons_of_mem _ hu)
      exact ⟨.turn hstep htrace, congrArg Nat.succ hlength⟩

omit [LE μ] [Std.IsLinearOrder μ] [Std.LawfulOrderLT μ] in
/-- A listing that has not started is ready. -/
theorem ready_start (v : Store) : P.Ready v none { position := P.place none } := by
  refine ⟨?_, .nil, fun _ => ⟨rfl, ?_⟩, fun _ => ?_⟩
  · rintro i ⟨⟩
  · rintro k ⟨⟩
  · rintro i ⟨⟩

omit [LE μ] [Std.IsLinearOrder μ] [Std.LawfulOrderLT μ] in
/-- Everything is ahead of a listing that has not started. -/
theorem ahead_start (k : μ) : P.Ahead k none { position := P.place none } := by
  refine .inr ⟨rfl, ?_⟩
  rintro k' ⟨⟩

/-- **Turns over pages are faithful.** Where what is there is what the entries show, a client may rely
on what its turns bring, as long as none of them fails. -/
theorem faithful_turns (hsize : ∀ s, (P.entries s).length ≤ s.entryCount)
    {pages : κ → Call (Fetch κ ι)} (hpages : ∀ c s, (pages c).run s = P.source c s)
    {shows : Store → ι → Prop}
    (hshows : ∀ {s k i}, (k, some i) ∈ P.entries s ↔ shows s i ∧ P.mark i = k)
    {v s : Store} {others : List (List (Mount × Operation))}
    (hok : ∀ u ∈ (Listing.start pages (P.place none)).turns v s others, u.answer.isOk = true) :
    ((Listing.start pages (P.place none)).turns v s others).length = others.length ∧
      Faithful P.mark shows ((Listing.start pages (P.place none)).turns v s others) := by
  obtain ⟨htrace, hlength⟩ := trace_turns hsize hpages (ready_start v) hok
  refine ⟨hlength, htrace.ascending, fun u hu i hi => ?_,
    fun earlier u later hts hend k hthere => ?_⟩
  · exact (hshows.mp (htrace.shown u hu i hi)).1
  · refine htrace.complete (ahead_start k) hts hend fun w hw => ?_
    obtain ⟨i, hi, hmark⟩ := hthere w hw
    exact ⟨i, hshows.mpr ⟨hi, hmark⟩⟩

end Paging

theorem Turn.mem_delivered {ι : Type} {ts : List (Turn ι)} {i : ι} :
    i ∈ delivered ts ↔ ∃ t ∈ ts, i ∈ t.item? :=
  List.mem_filterMap

/-- Items may go by another name, if that has the same order. -/
theorem Faithful.rename {ι ν ν' : Type} [LT ν] [LT ν'] {name : ι → ν} {name' : ι → ν'}
    {shows : Store → ι → Prop} {ts : List (Turn ι)} (h : Faithful name shows ts)
    (hlt : ∀ {s s' i j}, shows s i → shows s' j → name i < name j → name' i < name' j)
    (heq : ∀ {s s' i j}, shows s i → shows s' j → (name i = name j ↔ name' i = name' j)) :
    Faithful name' shows ts := by
  refine ⟨h.ascending.imp_of_mem fun {i j} hi hj => ?_, h.shown,
    fun earlier t later hts hend n hthere => ?_⟩
  · obtain ⟨t, ht, hi⟩ := Turn.mem_delivered.mp hi
    obtain ⟨u, hu, hj⟩ := Turn.mem_delivered.mp hj
    exact hlt (h.shown t ht i hi) (h.shown u hu j hj)
  · obtain ⟨i, hi, rfl⟩ := hthere t (List.mem_append_right _ (List.mem_singleton.mpr rfl))
    obtain ⟨j, hj, hname⟩ := h.complete earlier t later hts hend (name i) fun u hu => by
      obtain ⟨j, hj, hname⟩ := hthere u hu
      exact ⟨j, hj, (heq hj hi).mpr hname⟩
    obtain ⟨u, hu, hj'⟩ := Turn.mem_delivered.mp hj
    have hts' : u ∈ ts := hts ▸ List.mem_append_left _ hu
    exact ⟨j, hj, (heq (h.shown u hts' j hj') hi).mp hname⟩

/-! ## The four listings -/

/-- Parts in the order of their numbers are in the order of their indices. -/
theorem faithful_index {m : Mount} {key id : String} {ts : List (Turn Part)}
    (h : Faithful Mount.partMark (m.ShowsPart key id) ts) :
    Faithful Part.index (m.ShowsPart key id) ts := by
  -- Numbers count from one, and indices from zero.
  have hmark : ∀ {s i}, m.ShowsPart key id s i →
      (Mount.partMark i).toInt = i.index.toNat + 1 := by
    rintro s i ⟨number, u, p, hnumber, -⟩
    rw [Mount.partMark_eq hnumber, Mount.toInt_numberOfIndex hnumber]
  refine h.rename (fun {s s' i j} hi hj hlt => ?_)
    fun {s s' i j} hi hj => ⟨fun heq => ?_, fun heq => ?_⟩
  · have hint := Int32.lt_iff_toInt_lt.mp hlt
    rw [hmark hi, hmark hj] at hint
    exact UInt32.lt_iff_toNat_lt.mpr (by omega)
  · have hint := congrArg Int32.toInt heq
    rw [hmark hi, hmark hj] at hint
    exact UInt32.toNat_inj.mp (by omega)
  · refine Int32.toInt_inj.mp ?_
    rw [hmark hi, hmark hj, heq]

/-- **Listings while the store changes.** A client goes through a listing of a path or of parts, and
before each of its turns others make any calls. As long as no turn fails, each turn has an answer, and
the client may rely on what comes: objects and groups in the order of their keys, uploads in the order
of key and id, parts in the order of their indices; each was there when it was fetched; and what was
there at every fetch has come by the time the end is told. -/
theorem listing_faithful (m : Mount) (start : Store) (others : List (List (Mount × Operation))) :
    (∀ path l, m.list path .flat = .ok l →
      (∀ t ∈ l.turns start start others, t.answer.isOk = true) →
        (l.turns start start others).length = others.length ∧
          Faithful Object.id (m.ShowsObject (m.workDir.keyOf path)) (l.turns start start others)) ∧
    (∀ path l, m.list path .dir = .ok l →
      (∀ t ∈ l.turns start start others, t.answer.isOk = true) →
        (l.turns start start others).length = others.length ∧
          Faithful Object.id (m.ShowsChild (m.workDir.keyOf path)) (l.turns start start others)) ∧
    (∀ path l, m.list path .part = .ok l →
      (∀ t ∈ l.turns start start others, t.answer.isOk = true) →
        (l.turns start start others).length = others.length ∧
          Faithful (fun o => (⟨o.id, o.uploadId.getD ""⟩ : UploadName))
            (m.ShowsUpload (m.workDir.keyOf path)) (l.turns start start others)) ∧
    ∀ object id l, object.uploadId = some id → m.listParts object = .ok l →
      (∀ t ∈ l.turns start start others, t.answer.isOk = true) →
        (l.turns start start others).length = others.length ∧
          Faithful Part.index (m.ShowsPart object.id id) (l.turns start start others) := by
  refine ⟨?_, ?_, ?_, ?_⟩
  · rintro path l ⟨⟩ hok
    exact Paging.faithful_turns (P := (StemListing.flat m (m.workDir.keyOf path)).paging)
      (StemListing.length_entries_le _) (fun _ _ => rfl) mem_entries_flat hok
  · rintro path l ⟨⟩ hok
    exact Paging.faithful_turns (P := (StemListing.dir m (m.workDir.keyOf path)).paging)
      (StemListing.length_entries_le _) (fun _ _ => rfl) mem_entries_dir hok
  · rintro path l ⟨⟩ hok
    exact Paging.faithful_turns (P := m.uploadPaging (m.workDir.keyOf path))
      (m.length_uploadEntries_le _) (fun _ _ => rfl) mem_uploadEntries hok
  · intro object id l hid hl hok
    cases hopen : object.openUpload with
    | error e =>
      -- An object that is no open upload has no listing.
      rw [Mount.listParts, hopen] at hl
      cases hl
    | ok id' =>
      obtain rfl : id = id' :=
        Option.some.inj (hid.symm.trans (Store.uploadId_of_openUpload hopen))
      rw [Mount.listParts, hopen] at hl
      cases hl
      obtain ⟨hlength, hfaithful⟩ := Paging.faithful_turns (P := m.partPaging object.id id)
        (m.length_partEntries_le _ _) (fun _ _ => rfl) mem_partEntries hok
      exact ⟨hlength, faithful_index hfaithful⟩

/-- Others take away the key that a listing stands at, store keys before and behind it, and give a
group other members; they drop an upload and write parts. Pages have one entry each. -/
theorem listing_faithful_among_writers :
    let m : Mount := ⟨"b", .root, 1, none, none, by decide⟩
    let first := Object.upload "k" "k" "0"
    let second := Object.upload "k" "k" "1"
    let start := (Run.calls ⟨Store.withBuckets ["b"] (fun n => toString n) 0 false, []⟩
      [(m, .write "a" [1] 1 {}), (m, .write "d/x" [] 0 {}), (m, .write "e" [] 0 {}),
        (m, .createUpload "k" {}), (m, .createUpload "k" {}),
        (m, .writePart second 2 [7] 1 none none), (m, .writePart second 4 [7] 1 none none)]).state
    let others : List (List (Mount × Operation)) :=
      [[], [(m, .delete "a" .object), (m, .write "A" [] 0 {}), (m, .write "b" [] 0 {})],
        [(m, .delete "d/x" .object), (m, .write "d/y" [] 0 {}), (m, .abortUpload first),
          (m, .writePart second 3 [8] 1 none none)], [], [], []]
    let stem := m.workDir.keyOf ""
    let flat := (Listing.start m.objectPage (.flat ⟨stem, 1, none⟩)).turns start start others
    let dir := (Listing.start m.objectPage (.grouped ⟨stem, 1, none⟩ "/")).turns start start others
    let uploads :=
      (Listing.start m.objectPage (.uploads ⟨stem, 1, none, none⟩)).turns start start others
    let parts := (Listing.start m.partPage ⟨"k", "1", 1, none⟩).turns start start others
    ((Turn.delivered flat).map Object.id = ["a", "b", "d/y", "e"] ∧
      Faithful Object.id (m.ShowsObject stem) flat) ∧
    ((Turn.delivered dir).map Object.id = ["a", "b", "d/", "e"] ∧
      Faithful Object.id (m.ShowsChild stem) dir) ∧
    ((Turn.delivered uploads).map Object.uploadId = [some "0", some "1"] ∧
      Faithful (fun o => (⟨o.id, o.uploadId.getD ""⟩ : UploadName)) (m.ShowsUpload stem) uploads) ∧
    ((Turn.delivered parts).map Part.index = [2, 4] ∧
      Faithful Part.index (m.ShowsPart "k" "1") parts) := by
  intro m first second start others stem flat dir uploads parts
  obtain ⟨hflat, hdir, huploads, hparts⟩ := listing_faithful m start others
  have hopen : second.openUpload = .ok "1" := if_pos (by decide)
  have hlist : m.listParts second = .ok (Listing.start m.partPage ⟨"k", "1", 1, none⟩) := by
    rw [Mount.listParts, hopen]
    rfl
  exact ⟨⟨by decide +kernel, (hflat "" _ rfl (by decide +kernel)).2⟩,
    ⟨by decide +kernel, (hdir "" _ rfl (by decide +kernel)).2⟩,
    ⟨by decide +kernel, (huploads "" _ rfl (by decide +kernel)).2⟩,
    ⟨by decide +kernel, (hparts second "1" _ rfl hlist (by decide +kernel)).2⟩⟩

end ObjectStore
