import ObjectStore.Proofs.Interleaving
import ObjectStore.Proofs.Listing.Names
import ObjectStore.Proofs.PartList

/-!
# Where a listing goes on

A page that leaves something out names the last entry that it shows, and the page after that mark shows
only what comes after it (`Store.listObjects_resumes`, `Store.listUploads_resumes`,
`Store.listParts_resumes`). A mount takes every such mark but the empty key. So a listing meets an
answer that is out of form in one case only: in its first turn, if the first page then ends with the
empty key and has more behind it (`listings_resume`). Once a listing has gone on from a mark it
is past the empty key, whatever is stored or taken away in between.
-/

namespace ObjectStore

/-- Whether an error says that an answer was out of form. -/
def Error.isMalformed (e : Error) : Bool :=
  e.fault?.any fun f => f.code = "MalformedResponse"

/-! ## Marks of replies -/

namespace Store

section

variable {μ α : Type} [LT μ] [LE μ] [Std.LawfulOrderLT μ] {entries : List (μ × α)}

/-- A page ends at a mark: an entry has it, and no entry of the page is above it. -/
def EndsAt (shown : List μ) (mark : μ) : Prop :=
  mark ∈ shown ∧ ∀ k ∈ shown, ¬ mark < k

/-- The mark that a page names, with more behind it, is the one at which it ends. -/
theorem exists_mark [Std.IsLinearOrder μ] (asked : Int32)
    (hasc : entries.Pairwise fun a b => a.1 < b.1)
    (h : exceeds asked entries = true) :
    ∃ mark, (if exceeds asked entries then (firstPage asked entries).getLast?.map (·.1) else none) =
        some mark ∧ EndsAt ((firstPage asked entries).map (·.1)) mark := by
  obtain ⟨last, hlast⟩ := exists_last (pageLimit_pos asked) (of_decide_eq_true h)
  refine ⟨last.1, last_mark (of_decide_eq_true h) hlast, ?_, fun k hk => ?_⟩
  · exact List.mem_map_of_mem (List.mem_of_getLast? hlast)
  · obtain ⟨e, he, rfl⟩ := List.mem_map.mp hk
    exact le_getLast (hasc.sublist (List.take_sublist _ _)) hlast he

end

/-- The names that a page of objects and groups shows. -/
def shownNames (reply : Reply.Objects) : List String := reply.entries.map (·.key) ++ reply.groups

theorem mem_shownNames {b : Bucket} {r : Request.ListObjects} {name : String} :
    name ∈ shownNames (listObjects b r) ↔ name ∈ (Mount.entryPage b r).map (·.1) := by
  have hpage : firstPage r.limit ((shownTable r.stem r.delimiter b.objects).entries.filter fun e =>
      r.token.all fun token => decide (token < e.1)) = Mount.entryPage b r := rfl
  simp only [shownNames, listObjects, hpage, List.mem_append, List.mem_map, List.mem_filterMap]
  constructor
  · rintro (⟨shown, ⟨⟨key, o?⟩, he, hshown⟩, rfl⟩ | ⟨⟨key, o?⟩, he, hgroup⟩)
    · obtain ⟨o, -, rfl⟩ := Option.map_eq_some_iff.mp hshown
      exact ⟨_, he, rfl⟩
    · split at hgroup
      · exact ⟨_, he, Option.some.inj hgroup⟩
      · cases hgroup
  · rintro ⟨⟨key, _ | o⟩, he, rfl⟩
    · exact .inr ⟨_, he, rfl⟩
    · exact .inl ⟨_, ⟨_, he, rfl⟩, rfl⟩

/-- **A page of objects that leaves some out** names the last one that it shows, and a page after that
name shows only what comes after it. -/
theorem listObjects_resumes (b : Bucket) (r : Request.ListObjects)
    (h : (listObjects b r).truncated = true) :
    ∃ token, (listObjects b r).nextToken = some token ∧ EndsAt (shownNames (listObjects b r)) token ∧
      ∀ (b' : Bucket), ∀ name ∈ shownNames (listObjects b' { r with token := some token }),
        token < name := by
  have hasc : (past r.token (shownTable r.stem r.delimiter b.objects).entries).Pairwise
      fun x y => x.1 < y.1 := ascending_past (shownTable r.stem r.delimiter b.objects).ascending
  obtain ⟨token, htoken, hmem, htop⟩ := exists_mark r.limit hasc h
  refine ⟨token, htoken, ⟨mem_shownNames.mpr hmem, fun k hk => htop k (mem_shownNames.mp hk)⟩, ?_⟩
  intro b' name hname
  obtain ⟨e, he, rfl⟩ := List.mem_map.mp (mem_shownNames.mp hname)
  exact (mem_past.mp (List.mem_of_mem_take he)).2 token rfl

/-- The names that a page of uploads shows. -/
def shownUploads (reply : Reply.Uploads) : List UploadName :=
  reply.uploads.map fun u => ⟨u.key, u.uploadId⟩

/-- **A page of uploads that leaves some out** names the last one that it shows, and a page after that
name shows only what comes after it. -/
theorem listUploads_resumes (b : Bucket) (r : Request.ListUploads)
    (h : (listUploads b r).truncated = true) :
    ∃ name, (listUploads b r).nextKey = some name.key ∧ (listUploads b r).nextId = some name.id ∧
      EndsAt (shownUploads (listUploads b r)) name ∧
      ∀ (b' : Bucket), ∀ next ∈ shownUploads
          (listUploads b' { r with keyMarker := some name.key, idMarker := some name.id }),
        name < next := by
  have hasc : (b.uploads.entries.filter fun e => Text.startsWith r.stem e.1.key &&
      pastMarkers r.keyMarker r.idMarker e.1).Pairwise fun x y => x.1 < y.1 :=
    b.uploads.ascending.filter _
  obtain ⟨name, hname, hend⟩ := exists_mark r.limit hasc h
  have hshown (b' : Bucket) (r' : Request.ListUploads) : shownUploads (listUploads b' r') =
      (firstPage r'.limit (b'.uploads.entries.filter fun e => Text.startsWith r'.stem e.1.key &&
        pastMarkers r'.keyMarker r'.idMarker e.1)).map (·.1) := by
    simp [shownUploads, listUploads]
  refine ⟨name, congrArg (Option.map UploadName.key) hname, congrArg (Option.map UploadName.id) hname,
    ?_, ?_⟩
  · rw [hshown]
    exact hend
  · intro b' next hnext
    rw [hshown] at hnext
    obtain ⟨e, he, rfl⟩ := List.mem_map.mp hnext
    have hpast := (List.mem_filter.mp (List.mem_of_mem_take he)).2
    rw [Bool.and_eq_true] at hpast
    exact of_decide_eq_true hpast.2

/-- The numbers that a page of parts shows. -/
def shownNumbers (reply : Reply.Parts) : List Int32 := reply.parts.map (·.number)

/-- **A page of parts that leaves some out** names the last one that it shows, which is above the
number it started at, and a page after that number shows only what comes after it. -/
theorem listParts_resumes (u : Upload) (r : Request.ListParts)
    (h : (listParts u r).truncated = true) :
    ∃ number, (listParts u r).nextMarker = some number ∧ r.marker.getD 0 < number ∧
      EndsAt (shownNumbers (listParts u r)) number ∧
      ∀ (u' : Upload), ∀ next ∈ shownNumbers (listParts u' { r with marker := some number }),
        number < next := by
  have hasc : (u.parts.entries.filter fun e => decide (r.marker.getD 0 < e.1)).Pairwise
      fun x y => x.1 < y.1 := u.parts.ascending.filter _
  obtain ⟨number, hnumber, hend⟩ := exists_mark r.limit hasc h
  have hshown (u' : Upload) (r' : Request.ListParts) : shownNumbers (listParts u' r') =
      (firstPage r'.limit (u'.parts.entries.filter fun e =>
        decide (r'.marker.getD 0 < e.1))).map (·.1) := by
    simp [shownNumbers, listParts]
  have hpast (u' : Upload) (r' : Request.ListParts) :
      ∀ next ∈ shownNumbers (listParts u' r'), r'.marker.getD 0 < next := by
    intro next hnext
    rw [hshown] at hnext
    obtain ⟨e, he, rfl⟩ := List.mem_map.mp hnext
    exact of_decide_eq_true (List.mem_filter.mp (List.mem_of_mem_take he)).2
  rw [← hshown] at hend
  exact ⟨number, hnumber, hpast u r number hend.1, hend, fun u' => hpast u' _⟩

end Store

/-! ## Answers that end a feed -/

/-- A feed whose next answer brings no item is empty and done. -/
theorem Feed.done_of_next {σ κ ι : Type} {source : PageSource σ κ ι} {fuel : Nat} {p p' : Feed κ ι}
    {s s' : σ} {answer : Except Error (Option ι)} (h : p.next source fuel s = some (answer, p', s'))
    (hnone : ∀ i, answer ≠ .ok (some i)) : p'.buffer = [] ∧ p'.exhausted = true := by
  induction fuel generalizing p s with
  | zero =>
    cases hb : p.buffer with
    | cons i rest =>
      rw [next_of_cons hb] at h
      cases h
      exact absurd rfl (hnone i)
    | nil =>
      cases hx : p.exhausted with
      | true =>
        rw [next_of_exhausted hb hx] at h
        cases h
        exact ⟨hb, hx⟩
      | false =>
        rw [next_zero hb hx] at h
        cases h
  | succ fuel ih =>
    cases hb : p.buffer with
    | cons i rest =>
      rw [next_of_cons hb] at h
      cases h
      exact absurd rfl (hnone i)
    | nil =>
      cases hx : p.exhausted with
      | true =>
        rw [next_of_exhausted hb hx] at h
        cases h
        exact ⟨hb, hx⟩
      | false =>
        cases hpage : (source p.position s).1.page.outcome with
        | ok isLast =>
          rw [next_of_load hb hx (load_of_ok hpage)] at h
          exact ih h
        | error e =>
          rw [next_of_load_error hb hx (load_of_error hpage)] at h
          cases h
          exact ⟨hb, rfl⟩

/-! ## Feeds that break off -/

/-- The client was told that an answer is out of form. -/
def Turn.isMalformed {ι : Type} (t : Turn ι) : Prop := ∃ e, t.answer = .error e ∧ e.isMalformed = true

/-- A client is told that an answer is out of form in its first turn, if `broken` holds of the store
then, and in no other. -/
def BreaksOffJust {ι : Type} (broken : Store → Prop) (ts : List (Turn ι)) : Prop :=
  ∀ earlier t later, ts = earlier ++ t :: later →
    (t.isMalformed ↔ earlier = [] ∧ broken t.seen)

namespace Paging

variable {κ ι μ : Type} [LT μ] [DecidableLT μ] (P : Paging Store κ ι μ)

/-- What the fetches of a listing are like in good stores: they cut a page, or there is nothing to
list and they fail with an error that says so. Calls of others leave stores good. -/
structure Cuts (good : Store → Prop) (refusal : Error) : Prop where
  told : refusal.isMalformed = true
  upward : P.Upward
  fetch : ∀ t s, good s → (∀ k ∈ t, P.accepts k = true) →
    (P.entries s = [] ∧ ∃ e, (P.source (P.place t) s).1.page.outcome = .error e ∧ e.isMalformed = false) ∨
      (P.source (P.place t) s).1 =
        cut P.place P.accepts refusal P.limit t (past t (P.entries s))
  source : ∀ c s, good s → good (P.source c s).2
  calls : ∀ cs s, good s → good (Run.calls ⟨s, []⟩ cs).state

section

variable [LE μ] [Std.IsLinearOrder μ] [Std.LawfulOrderLT μ]

/-- A feed that has given an answer: it is done, or under way past a mark. -/
structure Started (v : Store) (t : Option μ) (p : Feed κ ι) : Prop where
  ready : P.Ready v t p
  mark : p.exhausted = false → t ≠ none

variable {P} in
/-- With its first answer a feed has started. -/
theorem started_next {v s s' : Store} {t : Option μ} {p p' : Feed κ ι} {fuel : Nat}
    {answer : Except Error (Option ι)} (hp : P.Ready v t p)
    (hnext : p.next P.source fuel s = some (answer, p', s')) : ∃ v' t', P.Started v' t' p' := by
  -- Without an item the feed is done.
  have hdone (hnone : ∀ i, answer ≠ .ok (some i)) : ∃ v' t', P.Started v' t' p' := by
    obtain ⟨hb, hx⟩ := Feed.done_of_next hnext hnone
    refine ⟨v, t, ⟨?_, ?_, ?_, ?_⟩, ?_⟩
    · rw [hb]
      exact nofun
    · rw [hb]
      exact .nil
    all_goals
      rw [hx]
      exact nofun
  cases answer with
  | error e => exact hdone nofun
  | ok item =>
    cases item with
    | none => exact hdone nofun
    | some i =>
      obtain ⟨t', hstep⟩ := P.advance hp hnext
      refine ⟨_, t', hstep.ready, fun hx => ?_⟩
      obtain ⟨k, hk, -⟩ := (hstep.passed i rfl).2 hx
      exact Option.ne_none_iff_exists'.mpr ⟨k, hk⟩

end

namespace Cuts

variable {P} {good : Store → Prop} {refusal : Error} {s s' : Store} {t : Option μ} {p p' : Feed κ ι}

/-- A fetch that fails for an answer out of form is the first one, and the listing breaks off. -/
theorem fetch_malformed (h : P.Cuts good refusal) (hs : good s) (ht : ∀ k ∈ t, P.accepts k = true)
    {e : Error} (hpage : (P.source (P.place t) s).1.page.outcome = .error e) (he : e.isMalformed = true) :
    t = none ∧ P.BrokenOff s := by
  rcases h.fetch t s hs ht with ⟨-, e', hpage', he'⟩ | hcut
  · cases hpage.symm.trans hpage'
    rw [he] at he'
    cases he'
  rw [hcut] at hpage
  obtain ⟨-, hmore, k, hk, hrefused⟩ := (cut_eq_error P.limit_pos).mp hpage
  cases t with
  | none =>
    rw [past_none] at hmore hk
    exact ⟨rfl, hmore, k, hk, hrefused⟩
  | some mark =>
    -- All that is left is past an accepted mark, and so accepted.
    obtain ⟨x, hx, rfl⟩ := List.mem_map.mp (List.mem_of_getElem? hk)
    have haccepted := h.upward _ _ ((mem_past.mp hx).2 mark rfl) (ht mark rfl)
    rw [haccepted] at hrefused
    cases hrefused

/-- Where the listing breaks off, the first fetch fails. -/
theorem fetch_brokenOff (h : P.Cuts good refusal) (hs : good s) (hbroken : P.BrokenOff s) :
    (P.source (P.place none) s).1.page.outcome = .error refusal := by
  rcases h.fetch none s hs nofun with ⟨hnil, -⟩ | hcut
  · obtain ⟨hmore, -⟩ := hbroken
    rw [hnil] at hmore
    exact absurd hmore (Nat.not_lt_zero _)
  · rw [hcut, past_none]
    exact (cut_eq_error P.limit_pos).mpr ⟨rfl, hbroken⟩

/-- An empty feed that stands at a mark and is told that an answer is out of form has not started. -/
theorem next_malformed (h : P.Cuts good refusal) (hp : P.At t p) (hs : good s) {fuel : Nat} {e : Error}
    (hnext : p.next P.source fuel s = some (.error e, p', s')) (he : e.isMalformed = true) :
    t = none ∧ P.BrokenOff s := by
  induction fuel generalizing t p s with
  | zero =>
    rw [Feed.next_zero hp.buffer hp.exhausted] at hnext
    cases hnext
  | succ fuel ih =>
    cases hpage : (P.source p.position s).1.page.outcome with
    | error e' =>
      rw [Feed.next_of_load_error hp.buffer hp.exhausted (Feed.load_of_error hpage)] at hnext
      cases hnext
      rw [hp.position] at hpage
      exact h.fetch_malformed hs hp.accepted hpage he
    | ok isLast =>
      rw [Feed.next_of_load hp.buffer hp.exhausted (Feed.load_of_ok hpage)] at hnext
      rw [hp.buffer, List.nil_append] at hnext
      rw [hp.position] at hpage hnext
      have hgood := h.source (P.place t) s hs
      rcases P.page_ok hp.accepted hpage with ⟨hlast, -⟩ | ⟨hgoes, last, -, haccepts, hposition, -⟩
      · -- After the last page there is no further fetch.
        cases hitems : (P.source (P.place t) s).1.page.items with
        | nil =>
          rw [Feed.next_of_exhausted hitems hlast] at hnext
          cases hnext
        | cons i rest =>
          rw [Feed.next_of_cons hitems] at hnext
          cases hnext
      · cases hitems : (P.source (P.place t) s).1.page.items with
        | cons i rest =>
          rw [Feed.next_of_cons hitems] at hnext
          cases hnext
        | nil =>
          have hat : P.At (some last.1)
              ⟨(P.source (P.place t) s).1.position, (P.source (P.place t) s).1.page.items, isLast,
                p.pages + 1⟩ :=
            ⟨hitems, hgoes, hposition, fun k hk => by cases hk; exact haccepts⟩
          cases (ih hat hgood hnext).1

/-- A feed that has started is not told any more that an answer is out of form. -/
theorem next_started (h : P.Cuts good refusal) {v : Store} (hp : P.Started v t p) (hs : good s)
    {fuel : Nat} {e : Error} (hnext : p.next P.source fuel s = some (.error e, p', s')) :
    ¬ e.isMalformed = true := by
  intro he
  cases hb : p.buffer with
  | cons i rest =>
    rw [Feed.next_of_cons hb] at hnext
    cases hnext
  | nil =>
    cases hx : p.exhausted with
    | true =>
      rw [Feed.next_of_exhausted hb hx] at hnext
      cases hnext
    | false =>
      obtain ⟨hposition, haccepted⟩ := hp.ready.position hx
      exact hp.mark hx (h.next_malformed ⟨hb, hx, hposition, haccepted⟩ hs hnext he).1

variable [LE μ] [Std.IsLinearOrder μ] [Std.LawfulOrderLT μ]
  (hsize : ∀ s, (P.entries s).length ≤ s.entryCount) {pages : κ → Call (Fetch κ ι)}
  (hpages : ∀ c s, (pages c).run s = P.source c s) (others : List (List (Mount × Operation)))

include hsize hpages

/-- A client has an answer in each turn, and once its listing has started, none is out of form. -/
theorem turns_started (h : P.Cuts good refusal) {v seen : Store} (hp : P.Started v t p)
    (hs : good s) :
    (Listing.turns ⟨pages, p⟩ seen s others).length = others.length ∧
      ∀ turn ∈ Listing.turns ⟨pages, p⟩ seen s others, ¬ turn.isMalformed := by
  induction others generalizing t p v seen s with
  | nil => exact ⟨rfl, nofun⟩
  | cons calls others ih =>
    obtain ⟨answer, p', s', hnext, hturns⟩ := exists_turn hsize hpages hp.ready seen s calls others
    have hgood := h.calls calls s hs
    obtain ⟨v', t', hp'⟩ := started_next hp.ready hnext
    obtain ⟨hlength, hlater⟩ := ih hp' (Feed.next_induct h.source hnext hgood)
    rw [hturns]
    refine ⟨congrArg Nat.succ hlength, List.forall_mem_cons.mpr ⟨?_, hlater⟩⟩
    rintro ⟨e, rfl, he⟩
    exact h.next_started hp hgood hnext he

/-- **The turns of a listing.** A client has an answer in each turn. Only the first one can be out of
form, and it is where the entries make the listing break off. -/
theorem turns (h : P.Cuts good refusal) {seen : Store} (hs : good s) :
    ((Listing.start pages (P.place none)).turns seen s others).length = others.length ∧
      BreaksOffJust P.BrokenOff ((Listing.start pages (P.place none)).turns seen s others) := by
  have hready : P.Ready seen none { position := P.place none } := ready_start seen
  cases others with
  | nil =>
    refine ⟨rfl, fun earlier t later hts => ?_⟩
    cases List.append_eq_nil_iff.mp hts.symm |>.2
  | cons calls others =>
    obtain ⟨answer, p', s', hnext, hturns⟩ := exists_turn hsize hpages hready seen s calls others
    have hgood := h.calls calls s hs
    obtain ⟨v', t', hp'⟩ := started_next hready hnext
    obtain ⟨hlength, hlater⟩ :=
      h.turns_started hsize hpages others hp' (Feed.next_induct h.source hnext hgood)
    rw [Listing.start, hturns]
    refine ⟨congrArg Nat.succ hlength, fun earlier turn later hts => ?_⟩
    cases earlier with
    | cons first earlier =>
      -- A later turn, once the listing has started.
      rw [List.cons_append, List.cons.injEq] at hts
      have hmem : turn ∈ earlier ++ turn :: later := List.mem_append_right _ List.mem_cons_self
      rw [← hts.2] at hmem
      exact ⟨fun hmalformed => absurd hmalformed (hlater turn hmem),
        fun hfirst => absurd hfirst.1 (List.cons_ne_nil _ _)⟩
    | nil =>
      rw [List.nil_append, List.cons.injEq] at hts
      obtain ⟨rfl, -⟩ := hts
      constructor
      · rintro ⟨e, rfl, he⟩
        have hat : P.At none { position := P.place none } :=
          ⟨rfl, rfl, rfl, fun k hk => by cases hk⟩
        exact ⟨rfl, (h.next_malformed hat hgood hnext he).2⟩
      · rintro ⟨-, hbroken⟩
        have hpage := h.fetch_brokenOff hgood hbroken
        have hload : Feed.load P.source { position := P.place none } _ = _ := Feed.load_of_error hpage
        cases (Feed.next_of_load_error rfl rfl hload).symm.trans hnext
        exact ⟨refusal, rfl, h.told⟩

end Cuts

end Paging

theorem BreaksOffJust.congr {ι : Type} {broken broken' : Store → Prop} {ts : List (Turn ι)}
    (h : BreaksOffJust broken ts) (hiff : ∀ s, broken s ↔ broken' s) : BreaksOffJust broken' ts :=
  fun earlier t later hts => (h earlier t later hts).trans (and_congr_right fun _ => hiff t.seen)

/-! ## The four listings -/

namespace Store

/-- A store that has no fault waiting, and whose uploads have parts with numbers only that parts can
be written under. -/
structure Clean (s : Store) : Prop where
  faults : s.faults = []
  numbered : ∀ bucket name u, s.uploadAt? bucket name = some u → u.Numbered

namespace Clean

variable {s s' : Store}

theorem fresh (hfaults : s.faults = []) (hnone : ∀ bucket name, s.uploadAt? bucket name = none) :
    s.Clean :=
  ⟨hfaults, fun bucket name u hu => by cases (hnone bucket name).symm.trans hu⟩

theorem undisturbed (h : s.Clean) (hs : Undisturbed s s') : s'.Clean := by
  refine ⟨(Keeps.of_undisturbed hs).no_faults h.faults, fun bucket name u hu => ?_⟩
  rw [uploadAt?_congr hs.buckets] at hu
  exact h.numbered bucket name u hu

/-- Calls leave a store clean. -/
theorem calls (h : s.Clean) (cs : List (Mount × Operation)) : (Run.calls ⟨s, []⟩ cs).state.Clean :=
  ⟨(Keeps.calls ⟨s, []⟩ cs).no_faults h.faults, numbered_calls h.numbered cs⟩

/-- The only refusal of a clean store is that the bucket is not there. -/
theorem refusal (h : s.Clean) {kind : Request.Kind} {bucket : String} {f : Fault}
    (hf : s.refusal? kind bucket = some f) :
    f = .bucketNotThere bucket ∧ s.buckets.get? bucket = none := by
  rw [refusal?, h.faults] at hf
  cases hb : s.buckets.get? bucket with
  | none =>
    rw [hb] at hf
    exact ⟨(Option.some.inj hf).symm, rfl⟩
  | some b =>
    rw [hb] at hf
    cases hf

/-- A clean store that does not have an upload says so when asked for its parts. -/
theorem answer_listParts (h : s.Clean) {r : Request.ListParts}
    (hnone : s.uploadAt? r.bucket ⟨r.key, r.uploadId⟩ = none) :
    ∃ f, (s.answer (.listParts r)).1 = .error f ∧ (Error.ofFault f).isMalformed = false := by
  have hnofault : takeFault? .listParts s.faults = none := by rw [h.faults]; rfl
  have hserved : s.answer (.listParts r) = (s.record (.listParts r)).serve (.listParts r) :=
    answer_of_none hnofault
  have hbuckets : (s.record (.listParts r)).buckets = s.buckets := rfl
  rw [hserved]
  simp only [serve, bucket, hbuckets]
  cases hb : s.buckets.get? r.bucket with
  | none => exact ⟨_, rfl, rfl⟩
  | some b =>
    have hget : b.uploads.get? ⟨r.key, r.uploadId⟩ = none := by
      rw [uploadAt?, hb] at hnone
      exact hnone
    simp only [Except.bind, findUpload, hget]
    exact ⟨_, rfl, rfl⟩

end Clean

end Store

theorem StemListing.cuts {m : Mount} (L : StemListing m) :
    L.paging.Cuts Store.Clean .objectTokenMissing where
  told := rfl
  upward := L.upward
  fetch t s hs _ := by
    rcases L.run_place t s with ⟨f, hf, hrun⟩ | ⟨-, hrun⟩
    · obtain ⟨rfl, hb⟩ := hs.refusal hf
      have hnil : L.entries s = [] := by rw [entries, hb]; rfl
      exact .inl ⟨hnil, _, congrArg (fun fetch => fetch.page.outcome) hrun, rfl⟩
    · exact .inr (congrArg Prod.fst hrun)
  source c s hs := hs.undisturbed (m.undisturbed_objectPage c s)
  calls cs s hs := hs.calls cs

theorem Mount.uploadCuts (m : Mount) (stem : String) :
    (m.uploadPaging stem).Cuts Store.Clean .uploadMarkerMissing where
  told := rfl
  upward := m.upward_uploads stem
  fetch t s hs _ := by
    rcases m.run_uploadPlace stem t s with ⟨f, hf, hrun⟩ | ⟨-, hrun⟩
    · obtain ⟨rfl, hb⟩ := hs.refusal hf
      have hnil : m.uploadEntries stem s = [] := by rw [uploadEntries, hb]; rfl
      exact .inl ⟨hnil, _, congrArg (fun fetch => fetch.page.outcome) hrun, rfl⟩
    · exact .inr (congrArg Prod.fst hrun)
  source c s hs := hs.undisturbed (m.undisturbed_objectPage c s)
  calls cs s hs := hs.calls cs

theorem Mount.partCuts (m : Mount) (key id : String) :
    (m.partPaging key id).Cuts Store.Clean .partMarkerMissing where
  told := rfl
  upward := m.upward_parts key id
  fetch t s hs ht := by
    have hnofault : Store.takeFault? .listParts s.faults = none := by rw [hs.faults]; rfl
    cases hu : s.uploadAt? m.bucket ⟨key, id⟩ with
    | none =>
      have hnil : m.partEntries key id s = [] := by rw [partEntries, hu]; rfl
      obtain ⟨f, hf, hmalformed⟩ :=
        hs.answer_listParts (r := ⟨m.bucket, key, id, m.pageSize, t⟩) hu
      refine .inl ⟨hnil, .ofFault f, ?_, hmalformed⟩
      rcases ha : s.answer (.listParts ⟨m.bucket, key, id, m.pageSize, t⟩) with ⟨answer, s'⟩
      rw [ha] at hf
      cases hf
      have hrun : (m.partPage (m.partPlace key id t)).run s =
          (⟨m.partPlace key id t, .failed (.ofFault f)⟩, s') := by
        simp only [partPage, partPlace, Call.run, Backend.exchange, ha]
      exact congrArg (fun r => r.1.page.outcome) hrun
    | some u =>
      right
      have hrun := Store.run_partPage hu hnofault t
      have hentries : m.partEntries key id s = showing partItem (Store.numberedParts u) := by
        rw [partEntries, hu]
        rfl
      have hcut := m.readPartPage_eq_cut key id (hs.numbered _ _ u hu) ht
      show _ = cut _ _ _ _ t (past t (m.partEntries key id s))
      rw [hentries]
      exact (congrArg Prod.fst hrun).trans hcut
  source c s hs := hs.undisturbed (Store.undisturbed_run (m.partPage c) fun request hr => by cases hr; rfl)
  calls cs s hs := hs.calls cs

/-- The keys that a listing of some kind goes through, in order. -/
def Store.listedKeys (s : Store) (bucket stem : String) : ListingKind → List String
  | .flat => s.keysBelow bucket stem
  | .dir => s.childNames bucket stem
  | .part => (s.uploadNames bucket stem).map (·.key)
  | .block => []

/-- The turns of a listing of some kind of what is below a path. -/
theorem Mount.turns_list {m : Mount} {start : Store} (hstart : start.Clean)
    (others : List (List (Mount × Operation))) {path : String} {kind : ListingKind}
    {l : Listing ListingPosition Object} (hl : m.list path kind = .ok l) :
    (l.turns start start others).length = others.length ∧
      BreaksOffJust (fun s => EndsWithEmptyKey m.pageSize.toInt.toNat
        (s.listedKeys m.bucket (m.workDir.keyOf path) kind)) (l.turns start start others) := by
  have hlimit : Store.pageLimit m.pageSize = m.pageSize.toInt.toNat :=
    Store.pageLimit_of_pos m.pageSize_mem.1
  rw [← hlimit]
  cases kind with
  | flat =>
    cases hl
    obtain ⟨hlength, hturns⟩ := (StemListing.flat m (m.workDir.keyOf path)).cuts.turns
      (StemListing.length_entries_le _) (fun _ _ => rfl) others hstart
    exact ⟨hlength, hturns.congr fun s => StemListing.brokenOff_iff _ (marks_flat m _ s)⟩
  | dir =>
    cases hl
    obtain ⟨hlength, hturns⟩ := (StemListing.dir m (m.workDir.keyOf path)).cuts.turns
      (StemListing.length_entries_le _) (fun _ _ => rfl) others hstart
    exact ⟨hlength, hturns.congr fun s => StemListing.brokenOff_iff _ (marks_dir m _ s)⟩
  | part =>
    cases hl
    obtain ⟨hlength, hturns⟩ := (m.uploadCuts (m.workDir.keyOf path)).turns
      (m.length_uploadEntries_le _) (fun _ _ => rfl) others hstart
    exact ⟨hlength, hturns.congr fun s => m.brokenOff_uploads_iff _ s⟩
  | block => cases hl

/-- The turns of a listing of the parts of an upload. -/
theorem Mount.turns_listParts {m : Mount} {start : Store} (hstart : start.Clean)
    (others : List (List (Mount × Operation))) {object : Object} {l : Listing PartPosition Part}
    (hl : m.listParts object = .ok l) :
    (l.turns start start others).length = others.length ∧
      ∀ turn ∈ l.turns start start others, ¬ turn.isMalformed := by
  cases hopen : object.openUpload with
  | error e =>
    rw [listParts, hopen] at hl
    cases hl
  | ok id =>
    rw [listParts, hopen] at hl
    cases hl
    have hpages (c : PartPosition) (s : Store) :
        (m.partPage c).run s = (m.partPaging object.id id).source c s := rfl
    obtain ⟨hlength, hturns⟩ := (m.partCuts object.id id).turns
      (m.length_partEntries_le object.id id) hpages others hstart
    refine ⟨hlength, fun turn hturn hmalformed => ?_⟩
    obtain ⟨earlier, later, hts⟩ := List.mem_iff_append.mp hturn
    exact m.not_brokenOff_parts _ _ _ ((hturns earlier turn later hts).mp hmalformed).2

/-- **Where a listing goes on.** A client goes through a listing of a path or of parts, and before each
of its turns others make any calls. It has an answer in each turn. It is told that an answer is out of
form in its first turn only, and there just where the first page ends with the empty key and has more
behind it; a listing of parts is never told so. Each page that leaves something out names the last
entry that it shows, and the page after that mark shows only what comes after it. -/
theorem listings_resume (m : Mount) (start : Store) (hstart : start.Clean)
    (others : List (List (Mount × Operation))) :
    (∀ path kind l, m.list path kind = .ok l →
      (l.turns start start others).length = others.length ∧
        BreaksOffJust (fun s => EndsWithEmptyKey m.pageSize.toInt.toNat
          (s.listedKeys m.bucket (m.workDir.keyOf path) kind)) (l.turns start start others)) ∧
    (∀ object l, m.listParts object = .ok l →
      (l.turns start start others).length = others.length ∧
        ∀ turn ∈ l.turns start start others, ¬ turn.isMalformed) ∧
    (∀ (b : Bucket) (r : Request.ListObjects), (Store.listObjects b r).truncated = true →
      ∃ token, (Store.listObjects b r).nextToken = some token ∧
        Store.EndsAt (Store.shownNames (Store.listObjects b r)) token ∧
        ∀ (b' : Bucket), ∀ name ∈ Store.shownNames
            (Store.listObjects b' { r with token := some token }),
          token < name) ∧
    (∀ (b : Bucket) (r : Request.ListUploads), (Store.listUploads b r).truncated = true →
      ∃ name, (Store.listUploads b r).nextKey = some name.key ∧
        (Store.listUploads b r).nextId = some name.id ∧
        Store.EndsAt (Store.shownUploads (Store.listUploads b r)) name ∧
        ∀ (b' : Bucket), ∀ next ∈ Store.shownUploads
            (Store.listUploads b' { r with keyMarker := some name.key, idMarker := some name.id }),
          name < next) ∧
    ∀ (u : Upload) (r : Request.ListParts), (Store.listParts u r).truncated = true →
      ∃ number, (Store.listParts u r).nextMarker = some number ∧ r.marker.getD 0 < number ∧
        Store.EndsAt (Store.shownNumbers (Store.listParts u r)) number ∧
        ∀ (u' : Upload), ∀ next ∈ Store.shownNumbers
            (Store.listParts u' { r with marker := some number }),
          number < next :=
  ⟨fun _ _ _ hl => Mount.turns_list hstart others hl,
    fun _ _ hl => Mount.turns_listParts hstart others hl,
    Store.listObjects_resumes, Store.listUploads_resumes, Store.listParts_resumes⟩

/-- With pages of two, a listing goes past the empty key, while others write. -/
theorem listings_resume_past_empty_key :
    let m : Mount := ⟨"b", .root, 2, none, none, by decide⟩
    let start := Store.withBuckets ["b"] (fun n => toString n) 0 false
    let others : List (List (Mount × Operation)) :=
      [[(m, .write "" [] 0 {}), (m, .write "a" [] 0 {}), (m, .write "c" [] 0 {})],
        [(m, .delete "a" .object)], [(m, .write "b" [] 0 {})], [], []]
    let turns := (Listing.start m.objectPage (.flat ⟨"", 2, none⟩)).turns start start others
    start.Clean ∧ (Turn.delivered turns).map Object.id = ["", "a", "b", "c"] ∧
      turns.length = 5 ∧ ∀ turn ∈ turns, ¬ turn.isMalformed := by
  intro m start others turns
  have hstart : start.Clean :=
    .fresh rfl fun bucket name => Store.uploadAt?_withBuckets ..
  obtain ⟨hlength, hturns⟩ := (listings_resume m start hstart others).1 "" .flat _ rfl
  refine ⟨hstart, by decide +kernel, hlength, fun turn hturn hmalformed => ?_⟩
  obtain ⟨earlier, later, hts⟩ := List.mem_iff_append.mp hturn
  have hnot : ∀ turn ∈ turns, ¬ EndsWithEmptyKey 2 (turn.seen.keysBelow "b" "") := by decide +kernel
  exact hnot turn hturn ((hturns earlier turn later hts).mp hmalformed).2

/-- With pages of one, a listing of the empty key and another one breaks off at once, though the page
names the key at which it ends. -/
theorem listing_breaks_off_at_empty_key :
    let m : Mount := ⟨"b", .root, 1, none, none, by decide⟩
    let start := Store.withBuckets ["b"] (fun n => toString n) 0 false
    let s := (Run.calls ⟨start, []⟩ [(m, .write "" [] 0 {}), (m, .write "a" [] 0 {})]).state
    start.Clean ∧ Error.objectTokenMissing.isMalformed = true ∧
      (∃ b, s.buckets.get? "b" = some b ∧
        (Store.listObjects b ⟨"b", "", none, 1, none⟩).truncated = true ∧
        (Store.listObjects b ⟨"b", "", none, 1, none⟩).nextToken = some "") ∧
      ∃ l l' s', m.list "" .flat = .ok l ∧ l.next s = some (.error .objectTokenMissing, l', s') := by
  intro m start s
  refine ⟨.fresh rfl fun bucket name => Store.uploadAt?_withBuckets .., rfl, ?_, ?_⟩
  · obtain ⟨b, hb⟩ : ∃ b, s.buckets.get? "b" = some b :=
      Option.isSome_iff_exists.mp (by decide +kernel)
    have hpage : (s.buckets.get? "b").all (fun b =>
        (Store.listObjects b ⟨"b", "", none, 1, none⟩).truncated &&
          (Store.listObjects b ⟨"b", "", none, 1, none⟩).nextToken == some "") = true := by
      decide +kernel
    rw [hb, Option.all_some, Bool.and_eq_true, beq_iff_eq] at hpage
    exact ⟨b, hb, hpage⟩
  · have hkeys : EndsWithEmptyKey 1 (s.keysBelow "b" "") := by decide +kernel
    have hbroken : (StemListing.flat m "").paging.BrokenOff s :=
      (StemListing.brokenOff_iff _ (marks_flat m "" s)).mpr hkeys
    have hclean : s.Clean := .calls (.fresh rfl fun bucket name => Store.uploadAt?_withBuckets ..) _
    obtain ⟨l, s', hnext, -⟩ :=
      Listing.next_start_error ((StemListing.flat m "").cuts.fetch_brokenOff hclean hbroken)
    exact ⟨_, l, s', rfl, hnext⟩

end ObjectStore
