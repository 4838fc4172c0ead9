import ObjectStore.Script
import ObjectStore.Proofs.Listing.Uploads
import ObjectStore.Proofs.Sequence

/-!
# Listings and what a backend responds

A listing knows of its backend only what the responses say, and they may say anything. The rules that
it goes by are a `Dialogue`: the request past a mark, and what is read from a response, which is the
mark for the next request and the items of its page. An error may stop the reading, and what was read
until then is on the page as well.

Against a script of responses a listing *keeps to* its dialogue (`Dialogue.Governs`): the requests it
sends are told by the marks of the responses, and its answers are the items of the responses one after
the other. `Mount.listings_follow_responses` says so of every listing of a mount.
-/

namespace ObjectStore

/-! ## Rules -/

/-- What a listing asks, and how it reads a response. Marks say where a page starts. -/
structure Dialogue (μ ρ ι : Type) where
  /-- The request for the page past a mark, or for the first page. -/
  request : Option μ → Request
  /-- Whether a response promises another page. -/
  truncated : ρ → Bool
  /-- The mark of the next page, if the response names one that is accepted. -/
  mark? : ρ → Option μ
  /-- How the items of a response are read: to the end, or up to an error; and those that were read. -/
  shown : ρ → Except Error Unit × List ι
  /-- The error for a response that promises another page and names no mark for it. -/
  refusal : Error

namespace Dialogue

variable {μ ρ ι : Type} (d : Dialogue μ ρ ι)

/-- Whether the listing ends with a response, or the error it ends with. -/
def outcome : Except Fault ρ → Except Error Bool
  | .error fault => .error (.ofFault fault)
  | .ok r =>
    if d.truncated r && (d.mark? r).isNone then .error d.refusal
    else (d.shown r).1.map fun _ => !d.truncated r

/-- The items that are put on the page of a response. They are there even if their reading stops. -/
def items : Except Fault ρ → List ι
  | .error _ => []
  | .ok r => if d.truncated r && (d.mark? r).isNone then [] else (d.shown r).2

/-- The page that is fetched with a response. -/
def page (response : Except Fault ρ) : Page ι := ⟨d.items response, d.outcome response⟩

/-- Whether another page is asked for after a response: it is truncated, with a mark that is accepted,
and its items can be read. -/
def continues : Except Fault ρ → Bool
  | .error _ => false
  | .ok r => d.truncated r && (d.mark? r).isSome && (d.shown r).1.isOk

/-- The mark that a response gives. -/
def markOf (response : Except Fault ρ) : Option μ := response.toOption.bind d.mark?

/-- The requests from a mark on: one, and another after each response that continues, with the mark of
that response. -/
def askedFrom (mark : Option μ) (responses : List (Except Fault ρ)) : List Request :=
  (mark :: (responses.takeWhile d.continues).map d.markOf).map d.request

/-- All requests. The first has no mark. -/
def asked (responses : List (Except Fault ρ)) : List Request := d.askedFrom none responses

/-- The error of a request that there is no response to. -/
def overrun : Error := .ofFault (.scriptExhausted "no response left")

end Dialogue

/-! ## Items in a row -/

namespace Listing

variable {κ ι σ : Type} [Backend σ]

/-- The answers to `n` requests for the next item in a row, each with the state that it leaves, and
the listing and the state after all of them. -/
def nexts : (n : Nat) → Listing κ ι → σ →
    Option (List (Except Error (Option ι) × σ) × Listing κ ι × σ)
  | 0, l, s => some ([], l, s)
  | n + 1, l, s =>
    (l.next s).bind fun r =>
      (nexts n r.2.1 r.2.2).map fun rest => ((r.1, r.2.2) :: rest.1, rest.2)

/-- They are those of the feed, as long as the backend has patience. -/
theorem nexts_eq (n : Nat) (l : Listing κ ι) (s : σ) :
    l.nexts n s = (l.feed.nexts l.source Backend.patience n s).map
      fun r => (r.1, { l with feed := r.2.1 }, r.2.2) := by
  induction n generalizing l s with
  | zero => rfl
  | succ n ih =>
    rw [nexts, Feed.nexts, next]
    cases hnext : l.feed.next l.source (Backend.patience s) s with
    | none => rfl
    | some r =>
      simp only [Option.map_some, Option.bind_some, ih, Option.map_map]
      rfl

end Listing

namespace Dialogue

variable {μ ρ κ ι : Type} {d : Dialogue μ ρ ι}

/-- A script of these responses. -/
def script (reply : ρ → (request : Request) → request.Reply) (responses : List (Except Fault ρ)) :
    Script :=
  ⟨responses.map (·.map reply)⟩

variable (d) in
/-- That a listing keeps to a dialogue, whatever the responses: after each of `n` requests for the next
item, the answer is that of the sequence of the responses, and the requests sent by then are as many
of those of the dialogue as it takes to come to that answer. -/
def Governs (reply : ρ → (request : Request) → request.Reply) (l : Listing κ ι) : Prop :=
  ∀ (responses : List (Except Fault ρ)) (n : Nat), ∃ given l' t,
    l.nexts n (⟨script reply responses, []⟩ : Recorded Script) = some (given, l', t) ∧
      given.map (fun a => (a.1, a.2.requests)) =
        ((Page.sequence overrun 0 (responses.map d.page)).takeD n
          (.ok none, (d.asked responses).length)).map
            fun a => (a.1, (d.asked responses).take a.2)

variable (d) in
/-- The fetch of a reply at a mark. -/
def fetch (place : Option μ → κ) (mark : Option μ) (r : ρ) : Fetch κ ι :=
  if d.truncated r then
    match d.mark? r with
    | none => ⟨place mark, .failed d.refusal⟩
    | some next => ⟨place (some next), ⟨(d.shown r).2, (d.shown r).1.map fun _ => false⟩⟩
  else ⟨place mark, ⟨(d.shown r).2, (d.shown r).1.map fun _ => true⟩⟩

variable (d) in
/-- That the pages of a listing are fetched as a dialogue says. -/
structure Fetches (reply : ρ → (request : Request) → request.Reply) (pages : κ → Call (Fetch κ ι))
    (place : Option μ → κ) : Prop where
  asks : ∀ c, (pages c).request?.isSome = true
  request : ∀ mark, (pages (place mark)).request? = some (d.request mark)
  replied : ∀ mark r rest,
    ((pages (place mark)).run (⟨.ok (reply r) :: rest⟩ : Script)).1 = d.fetch place mark r
  faulted : ∀ mark fault rest, ((pages (place mark)).run (⟨.error fault :: rest⟩ : Script)).1 =
    ⟨place mark, .failed (.ofFault fault)⟩
  exhausted : ∀ mark, ((pages (place mark)).run (⟨[]⟩ : Script)).1 = ⟨place mark, .failed overrun⟩

/-! ## One response -/

section Response

variable {response : Except Fault ρ} {responses : List (Except Fault ρ)} {mark : Option μ}

theorem continues_iff : d.continues response = true ↔ d.outcome response = .ok false := by
  cases response with
  | error fault => exact ⟨nofun, nofun⟩
  | ok r =>
    rw [continues, outcome]
    cases d.truncated r <;> cases d.mark? r <;> cases (d.shown r).1 <;>
      simp [Except.isOk, Except.toBool, Except.map]

theorem askedFrom_cons_of_continues (h : d.outcome response = .ok false) :
    d.askedFrom mark (response :: responses) =
      d.request mark :: d.askedFrom (d.markOf response) responses := by
  rw [askedFrom, List.takeWhile_cons, continues_iff.mpr h]
  rfl

theorem askedFrom_cons_of_ends (h : d.outcome response ≠ .ok false) :
    d.askedFrom mark (response :: responses) = [d.request mark] := by
  have hends : d.continues response = false :=
    Bool.eq_false_iff.mpr fun hc => h (continues_iff.mp hc)
  rw [askedFrom, List.takeWhile_cons, hends]
  rfl

/-- There are as many requests as fetches. -/
theorem length_askedFrom (mark : Option μ) (responses : List (Except Fault ρ)) :
    (d.askedFrom mark responses).length = Page.fetches overrun (responses.map d.page) := by
  induction responses generalizing mark with
  | nil => rfl
  | cons response rest ih =>
    have hpage : (d.page response).outcome = d.outcome response := rfl
    rw [List.map_cons]
    cases ho : d.outcome response with
    | error e =>
      rw [askedFrom_cons_of_ends (by rw [ho]; exact nofun), Page.fetches_of_error (hpage.trans ho)]
      rfl
    | ok isLast =>
      cases isLast with
      | true =>
        rw [askedFrom_cons_of_ends (by rw [ho]; exact nofun), Page.fetches_of_last (hpage.trans ho)]
        rfl
      | false =>
        rw [askedFrom_cons_of_continues ho, Page.fetches_of_more (hpage.trans ho), List.length_cons,
          ih]

/-- A fetch is of the page of its response. -/
theorem fetch_page (d : Dialogue μ ρ ι) (place : Option μ → κ) (mark : Option μ) (r : ρ) :
    (d.fetch place mark r).page = d.page (.ok r) := by
  rw [fetch, page, items, outcome]
  cases d.truncated r with
  | false => rfl
  | true => cases d.mark? r <;> rfl

/-- A response that continues is truncated, and the next fetch is at its mark. -/
theorem fetch_position (d : Dialogue μ ρ ι) (place : Option μ → κ) (mark : Option μ) {r : ρ}
    (h : d.outcome (.ok r) = .ok false) :
    (d.fetch place mark r).position = place (d.markOf (.ok r)) := by
  have hmark : d.markOf (.ok r) = d.mark? r := rfl
  rw [fetch, hmark]
  rw [outcome] at h
  cases ht : d.truncated r with
  | false => cases hs : (d.shown r).1 <;> simp [ht, hs, Except.map] at h
  | true =>
    cases hm : d.mark? r with
    | none => simp [ht, hm] at h
    | some next => rfl

end Response

/-! ## Pages that follow the rules -/

/-- A script gives one answer to a call that asks. -/
theorem answers_run {α : Type} {c : Call α} (h : c.request?.isSome = true) (s : Script) :
    (c.run s).2.answers = s.answers.tail := by
  cases c with
  | done a => cases h
  | ask request read =>
    obtain ⟨answers⟩ := s
    rcases answers with _ | ⟨_ | reply, rest⟩ <;> rfl

namespace Fetches

variable {reply : ρ → (request : Request) → request.Reply} {l : Listing κ ι} {place : Option μ → κ}
  {mark : Option μ} {s : Recorded Script}

theorem fetch_eq (l : Listing κ ι) (c : κ) (s : Recorded Script) :
    (l.source c s).1 = ((l.pages c).run s.state).1 :=
  congrArg Prod.fst (Recorded.run_state (l.pages c) s)

/-- Each fetch takes an answer from the script. -/
theorem answers_source (h : d.Fetches reply l.pages place) (c : κ) (s : Recorded Script) :
    (l.source c s).2.state.answers = s.state.answers.tail := by
  rw [← answers_run (h.asks c)]
  exact congrArg (fun r => r.2.answers) (Recorded.run_state (l.pages c) s)

/-- Each fetch at a mark sends the request for that mark. -/
theorem requests_source (h : d.Fetches reply l.pages place) (mark : Option μ)
    (s : Recorded Script) :
    (l.source (place mark) s).2.requests = s.requests ++ [d.request mark] := by
  rw [Listing.source, Recorded.requests_run, h.request]
  rfl

/-- After a response that continues, the next fetch is at its mark. -/
theorem position_source (h : d.Fetches reply l.pages place) {response : Except Fault ρ}
    {rest : List ScriptedAnswer} (hs : s.state.answers = response.map reply :: rest)
    (ho : d.outcome response = .ok false) :
    (l.source (place mark) s).1.position = place (d.markOf response) := by
  rw [fetch_eq, show s.state = ⟨response.map reply :: rest⟩ from congrArg Script.mk hs]
  cases response with
  | error fault => cases ho
  | ok r =>
    rw [← fetch_position d place mark ho]
    exact congrArg Fetch.position (h.replied mark r rest)

/-- The responses of a script are what is fetched. -/
theorem plays (h : d.Fetches reply l.pages place) {responses : List (Except Fault ρ)}
    (hs : s.state.answers = responses.map (·.map reply)) :
    Feed.Plays l.source overrun (place mark) s (responses.map d.page) := by
  induction responses generalizing mark s with
  | nil =>
    rw [List.map_nil, Feed.Plays, fetch_eq, show s.state = ⟨[]⟩ from congrArg Script.mk hs,
      h.exhausted]
    rfl
  | cons response rest ih =>
    refine ⟨?_, fun ho => ?_⟩
    · rw [fetch_eq, show s.state = ⟨response.map reply :: _⟩ from congrArg Script.mk hs]
      cases response with
      | error fault => exact congrArg Fetch.page (h.faulted mark fault _)
      | ok r => exact (congrArg Fetch.page (h.replied mark r _)).trans (fetch_page d place mark r)
    · rw [h.position_source hs ho]
      exact ih (by rw [h.answers_source, hs]; rfl)

/-- After `k` fetches `k` answers are gone. -/
theorem answers_course (h : d.Fetches reply l.pages place) (c : κ) (s : Recorded Script) (k : Nat) :
    (Feed.course l.source c s k).2.state.answers = s.state.answers.drop k := by
  induction k with
  | zero => rfl
  | succ k ih =>
    rw [Feed.course, h.answers_source, ih, List.tail_drop]

/-- As long as there is anything to fetch, the requests are those of the dialogue. -/
theorem requests_course (h : d.Fetches reply l.pages place) {responses : List (Except Fault ρ)}
    (hs : s.state.answers = responses.map (·.map reply)) {k : Nat}
    (hk : k ≤ (d.askedFrom mark responses).length) :
    (Feed.course l.source (place mark) s k).2.requests =
      s.requests ++ (d.askedFrom mark responses).take k := by
  induction k generalizing mark s responses with
  | zero => exact (List.append_nil _).symm
  | succ k ih =>
    rw [Feed.course_step]
    cases responses with
    | nil =>
      obtain rfl : k = 0 := Nat.le_zero.mp (Nat.le_of_succ_le_succ hk)
      exact h.requests_source mark s
    | cons response rest =>
      by_cases ho : d.outcome response = .ok false
      · rw [askedFrom_cons_of_continues ho] at hk ⊢
        rw [h.position_source hs ho, ih (by rw [h.answers_source, hs]; rfl)
          (Nat.le_of_succ_le_succ hk), h.requests_source, List.append_assoc]
        rfl
      · rw [askedFrom_cons_of_ends ho] at hk ⊢
        obtain rfl : k = 0 := Nat.le_zero.mp (Nat.le_of_succ_le_succ hk)
        exact h.requests_source mark s

/-- **A listing whose pages are fetched as a dialogue says keeps to it.** -/
theorem governs {pages : κ → Call (Fetch κ ι)} (h : d.Fetches reply pages place) :
    d.Governs reply (.start pages (place none)) := by
  intro responses n
  let l : Listing κ ι := .start pages (place none)
  let s : Recorded Script := ⟨script reply responses, []⟩
  have hs : s.state.answers = responses.map (·.map reply) := rfl
  have hl : d.Fetches reply l.pages place := h
  -- While there are answers left, the script has patience for all of them.
  have hpatience (k : Nat) : (responses.map d.page).length <
      k + Backend.patience (Feed.course l.source (place none) s k).2 := by
    have hlength := congrArg List.length (hl.answers_course (place none) s k)
    rw [hs, List.length_drop, List.length_map] at hlength
    have hone : Backend.patience (Feed.course l.source (place none) s k).2 =
        (Feed.course l.source (place none) s k).2.state.answers.length + 1 := rfl
    rw [List.length_map]
    omega
  obtain ⟨p, t, hnexts⟩ := Feed.nexts_of_plays (hl.plays hs) hpatience n
  have hlisting := Listing.nexts_eq n l s
  rw [show l.feed = { position := place none } from rfl, hnexts, Option.map_some] at hlisting
  refine ⟨_, _, t, hlisting, ?_⟩
  rw [asked, length_askedFrom, List.map_map]
  refine List.map_congr_left fun a ha => ?_
  have hk : a.2 ≤ (d.askedFrom none responses).length := by
    rw [length_askedFrom]
    exact Page.le_fetches ha
  exact congrArg (Prod.mk a.1) (hl.requests_course hs hk)

end Fetches

end Dialogue

/-! ## Responses in a script -/

/-- A reply to any request that says nothing. -/
def Request.blank : (request : Request) → request.Reply
  | .listBuckets => ({} : Reply.Buckets)
  | .listObjects _ => ({} : Reply.Objects)
  | .listUploads _ => ({} : Reply.Uploads)
  | .listParts _ => ({} : Reply.Parts)
  | .headObject _ => ({} : Reply.Head)
  | .getObject _ => ({} : Reply.Body)
  | .putObject _ => ({} : Reply.Stored)
  | .deleteObject _ => ()
  | .createUpload _ => ({} : Reply.Opened)
  | .uploadPart _ => ({} : Reply.Stored)
  | .completeUpload _ => ({} : Reply.Stored)
  | .abortUpload _ => ()

/-- The reply to a request for objects. -/
def Reply.Objects.reply (r : Reply.Objects) : (request : Request) → request.Reply
  | .listObjects _ => r
  | request => request.blank

/-- The reply to a request for uploads. -/
def Reply.Uploads.reply (r : Reply.Uploads) : (request : Request) → request.Reply
  | .listUploads _ => r
  | request => request.blank

/-- The reply to a request for parts. -/
def Reply.Parts.reply (r : Reply.Parts) : (request : Request) → request.Reply
  | .listParts _ => r
  | request => request.blank

/-! ## The listings of a mount -/

namespace Mount

variable (m : Mount) (stem : String)

/-- What a listing of objects asks for and reads; `delimiter` and `items` are what tells the listing of
all objects from that of a directory. -/
def objectDialogue (delimiter : Option String) (items : Reply.Objects → List Object) :
    Dialogue String Reply.Objects Object where
  request mark := .listObjects ⟨m.bucket, stem, delimiter, m.pageSize, mark⟩
  truncated r := r.truncated
  mark? r := r.nextToken.filter (· ≠ "")
  shown r := (.ok (), items r)
  refusal := .objectTokenMissing

/-- What a listing of all objects below a stem goes by. -/
def flatDialogue : Dialogue String Reply.Objects Object := m.objectDialogue stem none m.flatItems

/-- What a listing of a directory goes by. -/
def dirDialogue : Dialogue String Reply.Objects Object :=
  m.objectDialogue stem (some delimiter) (m.groupedItems stem)

/-- What a listing of open uploads goes by. The second half of a mark may be missing. -/
def uploadDialogue : Dialogue (String × Option String) Reply.Uploads Object where
  request mark := .listUploads ⟨m.bucket, stem, m.pageSize, mark.map (·.1), mark.bind (·.2)⟩
  truncated r := r.truncated
  mark? r := (r.nextKey.filter (· ≠ "")).map fun key => (key, r.nextId)
  shown r := (.ok (), r.uploads.map m.ofUpload)
  refusal := .uploadMarkerMissing

/-- What a listing of the parts of an upload goes by. -/
def partDialogue (key uploadId : String) : Dialogue Int32 Reply.Parts Part where
  request mark := .listParts ⟨m.bucket, key, uploadId, m.pageSize, mark⟩
  truncated r := r.truncated
  mark? r := r.nextMarker.filter fun marker => 0 < marker
  shown r := (Page.put partOf r.parts).on []
  refusal := .partMarkerMissing

variable {m stem}

/-- A page of objects is read as its dialogue says. -/
theorem fetched_objects {delimiter : Option String} {items : Reply.Objects → List Object}
    (wrap : StemPosition → ListingPosition) (mark : Option String) (r : Reply.Objects) :
    fetched ⟨stem, m.pageSize, mark⟩ wrap (nextStem ⟨stem, m.pageSize, mark⟩ r) (items r) =
      (m.objectDialogue stem delimiter items).fetch (fun mark => wrap ⟨stem, m.pageSize, mark⟩) mark
        r := by
  cases ht : r.truncated with
  | false =>
    simp only [nextStem, Dialogue.fetch, objectDialogue, ht]
    rfl
  | true =>
    cases hm : r.nextToken.filter (· ≠ "") <;>
      simp only [nextStem, Dialogue.fetch, objectDialogue, ht, hm] <;> rfl

/-- Pages of objects are fetched as their dialogue says. -/
theorem fetches_objects {delimiter : Option String} {items : Reply.Objects → List Object}
    (wrap : StemPosition → ListingPosition)
    (hpage : ∀ mark, m.objectPage (wrap ⟨stem, m.pageSize, mark⟩) =
      askPage (wrap ⟨stem, m.pageSize, mark⟩)
        (.listObjects ⟨m.bucket, stem, delimiter, m.pageSize, mark⟩) fun reply =>
          fetched ⟨stem, m.pageSize, mark⟩ wrap (nextStem ⟨stem, m.pageSize, mark⟩ reply)
            (items reply)) :
    (m.objectDialogue stem delimiter items).Fetches Reply.Objects.reply m.objectPage
      (fun mark => wrap ⟨stem, m.pageSize, mark⟩) where
  asks c := by cases c <;> rfl
  request mark := by
    rw [hpage]
    rfl
  replied mark r rest := by
    rw [hpage]
    exact fetched_objects wrap mark r
  faulted mark fault rest := by
    rw [hpage]
    rfl
  exhausted mark := by
    rw [hpage]
    rfl

theorem fetches_flat : (m.flatDialogue stem).Fetches Reply.Objects.reply m.objectPage
    (fun mark => .flat ⟨stem, m.pageSize, mark⟩) :=
  fetches_objects .flat fun _ => rfl

theorem fetches_dir : (m.dirDialogue stem).Fetches Reply.Objects.reply m.objectPage
    (fun mark => .grouped ⟨stem, m.pageSize, mark⟩ delimiter) :=
  fetches_objects (.grouped · delimiter) fun _ => rfl

theorem fetches_uploads : (m.uploadDialogue stem).Fetches Reply.Uploads.reply m.objectPage
    (fun mark => .uploads ⟨stem, m.pageSize, mark.map (·.1), mark.bind (·.2)⟩) where
  asks c := by cases c <;> rfl
  request mark := rfl
  replied mark r rest := by
    refine (?_ : fetched _ .uploads (nextUpload _ r) (r.uploads.map m.ofUpload) = _)
    cases ht : r.truncated with
    | false =>
      simp only [nextUpload, Dialogue.fetch, uploadDialogue, ht]
      rfl
    | true =>
      cases hm : r.nextKey.filter (· ≠ "") <;>
        simp only [nextUpload, Dialogue.fetch, uploadDialogue, ht, hm] <;> rfl
  faulted mark fault rest := rfl
  exhausted mark := rfl

theorem fetches_parts (key uploadId : String) :
    (m.partDialogue key uploadId).Fetches Reply.Parts.reply m.partPage
      (fun mark => ⟨key, uploadId, m.pageSize, mark⟩) where
  asks c := rfl
  request mark := rfl
  replied mark r rest := by
    refine (?_ : readPartPage _ r = _)
    cases ht : r.truncated with
    | false =>
      simp only [readPartPage, Dialogue.fetch, partDialogue, ht]
      rfl
    | true =>
      cases hm : r.nextMarker.filter (0 < ·) <;>
        simp only [readPartPage, Dialogue.fetch, partDialogue, ht, hm] <;> rfl
  faulted mark fault rest := rfl
  exhausted mark := rfl

/-! ## Items of a response -/

/-- A page of a directory has the groups and the objects of its response, but for the object of the
directory itself. -/
theorem perm_groupedItems (m : Mount) (stem : String) (r : Reply.Objects) :
    (m.groupedItems stem r).Perm
      (r.groups.map m.ofGroup ++ (r.entries.filter fun e => e.key ≠ stem).map m.ofEntry) :=
  List.mergeSort_perm _ _

/-- A page of a directory is in order of the ids. -/
theorem pairwise_groupedItems (m : Mount) (stem : String) (r : Reply.Objects) :
    (m.groupedItems stem r).Pairwise fun a b => a.id ≤ b.id :=
  Text.pairwise_mergeSort Object.id _

/-- Whether a part of a response has a number that a part may have. -/
def inRange (e : Reply.ListedPart) : Bool :=
  decide (1 ≤ e.number.toInt) && decide (e.number.toInt ≤ partBound)

/-- A part of a response as an item; its index is one less than its number. -/
def shownPart (e : Reply.ListedPart) : Part :=
  ⟨UInt32.ofNat (e.number.toInt.toNat - 1), e.size, e.etag⟩

theorem inRange_iff (e : Reply.ListedPart) :
    inRange e = true ↔ 1 ≤ e.number.toInt ∧ e.number.toInt ≤ 10000 := by
  rw [inRange, Bool.and_eq_true, decide_eq_true_eq, decide_eq_true_eq]
  rfl

theorem index_shownPart {e : Reply.ListedPart} (h : inRange e = true) :
    ((shownPart e).index.toNat : Int) = e.number.toInt - 1 := by
  obtain ⟨hone, hbound⟩ := (inRange_iff e).mp h
  have hlt : e.number.toInt.toNat - 1 < 2 ^ 32 := by omega
  have hindex : (shownPart e).index.toNat = e.number.toInt.toNat - 1 :=
    UInt32.toNat_ofNat_of_lt' hlt
  omega

/-- A part is read if it has a number that a part may have. -/
theorem partOf_eq (e : Reply.ListedPart) :
    partOf e = if inRange e then .ok (shownPart e) else .error (.partNumberRange e.number) := by
  have hrange : (1 ≤ e.number.toInt.toNat ∧ e.number.toInt.toNat ≤ partBound) ↔
      inRange e = true := by
    rw [inRange_iff, partBound]
    omega
  simp only [partOf, indexOfNumber, hrange]
  split <;> rfl

/-- The parts of a response are put on the page in their order, unless one of them has a number that no
part may have; then the first such number is the error, and the parts before it are on the page. -/
theorem on_put_partOf (entries : List Reply.ListedPart) (page : List Part) :
    (Page.put partOf entries).on page =
      match entries.find? (fun e => !inRange e) with
      | some e => (.error (.partNumberRange e.number),
          page ++ (entries.takeWhile inRange).map shownPart)
      | none => (.ok (), page ++ entries.map shownPart) := by
  induction entries generalizing page with
  | nil => rw [List.map_nil, List.append_nil]; rfl
  | cons e rest ih =>
    rw [Page.put, partOf_eq, List.find?_cons, List.takeWhile_cons]
    cases inRange e with
    | false => exact congrArg (Prod.mk _) (List.append_nil page).symm
    | true =>
      rw [if_pos rfl, Work.on_bind_of_ok (Work.on_check _ _), Work.on_bind_of_ok (Work.on_modify _ _),
        ih]
      simp only [Bool.not_true, if_true, List.map_cons, List.append_assoc, List.singleton_append]

/-! ## All listings -/

/-- That the listings of a mount follow the responses of any backend. -/
structure FollowsResponses (m : Mount) : Prop where
  flat : ∀ path, ∃ l, m.list path .flat = .ok l ∧
    (m.flatDialogue (m.workDir.keyOf path)).Governs Reply.Objects.reply l
  dir : ∀ path, ∃ l, m.list path .dir = .ok l ∧
    (m.dirDialogue (m.workDir.keyOf path)).Governs Reply.Objects.reply l
  uploads : ∀ path, ∃ l, m.list path .part = .ok l ∧
    (m.uploadDialogue (m.workDir.keyOf path)).Governs Reply.Uploads.reply l
  parts : ∀ object id, object.openUpload = .ok id → ∃ l, m.listParts object = .ok l ∧
    (m.partDialogue object.id id).Governs Reply.Parts.reply l
  /-- Every request of a listing has this limit. -/
  limit : 1 ≤ m.pageSize ∧ m.pageSize ≤ 1000
  dir_items : ∀ stem r, (m.groupedItems stem r).Perm
      (r.groups.map m.ofGroup ++ (r.entries.filter fun e => e.key ≠ stem).map m.ofEntry) ∧
    (m.groupedItems stem r).Pairwise fun a b => a.id ≤ b.id
  part_items : ∀ entries, (Page.put partOf entries).on [] =
    match entries.find? (fun e => !inRange e) with
    | some e => (.error (.partNumberRange e.number), (entries.takeWhile inRange).map shownPart)
    | none => (.ok (), entries.map shownPart)
  part_index : ∀ e, inRange e = true → ((shownPart e).index.toNat : Int) = e.number.toInt - 1

/-- **Listings follow the responses of the backend.** -/
theorem listings_follow_responses (m : Mount) : m.FollowsResponses where
  flat path := ⟨_, rfl, fetches_flat.governs⟩
  dir path := ⟨_, rfl, fetches_dir.governs⟩
  uploads path := ⟨_, rfl, fetches_uploads.governs⟩
  parts object id h := by
    refine ⟨_, ?_, (fetches_parts object.id id).governs⟩
    rw [listParts, h]
    rfl
  limit := m.pageSize_mem
  dir_items stem r := ⟨perm_groupedItems m stem r, pairwise_groupedItems m stem r⟩
  part_items entries := on_put_partOf entries []
  part_index _ := index_shownPart

/-- Two pages of parts, of which the second has a number that no part may have. -/
theorem listings_follow_responses_bad_number :
    let m : Mount := ⟨"b", .root, 2, none, none, by decide⟩
    let object := Object.upload "k" "k" "u"
    let first : Reply.Parts := ⟨[⟨1, 5, "x", none⟩, ⟨2, 6, "y", none⟩], some 2, true⟩
    let second : Reply.Parts := ⟨[⟨3, 7, "z", none⟩, ⟨10001, 8, "w", none⟩], none, false⟩
    object.openUpload = .ok "u" ∧
      ∃ l given l' t, m.listParts object = .ok l ∧
        l.nexts 4 (⟨Dialogue.script Reply.Parts.reply [.ok first, .ok second], []⟩ :
          Recorded Script) = some (given, l', t) ∧
        given.map (fun a => (a.1, a.2.requests)) =
          [(.ok (some ⟨0, 5, "x"⟩), [.listParts ⟨"b", "k", "u", 2, none⟩]),
            (.ok (some ⟨1, 6, "y"⟩), [.listParts ⟨"b", "k", "u", 2, none⟩]),
            (.error (.partNumberRange 10001),
              [.listParts ⟨"b", "k", "u", 2, none⟩, .listParts ⟨"b", "k", "u", 2, some 2⟩]),
            (.ok none,
              [.listParts ⟨"b", "k", "u", 2, none⟩, .listParts ⟨"b", "k", "u", 2, some 2⟩])] := by
  intro m object first second
  have hopen : object.openUpload = .ok "u" := by decide
  obtain ⟨l, hl, hgoverns⟩ := (listings_follow_responses m).parts object "u" hopen
  obtain ⟨given, l', t, hnexts, hgiven⟩ := hgoverns [.ok first, .ok second] 4
  exact ⟨hopen, l, given, l', t, hl, hnexts, hgiven⟩

end Mount

end ObjectStore
