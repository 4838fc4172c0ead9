import ObjectStore.Proofs.Listing.Responses

/-!
# Where a fetch leaves a listing

A fetch moves the position of a listing only to go on: when it fails or when it yields the last page,
the position is the one that it started from, and else just the markers have changed, to those of the
response (`Fetch.MovesToGoOn`). This holds for any backend, as it only depends on the response.

There is one response that does otherwise. A page of parts that promises another page and names its
marker moves the position before the numbers of its parts are looked at (`Reply.Parts.Strays`). The parts
before the first bad number are on the page then, and the position is past them all.
-/

namespace ObjectStore

variable {κ ι σ : Type}

/-- That a fetch leaves its position unless there is another page, which then starts at `next`. -/
structure Fetch.MovesToGoOn (fetch : Fetch κ ι) (position : κ) (next : Option κ) : Prop where
  stays_failed : ∀ e, fetch.page.outcome = .error e → fetch.position = position
  stays_last : fetch.page.outcome = .ok true → fetch.position = position
  goes_on : fetch.page.outcome = .ok false → next = some fetch.position

namespace Fetch.MovesToGoOn

variable {position past : κ} {next : Option κ} {items : List ι}

/-- A fetch may stay, unless there is another page. -/
theorem stays {page : Page ι} (h : page.outcome ≠ .ok false) :
    (⟨position, page⟩ : Fetch κ ι).MovesToGoOn position next where
  stays_failed _ _ := rfl
  stays_last _ := rfl
  goes_on hpage := absurd hpage h

/-- A failed fetch may stay. -/
theorem failed {e : Error} : (⟨position, .failed e⟩ : Fetch κ ι).MovesToGoOn position next :=
  stays nofun

/-- A fetch may go on where there is another page. -/
theorem goes : (⟨past, ⟨items, .ok false⟩⟩ : Fetch κ ι).MovesToGoOn position (some past) where
  stays_failed e hpage := by cases hpage
  stays_last hpage := by cases hpage
  goes_on _ := rfl

end Fetch.MovesToGoOn

/-- The reply to a request, if it is answered with one. -/
def Backend.reply? [Backend σ] (request : Request) (s : σ) : Option request.Reply :=
  (exchange request s).1.toOption

/-- A page of parts that is not the last, with the marker of the next page, and with a number that no
part may have. -/
structure Reply.Parts.Strays (r : Reply.Parts) : Prop where
  truncated : r.truncated = true
  marked : ∃ marker, r.nextMarker = some marker ∧ 0 < marker
  unnumbered : ∃ e ∈ r.parts, Mount.inRange e = false

namespace Mount

/-! ## The markers of a response -/

/-- A position past a page of objects has the token of the page, and only that is new. -/
theorem eq_of_nextStem {c c' : StemPosition} {r : Reply.Objects}
    (h : nextStem c r = .ok (some c')) : { c with token? := r.nextToken } = c' := by
  rw [nextStem] at h
  split at h
  · split at h
    · rename_i token htoken
      obtain ⟨htoken, -⟩ := Option.filter_eq_some_iff.mp htoken
      obtain rfl := Option.some.inj (Except.ok.inj h)
      rw [htoken]
    · cases h
  · cases h

/-- A position past a page of uploads has both markers of the page, and only those are new. -/
theorem eq_of_nextUpload {c c' : UploadPosition} {r : Reply.Uploads}
    (h : nextUpload c r = .ok (some c')) :
    { c with keyMarker := r.nextKey, idMarker := r.nextId } = c' := by
  rw [nextUpload] at h
  split at h
  · split at h
    · rename_i key hkey
      obtain ⟨hkey, -⟩ := Option.filter_eq_some_iff.mp hkey
      obtain rfl := Option.some.inj (Except.ok.inj h)
      rw [hkey]
    · cases h
  · cases h

/-! ## Pages of objects and uploads -/

theorem fetched_moves {position : κ} {wrap : κ → ListingPosition}
    {next : Except Error (Option κ)} {items : List Object} {past : κ}
    (hnext : ∀ position', next = .ok (some position') → past = position') :
    (fetched position wrap next items).MovesToGoOn (wrap position) (some (wrap past)) := by
  rcases next with e | _ | position'
  · exact .failed
  · exact .stays nofun
  · rw [hnext position' rfl]
    exact .goes

/-- A page that is asked for moves as the page that is read from the reply does; a fault moves
nothing. -/
theorem askPage_moves [Backend σ] {s : σ} {position : ListingPosition} {request : Request}
    {read : request.Reply → Fetch ListingPosition Object} {past : request.Reply → ListingPosition}
    (hread : ∀ reply, (read reply).MovesToGoOn position (some (past reply))) :
    ((askPage position request read).run s).1.MovesToGoOn position
      ((Backend.reply? request s).map past) := by
  rw [askPage, Call.run, Backend.reply?]
  cases (Backend.exchange request s).1 with
  | error fault => exact .failed
  | ok reply => exact hread reply

/-! ## Pages of parts -/

/-- What a page of parts comes to. -/
theorem filled_partOf (entries : List Reply.ListedPart) (isLast : Bool) :
    Page.filled partOf entries isLast =
      match entries.find? (fun e => !inRange e) with
      | some e => ⟨(entries.takeWhile inRange).map shownPart, .error (.partNumberRange e.number)⟩
      | none => ⟨entries.map shownPart, .ok isLast⟩ := by
  rw [Page.filled, on_put_partOf entries []]
  cases entries.find? (fun e => !inRange e) <;> rfl

theorem readPartPage_moves {c : PartPosition} {r : Reply.Parts} (h : ¬ r.Strays) :
    (readPartPage c r).MovesToGoOn c (some { c with marker := r.nextMarker }) := by
  rw [readPartPage]
  split
  · rename_i htruncated
    split
    · exact .failed
    · rename_i marker hmarker
      obtain ⟨hmarker, hpositive⟩ := Option.filter_eq_some_iff.mp hmarker
      have hrange : ∀ e ∈ r.parts, inRange e = true := by
        intro e he
        by_contra hbad
        refine h ⟨htruncated, ⟨marker, hmarker, of_decide_eq_true hpositive⟩, e, he, ?_⟩
        exact Bool.eq_false_iff.mpr hbad
      have hnone : r.parts.find? (fun e => !inRange e) = none :=
        List.find?_eq_none.mpr fun e he => by simp [hrange e he]
      rw [filled_partOf, hnone, hmarker]
      exact .goes
  · exact .stays fun hpage => by cases (Page.filled_of_outcome_ok hpage).1

/-- A page that strays fails because of the first number that no part may have, with the parts before it
on the page, and at the position of the page that it promises. -/
theorem readPartPage_strays {c : PartPosition} {r : Reply.Parts} (h : r.Strays) :
    ∃ e ∈ r.parts, r.parts.find? (fun e => !inRange e) = some e ∧
      readPartPage c r =
        ⟨{ c with marker := r.nextMarker }, ⟨(r.parts.takeWhile inRange).map shownPart,
          .error (.partNumberRange e.number)⟩⟩ := by
  obtain ⟨marker, hmarker, hpositive⟩ := h.marked
  obtain ⟨bad, hbad, hrange⟩ := h.unnumbered
  obtain ⟨e, he⟩ : ∃ e, r.parts.find? (fun e => !inRange e) = some e := by
    rw [← Option.isSome_iff_exists, List.find?_isSome]
    exact ⟨bad, hbad, by simp [hrange]⟩
  refine ⟨e, List.mem_of_find?_eq_some he, he, ?_⟩
  have hfilter : r.nextMarker.filter (fun marker => 0 < marker) = some marker := by
    rw [hmarker]
    exact Option.filter_some_pos (decide_eq_true hpositive)
  rw [readPartPage, if_pos h.truncated, hfilter, hmarker]
  simp only [filled_partOf, he]

/-! ## All fetches -/

section Fetches

variable [Backend σ] (m : Mount) (s : σ)

/-- The reply to the request for the page at a position. -/
def reply? (position : PartPosition) : Option Reply.Parts :=
  Backend.reply? (.listParts
    ⟨m.bucket, position.key, position.uploadId, position.limit, position.marker⟩) s

/-- What fetches do to the positions of the listings of a mount, in some state of its backend. -/
structure MovesToGoOn : Prop where
  flat : ∀ c : StemPosition, ((m.objectPage (.flat c)).run s).1.MovesToGoOn (.flat c)
    ((Backend.reply? (.listObjects ⟨m.bucket, c.stem, none, c.limit, c.token?⟩) s).map
      fun r : Reply.Objects => .flat { c with token? := r.nextToken })
  grouped : ∀ (c : StemPosition) (d : String),
    ((m.objectPage (.grouped c d)).run s).1.MovesToGoOn (.grouped c d)
      ((Backend.reply? (.listObjects ⟨m.bucket, c.stem, some d, c.limit, c.token?⟩) s).map
        fun r : Reply.Objects => .grouped { c with token? := r.nextToken } d)
  uploads : ∀ c : UploadPosition, ((m.objectPage (.uploads c)).run s).1.MovesToGoOn (.uploads c)
    ((Backend.reply? (.listUploads ⟨m.bucket, c.stem, c.limit, c.keyMarker, c.idMarker⟩) s).map
      fun r : Reply.Uploads => .uploads { c with keyMarker := r.nextKey, idMarker := r.nextId })
  parts : ∀ c : PartPosition, (∀ r, m.reply? s c = some r → ¬ r.Strays) →
    ((m.partPage c).run s).1.MovesToGoOn c
      ((m.reply? s c).map fun r => { c with marker := r.nextMarker })
  strays : ∀ (c : PartPosition) (r : Reply.Parts), m.reply? s c = some r → r.Strays →
    ∃ e ∈ r.parts, r.parts.find? (fun e => !inRange e) = some e ∧
      ((m.partPage c).run s).1 =
        ⟨{ c with marker := r.nextMarker }, ⟨(r.parts.takeWhile inRange).map shownPart,
          .error (.partNumberRange e.number)⟩⟩

/-- The fetch of a page of parts is told by the reply. -/
theorem partPage_of_reply {c : PartPosition} {r : Reply.Parts} (h : m.reply? s c = some r) :
    ((m.partPage c).run s).1 = readPartPage c r := by
  rw [reply?, Backend.reply?] at h
  rw [partPage, Call.run]
  cases hanswer : (Backend.exchange (.listParts _) s).1 with
  | error fault =>
    rw [hanswer] at h
    cases h
  | ok reply =>
    rw [hanswer] at h
    obtain rfl : reply = r := Option.some.inj h
    rfl

/-- The fetch of a page of parts that there is no reply to fails where it is. -/
theorem partPage_of_no_reply {c : PartPosition} (h : m.reply? s c = none) :
    ∃ fault, ((m.partPage c).run s).1 = ⟨c, .failed (.ofFault fault)⟩ := by
  rw [reply?, Backend.reply?] at h
  rw [partPage, Call.run]
  cases hanswer : (Backend.exchange (.listParts _) s).1 with
  | error fault => exact ⟨fault, rfl⟩
  | ok reply =>
    rw [hanswer] at h
    cases h

/-- **A fetch moves its position only to go on**, but for a page of parts that strays. -/
theorem fetches_move_to_go_on : m.MovesToGoOn s where
  flat c := askPage_moves fun r => fetched_moves fun _ h => eq_of_nextStem h
  grouped c d := askPage_moves fun r => fetched_moves fun _ h => eq_of_nextStem h
  uploads c := askPage_moves fun r => fetched_moves fun _ h => eq_of_nextUpload h
  parts c h := by
    cases hreply : m.reply? s c with
    | none =>
      obtain ⟨fault, hfetch⟩ := m.partPage_of_no_reply s hreply
      rw [hfetch]
      exact .failed
    | some r =>
      rw [m.partPage_of_reply s hreply]
      exact readPartPage_moves (h r hreply)
  strays c r hreply h := by
    rw [m.partPage_of_reply s hreply]
    exact readPartPage_strays h

end Fetches

/-- A page with a part zero and a marker: the fetch fails, and the position is past the page. -/
theorem part_fetch_strays :
    let m : Mount := ⟨"b", .root, 2, none, none, by decide⟩
    let c : PartPosition := ⟨"k", "u", 2, none⟩
    let r : Reply.Parts := ⟨[⟨0, 1, "x", none⟩], some 5, true⟩
    let fetch := ((m.partPage c).run (⟨[.ok (Reply.Parts.reply r)]⟩ : Script)).1
    fetch.page.outcome.toOption.isNone = true ∧ fetch.position ≠ c ∧
      fetch.position.token = "5" ∧ c.token = "0" := by
  decide +kernel

end Mount

end ObjectStore
