import ObjectStore.Proofs.Directory
import ObjectStore.Proofs.Finished

/-!
# The parts of an upload, listed

The listing of an upload shows its parts in the order of their indices, page by page
(`Store.collect_parts`). Along a run that does not close the upload, the parts that it has are just
those that the history tells (`Tracks`): under each index what the last successful write there told
its caller.
-/

namespace ObjectStore

/-! ## Uploads with numbered parts -/

/-- All parts of an upload have the number of an index. Calls on a store put no others into its uploads
(`Store.numbered_calls`). -/
def Upload.Numbered (u : Upload) : Prop :=
  ∀ number kept, u.parts.get? number = some kept →
    ∃ index, Mount.numberOfIndex index = .ok number

theorem Upload.Numbered.insert {u : Upload} {index : UInt32} {number : Int32} (h : u.Numbered)
    (hnumber : Mount.numberOfIndex index = .ok number) (kept : KeptPart) :
    { u with parts := u.parts.insert number kept }.Numbered := by
  intro number' kept' hget
  by_cases hsame : number = number'
  · exact ⟨index, hsame ▸ hnumber⟩
  · have hother : (u.parts.insert number kept).get? number' = u.parts.get? number' :=
      Table.get?_insert_of_ne _ hsame kept
    exact h number' kept' (hother.symm.trans hget)

namespace Mount

variable {u : Upload}

/-- What is shown for a part with the number of an index. -/
theorem partItem_of_number {e : Int32 × KeptPart} {index : UInt32}
    (h : numberOfIndex index = .ok e.1) : partItem e = some (e.2.listed index) := by
  rw [partItem, indexOfNumber_numberOfIndex h]
  rfl

/-- The parts of a page can be read if they all have the number of an index. -/
theorem map_partOf_of_numbers {page : List (Int32 × KeptPart)}
    (h : ∀ e ∈ page, ∃ index, numberOfIndex index = .ok e.1) :
    (page.map fun e =>
      (⟨e.1, UInt64.ofNat e.2.body.length, e.2.etag, some e.2.lastModified⟩ : Reply.ListedPart)).map
        partOf = (page.filterMap partItem).map .ok := by
  induction page with
  | nil => rfl
  | cons e page ih =>
    obtain ⟨⟨index, hindex⟩, hrest⟩ := List.forall_mem_cons.mp h
    have hpart : partOf ⟨e.1, UInt64.ofNat e.2.body.length, e.2.etag, some e.2.lastModified⟩ =
        .ok (e.2.listed index) :=
      bind_eq_ok.mpr ⟨index, indexOfNumber_numberOfIndex hindex, rfl⟩
    rw [List.filterMap_cons, partItem_of_number hindex, List.map_cons, List.map_cons, ih hrest, hpart]
    rfl

theorem exists_index_of_mem (hnumbered : u.Numbered) {e : Int32 × KeptPart}
    (h : e ∈ Store.numberedParts u) : ∃ index, numberOfIndex index = .ok e.1 :=
  hnumbered e.1 e.2 ((Table.get?_eq_some_iff u.parts).mpr (List.mem_filter.mp h).1)

/-- Part numbers are above zero, so a listing can go on from each. -/
theorem number_pos {index : UInt32} {number : Int32} (h : numberOfIndex index = .ok number) :
    0 < number := by
  have hint := toInt_numberOfIndex h
  have hzero : (0 : Int32).toInt = 0 := rfl
  exact Int32.lt_iff_toInt_lt.mpr (by omega)

/-- A page of an upload with numbered parts is the one that is cut from what is left. -/
theorem readPartPage_eq_cut (m : Mount) (key id : String) {mark : Option Int32}
    (hnumbered : u.Numbered) (hmark : ∀ k ∈ mark, decide (0 < k) = true) :
    readPartPage (m.partPlace key id mark) (Store.listParts u ⟨m.bucket, key, id, m.pageSize, mark⟩) =
      cut (m.partPlace key id) (fun n => decide (0 < n)) .partMarkerMissing
        (Store.pageLimit m.pageSize) mark
        (past mark (showing partItem (Store.numberedParts u))) := by
  have hfilled (isLast : Bool) :
      Page.filled partOf (Store.listParts u ⟨m.bucket, key, id, m.pageSize, mark⟩).parts isLast =
        ⟨((past mark (Store.numberedParts u)).take (Store.pageLimit m.pageSize)).filterMap partItem,
          .ok isLast⟩ := by
    refine Page.filled_ok ?_ isLast
    rw [Store.listParts_parts hmark]
    exact map_partOf_of_numbers fun e he =>
      exists_index_of_mem hnumbered (mem_past.mp (List.mem_of_mem_take he)).1
  rw [past_showing]
  by_cases hmore : Store.pageLimit m.pageSize < (past mark (Store.numberedParts u)).length
  · obtain ⟨last, hlast⟩ := exists_last m.pageLimit_pos hmore
    obtain ⟨htruncated, hnext⟩ := Store.listParts_more m.bucket key id hmark hmore hlast
    obtain ⟨index, hindex⟩ := exists_index_of_mem hnumbered
      (mem_past.mp (List.mem_of_mem_take (List.mem_of_getLast? hlast))).1
    have haccepts : decide (0 < last.1) = true := decide_eq_true (number_pos hindex)
    have hlast' := getLast?_showing partItem hlast
    rw [← take_showing] at hlast'
    rw [cut_more (by rw [length_showing]; exact hmore) hlast' haccepts, readPartPage,
      if_pos htruncated, hnext, Option.filter_some, if_pos haccepts, take_showing,
      items_showing]
    simp only [hfilled]
    rfl
  · have htruncated := Store.listParts_last m.bucket key id hmark hmore
    rw [cut_last (by rw [length_showing]; exact hmore), readPartPage,
      if_neg (Bool.eq_false_iff.mp htruncated), hfilled, items_showing,
      List.take_of_length_le (Nat.le_of_not_lt hmore)]

end Mount

/-! ## Collecting the parts -/

/-- The parts of an upload as they are listed. -/
def Upload.listed (u : Upload) : List Part := (Store.numberedParts u).filterMap Mount.partItem

namespace Upload

variable {u : Upload}

theorem part?_eq_some {index : UInt32} {kept : KeptPart} :
    u.part? index = some kept ↔
      ∃ number, Mount.numberOfIndex index = .ok number ∧ u.parts.get? number = some kept := by
  rw [part?]
  cases Mount.numberOfIndex index with
  | error e => simp [Except.toOption]
  | ok number => simp [Except.toOption]

/-- An upload lists just the parts that it has, each under its index. -/
theorem mem_listed {p : Part} :
    p ∈ u.listed ↔ (u.part? p.index).map (fun kept => kept.listed p.index) = some p := by
  rw [listed, List.mem_filterMap, Option.map_eq_some_iff]
  constructor
  · rintro ⟨e, he, hitem⟩
    obtain ⟨hnumber, hsize, hetag⟩ := Mount.partItem_eq_some hitem
    refine ⟨e.2, part?_eq_some.mpr ⟨e.1, hnumber, ?_⟩, ?_⟩
    · exact (Table.get?_eq_some_iff u.parts).mpr (List.mem_filter.mp he).1
    · rw [KeptPart.listed, ← hsize, ← hetag]
  · rintro ⟨kept, hkept, hlisted⟩
    obtain ⟨number, hnumber, hget⟩ := part?_eq_some.mp hkept
    refine ⟨(number, kept), List.mem_filter.mpr ⟨(Table.get?_eq_some_iff u.parts).mp hget, ?_⟩, ?_⟩
    · exact decide_eq_true (Mount.number_pos hnumber)
    · rw [Mount.partItem_of_number hnumber, hlisted]

/-- Parts are listed in the order of their indices. -/
theorem ascending_listed (u : Upload) : u.listed.Pairwise fun p q => p.index < q.index := by
  refine List.pairwise_filterMap.mpr ((Store.ascending_numberedParts u).imp ?_)
  rintro e e' hlt p hp q hq
  have he := Mount.toInt_numberOfIndex (Mount.partItem_eq_some hp).1
  have he' := Mount.toInt_numberOfIndex (Mount.partItem_eq_some hq).1
  have hint := Int32.lt_iff_toInt_lt.mp hlt
  exact UInt32.lt_iff_toNat_lt.mpr (by omega)

theorem length_listed (h : u.Numbered) : u.listed.length = (Store.numberedParts u).length := by
  rw [listed, List.length_filterMap_eq_countP, List.countP_eq_length]
  intro e he
  obtain ⟨index, hindex⟩ := Mount.exists_index_of_mem h he
  rw [Mount.partItem_of_number hindex]
  rfl

end Upload

namespace Store

variable {m : Mount} {s : Store} {name : UploadName} {u : Upload}

/-- The request for a page of parts. -/
def partRequest (m : Mount) (name : UploadName) (mark : Option Int32) : Request :=
  .listParts ⟨m.bucket, name.key, name.id, m.pageSize, mark⟩

/-- A page of the parts of an open upload. -/
theorem run_partPage (hu : s.uploadAt? m.bucket name = some u)
    (hnone : takeFault? .listParts s.faults = none) (mark : Option Int32) :
    (m.partPage (m.partPlace name.key name.id mark)).run s =
      (Mount.readPartPage (m.partPlace name.key name.id mark)
        (listParts u ⟨m.bucket, name.key, name.id, m.pageSize, mark⟩),
        s.record (partRequest m name mark)) := by
  have hanswer : s.answer (.listParts ⟨m.bucket, name.key, name.id, m.pageSize, mark⟩) = _ :=
    answer_listParts_of_open hu hnone
  simp only [Mount.partPage, Mount.partPlace, Call.run, Backend.exchange, hanswer]
  rfl

/-- **Collecting the parts** of an open upload, where no fault waits. -/
theorem collect_parts (hu : s.uploadAt? m.bucket name = some u) (hnumbered : u.Numbered)
    (hnone : takeFault? .listParts s.faults = none) :
    ∃ marks : List (Option Int32),
      (Listing.start m.partPage (m.partPlace name.key name.id none)).collect s =
        some (.ok u.listed, { s with log := s.log ++ marks.map (partRequest m name) }) ∧
      marks.length = pageCount (pageLimit m.pageSize) u.listed.length := by
  have hentries : m.partEntries name.key name.id s = showing Mount.partItem (numberedParts u) := by
    rw [Mount.partEntries, hu]
    rfl
  have hanswered : (m.partPaging name.key name.id).AnsweredBy s .partMarkerMissing
      (partRequest m name) := by
    refine ⟨m.upward_parts _ _, m.length_partEntries_le name.key name.id s, ?_⟩
    intro mark s' hmark hbuckets hfaults
    have hrun := run_partPage ((uploadAt?_congr hbuckets m.bucket name).trans hu) (hfaults ▸ hnone) mark
    rw [Mount.readPartPage_eq_cut m name.key name.id hnumbered hmark, ← hentries] at hrun
    exact hrun
  have hpages (c : PartPosition) (s : Store) :
      (m.partPage c).run s = (m.partPaging name.key name.id).source c s := rfl
  obtain ⟨marks, hcollect, hmarks⟩ :=
    hanswered.collect hpages (m.not_brokenOff_parts name.key name.id s)
  have hitems : items (m.partEntries name.key name.id s) = u.listed := by
    rw [hentries]
    exact items_showing _ _
  have hlength : (m.partEntries name.key name.id s).length = u.listed.length := by
    rw [hentries, length_showing, Upload.length_listed hnumbered]
  exact ⟨marks, hitems ▸ hcollect, hlength ▸ hmarks⟩

end Store

/-! ## Along a run -/

section

variable {start : Store} {bucket : String} {name : UploadName}

/-- An upload that a call does not close stays open, under the same lock. -/
theorem UploadStep.stays_open {s s' : Store} {e : Event} {u : Upload}
    (h : UploadStep s s' bucket name e) (hspent : s.Spent name.id)
    (hcloses : ¬ e.Closes bucket name) (hu : s.uploadAt? bucket name = some u)
    (hnumbered : u.Numbered) :
    ∃ u', s'.uploadAt? bucket name = some u' ∧ u'.lock = u.lock ∧ u'.Numbered := by
  cases h with
  | kept hidle hsame => exact ⟨u, hsame.trans hu, rfl, hnumbered⟩
  | opened hidle hid => exact absurd hid (hspent s.drawn (Nat.le_refl _))
  | written he hbucket hkey hcheck hopen hu' =>
    cases hopen.symm.trans hu
    exact ⟨_, hu', rfl, hnumbered.insert (Store.checkPart_eq_ok hcheck).2.1 _⟩
  | closed hidle hclosed => exact absurd hclosed hcloses

/-- An upload is open, and has just the parts that a history tells. -/
structure Tracks (start : Store) (bucket : String) (name : UploadName) (r : Run Store)
    (u : Upload) : Prop where
  isOpen : r.state.uploadAt? bucket name = some u
  numbered : u.Numbered
  parts : ∀ index, (u.part? index).map (fun kept => kept.listed index) =
    lastWritten start bucket name index r.history

/-- **What a call preserves.** -/
theorem Tracks.call {r : Run Store} {u : Upload} (h : Tracks start bucket name r u)
    (hspent : r.state.Spent name.id) {m : Mount} {op : Operation}
    (hcloses : ¬ Event.Closes ⟨m, op, (op.perform m r.state).1⟩ bucket name) :
    ∃ u', Tracks start bucket name (r.call m op) u' := by
  have hstep := UploadStep.of_perform m op r.state bucket name
  obtain ⟨u', hu', -, hnumbered⟩ := hstep.stays_open hspent hcloses h.isOpen h.numbered
  refine ⟨u', hu', hnumbered, fun index => ?_⟩
  have hhistory : (r.call m op).history = ⟨m, op, (op.perform m r.state).1⟩ :: r.history := rfl
  rw [hhistory, lastWritten_cons, ← h.parts]
  rcases hstep.part_cases hu' index with
    ⟨part, kept, hwrote, hkept, hindex, hdescribes⟩ | ⟨hwrote, ⟨hid, -⟩ | ⟨u'', hu'', hsame⟩⟩
  · rw [hwrote, hkept, ← hindex]
    exact congrArg some hdescribes.listed
  · exact absurd hid (hspent r.state.drawn (Nat.le_refl _))
  · cases hu''.symm.trans h.isOpen
    rw [hwrote, hsame, Option.none_or]

/-- **What a run preserves**, if it does not close the upload. -/
theorem Tracks.calls {r : Run Store} {u : Upload} (h : Tracks start bucket name r u)
    (hspent : r.state.Spent name.id) {cs : List (Mount × Operation)}
    (hcloses : ∀ e ∈ (r.calls cs).history, ¬ e.Closes bucket name) :
    ∃ u', Tracks start bucket name (r.calls cs) u' := by
  refine (Run.calls_induct (P := fun r : Run Store => r.state.Spent name.id ∧
    ((∀ e ∈ r.history, ¬ e.Closes bucket name) → ∃ u, Tracks start bucket name r u)) ?_
      ⟨hspent, fun _ => ⟨u, h⟩⟩ cs).2 hcloses
  rintro r m op ⟨hspent, htracks⟩
  refine ⟨hspent.keeps (Store.Keeps.perform m op r.state), fun hcloses => ?_⟩
  obtain ⟨hlast, hearlier⟩ := List.forall_mem_cons.mp hcloses
  obtain ⟨u, hu⟩ := htracks hearlier
  exact hu.call hspent hlast

/-- **What a run preserves.** A store all of whose uploads have numbered parts gets no others. -/
theorem Store.numbered_calls {r : Run Store}
    (h : ∀ bucket name u, r.state.uploadAt? bucket name = some u → u.Numbered)
    (cs : List (Mount × Operation)) :
    ∀ bucket name u, (r.calls cs).state.uploadAt? bucket name = some u → u.Numbered := by
  refine Run.calls_induct (P := fun r : Run Store =>
    ∀ bucket name u, r.state.uploadAt? bucket name = some u → u.Numbered) ?_ h cs
  intro r m op h bucket name u hu
  cases UploadStep.of_perform m op r.state bucket name with
  | kept hidle hsame => exact h bucket name u (hsame.symm.trans hu)
  | opened hidle hid hdrawn hu' hparts =>
    cases hu'.symm.trans hu
    intro number kept hget
    rw [hparts] at hget
    cases hget
  | written he hbucket hkey hcheck hopen hu' =>
    cases hu'.symm.trans hu
    exact (h bucket name _ hopen).insert (Store.checkPart_eq_ok hcheck).2.1 _
  | closed hidle hcloses hgone => cases hgone.symm.trans hu

/-- At its start, a run tells of the parts that are there. -/
theorem Tracks.initially {u : Upload} (hu : start.uploadAt? bucket name = some u)
    (hnumbered : u.Numbered) : Tracks start bucket name ⟨start, []⟩ u := by
  refine ⟨hu, hnumbered, fun index => ?_⟩
  rw [lastWritten, hu]
  rfl

end

end ObjectStore
