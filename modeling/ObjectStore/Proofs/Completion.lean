import Mathlib.Data.List.Forall2
import ObjectStore.Proofs.Finished

/-!
# Completing an upload

A completion passes the checks of the mount and those of the store, or it changes nothing. Together
the two sets of checks come to one condition on the upload and the listed parts (`Completable`), and
where it holds, and no fault waits, the completion succeeds. The object is then what the parts make,
and the caller's object tells so (`Completed`). A part that is as its last write told it has the size
that it claims (`Measured`), and so the length that the caller is told is the length of the body.
-/

namespace ObjectStore

/-! ## The listed parts -/

namespace Mount

/-- Indices that ascend from one to the next ascend throughout. -/
theorem ascending_iff {parts : List Part} :
    ascending parts = true ↔ parts.Pairwise fun p q => p.index < q.index := by
  have hchain : ascending parts = true ↔ parts.IsChain fun p q => p.index < q.index := by
    induction parts with
    | nil => simp [ascending]
    | cons p rest ih =>
      cases rest with
      | nil => simp [ascending]
      | cons q rest => rw [ascending, Bool.and_eq_true, ih, List.isChain_cons_cons]; simp
  have htrans : Trans (fun p q : Part => p.index < q.index) (fun p q : Part => p.index < q.index)
      (fun p q : Part => p.index < q.index) := ⟨fun h h' => UInt32.lt_trans h h'⟩
  rw [hchain, List.isChain_iff_pairwise]

/-- A choice of a part, by the number of its index and its tag. -/
def Chooses (p : Part) (choice : Request.PartChoice) : Prop :=
  numberOfIndex p.index = .ok choice.number ∧ choice.etag = p.etag

theorem chooseParts_eq_ok {parts : List Part} {choices : List Request.PartChoice} :
    chooseParts parts = .ok choices ↔ List.Forall₂ Chooses parts choices := by
  induction parts generalizing choices with
  | nil =>
    rw [List.forall₂_nil_left_iff]
    exact ⟨fun h => (Except.ok.inj h).symm, fun h => by rw [h]; rfl⟩
  | cons p rest ih =>
    rw [List.forall₂_cons_left_iff]
    constructor
    · intro h
      obtain ⟨number, hnumber, h⟩ := bind_eq_ok.mp h
      obtain ⟨choices', hrest, h⟩ := bind_eq_ok.mp h
      cases h
      exact ⟨_, _, ⟨hnumber, rfl⟩, ih.mp hrest, rfl⟩
    · rintro ⟨⟨number, etag⟩, choices', ⟨hnumber, rfl⟩, hrest, rfl⟩
      exact bind_eq_ok.mpr ⟨number, hnumber, bind_eq_ok.mpr ⟨choices', ih.mpr hrest, rfl⟩⟩

/-- An index has a number just where it is below the bound. -/
theorem exists_numberOfIndex {index : UInt32} :
    (∃ number, numberOfIndex index = .ok number) ↔ index.toNat < 10000 := by
  rw [numberOfIndex, partBound]
  split
  · rename_i h
    exact ⟨fun _ => h, fun _ => ⟨_, rfl⟩⟩
  · rename_i h
    refine ⟨fun h' => ?_, fun h' => absurd h' h⟩
    obtain ⟨_, hnumber⟩ := h'
    cases hnumber

theorem exists_chooseParts {parts : List Part} :
    (∃ choices, chooseParts parts = .ok choices) ↔ ∀ p ∈ parts, p.index.toNat < 10000 := by
  simp only [chooseParts_eq_ok]
  induction parts with
  | nil => exact ⟨fun _ => nofun, fun _ => ⟨[], .nil⟩⟩
  | cons p rest ih =>
    rw [List.forall_mem_cons, ← ih, ← exists_numberOfIndex]
    constructor
    · rintro ⟨_, hchoices⟩
      obtain ⟨choice, choices, hchoice, hrest, rfl⟩ := List.forall₂_cons_left_iff.mp hchoices
      exact ⟨⟨choice.number, hchoice.1⟩, choices, hrest⟩
    · rintro ⟨⟨number, hnumber⟩, choices, hrest⟩
      exact ⟨⟨number, p.etag⟩ :: choices, .cons ⟨hnumber, rfl⟩ hrest⟩

/-- Numbers are in the order of the indices. -/
theorem number_lt {i j : UInt32} {m n : Int32} (hi : numberOfIndex i = .ok m)
    (hj : numberOfIndex j = .ok n) (h : i < j) : m < n := by
  have hm := toInt_numberOfIndex hi
  have hn := toInt_numberOfIndex hj
  have hlt := UInt32.lt_iff_toNat_lt.mp h
  rw [Int32.lt_iff_toInt_lt]
  omega

/-- Parts in ascending order are chosen in ascending order. -/
theorem ascending_choices {parts : List Part} {choices : List Request.PartChoice}
    (h : List.Forall₂ Chooses parts choices) (hasc : ascending parts = true) :
    Store.ascending choices = true := by
  induction h with
  | nil => rfl
  | @cons p choice parts choices hchoice hrest ih =>
    cases hrest with
    | nil => rfl
    | @cons q choice' parts choices hchoice' hrest =>
      rw [ascending, Bool.and_eq_true] at hasc
      rw [Store.ascending, Bool.and_eq_true]
      exact ⟨decide_eq_true (number_lt hchoice.1 hchoice'.1 (of_decide_eq_true hasc.1)), ih hasc.2⟩

theorem choices_ne_nil {parts : List Part} {choices : List Request.PartChoice}
    (h : List.Forall₂ Chooses parts choices) (hne : parts ≠ []) : choices ≠ [] := by
  rintro rfl
  cases h
  exact hne rfl

theorem checkCompletion_of_ok {object : Object} {parts : List Part} {id : String}
    {choices : List Request.PartChoice} (hopen : object.openUpload = .ok id) (hne : parts ≠ [])
    (hasc : ascending parts = true) (hchoices : chooseParts parts = .ok choices) :
    checkCompletion object parts = .ok (id, choices) := by
  rw [checkCompletion]
  refine bind_eq_ok.mpr ⟨id, hopen, ?_⟩
  rw [if_neg hne, if_pos hasc]
  exact bind_eq_ok.mpr ⟨choices, hchoices, rfl⟩

/-- The sum of the sizes of parts, without a bound. -/
def exactSize (parts : List Part) : Nat := parts.foldr (fun p total => p.size.toNat + total) 0

/-- The total size is the sum of the sizes where that fits. -/
theorem toNat_totalSize {parts : List Part} (h : exactSize parts < UInt64.size) :
    (totalSize parts).toNat = exactSize parts := by
  induction parts with
  | nil => rfl
  | cons p rest ih =>
    have hexact : exactSize (p :: rest) = p.size.toNat + exactSize rest := rfl
    have hcons : totalSize (p :: rest) = p.size + totalSize rest := rfl
    rw [hexact] at h ⊢
    rw [hcons, UInt64.toNat_add, ih (by omega), Nat.mod_eq_of_lt h]

end Mount

/-! ## The parts of the upload -/

namespace Upload

variable {u : Upload} {least : Nat}

/-- The bytes that an upload has for a listed part. -/
def bytesOf (u : Upload) (p : Part) : Bytes := ((u.part? p.index).map (·.body)).getD []

/-- An upload has all listed parts, under the tags that they are listed with; and each but the last
has the least size. -/
structure Offers (u : Upload) (least : Nat) (parts : List Part) : Prop where
  stored : ∀ p ∈ parts, ∃ kept, u.part? p.index = some kept ∧ kept.etag = p.etag
  enough : ∀ p ∈ parts.dropLast, least ≤ (u.bytesOf p).length

theorem bytesOf_eq {p : Part} {kept : KeptPart} (h : u.part? p.index = some kept) :
    u.bytesOf p = kept.body := by
  rw [bytesOf, h]
  rfl

/-- Parts that have the bytes that they claim have them all together. -/
theorem length_flatMap_bytesOf {parts : List Part}
    (h : ∀ p ∈ parts, (u.bytesOf p).length = p.size.toNat) :
    (parts.flatMap u.bytesOf).length = Mount.exactSize parts := by
  induction parts with
  | nil => rfl
  | cons p rest ih =>
    obtain ⟨hfirst, hrest⟩ := List.forall_mem_cons.mp h
    rw [List.flatMap_cons, List.length_append, hfirst, ih hrest]
    rfl

theorem offers_nil : u.Offers least [] := ⟨nofun, nofun⟩

theorem offers_cons {p : Part} {rest : List Part} :
    u.Offers least (p :: rest) ↔
      (∃ kept, u.part? p.index = some kept ∧ kept.etag = p.etag) ∧
        (rest ≠ [] → least ≤ (u.bytesOf p).length) ∧ u.Offers least rest := by
  constructor
  · rintro ⟨hstored, henough⟩
    refine ⟨hstored p List.mem_cons_self, fun hne => henough p ?_,
      fun q hq => hstored q (List.mem_cons_of_mem p hq), fun q hq => henough q ?_⟩
    · rw [List.dropLast_cons_of_ne_nil hne]
      exact List.mem_cons_self
    · have hne : rest ≠ [] := fun hnil => by rw [hnil] at hq; cases hq
      rw [List.dropLast_cons_of_ne_nil hne]
      exact List.mem_cons_of_mem p hq
  · rintro ⟨hfirst, hsize, hstored, henough⟩
    refine ⟨List.forall_mem_cons.mpr ⟨hfirst, hstored⟩, fun q hq => ?_⟩
    cases rest with
    | nil => cases hq
    | cons r rest =>
      rcases List.mem_cons.mp hq with rfl | hq
      · exact hsize (List.cons_ne_nil r rest)
      · exact henough q hq

/-- The chosen parts can be gathered just where the upload offers them, and give their bytes. -/
theorem gather_eq_ok {leastSize : UInt64} {parts : List Part} {choices : List Request.PartChoice}
    {bodies : List Bytes} (h : List.Forall₂ Mount.Chooses parts choices) :
    Store.gather leastSize u.parts choices = .ok bodies ↔
      u.Offers leastSize.toNat parts ∧ bodies = parts.map u.bytesOf := by
  induction h generalizing bodies with
  | nil => exact ⟨fun h => ⟨offers_nil, (Except.ok.inj h).symm⟩, fun h => by rw [h.2]; rfl⟩
  | @cons p choice parts choices hchoice hrest ih =>
    have hparts : choices ≠ [] ↔ parts ≠ [] := by
      cases hrest <;> simp
    rw [offers_cons, Store.gather, ← part?_of_number hchoice.1, hchoice.2]
    cases hpart : u.part? p.index with
    | none => simp
    | some kept =>
      rw [bytesOf_eq hpart, Option.filter_some]
      by_cases hetag : kept.etag = p.etag
      · simp only [hetag, decide_true, if_true, hparts]
        by_cases hsmall : parts ≠ [] ∧ kept.body.length < leastSize.toNat
        · rw [if_pos hsmall]
          refine ⟨(fun h => by cases h), fun h => ?_⟩
          have hle := h.1.2.1 hsmall.1
          omega
        · rw [if_neg hsmall]
          have hle : parts ≠ [] → leastSize.toNat ≤ kept.body.length := fun hne =>
            Nat.le_of_not_lt fun hlt => hsmall ⟨hne, hlt⟩
          cases hgather : Store.gather leastSize u.parts choices with
          | error f =>
            refine ⟨(fun h => by cases h), fun h => ?_⟩
            have hok := ih.mpr ⟨h.1.2.2, rfl⟩
            rw [hgather] at hok
            cases hok
          | ok bodies' =>
            obtain ⟨hoffers, rfl⟩ := ih.mp hgather
            rw [List.map_cons, bytesOf_eq hpart]
            constructor
            · intro h
              exact ⟨⟨⟨kept, rfl, hetag⟩, hle, hoffers⟩, (Except.ok.inj h).symm⟩
            · rintro ⟨-, rfl⟩
              rfl
      · have hnone : decide (kept.etag = p.etag) = false := decide_eq_false hetag
        rw [hnone]
        refine ⟨(fun h => by cases h), ?_⟩
        rintro ⟨⟨⟨kept', hkept, hetag'⟩, -⟩, -⟩
        cases hkept
        exact absurd hetag' hetag

end Upload

/-! ## The condition of a completion -/

/-- What it takes to complete an upload: the object is one of an upload that is open, and the upload
offers the listed parts, which are in ascending order. -/
structure Completable (s : Store) (bucket : String) (object : Object) (parts : List Part)
    (id : String) (u : Upload) : Prop where
  isPart : object.mode.contains .part = true
  uploadId : object.uploadId = some id
  nonempty : parts ≠ []
  ascending : parts.Pairwise fun p q => p.index < q.index
  bounded : ∀ p ∈ parts, p.index.toNat < 10000
  isOpen : s.uploadAt? bucket ⟨object.id, id⟩ = some u
  offers : u.Offers s.minPartSize.toNat parts

namespace Store

variable {m : Mount} {s : Store} {object : Object} {parts : List Part}

theorem openUpload_eq_ok {id : String} :
    object.openUpload = .ok id ↔ object.mode.contains .part = true ∧ object.uploadId = some id := by
  rw [Object.openUpload, Object.getUploadId]
  cases object.mode.contains .part <;> cases object.uploadId <;> simp

/-- The two sets of checks, one in the mount and one in the store, are one condition. -/
theorem completable_iff {id : String} {u : Upload} :
    Completable s m.bucket object parts id u ↔
      ∃ choices bodies, Mount.checkCompletion object parts = .ok (id, choices) ∧
        s.uploadAt? m.bucket ⟨object.id, id⟩ = some u ∧
        gather s.minPartSize u.parts choices = .ok bodies := by
  constructor
  · rintro ⟨hpart, hid, hne, hasc, hbounded, hopen, hoffers⟩
    obtain ⟨choices, hchoices⟩ := Mount.exists_chooseParts.mpr hbounded
    have hcheck := Mount.checkCompletion_of_ok (openUpload_eq_ok.mpr ⟨hpart, hid⟩) hne
      (Mount.ascending_iff.mpr hasc) hchoices
    refine ⟨choices, parts.map u.bytesOf, hcheck, hopen, ?_⟩
    exact (Upload.gather_eq_ok (Mount.chooseParts_eq_ok.mp hchoices)).mpr ⟨hoffers, rfl⟩
  · rintro ⟨choices, bodies, hcheck, hopen, hgather⟩
    obtain ⟨hobject, hne, hasc, hchoices⟩ := checkCompletion_eq_ok hcheck
    obtain ⟨hpart, hid⟩ := openUpload_eq_ok.mp hobject
    exact ⟨hpart, hid, hne, Mount.ascending_iff.mp hasc,
      Mount.exists_chooseParts.mp ⟨choices, hchoices⟩, hopen,
      ((Upload.gather_eq_ok (Mount.chooseParts_eq_ok.mp hchoices)).mp hgather).1⟩

/-- Where no fault waits, the answer to a completion of an open upload comes down to the gathering of
the chosen parts. -/
theorem answer_completeUpload_of_open {bucket key id : String} {choices : List Request.PartChoice}
    {u : Upload} (hnone : takeFault? .completeUpload s.faults = none)
    (hu : s.uploadAt? bucket ⟨key, id⟩ = some u) (hne : choices ≠ [])
    (hasc : ascending choices = true) :
    (s.answer (.completeUpload ⟨bucket, key, id, choices⟩)).1 =
      (gather s.minPartSize u.parts choices).map fun bodies => ⟨some (partsEtag bodies)⟩ := by
  obtain ⟨b, hb, hget⟩ := Option.bind_eq_some_iff.mp hu
  let r : Request.CompleteUpload := ⟨bucket, key, id, choices⟩
  have hbucket : (s.record (.completeUpload r)).bucket r.bucket = .ok b := bucket_eq_ok.mpr hb
  have hfind : findUpload b r.key r.uploadId = .ok u := findUpload_eq_ok.mpr hget
  have hchosen : chosenBodies s.minPartSize b r = gather s.minPartSize u.parts choices := by
    simp only [chosenBodies, hfind, bind, Except.bind, r, if_neg hne, if_pos hasc]
  have hanswer : s.answer (.completeUpload r) =
      (s.record (.completeUpload r)).serve (.completeUpload r) := answer_of_none hnone
  have hserve := fst_on_completeUpload (s.record (.completeUpload r)) r
  have hsize : (s.record (.completeUpload r)).minPartSize = s.minPartSize := rfl
  rw [hbucket, Except.bind, hsize, hchosen, hfind] at hserve
  rw [hanswer]
  refine hserve.trans ?_
  cases gather s.minPartSize u.parts choices <;> rfl

/-- **When a completion succeeds.** -/
theorem completeUpload_isOk :
    ((m.completeUpload object parts).run s).1.1.isOk = true ↔
      takeFault? .completeUpload s.faults = none ∧
        ∃ id u, Completable s m.bucket object parts id u := by
  rw [Mount.fst_run_completeUpload, isOk_map]
  constructor
  · intro hok
    rcases run_after_send (Mount.checkCompletion object parts)
      (fun upload => .completeUpload ⟨m.bucket, object.id, upload.1, upload.2⟩) _ s with
      ⟨e, s', hrun, -⟩ | ⟨⟨id, choices⟩, reply, s', hcheck, hanswer, -⟩
    · have hrun' : (m.askCompletion object parts).run s = (.error e, s') := hrun
      rw [hrun'] at hok
      cases hok
    · obtain ⟨u, bodies, hu, hgather, -⟩ := answer_completeUpload_ok hanswer
      exact ⟨(answer_eq_ok hanswer).1, id, u,
        completable_iff.mpr ⟨choices, bodies, hcheck, hu, hgather⟩⟩
  · rintro ⟨hnone, id, u, hcompletable⟩
    obtain ⟨choices, bodies, hcheck, hu, hgather⟩ := completable_iff.mp hcompletable
    obtain ⟨-, hne, hasc, hchoices⟩ := checkCompletion_eq_ok hcheck
    have hchosen := Mount.chooseParts_eq_ok.mp hchoices
    have hanswer := answer_completeUpload_of_open hnone hu (Mount.choices_ne_nil hchosen hne)
      (Mount.ascending_choices hchosen hasc)
    rw [hgather] at hanswer
    rw [Mount.askCompletion, hcheck]
    simp only [Call.after, Call.send, Call.run, Backend.exchange, hanswer, Except.map]
    rfl

end Store

/-! ## The completed object -/

/-- The entity tag of an object made of an upload's parts: the MD5 of their MD5s, and their number. -/
def Upload.etagOf (u : Upload) (parts : List Part) : String :=
  Store.quoted ((md5 (parts.flatMap fun p => md5 (u.bytesOf p))).hex ++ "-" ++ toString parts.length)

/-- What a completion leaves: the object under the key has the bytes of the parts in their order, the
upload is gone, and the caller's object can be read and is no part any more. Of the caller's object
nothing else has changed. -/
structure Completed (bucket : String) (object : Object) (parts : List Part) (id : String) (u : Upload)
    (completed : Object) (s' : Store) : Prop where
  stored : ∃ o, s'.objectAt? bucket object.id = some o ∧ o.body = parts.flatMap u.bytesOf ∧
    o.etag = u.etagOf parts
  gone : s'.uploadAt? bucket ⟨object.id, id⟩ = none
  isPart : completed.mode.contains .part = false
  isRead : completed.mode.contains .read = true
  flags : ∀ flag : Mode, Mode.part.bits &&& flag.bits = 0 → Mode.read.bits &&& flag.bits = 0 →
    completed.mode.contains flag = object.mode.contains flag
  uploadId : completed.uploadId = none
  etag : completed.etag = some (u.etagOf parts)
  length : ∃ n, completed.contentLength = some n ∧ n.toNat = Mount.exactSize parts
  others : { completed with
    mode := object.mode
    uploadId := object.uploadId
    etag := object.etag
    contentLength := object.contentLength } = object

theorem Upload.partsEtag_bytesOf (u : Upload) (parts : List Part) :
    Store.partsEtag (parts.map u.bytesOf) = u.etagOf parts := by
  rw [Store.partsEtag, etagOf, List.flatMap_map, List.length_map]

theorem Object.completed_mode (o : Object) (etag : Option String) :
    (o.completed etag).mode.contains .part = false ∧ (o.completed etag).mode.contains .read = true ∧
      ∀ flag : Mode, Mode.part.bits &&& flag.bits = 0 → Mode.read.bits &&& flag.bits = 0 →
        (o.completed etag).mode.contains flag = o.mode.contains flag := by
  refine ⟨?_, Mode.contains_union_right _ (by decide), fun flag hpart hread => ?_⟩
  · exact (Mode.contains_union_of_disjoint _ (by decide)).trans (Mode.contains_without _ _)
  · exact (Mode.contains_union_of_disjoint _ hread).trans (Mode.contains_without_of_disjoint _ hpart)

/-- What a completion leaves. -/
theorem Store.run_completeUpload_ok {m : Mount} {s s' : Store} {object completed : Object}
    {parts : List Part} (hsizes : Mount.exactSize parts < UInt64.size)
    (h : (m.completeUpload object parts).run s = ((.ok (), completed), s')) :
    ∃ id u, Completable s m.bucket object parts id u ∧
      Completed m.bucket object parts id u completed s' := by
  rcases run_completeUpload m s object parts with
    ⟨e, s'', hrun, -⟩ | ⟨id, choices, u, bodies, s'', hcheck, hu, hgather, hrun, hs⟩
  · cases hrun.symm.trans h
  cases hrun.symm.trans h
  have hchosen := Mount.chooseParts_eq_ok.mp (checkCompletion_eq_ok hcheck).2.2.2
  obtain ⟨-, rfl⟩ := (Upload.gather_eq_ok hchosen).mp hgather
  obtain ⟨hpart, hread, hflags⟩ := object.completed_mode (some (partsEtag (parts.map u.bytesOf)))
  refine ⟨id, u, completable_iff.mpr ⟨choices, _, hcheck, hu, hgather⟩, ?_⟩
  refine ⟨⟨_, hs.objectAt?_self rfl, ?_, u.partsEtag_bytesOf parts⟩, hs.uploadAt?_self rfl, hpart,
    hread, hflags, rfl, ?_, ⟨_, rfl, Mount.toNat_totalSize hsizes⟩, rfl⟩
  · exact List.flatMap_def.symm
  · exact congrArg some (u.partsEtag_bytesOf parts)

/-! ## Parts as their last writes told them -/

/-- All parts that an upload has are as their last writes told. -/
def Measured (start : Store) (bucket : String) (name : UploadName) (r : Run Store) : Prop :=
  ∀ u, r.state.uploadAt? bucket name = some u → ∀ index kept, u.part? index = some kept →
    ∃ part, lastWritten start bucket name index r.history = some part ∧ part.Describes kept

section

variable {start : Store} {bucket : String} {name : UploadName} {r : Run Store}

/-- **What a call preserves.** -/
theorem Measured.call (h : Measured start bucket name r) (m : Mount) (op : Operation) :
    Measured start bucket name (r.call m op) := by
  intro u' hu' index kept hkept
  have hhistory : (r.call m op).history = ⟨m, op, (op.perform m r.state).1⟩ :: r.history := rfl
  rw [hhistory, lastWritten_cons]
  rcases (UploadStep.of_perform m op r.state bucket name).part_cases hu' index with
    ⟨part, kept', hwrote, hkept', -, hdescribes⟩ | ⟨hwrote, ⟨-, hnone⟩ | ⟨u, hu, hsame⟩⟩
  · cases hkept'.symm.trans hkept
    exact ⟨part, by rw [hwrote]; rfl, hdescribes⟩
  · cases hnone.symm.trans hkept
  · rw [hwrote, Option.none_or]
    exact h u hu index kept (hsame ▸ hkept)

/-- **What a run preserves.** -/
theorem Measured.calls (h : Measured start bucket name r) (cs : List (Mount × Operation)) :
    Measured start bucket name (r.calls cs) :=
  Run.calls_induct (P := Measured start bucket name) (fun _ m op h => h.call m op) h cs

/-- An upload that was just opened has no parts. -/
theorem Measured.of_createUpload {m : Mount} {path : String} {choices : Mount.UploadChoices}
    {s₀ s₁ : Store} {object : Object}
    (h : (m.createUpload path choices).run s₀ = (.ok object, s₁)) :
    ∃ id, object = .upload (m.keyOf path false) path id ∧
      Measured s₁ m.bucket ⟨object.id, id⟩ ⟨s₁, []⟩ := by
  rcases Store.run_createUpload m s₀ path choices with
    ⟨e, s', hrun, -⟩ | ⟨encryption, s', -, hrun, hs, -⟩
  · cases hrun.symm.trans h
  · have heq := hrun.symm.trans h
    by_cases hid : s₀.nextId = ""
    · rw [if_pos hid] at heq
      cases heq
    · rw [if_neg hid] at heq
      cases heq
      refine ⟨s₀.nextId, rfl, fun u hu index kept hkept => ?_⟩
      cases (hs.uploadAt?_self rfl).symm.trans hu
      rw [Upload.part?_of_empty rfl] at hkept
      cases hkept

/-- Parts that are as they were told have the bytes that they claim. -/
theorem Measured.length_bytesOf {parts : List Part} {u : Upload} {least : Nat}
    (h : Measured start bucket name r) (hu : r.state.uploadAt? bucket name = some u)
    (hoffers : u.Offers least parts)
    (hlatest : ∀ p ∈ parts, lastWritten start bucket name p.index r.history = some p) :
    (parts.flatMap u.bytesOf).length = Mount.exactSize parts := by
  refine Upload.length_flatMap_bytesOf fun p hp => ?_
  obtain ⟨kept, hkept, -⟩ := hoffers.stored p hp
  obtain ⟨part, hlast, hdescribes⟩ := h u hu p.index kept hkept
  cases (hlatest p hp).symm.trans hlast
  rw [Upload.bytesOf_eq hkept, hdescribes.size]

end

/-! ## Reading it back -/

namespace Store

variable {m : Mount} {s : Store}

/-- What a request gives that would be fulfilled if no fault waited. -/
theorem gives_send {α : Type} {request : Request} {read : request.Reply → Except Error α}
    {reply : request.Reply} (h : ((s.record request).serve request).1 = .ok reply) :
    s.Gives request.kind (read reply) ((Call.send request read).run s).1 := by
  cases ht : takeFault? request.kind s.faults with
  | some p =>
    refine .inr ⟨p.1, mem_of_takeFault? ht, ?_⟩
    simp only [Call.send, Call.run, Backend.exchange, answer_of_some ht]
  | none =>
    refine .inl ?_
    simp only [Call.send, Call.run, Backend.exchange, answer_of_none ht, h]

/-- A customer key, or none, that opens what is stored under a key. -/
def Opens (s : Store) (bucket key : String) (customerKey : Option CustomerKey) : Prop :=
  ∀ o ∈ s.objectAt? bucket key, o.lock.map (·.md5) = customerKey.map (·.secretMd5)

/-- Reading an object whole. -/
theorem gives_read {path : String} {customerKey : Option CustomerKey} {o : KeptObject}
    (ho : s.objectAt? m.bucket (m.keyOf path false) = some o)
    (hopens : s.Opens m.bucket (m.keyOf path false) customerKey) :
    s.Gives .getObject (.ok o.body) ((m.read path {} customerKey).run s).1 := by
  let r : Request.GetObject := ⟨m.bucket, m.keyOf path false, none, customerKey⟩
  obtain ⟨b, hb, hget⟩ := Option.bind_eq_some_iff.mp ho
  have hserve : ((s.record (.getObject r)).serve (.getObject r)).1 =
      .ok ⟨o.body, UInt64.ofNat o.body.length, o.contentType, some o.etag⟩ := by
    have hbucket : (s.record (.getObject r)).bucket r.bucket = .ok b := bucket_eq_ok.mpr hb
    have hlock : checkLock o.lock r.customerKey = .ok () := checkLock_of_md5 (hopens o ho)
    have hget' : b.objects.get? r.key = some o := hget
    simp only [serve, getObject, hbucket, bind, Except.bind, hget', Option.elim_some, hlock]
    rfl
  exact gives_send hserve

/-- Asking for the attributes of an object. -/
theorem gives_stat {path : String} {customerKey : Option CustomerKey} {o : KeptObject}
    (ho : s.objectAt? m.bucket (m.keyOf path false) = some o)
    (hopens : s.Opens m.bucket (m.keyOf path false) customerKey) :
    s.Gives .headObject (.ok (Mount.ofHead (m.keyOf path false) path .read (head o)))
      ((m.stat path .object customerKey).run s).1 := by
  let r : Request.HeadObject := ⟨m.bucket, m.keyOf path false, customerKey⟩
  obtain ⟨b, hb, hget⟩ := Option.bind_eq_some_iff.mp ho
  have hserve : ((s.record (.headObject r)).serve (.headObject r)).1 = .ok (head o) := by
    have hbucket : (s.record (.headObject r)).bucket r.bucket = .ok b := bucket_eq_ok.mpr hb
    have hlock : checkLock o.lock r.customerKey = .ok () := checkLock_of_md5 (hopens o ho)
    have hget' : b.objects.get? r.key = some o := hget
    simp only [serve, headObject, hbucket, bind, Except.bind, hget', Option.elim_some, hlock]
    rfl
  exact gives_send hserve

end Store

/-- A completed object is found as its caller holds it: with the length that the caller was told, with
this body, and with the same attributes. -/
structure Mount.ReadsBack (m : Mount) (s : Store) (path : String) (body : Bytes)
    (completed : Object) : Prop where
  length : ∃ n, completed.contentLength = some n ∧ n.toNat = body.length
  read : ∀ customerKey, s.Opens m.bucket (m.keyOf path false) customerKey →
    s.Gives .getObject (.ok body) ((m.read path {} customerKey).run s).1
  stat : ∀ customerKey, s.Opens m.bucket (m.keyOf path false) customerKey →
    ∃ info, s.Gives .headObject (.ok info) ((m.stat path .object customerKey).run s).1 ∧
      info.contentLength = completed.contentLength ∧ info.etag = completed.etag

/-- **Completing an upload, end to end.** A completion succeeds just where no fault waits for it and
the upload offers the listed parts. The object then has their bytes in their order, and the upload is
gone. If the caller opened the upload itself and lists the parts as they were last written, then the
length that it is told is that of the body, and it finds the object so. -/
theorem completion_end_to_end (m : Mount) (s : Store) (object : Object) (parts : List Part)
    (hsizes : Mount.exactSize parts < UInt64.size) :
    (((m.completeUpload object parts).run s).1.1.isOk = true ↔
      Store.takeFault? .completeUpload s.faults = none ∧
        ∃ id u, Completable s m.bucket object parts id u) ∧
      ∀ completed s', (m.completeUpload object parts).run s = ((.ok (), completed), s') →
        ∃ id u, Completable s m.bucket object parts id u ∧
          Completed m.bucket object parts id u completed s' ∧
          ∀ path choices s₀ s₁ cs, (m.createUpload path choices).run s₀ = (.ok object, s₁) →
            s = (Run.calls ⟨s₁, []⟩ cs).state →
            (∀ p ∈ parts, lastWritten s₁ m.bucket ⟨object.id, id⟩ p.index
              (Run.calls ⟨s₁, []⟩ cs).history = some p) →
            m.ReadsBack s' path (parts.flatMap u.bytesOf) completed := by
  refine ⟨Store.completeUpload_isOk, fun completed s' h => ?_⟩
  obtain ⟨id, u, hcompletable, hcompleted⟩ := Store.run_completeUpload_ok hsizes h
  refine ⟨id, u, hcompletable, hcompleted, ?_⟩
  rintro path choices s₀ s₁ cs hcreated rfl hlatest
  obtain ⟨id', rfl, hmeasured⟩ := Measured.of_createUpload hcreated
  obtain rfl : id' = id := Option.some.inj hcompletable.uploadId
  have hlength := (hmeasured.calls cs).length_bytesOf hcompletable.isOpen hcompletable.offers hlatest
  obtain ⟨n, hn, hsum⟩ := hcompleted.length
  obtain ⟨o, ho, hbody, hetag⟩ := hcompleted.stored
  refine ⟨⟨n, hn, hsum.trans hlength.symm⟩, fun customerKey hopens => ?_, fun customerKey hopens => ?_⟩
  · rw [← hbody]
    exact Store.gives_read ho hopens
  · refine ⟨_, Store.gives_stat ho hopens, ?_, ?_⟩
    · -- The attributes tell the length of the body, which is the one that was added up.
      have hsize : UInt64.ofNat o.body.length = n := by
        rw [hbody, hlength, ← hsum, UInt64.ofNat_toNat]
      rw [hn, ← hsize]
      rfl
    · rw [hcompleted.etag, ← hetag]
      rfl

/-- An upload is completed from two parts with a gap between them, one of them written twice. -/
theorem completion_end_to_end_gap :
    let m : Mount := ⟨"b", .root, 200, none, none, by decide⟩
    let s₀ := Store.withBuckets ["b"] (fun n => toString n) 2 false
    let s₁ := ((m.createUpload "k" {}).run s₀).2
    let object := Object.upload "k" "k" "0"
    let parts : List Part := [⟨0, 2, Store.bodyEtag [1, 2]⟩, ⟨4, 1, Store.bodyEtag [5]⟩]
    let s := (Run.calls ⟨s₁, []⟩ [(m, .writePart object 4 [5] 1 none none),
      (m, .writePart object 0 [9] 1 none none), (m, .writePart object 0 [1, 2] 2 none none)]).state
    Mount.exactSize parts < UInt64.size ∧
      ((m.completeUpload object parts).run s).1.1.isOk = true ∧
      ∃ completed s', (m.completeUpload object parts).run s = ((.ok (), completed), s') ∧
        completed.contentLength = some 3 ∧ s'.bodyAt? "b" "k" = some [1, 2, 5] := by
  intro m s₀ s₁ object parts s
  have hsizes : Mount.exactSize parts < UInt64.size := by decide
  have hok : ((m.completeUpload object parts).run s).1.1.isOk = true := by decide +kernel
  obtain ⟨⟨⟩, hsuccess⟩ := isOk_iff.mp hok
  let completed := ((m.completeUpload object parts).run s).1.2
  have hrun : (m.completeUpload object parts).run s =
      ((.ok (), completed), ((m.completeUpload object parts).run s).2) :=
    Prod.ext (Prod.ext hsuccess rfl) rfl
  obtain ⟨id, u, hcompletable, hresult, hreads⟩ :=
    (completion_end_to_end m s object parts hsizes).2 completed _ hrun
  obtain rfl : "0" = id := Option.some.inj hcompletable.uploadId
  have hbytes : (s.uploadAt? "b" ⟨"k", "0"⟩).map (fun u => parts.flatMap u.bytesOf) =
      some [1, 2, 5] := by decide +kernel
  have hopen : s.uploadAt? "b" ⟨"k", "0"⟩ = some u := hcompletable.isOpen
  rw [hopen] at hbytes
  have hbody : parts.flatMap u.bytesOf = [1, 2, 5] := Option.some.inj hbytes
  have hback := hreads "k" {} s₀ s₁ _ (Prod.ext (by decide +kernel) rfl) rfl (by decide +kernel)
  obtain ⟨n, hn, hlength⟩ := hback.length
  obtain ⟨o, ho, hobody, -⟩ := hresult.stored
  refine ⟨hsizes, hok, completed, _, hrun, ?_, ?_⟩
  · rw [hn]
    rw [hbody] at hlength
    exact congrArg some (UInt64.toNat_inj.mp hlength)
  · rw [Store.bodyAt?_eq]
    exact (congrArg (Option.map KeptObject.body) ho).trans (congrArg some (hobody.trans hbody))

/-- While a fault waits, an upload is not completed although nothing stands against it. -/
theorem completion_waiting_fault :
    let m : Mount := ⟨"b", .root, 200, none, none, by decide⟩
    let object := Object.upload "k" "k" "0"
    let parts : List Part := [⟨0, 1, Store.bodyEtag [97]⟩]
    let fault := Fault.http "SlowDown" 503 "slow"
    let s := (Run.calls ⟨Store.withBuckets ["b"] (fun n => toString n) 0 false, []⟩
      [(m, .createUpload "k" {}), (m, .writePart object 0 [97] 1 none none)]).state.arrangeFault
        .completeUpload fault
    (∃ id u, Completable s m.bucket object parts id u) ∧
      ((m.completeUpload object parts).run s).1.1 = .error (.ofFault fault) := by
  intro m object parts fault s
  -- Before the fault was arranged, the upload could be completed.
  have hbefore : ((m.completeUpload object parts).run { s with faults := [] }).1.1.isOk = true := by
    decide +kernel
  obtain ⟨-, id, u, h⟩ := Store.completeUpload_isOk.mp hbefore
  refine ⟨⟨id, u, h.isPart, h.uploadId, h.nonempty, h.ascending, h.bounded, h.isOpen, h.offers⟩, ?_⟩
  decide +kernel

end ObjectStore
