import ObjectStore.Proofs.Listing.Uploads

/-!
# What is seen below a stem

A caller who only asks below a stem sees of a store what its bucket holds there, and the faults that
wait for the requests it sends. Two stores that agree in this answer alike, whatever else they hold:
a single call (`Call.run_alike`), and a listing that is collected, page by page
(`Mount.collect_alike`). The two stores may differ in how many fetches they have patience for, but
either number is enough, and more fetches do not change an answer (`Feed.drain_mono`).
-/

namespace ObjectStore

/-! ## Stems of keys -/

namespace Text

theorem startsWith_iff_toList {stem text : String} :
    startsWith stem text = true ↔ stem.toList <+: text.toList := by
  rw [startsWith_iff]
  constructor
  · rintro ⟨rest, rfl⟩
    exact ⟨rest.toList, String.toList_append.symm⟩
  · rintro ⟨rest, h⟩
    refine ⟨String.ofList rest, String.toList_inj.mp ?_⟩
    rw [String.toList_append, String.toList_ofList, h]

theorem startsWith_append (stem rest : String) : startsWith stem (stem ++ rest) = true :=
  startsWith_iff.mpr ⟨rest, rfl⟩

theorem startsWith_trans {a b c : String} (hab : startsWith a b = true)
    (hbc : startsWith b c = true) : startsWith a c = true := by
  rw [startsWith_iff_toList] at *
  exact hab.trans hbc

/-- Of two stems of one text, one is a stem of the other. -/
theorem startsWith_or_startsWith {a b text : String} (ha : startsWith a text = true)
    (hb : startsWith b text = true) : startsWith a b = true ∨ startsWith b a = true := by
  rw [startsWith_iff_toList] at *
  rw [startsWith_iff_toList]
  exact List.prefix_or_prefix_of_prefix ha hb

end Text

/-- Every key of a mount starts with its stem. -/
theorem Mount.startsWith_keyOf (m : Mount) (path : String) (dir : Bool) :
    Text.startsWith m.workDir.stem (m.keyOf path dir) = true := by
  cases dir with
  | false => exact Text.startsWith_append _ path
  | true => exact Text.startsWith_trans (Text.startsWith_append _ path) (Text.startsWith_append _ _)

/-! ## Stores that are alike below a stem -/

/-- Two buckets hold the same objects and the same open uploads below a stem. -/
structure Bucket.AlikeBelow (stem : String) (b b' : Bucket) : Prop where
  objects : ∀ key, Text.startsWith stem key = true → b'.objects.get? key = b.objects.get? key
  uploads : ∀ name : UploadName, Text.startsWith stem name.key = true →
    b'.uploads.get? name = b.uploads.get? name

namespace Bucket.AlikeBelow

variable {stem : String} {b b' b'' : Bucket}

theorem refl (stem : String) (b : Bucket) : b.AlikeBelow stem b :=
  ⟨fun _ _ => rfl, fun _ _ => rfl⟩

theorem trans (h : b.AlikeBelow stem b') (h' : b'.AlikeBelow stem b'') : b.AlikeBelow stem b'' :=
  ⟨fun key hkey => (h'.objects key hkey).trans (h.objects key hkey),
    fun name hname => (h'.uploads name hname).trans (h.uploads name hname)⟩

/-- What is the same below a stem is so below a longer one. -/
theorem narrow {longer : String} (h : b.AlikeBelow stem b')
    (hstem : Text.startsWith stem longer = true) : b.AlikeBelow longer b' :=
  ⟨fun key hkey => h.objects key (Text.startsWith_trans hstem hkey),
    fun name hname => h.uploads name (Text.startsWith_trans hstem hname)⟩

end Bucket.AlikeBelow

/-- Tables that answer look-ups of some names alike have the same entries under these. -/
theorem Table.filter_entries_congr {κ α : Type} [LT κ] [DecidableLT κ] [LE κ] [Std.IsLinearOrder κ]
    [Std.LawfulOrderLT κ] {t t' : Table κ α} {p : κ → Bool}
    (h : ∀ k, p k = true → t'.get? k = t.get? k) :
    (t'.entries.filter fun e => p e.1) = t.entries.filter fun e => p e.1 := by
  refine Table.eq_of_mem_iff (t'.ascending.filter _) (t.ascending.filter _) fun e => ?_
  simp only [List.mem_filter]
  refine and_congr_left fun hp => ?_
  rw [← Table.get?_eq_some_iff t', ← Table.get?_eq_some_iff t, h e.1 hp]

namespace Store

variable {s s' : Store} {bucket stem : String} {b b' : Bucket}

/-- What a listing can show comes from the keys below its stem. -/
theorem shownTable_filter (stem : String) (delimiter : Option String)
    (t : Table String KeptObject) :
    shownTable stem delimiter t =
      (t.entries.filter fun e => Text.startsWith stem e.1).foldr
        (fun e t =>
          match shown? stem delimiter e.1 with
          | none => t
          | some (.object key) => t.insert key (some e.2)
          | some (.group name) => t.insert name none)
        ∅ := by
  rw [List.foldr_filter, shownTable]
  congr 1
  funext e t
  by_cases h : Text.startsWith stem e.1 = true
  · exact (if_pos h).symm
  · have hnone : shown? stem delimiter e.1 = none := by
      refine shown?_none fun rest hrest => h ?_
      exact Text.startsWith_iff.mpr ⟨rest, hrest⟩
    rw [if_neg h, hnone]

theorem listObjects_alike {r : Request.ListObjects} (h : b.AlikeBelow r.stem b') :
    listObjects b' r = listObjects b r := by
  have hshown : shownTable r.stem r.delimiter b'.objects =
      shownTable r.stem r.delimiter b.objects := by
    rw [shownTable_filter, shownTable_filter, Table.filter_entries_congr h.objects]
  rw [listObjects, listObjects, hshown]

theorem listUploads_alike {r : Request.ListUploads} (h : b.AlikeBelow r.stem b') :
    listUploads b' r = listUploads b r := by
  have hsame (name : UploadName) (hname : (Text.startsWith r.stem name.key &&
      pastMarkers r.keyMarker r.idMarker name) = true) : b'.uploads.get? name = b.uploads.get? name :=
    h.uploads name (Bool.and_eq_true_iff.mp hname).1
  have hleft := Table.filter_entries_congr hsame
  rw [listUploads, listUploads, hleft]

/-- Two stores are alike below a stem of a bucket: neither has the bucket, or both have it and hold
the same in it below the stem. -/
inductive AlikeBelow (bucket stem : String) (s s' : Store) : Prop where
  | absent (h : s.buckets.get? bucket = none) (h' : s'.buckets.get? bucket = none)
  | present {b b' : Bucket} (h : s.buckets.get? bucket = some b)
    (h' : s'.buckets.get? bucket = some b') (hb : b.AlikeBelow stem b')

namespace AlikeBelow

/-- Where the bucket is the same, nothing below any stem has changed. -/
theorem of_get? (stem : String) (h : s'.buckets.get? bucket = s.buckets.get? bucket) :
    s.AlikeBelow bucket stem s' := by
  cases hb : s.buckets.get? bucket with
  | none => exact .absent hb (h.trans hb)
  | some b => exact .present hb (h.trans hb) (.refl stem b)

theorem trans {s'' : Store} (h : s.AlikeBelow bucket stem s') (h' : s'.AlikeBelow bucket stem s'') :
    s.AlikeBelow bucket stem s'' := by
  cases h with
  | absent hs hs' =>
    cases h' with
    | absent _ hs'' => exact .absent hs hs''
    | present hb _ _ => cases hs'.symm.trans hb
  | present hb hb' halike =>
    cases h' with
    | absent hs' _ => cases hb'.symm.trans hs'
    | present hc hc' halike' =>
      cases hb'.symm.trans hc
      exact .present hb hc' (halike.trans halike')

end AlikeBelow

end Store

/-! ## Requests that look below a stem -/

/-- That a request only looks, and looks at nothing but what a bucket holds below a stem. -/
def Request.LooksBelow (bucket stem : String) : Request → Prop
  | .listObjects r => r.bucket = bucket ∧ Text.startsWith stem r.stem = true
  | .listUploads r => r.bucket = bucket ∧ Text.startsWith stem r.stem = true
  | .listParts r => r.bucket = bucket ∧ Text.startsWith stem r.key = true
  | .headObject r => r.bucket = bucket ∧ Text.startsWith stem r.key = true
  | .getObject r => r.bucket = bucket ∧ Text.startsWith stem r.key = true
  | _ => False

namespace Store

variable {s s' : Store} {bucket stem : String} {request : Request}

theorem isLook_of_looksBelow (h : request.LooksBelow bucket stem) : isLook request = true := by
  cases request <;> first | rfl | cases h

/-- What is seen below a stem decides how a request that looks there is served. -/
theorem serve_alike (hlooks : request.LooksBelow bucket stem) (h : s.AlikeBelow bucket stem s') :
    (s'.serve request).1 = (s.serve request).1 := by
  cases h with
  | absent hs hs' =>
    have hbucket : s.bucket bucket = .error (.bucketNotThere bucket) := bucket_eq_error.mpr ⟨hs, rfl⟩
    have hbucket' : s'.bucket bucket = .error (.bucketNotThere bucket) :=
      bucket_eq_error.mpr ⟨hs', rfl⟩
    cases request with
    | listObjects r | listUploads r | listParts r =>
      obtain ⟨rfl, -⟩ := hlooks
      simp only [serve, hbucket, hbucket', Except.map, Except.bind]
    | headObject r | getObject r =>
      obtain ⟨rfl, -⟩ := hlooks
      simp only [serve, headObject, getObject, hbucket, hbucket', bind, Except.bind]
      rfl
    | _ => cases hlooks
  | present hb hb' halike =>
    rename_i b b'
    have hbucket : s.bucket bucket = .ok b := bucket_eq_ok.mpr hb
    have hbucket' : s'.bucket bucket = .ok b' := bucket_eq_ok.mpr hb'
    cases request with
    | listObjects r =>
      obtain ⟨rfl, hstem⟩ := hlooks
      simp only [serve, hbucket, hbucket', Except.map, listObjects_alike (halike.narrow hstem)]
    | listUploads r =>
      obtain ⟨rfl, hstem⟩ := hlooks
      simp only [serve, hbucket, hbucket', Except.map, listUploads_alike (halike.narrow hstem)]
    | listParts r =>
      obtain ⟨rfl, hkey⟩ := hlooks
      simp only [serve, hbucket, hbucket', Except.bind, findUpload,
        halike.uploads ⟨r.key, r.uploadId⟩ hkey]
    | headObject r =>
      obtain ⟨rfl, hkey⟩ := hlooks
      simp only [serve, headObject, hbucket, hbucket', bind, Except.bind, halike.objects r.key hkey]
      rfl
    | getObject r =>
      obtain ⟨rfl, hkey⟩ := hlooks
      simp only [serve, getObject, hbucket, hbucket', bind, Except.bind, halike.objects r.key hkey]
      rfl
    | _ => cases hlooks

/-! ## Waiting faults -/

/-- The faults that wait for requests of a kind, in turn. -/
def waiting (s : Store) (kind : Request.Kind) : List (Request.Kind × Fault) :=
  s.faults.filter fun f => f.1 = kind

theorem waiting_of_forall {kind : Request.Kind} (h : ∀ f, (kind, f) ∉ s.faults) :
    s.waiting kind = [] := by
  refine List.filter_eq_nil_iff.mpr ?_
  rintro ⟨k, f⟩ hf hk
  obtain rfl := of_decide_eq_true hk
  exact h f hf

/-- The fault that is taken is the first that waits, and the others wait on. -/
theorem filter_of_take {kind : Request.Kind} {f : Fault} {faults rest : List (Request.Kind × Fault)}
    (h : takeFault? kind faults = some (f, rest)) :
    (faults.filter fun f => f.1 = kind) = (kind, f) :: rest.filter fun f => f.1 = kind := by
  induction faults generalizing rest with
  | nil => cases h
  | cons first faults ih =>
    obtain ⟨k, g⟩ := first
    rw [takeFault?] at h
    by_cases hk : k = kind
    · rw [if_pos hk] at h
      cases h
      simp [hk]
    · rw [if_neg hk] at h
      obtain ⟨⟨f', rest'⟩, hrest, heq⟩ := Option.map_eq_some_iff.mp h
      cases heq
      simpa [hk] using ih hrest

theorem waiting_eq_nil {kind : Request.Kind} :
    s.waiting kind = [] ↔ takeFault? kind s.faults = none := by
  constructor
  · intro h
    cases ht : takeFault? kind s.faults with
    | none => rfl
    | some p =>
      rw [waiting, filter_of_take (f := p.1) ht] at h
      cases h
  · intro h
    rw [waiting]
    generalize s.faults = faults at h
    induction faults with
    | nil => rfl
    | cons first faults ih =>
      rw [takeFault?] at h
      by_cases hk : first.1 = kind
      · rw [if_pos hk] at h
        cases h
      · rw [if_neg hk] at h
        rw [List.filter_cons_of_neg (by simpa using hk)]
        exact ih (Option.map_eq_none_iff.mp h)

/-- Two stores look alike to a caller who asks below a stem of a bucket by requests of one kind. -/
structure Alike (bucket stem : String) (kind : Request.Kind) (s s' : Store) : Prop where
  below : s.AlikeBelow bucket stem s'
  waiting : s'.waiting kind = s.waiting kind

/-- **One request.** Stores that look alike answer alike, and look alike afterwards. -/
theorem answer_alike (hlooks : request.LooksBelow bucket stem)
    (h : s.Alike bucket stem request.kind s') :
    (s'.answer request).1 = (s.answer request).1 ∧
      (s.answer request).2.Alike bucket stem request.kind (s'.answer request).2 := by
  have hwaiting := h.waiting
  cases ht : takeFault? request.kind s.faults with
  | some p =>
    cases ht' : takeFault? request.kind s'.faults with
    | some p' =>
      rw [answer_of_some (f := p.1) ht, answer_of_some (f := p'.1) ht']
      rw [waiting, waiting, filter_of_take (f := p.1) ht, filter_of_take (f := p'.1) ht'] at hwaiting
      obtain ⟨hfault, hrest⟩ := List.cons_eq_cons.mp hwaiting
      refine ⟨congrArg Except.error (congrArg Prod.snd hfault), ?_, hrest⟩
      cases h.below with
      | absent hs hs' => exact .absent hs hs'
      | present hb hb' halike => exact .present hb hb' halike
    | none =>
      rw [waiting_eq_nil.mpr ht', waiting, filter_of_take (f := p.1) ht] at hwaiting
      cases hwaiting
  | none =>
    have hnone : takeFault? request.kind s'.faults = none :=
      waiting_eq_nil.mp (hwaiting.trans (waiting_eq_nil.mpr ht))
    have hbelow : (s.record request).AlikeBelow bucket stem (s'.record request) := by
      cases h.below with
      | absent hs hs' => exact .absent hs hs'
      | present hb hb' halike => exact .present hb hb' halike
    have hlook := isLook_of_looksBelow hlooks
    rw [answer_of_none ht, answer_of_none hnone, serve_of_isLook hlook, serve_of_isLook hlook]
    exact ⟨serve_alike hlooks hbelow, hbelow, hwaiting⟩

end Store

/-! ## Calls -/

namespace Call

variable {α : Type} {c : Call α} {s s' : Store} {bucket stem : String}

/-- That a call asks for nothing but what a bucket holds below a stem. -/
def LooksBelow (c : Call α) (bucket stem : String) : Prop :=
  ∀ request ∈ c.request?, request.LooksBelow bucket stem

/-- That no fault was taken between two states of a store that a call would have met in the first. -/
def Spared (c : Call α) (s s' : Store) : Prop :=
  ∀ request ∈ c.request?, s'.waiting request.kind = s.waiting request.kind

/-- Where no fault waited, none was taken. -/
theorem spared_of_none (hkeeps : ∀ f ∈ s'.faults, f ∈ s.faults)
    (h : ∀ request ∈ c.request?, ∀ f, (request.kind, f) ∉ s.faults) : c.Spared s s' := by
  intro request hrequest
  rw [Store.waiting_of_forall (h request hrequest),
    Store.waiting_of_forall fun f hf => h request hrequest f (hkeeps _ hf)]

/-- **One call.** A call that asks below a stem has the same result in stores that look alike. -/
theorem run_alike (hlooks : c.LooksBelow bucket stem) (hspared : c.Spared s s')
    (h : s.AlikeBelow bucket stem s') : (c.run s').1 = (c.run s).1 := by
  cases c with
  | done a => rfl
  | ask request read =>
    have hanswer := Store.answer_alike (hlooks request rfl) ⟨h, hspared request rfl⟩
    exact congrArg read hanswer.1

end Call

/-! ## Collecting -/

namespace Feed

variable {σ κ ι : Type} {source : PageSource σ κ ι} {P : κ → Prop} {R : σ → σ → Prop}

/-- What fetching all that is left brings is the same from states that look alike, if each fetch
brings the same there and they look alike after it. -/
theorem drain_alike
    (hsource : ∀ k s s', P k → R s s' → (source k s').1 = (source k s).1 ∧
      R (source k s).2 (source k s').2 ∧ P (source k s).1.position)
    {fuel : Nat} {p : Feed κ ι} {s s' : σ} (hp : P p.position) (h : R s s') :
    ((p.drain source fuel s').map fun r => (r.1, r.2.1)) =
      (p.drain source fuel s).map fun r => (r.1, r.2.1) := by
  induction fuel generalizing p s s' with
  | zero =>
    rw [drain, drain]
    split <;> rfl
  | succ fuel ih =>
    cases hx : p.exhausted with
    | true =>
      rw [drain_of_exhausted hx, drain_of_exhausted hx]
      rfl
    | false =>
      obtain ⟨hsame, halike, hnext⟩ := hsource p.position s s' hp h
      cases hpage : (source p.position s).1.page.outcome with
      | error e =>
        have hpage' : (source p.position s').1.page.outcome = .error e := by rw [hsame, hpage]
        rw [drain_of_load_error hx (load_of_error hpage),
          drain_of_load_error hx (load_of_error hpage'), hsame]
        rfl
      | ok isLast =>
        have hpage' : (source p.position s').1.page.outcome = .ok isLast := by rw [hsame, hpage]
        rw [drain_of_load hx (load_of_ok hpage), drain_of_load hx (load_of_ok hpage'), hsame]
        exact ih hnext halike

/-- What collecting a feed comes to. -/
theorem collect_map_fst (source : PageSource σ κ ι) (fuel : Nat) (p : Feed κ ι) (s : σ) :
    (p.collect source fuel s).map Prod.fst =
      ((p.drain source fuel s).map fun r => (r.1, r.2.1)).map fun r =>
        match r.1 with
        | none => .ok r.2.buffer
        | some e => .error e := by
  rw [collect, Option.map_map, Option.map_map]
  rfl

/-- A feed that can be drained from two states that look alike collects the same from both, with
whatever number of fetches it is drained. -/
theorem collect_alike
    (hsource : ∀ k s s', P k → R s s' → (source k s').1 = (source k s).1 ∧
      R (source k s).2 (source k s').2 ∧ P (source k s).1.position)
    {fuel fuel' : Nat} {p : Feed κ ι} {s s' : σ} (hp : P p.position) (h : R s s')
    (hdrain : (p.drain source fuel s).isSome = true)
    (hdrain' : (p.drain source fuel' s').isSome = true) :
    ∃ answer, (p.collect source fuel s).map Prod.fst = some answer ∧
      (p.collect source fuel' s').map Prod.fst = some answer := by
  obtain ⟨r, hr⟩ := Option.isSome_iff_exists.mp hdrain
  obtain ⟨r', hr'⟩ := Option.isSome_iff_exists.mp hdrain'
  have hsame : ((p.drain source (max fuel fuel') s').map fun r => (r.1, r.2.1)) =
      (p.drain source (max fuel fuel') s).map fun r => (r.1, r.2.1) := drain_alike hsource hp h
  rw [drain_mono hr (Nat.le_max_left _ _), drain_mono hr' (Nat.le_max_right _ _)] at hsame
  rw [collect_map_fst, collect_map_fst, hr, hr', hsame]
  exact ⟨_, rfl, rfl⟩

end Feed

/-- The stem below which a position lists. -/
def ListingPosition.stem : ListingPosition → String
  | .flat c => c.stem
  | .grouped c _ => c.stem
  | .uploads c => c.stem

/-- The kind of request that asks for the page at a position. -/
def ListingPosition.asks : ListingPosition → Request.Kind
  | .flat _ => .listObjects
  | .grouped _ _ => .listObjects
  | .uploads _ => .listUploads

namespace Mount

variable {m : Mount} {stem : String} {s s' : Store}

/-! ## Calls of a mount -/

theorem looksBelow_read (m : Mount) (path : String) (window : Window) (key : Option CustomerKey) :
    (m.read path window key).LooksBelow m.bucket m.workDir.stem := by
  intro request hrequest
  rw [read] at hrequest
  split at hrequest
  · cases hrequest
  · cases hrange : window.range with
    | error e =>
      rw [hrange] at hrequest
      cases hrequest
    | ok range =>
      rw [hrange] at hrequest
      cases hrequest
      exact ⟨rfl, m.startsWith_keyOf path false⟩

theorem looksBelow_stat (m : Mount) (path : String) (target : Target) (key : Option CustomerKey) :
    (m.stat path target key).LooksBelow m.bucket m.workDir.stem := by
  intro request hrequest
  cases target with
  | object | upload id =>
    cases hrequest
    exact ⟨rfl, m.startsWith_keyOf path false⟩
  | dir =>
    cases hrequest
    exact ⟨rfl, m.startsWith_keyOf path true⟩

/-- The page at a position is asked for by its kind of request, below its stem. -/
theorem looksBelow_objectPage {position : ListingPosition}
    (h : Text.startsWith stem position.stem = true) :
    ∀ request ∈ (m.objectPage position).request?,
      request.LooksBelow m.bucket stem ∧ request.kind = position.asks := by
  intro request hrequest
  cases position <;> cases hrequest <;> exact ⟨⟨rfl, h⟩, rfl⟩

theorem stem_fetched {κ : Type} {position : κ} {wrap : κ → ListingPosition}
    {next : Except Error (Option κ)} {items : List Object} {before : ListingPosition}
    (hstays : (wrap position).stem = before.stem ∧ (wrap position).asks = before.asks)
    (hgoes : ∀ position', next = .ok (some position') →
      (wrap position').stem = before.stem ∧ (wrap position').asks = before.asks) :
    (fetched position wrap next items).position.stem = before.stem ∧
      (fetched position wrap next items).position.asks = before.asks := by
  match next with
  | .error e => exact hstays
  | .ok none => exact hstays
  | .ok (some position') => exact hgoes position' rfl

theorem stem_nextStem {position position' : StemPosition} {reply : Reply.Objects}
    (h : nextStem position reply = .ok (some position')) : position'.stem = position.stem := by
  rw [nextStem] at h
  split at h
  · split at h
    · cases h
      rfl
    · cases h
  · cases h

theorem stem_nextUpload {position position' : UploadPosition} {reply : Reply.Uploads}
    (h : nextUpload position reply = .ok (some position')) : position'.stem = position.stem := by
  rw [nextUpload] at h
  split at h
  · split at h
    · cases h
      rfl
    · cases h
  · cases h

/-- A listing keeps its stem, and asks by the same kind of request, from page to page. -/
theorem position_objectPage (m : Mount) (position : ListingPosition) (s : Store) :
    ((m.objectPage position).run s).1.position.stem = position.stem ∧
      ((m.objectPage position).run s).1.position.asks = position.asks := by
  cases position with
  | flat c =>
    rw [objectPage, askPage, Call.run]
    cases (Backend.exchange (.listObjects ⟨m.bucket, c.stem, none, c.limit, c.token?⟩) s).1 with
    | error f => exact ⟨rfl, rfl⟩
    | ok reply => exact stem_fetched ⟨rfl, rfl⟩ fun position' h => ⟨stem_nextStem h, rfl⟩
  | grouped c d =>
    rw [objectPage, askPage, Call.run]
    cases (Backend.exchange (.listObjects ⟨m.bucket, c.stem, some d, c.limit, c.token?⟩) s).1 with
    | error f => exact ⟨rfl, rfl⟩
    | ok reply => exact stem_fetched ⟨rfl, rfl⟩ fun position' h => ⟨stem_nextStem h, rfl⟩
  | uploads c =>
    rw [objectPage, askPage, Call.run]
    cases (Backend.exchange
      (.listUploads ⟨m.bucket, c.stem, c.limit, c.keyMarker, c.idMarker⟩) s).1 with
    | error f => exact ⟨rfl, rfl⟩
    | ok reply => exact stem_fetched ⟨rfl, rfl⟩ fun position' h => ⟨stem_nextUpload h, rfl⟩

/-- **One fetch.** Stores that look alike show the same page, and look alike after it. -/
theorem objectPage_alike {kind : Request.Kind} {position : ListingPosition}
    (hposition : Text.startsWith stem position.stem = true ∧ position.asks = kind)
    (h : s.Alike m.bucket stem kind s') :
    ((m.objectPage position).run s').1 = ((m.objectPage position).run s).1 ∧
      ((m.objectPage position).run s).2.Alike m.bucket stem kind
        ((m.objectPage position).run s').2 := by
  obtain ⟨hstem, rfl⟩ := hposition
  have hlooks := looksBelow_objectPage (m := m) hstem
  cases hpage : m.objectPage position with
  | done fetch => exact ⟨rfl, h⟩
  | ask request read =>
    rw [hpage] at hlooks
    obtain ⟨hrequest, hkind⟩ := hlooks request rfl
    rw [← hkind] at h ⊢
    obtain ⟨hanswer, halike⟩ := Store.answer_alike hrequest h
    exact ⟨congrArg read hanswer, halike⟩

/-- A listing of a path starts below the stem of the mount, and can be fetched to its end. -/
theorem list_eq_ok {path : String} {kind : ListingKind} {l : Listing ListingPosition Object}
    (h : m.list path kind = .ok l) :
    ∃ position, l = .start m.objectPage position ∧ position.stem = m.workDir.keyOf path ∧
      ∀ s : Store, (l.feed.drain l.source (Backend.patience s) s).isSome = true := by
  have hstem (L : StemListing m) (s : Store) :
      (L.listing.feed.drain L.listing.source (Backend.patience s) s).isSome = true := by
    refine L.paging.drain_isSome (t := none) rfl rfl nofun ?_
    rw [past_none]
    exact Nat.lt_succ_of_le (L.length_entries_le s)
  cases kind with
  | flat =>
    cases h
    exact ⟨_, rfl, rfl, hstem (.flat m (m.workDir.keyOf path))⟩
  | dir =>
    cases h
    exact ⟨_, rfl, rfl, hstem (.dir m (m.workDir.keyOf path))⟩
  | part =>
    cases h
    refine ⟨_, rfl, rfl, fun s => ?_⟩
    refine (m.uploadPaging (m.workDir.keyOf path)).drain_isSome (t := none) rfl rfl nofun ?_
    rw [past_none]
    exact Nat.lt_succ_of_le (m.length_uploadEntries_le _ s)
  | block => cases h

/-- **One listing.** What lies below a path is collected alike from stores that look alike. -/
theorem collect_alike {path : String} {kind : ListingKind} {l : Listing ListingPosition Object}
    (hl : m.list path kind = .ok l) (hspared : (l.pages l.feed.position).Spared s s')
    (h : s.AlikeBelow m.bucket m.workDir.stem s') :
    ∃ answer, (l.collect s).map Prod.fst = some answer ∧
      (l.collect s').map Prod.fst = some answer := by
  obtain ⟨position, rfl, hposition, hdrain⟩ := list_eq_ok hl
  have hbelow : Text.startsWith m.workDir.stem position.stem = true := by
    rw [hposition]
    exact Text.startsWith_append _ path
  have hwaiting : s'.waiting position.asks = s.waiting position.asks := by
    cases position <;> exact hspared _ rfl
  refine Feed.collect_alike
    (P := fun k : ListingPosition =>
      Text.startsWith m.workDir.stem k.stem = true ∧ k.asks = position.asks)
    (R := Store.Alike m.bucket m.workDir.stem position.asks) (fun k t t' hk ht => ?_)
    ⟨hbelow, rfl⟩ ⟨h, hwaiting⟩ (hdrain s) (hdrain s')
  obtain ⟨hsame, halike⟩ := objectPage_alike hk ht
  obtain ⟨hstem, hasks⟩ := m.position_objectPage k t
  refine ⟨hsame, halike, ?_, hasks.trans hk.2⟩
  have hstem' : (Listing.source (.start m.objectPage position) k t).1.position.stem = k.stem := hstem
  rw [hstem']
  exact hk.1

end Mount

end ObjectStore
