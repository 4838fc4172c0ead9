import ObjectStore.Proofs.Effects

/-!
# The last writer wins

What a key of a store holds after a run is told by the history of the run alone: `lastBody` looks for
the last call on that very key that was a success and takes the body from it. A completed upload gets
its body from further back in the history: of each listed part, the bytes that the last successful
write to that part of that upload brought (`lastPart`).

`Agrees` says that a store and a history tell the same, of bodies and of the parts of open uploads.
It holds at the start, each call preserves it (`Agrees.call`), and so it holds after every run. Ids of
uploads may come in any order, may be empty and may come again: an upload that is opened under an id
that was used before starts without parts, so a part that is there was written since.
-/

namespace ObjectStore

/-! ## What a history tells -/

namespace Event

/-- The place of the object that a call is to store or to take away: bucket and key. -/
def target? (e : Event) : Option (String × String) :=
  match e.operation with
  | .write path .. => some (e.mount.bucket, e.mount.keyOf path false)
  | .makeDir path => some (e.mount.bucket, e.mount.keyOf path true)
  | .makeLink path _ => some (e.mount.bucket, e.mount.keyOf path false)
  | .delete path .object => some (e.mount.bucket, e.mount.keyOf path false)
  | .delete path .dir => some (e.mount.bucket, e.mount.keyOf path true)
  | .completeUpload object _ => some (e.mount.bucket, object.id)
  | _ => none

/-- Whether a call stored the object of a place, or took it away. -/
def settles (e : Event) (bucket key : String) : Bool :=
  e.succeeded && decide (e.target? = some (bucket, key))

theorem settles_iff {e : Event} {bucket key : String} :
    e.settles bucket key = true ↔ e.succeeded = true ∧ e.target? = some (bucket, key) := by
  simp [settles]

end Event

/-- Where a part goes: the upload, by bucket, key and id, and the index of the part. -/
structure PartPlace where
  bucket : String
  key : String
  uploadId : String
  index : UInt32
  deriving DecidableEq

/-- The bytes that a call wrote to a part, if it did. -/
def Event.writtenTo? (e : Event) (place : PartPlace) : Option Bytes :=
  match e.operation with
  | .writePart object index body .. =>
    if e.succeeded = true ∧ e.mount.bucket = place.bucket ∧ object.id = place.key ∧
        object.uploadId = some place.uploadId ∧ index = place.index then some body
    else none
  | _ => none

/-- An operation that only looks is to store or to take away nothing. -/
theorem Event.target?_of_isLook {e : Event} (h : e.operation.isLook = true) : e.target? = none := by
  obtain ⟨m, op, a⟩ := e
  cases op <;> first | rfl | cases h

/-- An operation that only looks writes no part. -/
theorem Event.writtenTo?_of_isLook {e : Event} (h : e.operation.isLook = true)
    (place : PartPlace) : e.writtenTo? place = none := by
  obtain ⟨m, op, a⟩ := e
  cases op <;> first | rfl | cases h

/-- The bytes of a part of an open upload. -/
def Store.partAt? (s : Store) (place : PartPlace) : Option Bytes := do
  let number ← (Mount.numberOfIndex place.index).toOption
  let u ← s.uploadAt? place.bucket ⟨place.key, place.uploadId⟩
  let p ← u.parts.get? number
  return p.body

theorem Store.partAt?_eq_some {s : Store} {place : PartPlace} {body : Bytes} :
    s.partAt? place = some body ↔
      ∃ number u p, Mount.numberOfIndex place.index = .ok number ∧
        s.uploadAt? place.bucket ⟨place.key, place.uploadId⟩ = some u ∧
        u.parts.get? number = some p ∧ p.body = body := by
  rw [partAt?]
  cases Mount.numberOfIndex place.index with
  | error e => simp [Except.toOption]
  | ok number => simp [Except.toOption, Option.bind_eq_some_iff]

/-- The bytes of the last successful write to a part; where there is none, what the part held at the
start. -/
def lastPart (start : Store) (place : PartPlace) (history : List Event) : Option Bytes :=
  (history.findSome? fun e => e.writtenTo? place).or (start.partAt? place)

/-- The body that a call which settles a key leaves there, after the calls before it. -/
def Event.body? (start : Store) (e : Event) (earlier : List Event) : Option Bytes :=
  match e.operation with
  | .write _ body .. => some body
  | .makeDir _ | .makeLink .. => some []
  | .completeUpload object parts =>
    (parts.mapM fun p =>
      lastPart start ⟨e.mount.bucket, object.id, object.uploadId.getD "", p.index⟩ earlier).map
        List.flatten
  | _ => none

/-- The body that the last call to settle a key left there; where there is none, the body of the
start. -/
def lastBody (start : Store) (bucket key : String) : List Event → Option Bytes
  | [] => start.bodyAt? bucket key
  | e :: earlier =>
    if e.settles bucket key then e.body? start earlier else lastBody start bucket key earlier

/-! ## Stores that agree with a history -/

/-- A store holds the bodies that a history tells, and its open uploads the parts. -/
structure Agrees (start s : Store) (history : List Event) : Prop where
  bodies : ∀ bucket key, s.bodyAt? bucket key = lastBody start bucket key history
  parts : ∀ place body, s.partAt? place = some body → lastPart start place history = some body
  faults : ∀ f ∈ s.faults, f ∈ start.faults

theorem Agrees.start (s : Store) : Agrees s s [] :=
  ⟨fun _ _ => rfl, fun _ _ h => h, fun _ h => h⟩

/-- What a call has to do to a store for it to go on agreeing: a key that the call settles gets the
call's body and all other keys keep theirs; parts that are there were there before, but for the one
that the call wrote. -/
theorem Agrees.cons {start s s' : Store} {history : List Event} {e : Event}
    (h : Agrees start s history)
    (hbodies : ∀ bucket key, s'.bodyAt? bucket key =
      if e.settles bucket key then e.body? start history else s.bodyAt? bucket key)
    (hparts : ∀ place body, s'.partAt? place = some body →
      (e.writtenTo? place).or (s.partAt? place) = some body)
    (hfaults : ∀ f ∈ s'.faults, f ∈ s.faults) : Agrees start s' (e :: history) := by
  refine ⟨fun bucket key => ?_, fun place body hp => ?_, fun f hf => h.faults f (hfaults f hf)⟩
  · rw [hbodies, lastBody, h.bodies]
  · have hor := hparts place body hp
    rw [lastPart, List.findSome?_cons]
    cases hw : e.writtenTo? place with
    | some body' =>
      rw [hw] at hor
      exact hor
    | none =>
      rw [hw] at hor
      exact h.parts place body hor

/-- A call that is no success, or settles nothing and writes no part, may leave the store. -/
theorem Agrees.idle {start s s' : Store} {history : List Event} {e : Event}
    (h : Agrees start s history) (hs : Store.Undisturbed s s')
    (hsettles : ∀ bucket key, e.settles bucket key = false)
    (hwritten : ∀ place, e.writtenTo? place = none) : Agrees start s' (e :: history) := by
  refine h.cons (fun bucket key => ?_) (fun place body hp => ?_) hs.faults
  · rw [hsettles, Store.bodyAt?_eq, Store.bodyAt?_eq, Store.objectAt?_congr hs.buckets]
    rfl
  · rw [hwritten, ← hp, Store.partAt?, Store.partAt?, Store.uploadAt?_congr hs.buckets]
    rfl

/-- A call that settles one key with this body, and opens no upload and writes no part. -/
theorem Agrees.settle {start s s' : Store} {history : List Event} {e : Event} {c : Change}
    {key : String} {o : Option KeptObject} (h : Agrees start s history) (hs : Store.Alters s c s')
    (hc : c.object = some (key, o)) (hu : c.upload = none ∨ ∃ name, c.upload = some (name, none))
    (hsucceeded : e.succeeded = true) (htarget : e.target? = some (c.bucket, key))
    (hbody : e.body? start history = o.map (·.body))
    (hwritten : ∀ place, e.writtenTo? place = none) : Agrees start s' (e :: history) := by
  refine h.cons (fun bucket k => ?_) (fun place body hp => ?_)
    (fun f hf => by rw [hs.faults] at hf; exact hf)
  · rw [Store.bodyAt?_eq, hs.objectAt?, hc]
    by_cases hk : c.bucket = bucket ∧ key = k
    · obtain ⟨rfl, rfl⟩ := hk
      rw [if_pos (Event.settles_iff.mpr ⟨hsucceeded, htarget⟩), hbody]
      simp
    · have hsettles : ¬ e.settles bucket k = true := by
        intro hset
        have heq := htarget.symm.trans (Event.settles_iff.mp hset).2
        exact hk (by simpa using heq)
      rw [if_neg hsettles, Store.bodyAt?_eq]
      simp only [hk, if_false]
  · obtain ⟨number, u, p, hn, hup, hget, rfl⟩ := Store.partAt?_eq_some.mp hp
    rw [hwritten, Option.none_or]
    refine Store.partAt?_eq_some.mpr ⟨number, u, p, hn, ?_, hget, rfl⟩
    rw [hs.uploadAt?] at hup
    rcases hu with hu | ⟨name, hu⟩
    · rw [hu] at hup
      exact hup
    · -- The one upload that was touched is gone, so it is not the one with the part.
      rw [hu] at hup
      simp only at hup
      split at hup
      · cases hup
      · exact hup

/-- A call that changes uploads only, by opening one or dropping one. -/
theorem Agrees.uploads {start s s' : Store} {history : List Event} {e : Event} {c : Change}
    {name : UploadName} {u? : Option Upload} (h : Agrees start s history)
    (hs : Store.Alters s c s') (hc : c.object = none) (hu : c.upload = some (name, u?))
    (hempty : ∀ u ∈ u?, u.parts = ∅) (hsettles : ∀ bucket key, e.settles bucket key = false)
    (hwritten : ∀ place, e.writtenTo? place = none) : Agrees start s' (e :: history) := by
  refine h.cons (fun bucket k => ?_) (fun place body hp => ?_)
    (fun f hf => by rw [hs.faults] at hf; exact hf)
  · rw [hsettles, Store.bodyAt?_eq, Store.bodyAt?_eq, hs.objectAt?, hc]
    rfl
  · obtain ⟨number, u, p, hn, hup, hget, rfl⟩ := Store.partAt?_eq_some.mp hp
    rw [hwritten, Option.none_or]
    refine Store.partAt?_eq_some.mpr ⟨number, u, p, hn, ?_, hget, rfl⟩
    rw [hs.uploadAt?, hu] at hup
    simp only at hup
    split at hup
    · rw [hempty u hup] at hget
      cases hget
    · exact hup

/-! ## What each call does -/

section Call

variable {start s s' : Store} {history : List Event} {m : Mount}

/-- Dropping an upload settles nothing. -/
theorem Agrees.drop {e : Event} {key id : String} (h : Agrees start s history)
    (hsettles : ∀ bucket key, e.settles bucket key = false)
    (hwritten : ∀ place, e.writtenTo? place = none) :
    Agrees start ((m.dropUpload key id).run s).2 (e :: history) := by
  rcases Store.run_dropUpload m s key id with ⟨a, s', hx, hs⟩ | ⟨s', hx, hs⟩
  · rw [hx]
    exact h.idle hs hsettles hwritten
  · rw [hx]
    exact h.uploads hs rfl rfl (fun u hu => by cases hu) hsettles hwritten

/-- Taking away what is not there settles its key all the same. -/
theorem Agrees.vacant {e : Event} {bucket key : String} (h : Agrees start s history)
    (hs : Store.Undisturbed s s') (hvacant : s.objectAt? bucket key = none)
    (htarget : e.target? = some (bucket, key)) (hbody : e.body? start history = none)
    (hwritten : ∀ place, e.writtenTo? place = none) : Agrees start s' (e :: history) := by
  refine h.cons (fun bucket' key' => ?_) (fun place body hp => ?_) hs.faults
  · rw [Store.bodyAt?_eq, Store.bodyAt?_eq, Store.objectAt?_congr hs.buckets]
    split
    · rename_i hset
      have heq := htarget.symm.trans (Event.settles_iff.mp hset).2
      simp only [Option.some.injEq, Prod.mk.injEq] at heq
      rw [hbody, ← heq.1, ← heq.2, hvacant]
      rfl
    · rfl
  · rw [hwritten, ← hp, Store.partAt?, Store.partAt?, Store.uploadAt?_congr hs.buckets]
    rfl

/-- Two indices with one part number are one index. -/
theorem index_unique {i j : UInt32} {number : Int32} (hi : Mount.numberOfIndex i = .ok number)
    (hj : Mount.numberOfIndex j = .ok number) : i = j := by
  have h := Mount.indexOfNumber_numberOfIndex hi
  rw [Mount.indexOfNumber_numberOfIndex hj] at h
  exact (Except.ok.inj h).symm

/-- Writing a part replaces the bytes of that part and of no other. -/
theorem Agrees.written {object : Object} {index : UInt32} {body : Bytes} {size : UInt64}
    {contentMd5 : Option String} {key : Option CustomerKey} {id : String} {number : Int32}
    {u : Upload} {p : KeptPart} {part : Part} (h : Agrees start s history)
    (hid : object.uploadId = some id) (hn : Mount.numberOfIndex index = .ok number)
    (hu : s.uploadAt? m.bucket ⟨object.id, id⟩ = some u) (hp : p.body = body)
    (hs : Store.Alters s
      { bucket := m.bucket
        upload := some (⟨object.id, id⟩, some { u with parts := u.parts.insert number p }) } s') :
    Agrees start s'
      (⟨m, .writePart object index body size contentMd5 key, .ok part⟩ :: history) := by
  refine h.cons (fun bucket k => ?_) (fun place body' hpart => ?_)
    (fun f hf => by rw [hs.faults] at hf; exact hf)
  · rw [Store.bodyAt?_eq, Store.bodyAt?_eq, hs.objectAt?]
    simp [Event.settles, Event.target?]
  · obtain ⟨number', u', p', hn', hup, hget, rfl⟩ := Store.partAt?_eq_some.mp hpart
    rw [hs.uploadAt?] at hup
    simp only at hup
    have hsucceeded : Event.succeeded
        ⟨m, .writePart object index body size contentMd5 key, .ok part⟩ = true := rfl
    by_cases hname : m.bucket = place.bucket ∧
        (⟨object.id, id⟩ : UploadName) = ⟨place.key, place.uploadId⟩
    · -- The upload that was written to: the part is the new one just if its number is.
      rw [if_pos hname] at hup
      cases hup
      obtain ⟨hbucket, hname⟩ := hname
      obtain ⟨hkey, rfl⟩ := UploadName.mk.inj hname
      by_cases hindex : index = place.index
      · rw [← hindex, hn] at hn'
        cases hn'
        rw [Table.get?_insert_self] at hget
        cases hget
        simp [Event.writtenTo?, hsucceeded, hbucket, hkey, hid, hindex, hp]
      · have hne : number ≠ number' := fun heq => hindex (index_unique hn (heq ▸ hn'))
        rw [Table.get?_insert_of_ne _ hne] at hget
        simp only [Event.writtenTo?, hindex, and_false, if_false, Option.none_or]
        rw [hbucket, hkey] at hu
        exact Store.partAt?_eq_some.mpr ⟨number', u, p', hn', hu, hget, rfl⟩
    · rw [if_neg hname] at hup
      have hother : ¬ (m.bucket = place.bucket ∧ object.id = place.key ∧
          object.uploadId = some place.uploadId ∧ index = place.index) := by
        rintro ⟨hbucket, hkey, hid', -⟩
        rw [hid] at hid'
        cases hid'
        exact hname ⟨hbucket, by rw [hkey]⟩
      simp only [Event.writtenTo?, hother, and_false, if_false, Option.none_or]
      exact Store.partAt?_eq_some.mpr ⟨number', u', p', hn', hup, hget, rfl⟩

/-- The parts that a completion chooses are the last written ones, if they can be gathered. -/
theorem mapM_lastPart {leastSize : UInt64} {kept : Table Int32 KeptPart}
    (written? : UInt32 → Option Bytes)
    (hwritten : ∀ index number p, Mount.numberOfIndex index = .ok number →
      kept.get? number = some p → written? index = some p.body)
    {parts : List Part} {choices : List Request.PartChoice} {bodies : List Bytes}
    (hc : Mount.chooseParts parts = .ok choices)
    (hg : Store.gather leastSize kept choices = .ok bodies) :
    parts.mapM (fun p => written? p.index) = some bodies := by
  -- Parts are chosen and gathered one by one, in one order.
  induction parts generalizing choices bodies with
  | nil =>
    cases hc
    cases hg
    rfl
  | cons part parts ih =>
    obtain ⟨number, hn, hc⟩ := bind_eq_ok.mp hc
    obtain ⟨rest, hrest, hc⟩ := bind_eq_ok.mp hc
    cases hc
    rw [Store.gather] at hg
    split at hg
    · cases hg
    · rename_i p hp
      split at hg
      · cases hg
      · cases hr : Store.gather leastSize kept rest with
        | error f => rw [hr] at hg; cases hg
        | ok bodies' =>
          rw [hr] at hg
          cases hg
          have hget : kept.get? number = some p := (Option.filter_eq_some_iff.mp hp).1
          simp [List.mapM_cons, hwritten _ _ _ hn hget, ih hrest hr]

/-- Completing an upload leaves the bytes that were last written to the listed parts. -/
theorem Agrees.completed {object o : Object} {parts : List Part} {id : String}
    {choices : List Request.PartChoice} {u : Upload} {bodies : List Bytes} {now : Instant}
    {leastSize : UInt64} (h : Agrees start s history) (hid : object.uploadId = some id)
    (hc : Mount.chooseParts parts = .ok choices)
    (hu : s.uploadAt? m.bucket ⟨object.id, id⟩ = some u)
    (hg : Store.gather leastSize u.parts choices = .ok bodies)
    (hs : Store.Alters s
      { bucket := m.bucket
        object := some (object.id, some (Store.assembled u bodies now))
        upload := some (⟨object.id, id⟩, none) } s') :
    Agrees start s' (⟨m, .completeUpload object parts, (.ok (), o)⟩ :: history) := by
  refine h.settle hs rfl (.inr ⟨_, rfl⟩) rfl rfl ?_ fun _ => rfl
  have hwritten : ∀ index number p, Mount.numberOfIndex index = .ok number →
      u.parts.get? number = some p →
      lastPart start ⟨m.bucket, object.id, id, index⟩ history = some p.body :=
    fun index number p hn hp => h.parts ⟨m.bucket, object.id, id, index⟩ p.body
      (Store.partAt?_eq_some.mpr ⟨number, u, p, hn, hu, hp, rfl⟩)
  have hbodies := mapM_lastPart
    (fun index => lastPart start ⟨m.bucket, object.id, id, index⟩ history) hwritten hc hg
  simp only [Event.body?, hid, Option.getD_some, hbodies, Option.map_some]
  rfl

end Call

/-- **What a call preserves.** A store that agrees with a history agrees with it after any call. -/
theorem Agrees.call {start : Store} {r : Run Store} (h : Agrees start r.state r.history)
    (hhides : start.HidesNoObject) (m : Mount) (op : Operation) :
    Agrees start (r.call m op).state (r.call m op).history := by
  have hhides' : r.state.HidesNoObject := fun f hf => hhides f (h.faults _ hf)
  -- A call that fails settles nothing and writes no part.
  have hfail : ∀ s', Store.Undisturbed r.state s' → ∀ e : Event, e.succeeded = false →
      Agrees start s' (e :: r.history) := by
    intro s' hs e he
    refine h.idle hs (fun bucket key => by simp [Event.settles, he]) fun place => ?_
    rw [Event.writtenTo?]
    split
    · simp [he]
    · rfl
  by_cases hlook : op.isLook = true
  · refine h.idle (Store.undisturbed_perform hlook) (fun bucket key => ?_) fun place => ?_
    · rw [Event.settles, Event.target?_of_isLook hlook]
      simp
    · exact Event.writtenTo?_of_isLook hlook place
  cases op with
  | write path body size o =>
    rcases Store.run_write m r.state path body size o with
      ⟨e, s', hx, hs⟩ | ⟨encryption, s', -, hx, hs⟩
    · simp only [Run.call, Operation.perform, hx]
      exact hfail s' hs _ rfl
    · simp only [Run.call, Operation.perform, hx]
      exact h.settle hs rfl (.inl rfl) rfl rfl rfl fun _ => rfl
  | makeDir path =>
    rcases Store.run_makeDir m r.state path with ⟨e, s', hx, hs⟩ | ⟨s', hx, hs⟩
    · simp only [Run.call, Operation.perform, hx]
      exact hfail s' hs _ rfl
    · simp only [Run.call, Operation.perform, hx]
      exact h.settle hs rfl (.inl rfl) rfl rfl rfl fun _ => rfl
  | makeLink path target =>
    rcases Store.run_makeLink m r.state path target with ⟨e, s', hx, hs⟩ | ⟨s', hx, hs⟩
    · simp only [Run.call, Operation.perform, hx]
      exact hfail s' hs _ rfl
    · simp only [Run.call, Operation.perform, hx]
      exact h.settle hs rfl (.inl rfl) rfl rfl rfl fun _ => rfl
  | delete path target =>
    cases hkey : Store.objectKey? m path target with
    | none =>
      cases target with
      | upload id => exact h.drop (fun _ _ => by simp [Event.settles, Event.target?]) fun _ => rfl
      | object | dir => cases hkey
    | some key =>
      have htarget : ∀ a, Event.target? ⟨m, .delete path target, a⟩ = some (m.bucket, key) := by
        intro a
        cases target <;> cases hkey <;> rfl
      rcases Store.run_delete m r.state hkey hhides' with
        ⟨e, s', hx, hs⟩ | ⟨s', hx, ⟨hs, hvacant⟩ | hs⟩
      · simp only [Run.call, Operation.perform, hx]
        exact hfail s' hs _ rfl
      · simp only [Run.call, Operation.perform, hx]
        exact h.vacant hs hvacant (htarget _) rfl fun _ => rfl
      · simp only [Run.call, Operation.perform, hx]
        exact h.settle hs rfl (.inl rfl) rfl (htarget _) rfl fun _ => rfl
  | createUpload path o =>
    -- The upload may be there although the call is no success; it has no parts either way.
    rcases Store.run_createUpload m r.state path o with
      ⟨e, s', hx, hs⟩ | ⟨encryption, s', -, hx, hs, -⟩
    · simp only [Run.call, Operation.perform, hx]
      exact hfail s' hs _ rfl
    · simp only [Run.call, Operation.perform, hx]
      exact h.uploads hs rfl rfl (fun u hu => by cases hu; rfl)
        (fun _ _ => by simp [Event.settles, Event.target?]) fun _ => rfl
  | writePart object index body size contentMd5 key =>
    rcases Store.run_writePart m r.state object index body size contentMd5 key with
      ⟨e, s', hx, hs⟩ | ⟨id, number, u, s', hc, hu, hx, hs⟩
    · simp only [Run.call, Operation.perform, hx]
      exact hfail s' hs _ rfl
    · simp only [Run.call, Operation.perform, hx]
      obtain ⟨hopen, hn, -, -⟩ := Store.checkPart_eq_ok hc
      exact h.written (Store.uploadId_of_openUpload hopen) hn hu rfl hs
  | completeUpload object parts =>
    rcases Store.run_completeUpload m r.state object parts with
      ⟨e, s', hx, hs⟩ | ⟨id, choices, u, bodies, s', hc, hu, hg, hx, hs⟩
    · simp only [Run.call, Operation.perform, hx]
      exact hfail s' hs _ rfl
    · simp only [Run.call, Operation.perform, hx]
      obtain ⟨hopen, -, -, hchoices⟩ := Store.checkCompletion_eq_ok hc
      exact h.completed (Store.uploadId_of_openUpload hopen) hchoices hu hg hs
  | abortUpload object =>
    rcases Call.run_after object.openUpload (fun id => m.dropUpload object.id id) r.state with
      ⟨e, -, hx⟩ | ⟨id, -, hx⟩
    · have hx' : (m.abortUpload object).run r.state = (.error e, r.state) := hx
      simp only [Run.call, Operation.perform, hx']
      exact hfail _ (.refl _) _ rfl
    · have hx' : (m.abortUpload object).run r.state = (m.dropUpload object.id id).run r.state := hx
      simp only [Run.call, Operation.perform, hx']
      exact h.drop (fun _ _ => by simp [Event.settles, Event.target?]) fun _ => rfl
  | _ => exact absurd rfl hlook

/-- **What a run preserves.** -/
theorem Agrees.calls {start : Store} (hhides : start.HidesNoObject)
    (cs : List (Mount × Operation)) :
    Agrees start (Run.calls ⟨start, []⟩ cs).state (Run.calls ⟨start, []⟩ cs).history :=
  Run.calls_induct (P := fun r => Agrees start r.state r.history)
    (fun _ m op h => h.call hhides m op) (Agrees.start start) cs

/-! ## Reading what was last written -/

theorem Store.takeFault?_eq_none {kind : Request.Kind} {faults : List (Request.Kind × Fault)}
    (h : ∀ f, (kind, f) ∉ faults) : takeFault? kind faults = none := by
  cases ht : takeFault? kind faults with
  | none => rfl
  | some p => exact absurd (mem_of_takeFault? ht) (h p.1)

/-- A lock opens to no key if there is none, and to a key with the MD5 of its stamp. -/
theorem Store.checkLock_of_md5 {lock : Option KeyStamp} {key : Option CustomerKey}
    (h : lock.map (·.md5) = key.map (·.secretMd5)) : checkLock lock key = .ok () := by
  cases lock <;> cases key <;> simp_all [checkLock]

/-- Reading an object whole, with its key, gives its body; where there is none, it is missing. -/
theorem Store.run_read_whole {m : Mount} {s : Store} {b : Bucket} {path : String}
    {key : Option CustomerKey} (hb : s.buckets.get? m.bucket = some b)
    (hfaults : ∀ f, (Request.Kind.getObject, f) ∉ s.faults)
    (hlock : ∀ o ∈ s.objectAt? m.bucket (m.keyOf path false),
      o.lock.map (·.md5) = key.map (·.secretMd5)) :
    ((m.read path {} key).run s).1 =
      match s.bodyAt? m.bucket (m.keyOf path false) with
      | some body => .ok body
      | none => .error (.notFound (.objectNotThere (m.keyOf path false))) := by
  have hread : (m.read path {} key).run s =
      (Call.send (.getObject ⟨m.bucket, m.keyOf path false, none, key⟩) fun reply =>
        .ok reply.body).run s := rfl
  have hanswer : (s.answer (.getObject ⟨m.bucket, m.keyOf path false, none, key⟩)).1 =
      s.getObject ⟨m.bucket, m.keyOf path false, none, key⟩ := by
    rw [answer_of_none (takeFault?_eq_none hfaults)]
    rfl
  rw [hread, bodyAt?_eq]
  simp only [Call.send, Call.run, Backend.exchange, hanswer, getObject, bucket_eq_ok.mpr hb]
  cases ho : s.objectAt? m.bucket (m.keyOf path false) with
  | none =>
    rw [objectAt?_of_bucket hb] at ho
    simp [ho, bind, Except.bind, Error.ofFault, Fault.cause, Fault.objectNotThere, Fault.http,
      Fault.missingCodes]
  | some o =>
    have hcheck := checkLock_of_md5 (hlock o ho)
    rw [objectAt?_of_bucket hb] at ho
    simp [ho, bind, Except.bind, hcheck, cutRange, pure, Except.pure]

/-- **The last writer wins.** After any calls through any mounts on a store, the body under a key is
the one that the last successful call on that key left there, as the history tells it. A read of the
whole object by a caller with its key gives just that body, or says that the object is missing. The
store may fail calls with faults that wait, as long as none of them tells a caller that an object
which is there is missing. -/
theorem lastWriter_wins (start : Store) (hhides : start.HidesNoObject)
    (cs : List (Mount × Operation)) :
    let r := Run.calls ⟨start, []⟩ cs
    (∀ bucket key, r.state.bodyAt? bucket key = lastBody start bucket key r.history) ∧
      ∀ (m : Mount) (b : Bucket) (path : String) (key : Option CustomerKey),
        r.state.buckets.get? m.bucket = some b →
        (∀ f, (Request.Kind.getObject, f) ∉ start.faults) →
        (∀ o ∈ r.state.objectAt? m.bucket (m.keyOf path false),
          o.lock.map (·.md5) = key.map (·.secretMd5)) →
        ((m.read path {} key).run r.state).1 =
          match lastBody start m.bucket (m.keyOf path false) r.history with
          | some body => .ok body
          | none => .error (.notFound (.objectNotThere (m.keyOf path false))) := by
  intro r
  have h : Agrees start r.state r.history := Agrees.calls hhides cs
  refine ⟨h.bodies, fun m b path key hb hfaults hlock => ?_⟩
  rw [← h.bodies]
  exact Store.run_read_whole hb (fun f hf => hfaults f (h.faults _ hf)) hlock

/-- Two mounts of one bucket take turns: a link, two uploads of one key of which one is completed
after a part was written again, a directory beside the key, and a write that fails. -/
theorem lastWriter_wins_turns :
    let start := Store.withBuckets ["b"] (fun n => toString n) 0 true
    let m : Mount := ⟨"b", .root, 200, none, none, by decide⟩
    let n : Mount := ⟨"b", .ofStem "a", 1, none, none, by decide⟩
    let first := Object.upload "a/k" "a/k" "0"
    let second := Object.upload "a/k" "k" "1"
    start.HidesNoObject ∧
      (Run.calls ⟨start, []⟩
        [(m, .createUpload "a/k" {}), (n, .makeLink "k" "x"), (n, .createUpload "k" {}),
          (m, .writePart first 0 [9] 1 none none), (n, .writePart second 0 [7] 1 none none),
          (n, .writePart first 4 [5] 1 none none), (m, .writePart first 0 [1, 2] 2 none none),
          (m, .completeUpload first
            [⟨0, 2, Store.bodyEtag [1, 2]⟩, ⟨4, 1, Store.bodyEtag [5]⟩]),
          (n, .makeDir "k"), (n, .write "k" [8] 3 {})]).state.bodyAt? "b" "a/k" =
        some [1, 2, 5] := by
  intro start m n first second
  have hhides : start.HidesNoObject := fun f hf => by cases hf
  exact ⟨hhides, ((lastWriter_wins start hhides _).1 "b" "a/k").trans (by decide +kernel)⟩

end ObjectStore
