import ObjectStore.Catalog
import ObjectStore.Proofs.Paging
import ObjectStore.Proofs.Run

/-!
# Strict and lenient stores

A strict store answers a request to take away an object that is not there with a fault; a lenient one
fulfils it. Whoever asks through a mount is told the same by both, and both hold the same afterwards:
`Store.lenient` forgets which of the two a store is, and every call commutes with it (`Call.Blind`).
All requests but one are served by work that does not look at the setting (`Store.Same`), so the only
call to consider is the removal of an object (`Call.Blind.remove`).

A *client* calls through any mounts and catalogs, and takes items from the listings that it opened;
each action may depend on everything that was answered before. What one action hides of a store, a
whole session hides (`Client.run_lenient`).
-/

namespace ObjectStore

/-! ## Clients -/

/-- What a client may do: call through a mount, or use a catalog. -/
inductive Action where
  | call (m : Mount) (op : Operation)
  /-- Mounts a bucket by its name. -/
  | get (c : Catalog) (name : String)
  /-- Opens a listing of all buckets. -/
  | list (c : Catalog)
  /-- Takes the next item of a listing of all buckets. -/
  | nextMount (c : Catalog) (feed : Feed CatalogPosition Mount)

namespace Action

/-- What an action is answered. -/
def Answer : Action → Type
  | call _ op => op.Answer
  | get .. => Except Error Mount
  | list _ => Listing CatalogPosition Mount
  | nextMount .. => Option (Except Error (Option Mount) × Feed CatalogPosition Mount)

/-- Carries an action out. -/
def perform {σ : Type} [Backend σ] : (a : Action) → σ → a.Answer × σ
  | call m op, s => op.perform m s
  | get c name, s => (c.get name, s)
  | list c, s => (c.list, s)
  | nextMount c feed, s => Operation.advance c.bucketPage feed s

end Action

/-- An action as it was carried out and answered. -/
structure Deed where
  action : Action
  answer : action.Answer

/-- A client chooses each action from what was done before, the latest first. One that does not look
at the answers works a fixed list of actions off. -/
abbrev Client := List Deed → Action

/-- A backend's state, and what a client has done before it came to be, the latest first. -/
structure Session (σ : Type) where
  state : σ
  past : List Deed := []

namespace Client

variable {σ : Type} [Backend σ]

/-- Goes on with the action that a client chooses. -/
def step (client : Client) (x : Session σ) : Session σ :=
  let a := (client x.past).perform x.state
  ⟨a.2, ⟨client x.past, a.1⟩ :: x.past⟩

/-- Goes on with `n` actions. -/
def run (client : Client) : Nat → Session σ → Session σ
  | 0, x => x
  | n + 1, x => client.run n (client.step x)

end Client

/-! ## Requests -/

namespace Store

variable {s : Store}

/-- The store without faults for objects that are not there. -/
def lenient (s : Store) : Store := { s with strictDelete := false }

/-- That work ends alike on a strict and a lenient store, and leaves them alike. -/
def Same {α : Type} (w : Work Store Fault α) : Prop :=
  ∀ s : Store, w.on s.lenient = ((w.on s).1, (w.on s).2.lenient)

namespace Same

variable {α β : Type} {w : Work Store Fault α} {f : α → Work Store Fault β}

theorem pure (a : α) : Same (pure a) := fun _ => rfl

/-- A change that does not look at the setting. -/
theorem modify (g : Store → Store) (h : ∀ s, g s.lenient = (g s).lenient) : Same (modify g) :=
  fun s => congrArg (Prod.mk (Except.ok ())) (h s)

/-- Work in steps that are alike. -/
theorem bind (hw : Same w) (hf : ∀ a, Same (f a)) : Same (w >>= f) := by
  intro s
  rw [Work.on_bind, Work.on_bind, hw s]
  rcases w.on s with ⟨e | a, t⟩
  · rfl
  · exact hf a t

/-- Work that looks at something else of the store. -/
theorem get_bind {f : Store → Work Store Fault β} (hlooks : ∀ s, f s.lenient = f s)
    (h : ∀ s, Same (f s)) : Same (get >>= f) := by
  intro s
  rw [Work.on_get_bind, Work.on_get_bind, hlooks]
  exact h s s

/-- Work on a bucket knows nothing of the setting. -/
theorem inBucket (name : String) (w : Work Bucket Fault α) : Same (inBucket name w) := by
  intro s
  have hbucket : s.lenient.bucket name = s.bucket name := rfl
  rw [Store.inBucket, Work.on_get_bind, Work.on_get_bind, hbucket]
  cases s.bucket name <;> rfl

/-- Nor does work at the time of the clock, which is the same in both. -/
theorem stamped (name : String) (w : Instant → Work Bucket Fault α) : Same (stamped name w) :=
  .get_bind (fun _ => rfl) fun s =>
    (Same.inBucket name (w s.now)).bind fun a => (Same.modify tick fun _ => rfl).bind fun _ => .pure a

end Same

/-- Only the removal of an object is served by the setting. -/
theorem serve_lenient {request : Request} (h : request.kind ≠ .deleteObject) :
    s.lenient.serve request = ((s.serve request).1, (s.serve request).2.lenient) := by
  cases request with
  | deleteObject r => exact absurd rfl h
  | putObject r => exact Same.stamped r.bucket (putIn r) s
  | createUpload r =>
    refine Same.get_bind (fun _ => rfl) (fun t => ?_) s
    exact (Same.stamped r.bucket (openIn r t.nextId)).bind fun reply =>
      (Same.modify draw fun _ => rfl).bind fun _ => .pure reply
  | uploadPart r => exact Same.stamped r.bucket (putPartIn r) s
  | completeUpload r =>
    exact Same.get_bind (fun _ => rfl) (fun t => .stamped r.bucket (completeIn t.minPartSize r)) s
  | abortUpload r =>
    exact (Same.inBucket r.bucket (takeUpload r.key r.uploadId)).bind (fun _ => .pure ()) s
  | _ => rfl

/-- **Each request but one** is answered alike by a strict and a lenient store. -/
theorem answer_lenient {request : Request} (h : request.kind ≠ .deleteObject) :
    s.lenient.answer request = ((s.answer request).1, (s.answer request).2.lenient) := by
  cases ht : takeFault? request.kind s.faults with
  | some p =>
    have ht' : takeFault? request.kind s.lenient.faults = some p := ht
    rw [answer_of_some (f := p.1) ht, answer_of_some (f := p.1) ht']
    rfl
  | none =>
    have ht' : takeFault? request.kind s.lenient.faults = none := ht
    rw [answer_of_none ht, answer_of_none ht']
    exact serve_lenient (s := s.record request) h

/-- A removal in a bucket that is there. The object is gone whether that was a fault or not. -/
theorem on_deleteObject_of_bucket {r : Request.DeleteObject} {b : Bucket}
    (hb : s.bucket r.bucket = .ok b) :
    (deleteObject r).on s =
      (if (!b.objects.contains r.key && s.strictDelete) = true then .error (.objectNotThere r.key)
        else .ok (), s.setBucket r.bucket { b with objects := b.objects.erase r.key }) := by
  rw [deleteObject, Work.on_get_bind, inBucket, Work.on_get_bind, hb,
    Work.on_bind_of_ok (Work.on_check _ _), Work.on_bind_of_ok (Work.on_modify _ _), on_deleteIn]
  rfl

/-- The removal of an object has the same effect on both, and the one fault that only a strict store
knows says that the object is missing. -/
theorem serve_deleteObject_lenient (r : Request.DeleteObject) :
    ∃ x x' s', s.serve (.deleteObject r) = (x, s') ∧
      s.lenient.serve (.deleteObject r) = (x', s'.lenient) ∧
      ignoreMissing (x'.mapError .ofFault) = ignoreMissing (x.mapError .ofFault) := by
  have hserve (t : Store) : t.serve (.deleteObject r) = (deleteObject r).on t := rfl
  rw [hserve, hserve]
  cases hb : s.bucket r.bucket with
  | error f =>
    have hon (t : Store) (ht : t.bucket r.bucket = .error f) :
        (deleteObject r).on t = (.error f, t) := by
      rw [deleteObject, Work.on_get_bind, inBucket, Work.on_get_bind, ht]
      exact Work.on_bind_of_error (Work.on_check _ _) _
    exact ⟨.error f, .error f, s, hon s hb, hon s.lenient hb, rfl⟩
  | ok b =>
    have hb' : s.lenient.bucket r.bucket = .ok b := hb
    have hlenient : (!b.objects.contains r.key && s.lenient.strictDelete) = false := Bool.and_false _
    rw [on_deleteObject_of_bucket hb, on_deleteObject_of_bucket hb', hlenient]
    refine ⟨_, _, _, rfl, rfl, ?_⟩
    cases !b.objects.contains r.key && s.strictDelete <;> rfl

/-- **The removal of an object** has the same effect on both, and is answered alike once a missing
object counts as taken away. -/
theorem answer_deleteObject_lenient (r : Request.DeleteObject) :
    ∃ x x' s', s.answer (.deleteObject r) = (x, s') ∧
      s.lenient.answer (.deleteObject r) = (x', s'.lenient) ∧
      ignoreMissing (x'.mapError .ofFault) = ignoreMissing (x.mapError .ofFault) := by
  cases ht : takeFault? (Request.deleteObject r).kind s.faults with
  | some p =>
    have ht' : takeFault? (Request.deleteObject r).kind s.lenient.faults = some p := ht
    exact ⟨_, _, _, answer_of_some (f := p.1) ht, answer_of_some (f := p.1) ht', rfl⟩
  | none =>
    have ht' : takeFault? (Request.deleteObject r).kind s.lenient.faults = none := ht
    rw [answer_of_none ht, answer_of_none ht']
    exact serve_deleteObject_lenient r

/-- The answers themselves do differ. -/
example :
    let store (strict : Bool) := Store.withBuckets ["b"] (fun n => toString n) 0 strict
    ((store true).answer (.deleteObject ⟨"b", "k"⟩)).1.isOk = false ∧
      ((store false).answer (.deleteObject ⟨"b", "k"⟩)).1.isOk = true := by
  decide +kernel

end Store

/-! ## Calls -/

/-- That a call is answered alike by a strict and a lenient store, and has the same effect. -/
def Call.Blind {α : Type} (c : Call α) : Prop :=
  ∀ s : Store, c.run s.lenient = ((c.run s).1, (c.run s).2.lenient)

namespace Call.Blind

variable {α β : Type}

theorem done (a : α) : Blind (.done a) := fun _ => rfl

/-- A call that asks for anything but the removal of an object. -/
theorem ask {request : Request} (read : Except Fault request.Reply → α)
    (h : request.kind ≠ .deleteObject) : Blind (.ask request read) := by
  intro s
  simp only [run, Backend.exchange, Store.answer_lenient h]

theorem send {request : Request} (read : request.Reply → Except Error α)
    (h : request.kind ≠ .deleteObject) : Blind (.send request read) :=
  ask _ h

/-- What is made of the result of a call shows no more than the result. -/
theorem map {c : Call α} (h : c.Blind) (f : α → β) : (c.map f).Blind := by
  intro s
  rw [run_map, run_map, h s]

/-- A check of the arguments does not look at the store. -/
theorem after {check : Except Error β} {next : β → Call (Except Error α)}
    (h : ∀ b, (next b).Blind) : (Call.after check next).Blind := by
  cases check with
  | error e => exact done _
  | ok b => exact h b

/-- **To take an object away** is the call that strictness could show in. -/
theorem remove (bucket key : String) :
    Blind ((Call.send (.deleteObject ⟨bucket, key⟩) fun _ => .ok ()).map ignoreMissing) := by
  intro s
  obtain ⟨x, x', s', hstrict, hlenient, hsame⟩ :=
    Store.answer_deleteObject_lenient (s := s) ⟨bucket, key⟩
  rw [run_map, run_map]
  simp only [Call.send, run, Backend.exchange, hstrict, hlenient]
  -- What is read from an answer is the answer with its fault as an error.
  cases x <;> cases x' <;> exact congrArg (·, s'.lenient) hsame

end Call.Blind

namespace Mount

variable (m : Mount)

/-- An empty read asks for nothing, and any other for the bytes of an object. -/
theorem blind_read (path : String) (window : Window) (key : Option CustomerKey) :
    (m.read path window key).Blind := by
  rw [read]
  split
  · exact .done _
  · exact .after fun _ => .send _ (by rintro ⟨⟩)

theorem blind_stat (path : String) (target : Target) (key : Option CustomerKey) :
    (m.stat path target key).Blind := by
  cases target <;> exact .send _ (by rintro ⟨⟩)

theorem blind_write (path : String) (body : Bytes) (size : UInt64) (o : ObjectChoices) :
    (m.write path body size o).Blind :=
  .after fun _ => .send _ (by rintro ⟨⟩)

/-- A store is lenient or strict with objects, not with uploads. -/
theorem blind_dropUpload (key id : String) : (m.dropUpload key id).Blind :=
  .map (.send _ (by rintro ⟨⟩)) _

/-- An object and a directory are both taken away by the one request that could show it. -/
theorem blind_delete (path : String) (target : Target) : (m.delete path target).Blind := by
  cases target with
  | object => exact .remove m.bucket (m.keyOf path false)
  | dir => exact .remove m.bucket (m.keyOf path true)
  | upload id => exact m.blind_dropUpload _ id

theorem blind_makeDir (path : String) : (m.makeDir path).Blind :=
  .send _ (by rintro ⟨⟩)

theorem blind_makeLink (path target : String) : (m.makeLink path target).Blind :=
  .send _ (by rintro ⟨⟩)

theorem blind_createUpload (path : String) (o : UploadChoices) : (m.createUpload path o).Blind :=
  .after fun _ => .send _ (by rintro ⟨⟩)

theorem blind_writePart (object : Object) (index : UInt32) (body : Bytes) (size : UInt64)
    (contentMd5 : Option String) (key : Option CustomerKey) :
    (m.writePart object index body size contentMd5 key).Blind :=
  .after fun _ => .send _ (by rintro ⟨⟩)

/-- The object that a completion leaves to its caller is told by the answer. -/
theorem blind_completeUpload (object : Object) (parts : List Part) :
    (m.completeUpload object parts).Blind :=
  .map (.after fun _ => .send _ (by rintro ⟨⟩)) _

theorem blind_abortUpload (object : Object) : (m.abortUpload object).Blind :=
  .after fun id => m.blind_dropUpload object.id id

/-- Pages are only looked at. -/
theorem blind_objectPage (position : ListingPosition) : (m.objectPage position).Blind := by
  cases position <;> exact .ask _ (by rintro ⟨⟩)

theorem blind_partPage (position : PartPosition) : (m.partPage position).Blind :=
  .ask _ (by rintro ⟨⟩)

end Mount

theorem Catalog.blind_bucketPage (c : Catalog) (position : CatalogPosition) :
    (c.bucketPage position).Blind :=
  .ask _ (by rintro ⟨⟩)

/-! ## Feeds -/

/-- To take an item from a listing fetches pages, as many as it takes, and a store has the same patience
whether it is strict or not. -/
theorem Operation.advance_lenient {κ ι : Type} {pages : κ → Call (Fetch κ ι)}
    (h : ∀ k, (pages k).Blind) (feed : Feed κ ι) (s : Store) :
    advance pages feed s.lenient =
      ((advance pages feed s).1, (advance pages feed s).2.lenient) := by
  have hpatience : Backend.patience s.lenient = Backend.patience s := rfl
  have hsource (k : κ) (t : Store) : Listing.source ⟨pages, feed⟩ k t.lenient =
      ((Listing.source ⟨pages, feed⟩ k t).1, (Listing.source ⟨pages, feed⟩ k t).2.lenient) := h k t
  have hnext := Feed.next_through hsource (Backend.patience s) feed s
  rw [advance, advance, Listing.next, Listing.next, hpatience, hnext]
  cases feed.next (Listing.source ⟨pages, feed⟩) (Backend.patience s) s <;> rfl

/-! ## Sessions -/

/-- **Each operation** is answered alike by a strict and a lenient store, and has the same effect. -/
theorem Operation.perform_lenient (m : Mount) (op : Operation) (s : Store) :
    op.perform m s.lenient = ((op.perform m s).1, (op.perform m s).2.lenient) := by
  cases op with
  | read path window key => exact m.blind_read path window key s
  | stat path target key => exact m.blind_stat path target key s
  | write path body size choices => exact m.blind_write path body size choices s
  | delete path target => exact m.blind_delete path target s
  | makeDir path => exact m.blind_makeDir path s
  | makeLink path target => exact m.blind_makeLink path target s
  | createUpload path choices => exact m.blind_createUpload path choices s
  | writePart object index body size contentMd5 key =>
    exact m.blind_writePart object index body size contentMd5 key s
  | completeUpload object parts => exact m.blind_completeUpload object parts s
  | abortUpload object => exact m.blind_abortUpload object s
  | list path kind => rfl
  | listParts object => rfl
  | nextObject feed => exact advance_lenient m.blind_objectPage feed s
  | nextPart feed => exact advance_lenient m.blind_partPage feed s

/-- **Each action of a client** is answered alike, and has the same effect. -/
theorem Action.perform_lenient (a : Action) (s : Store) :
    a.perform s.lenient = ((a.perform s).1, (a.perform s).2.lenient) := by
  cases a with
  | call m op => exact op.perform_lenient m s
  | get c name => rfl
  | list c => rfl
  | nextMount c feed => exact Operation.advance_lenient c.blind_bucketPage feed s

/-- The session with the store's strictness forgotten. -/
def Session.lenient (x : Session Store) : Session Store := { x with state := x.state.lenient }

namespace Client

/-- A client that was answered alike chooses the same action. -/
theorem step_lenient (client : Client) (x : Session Store) :
    client.step x.lenient = (client.step x).lenient := by
  simp only [step, Session.lenient, Action.perform_lenient]

/-- **Each session** is the same, however long. -/
theorem run_lenient (client : Client) (n : Nat) (x : Session Store) :
    client.run n x.lenient = (client.run n x).lenient := by
  induction n generalizing x with
  | zero => rfl
  | succ n ih =>
    rw [run, run, step_lenient]
    exact ih (client.step x)

end Client

/-- **Strictness does not show.** From the same buckets, settings and waiting faults, a client is
answered the same by a strict and a lenient store, action by action, and so does the same with both;
after each action both have received the same requests, and their buckets hold the same. -/
theorem strictness_hidden (client : Client) (n : Nat) (start : Store) :
    let strict := client.run n ⟨{ start with strictDelete := true }, []⟩
    let lenient := client.run n ⟨{ start with strictDelete := false }, []⟩
    strict.past = lenient.past ∧ strict.state.log = lenient.state.log ∧
      strict.state.buckets = lenient.state.buckets := by
  intro strict lenient
  have hlenient : lenient = strict.lenient :=
    client.run_lenient n ⟨{ start with strictDelete := true }, []⟩
  rw [hlenient]
  exact ⟨rfl, rfl, rfl⟩

end ObjectStore
