import ObjectStore.Mount.Listing
import ObjectStore.Mount.Uploads
import ObjectStore.Proofs.Contents

/-!
# Operations and runs

An *operation* is one thing that a client may do through a mount, with all its arguments: objects,
parts and feeds are handed in as they are, so a client may hold old copies or make them up. A *run*
is a sequence of operations through any mounts on one backend; it keeps what was called and answered,
the latest first. What every call preserves holds after every run (`Run.calls_induct`).

An operation that only looks leaves everything of a store but the log and the waiting faults
(`undisturbed_perform`).
-/

namespace ObjectStore

/-- An operation of a mount, with its arguments. -/
inductive Operation where
  | read (path : String) (window : Window) (key : Option CustomerKey)
  | stat (path : String) (target : Mount.Target) (key : Option CustomerKey)
  | write (path : String) (body : Bytes) (size : UInt64) (choices : Mount.ObjectChoices)
  | delete (path : String) (target : Mount.Target)
  | makeDir (path : String)
  | makeLink (path target : String)
  | createUpload (path : String) (choices : Mount.UploadChoices)
  | writePart (object : Object) (index : UInt32) (body : Bytes) (size : UInt64)
    (contentMd5 : Option String) (key : Option CustomerKey)
  | completeUpload (object : Object) (parts : List Part)
  | abortUpload (object : Object)
  /-- Opens a listing of a path. -/
  | list (path : String) (kind : ListingKind)
  /-- Opens a listing of the parts of an upload. -/
  | listParts (object : Object)
  /-- Takes the next item of a listing of a path. -/
  | nextObject (feed : Feed ListingPosition Object)
  /-- Takes the next item of a listing of parts. -/
  | nextPart (feed : Feed PartPosition Part)

namespace Operation

/-- What an operation answers. A completion comes with the caller's object as it is then. The next item
of a listing comes with the feed as it is then; there is no answer if the backend's patience with the
listing runs out. -/
def Answer : Operation → Type
  | read .. => Except Error Bytes
  | write .. => Except Error UInt64
  | stat .. | makeDir .. | makeLink .. | createUpload .. => Except Error Object
  | completeUpload .. => Except Error Unit × Object
  | delete .. | abortUpload .. => Except Error Unit
  | writePart .. => Except Error Part
  | list .. => Except Error (Listing ListingPosition Object)
  | listParts .. => Except Error (Listing PartPosition Part)
  | nextObject _ => Option (Except Error (Option Object) × Feed ListingPosition Object)
  | nextPart _ => Option (Except Error (Option Part) × Feed PartPosition Part)

/-- Whether an answer is a success. -/
def succeeded : (op : Operation) → op.Answer → Bool
  | read .., a => a.isOk
  | stat .., a => a.isOk
  | write .., a => a.isOk
  | delete .., a => a.isOk
  | makeDir .., a => a.isOk
  | makeLink .., a => a.isOk
  | createUpload .., a => a.isOk
  | writePart .., a => a.isOk
  | completeUpload .., a => a.1.isOk
  | abortUpload .., a => a.isOk
  | list .., a => a.isOk
  | listParts .., a => a.isOk
  | nextObject _, a => a.any fun r => r.1.isOk
  | nextPart _, a => a.any fun r => r.1.isOk

/-- Whether an operation only looks. -/
def isLook : Operation → Bool
  | read .. | stat .. | list .. | listParts .. | nextObject _ | nextPart _ => true
  | _ => false

variable {σ : Type} [Backend σ]

/-- Takes the next item from a feed over these pages. -/
def advance {κ ι : Type} (pages : κ → Call (Fetch κ ι)) (feed : Feed κ ι) (s : σ) :
    Option (Except Error (Option ι) × Feed κ ι) × σ :=
  match (Listing.mk pages feed).next s with
  | some (r, l, s') => (some (r, l.feed), s')
  | none => (none, s)

/-- Carries an operation out. -/
def perform (m : Mount) : (op : Operation) → σ → op.Answer × σ
  | read path window key, s => (m.read path window key).run s
  | stat path target key, s => (m.stat path target key).run s
  | write path body size choices, s => (m.write path body size choices).run s
  | delete path target, s => (m.delete path target).run s
  | makeDir path, s => (m.makeDir path).run s
  | makeLink path target, s => (m.makeLink path target).run s
  | createUpload path choices, s => (m.createUpload path choices).run s
  | writePart object index body size contentMd5 key, s =>
    (m.writePart object index body size contentMd5 key).run s
  | completeUpload object parts, s => (m.completeUpload object parts).run s
  | abortUpload object, s => (m.abortUpload object).run s
  | list path kind, s => (m.list path kind, s)
  | listParts object, s => (m.listParts object, s)
  | nextObject feed, s => advance m.objectPage feed s
  | nextPart feed, s => advance m.partPage feed s

end Operation

/-! ## Runs -/

/-- A call as it was made and answered. -/
structure Event where
  mount : Mount
  operation : Operation
  answer : operation.Answer

/-- Whether the call was a success. -/
def Event.succeeded (e : Event) : Bool := e.operation.succeeded e.answer

/-- A backend's state, and what was called before it came to be, the latest call first. -/
structure Run (σ : Type) where
  state : σ
  history : List Event := []

namespace Run

variable {σ : Type} [Backend σ]

/-- Goes on with a call. -/
def call (r : Run σ) (m : Mount) (op : Operation) : Run σ :=
  let a := op.perform m r.state
  ⟨a.2, ⟨m, op, a.1⟩ :: r.history⟩

/-- Goes on with several calls, in their order. -/
def calls (r : Run σ) (cs : List (Mount × Operation)) : Run σ :=
  cs.foldl (fun r c => r.call c.1 c.2) r

/-- What holds of a run and is preserved by every call holds however the run goes on. -/
theorem calls_induct {P : Run σ → Prop} (hcall : ∀ r m op, P r → P (call r m op)) {r : Run σ}
    (h : P r) (cs : List (Mount × Operation)) : P (r.calls cs) := by
  induction cs generalizing r with
  | nil => exact h
  | cons c cs ih => exact ih (hcall r c.1 c.2 h)

/-- Each call of a history was answered by carrying it out on some state. -/
theorem performed_calls {start : σ} {cs : List (Mount × Operation)} {e : Event}
    (h : e ∈ (calls ⟨start, []⟩ cs).history) : ∃ s : σ, e.answer = (e.operation.perform e.mount s).1 := by
  refine calls_induct (P := fun r : Run σ =>
    ∀ e ∈ r.history, ∃ s : σ, e.answer = (e.operation.perform e.mount s).1)
    (fun r m op ih e he => ?_) (fun e he => by cases he) cs e h
  rcases List.mem_cons.mp he with rfl | he
  · exact ⟨r.state, rfl⟩
  · exact ih e he

end Run

/-! ## Calls -/

/-- A call behind a check is refused with the check's error, or goes on with its result. -/
theorem Call.run_after {α β σ : Type} [Backend σ] (check : Except Error β)
    (next : β → Call (Except Error α)) (s : σ) :
    (∃ e, check = .error e ∧ (Call.after check next).run s = (.error e, s)) ∨
      ∃ b, check = .ok b ∧ (Call.after check next).run s = (next b).run s := by
  cases check with
  | error e => exact .inl ⟨e, rfl, rfl⟩
  | ok b => exact .inr ⟨b, rfl, rfl⟩

/-- What is behind a check gives a result only if the check passes. -/
theorem Call.exists_passed {α β σ : Type} [Backend σ] {check : Except Error β}
    {next : β → Call (Except Error α)} {a : α} {s : σ}
    (h : ((Call.after check next).run s).1 = .ok a) :
    ∃ b, check = .ok b ∧ ((next b).run s).1 = .ok a := by
  cases check with
  | error e => cases h
  | ok b => exact ⟨b, rfl, h⟩

/-- The result of a request that is fulfilled is read from a reply. -/
theorem Call.exists_reply {α σ : Type} [Backend σ] {request : Request}
    {read : request.Reply → Except Error α} {a : α} {s : σ}
    (h : ((Call.send request read).run s).1 = .ok a) : ∃ reply, read reply = .ok a := by
  rw [Call.send, Call.run] at h
  cases hanswer : (Backend.exchange request s).1 with
  | error f =>
    rw [hanswer] at h
    cases h
  | ok reply =>
    rw [hanswer] at h
    exact ⟨reply, h⟩

/-! ## Feeds -/

/-- What a fetch preserves, taking the next item preserves. -/
theorem Feed.next_induct {σ κ ι : Type} {source : PageSource σ κ ι} {P : σ → Prop}
    (hsource : ∀ c s, P s → P (source c s).2) {fuel : Nat} {p : Feed κ ι} {s : σ}
    {r : Except Error (Option ι) × Feed κ ι × σ} (h : p.next source fuel s = some r) (hs : P s) :
    P r.2.2 := by
  induction fuel generalizing p s with
  | zero =>
    rw [next] at h
    split at h
    · cases h; exact hs
    · split at h <;> cases h
      exact hs
  | succ fuel ih =>
    rw [next] at h
    split at h
    · cases h; exact hs
    · split at h
      · cases h; exact hs
      · have hload : P (p.load source s).2.2 := by
          have : (p.load source s).2.2 = (source p.position s).2 := by
            rw [load]
            cases hpage : (source p.position s).1.page.outcome <;> simp [hpage]
          rw [this]
          exact hsource _ _ hs
        rcases hl : p.load source s with ⟨_ | e, p', s'⟩
        · rw [hl] at h hload
          exact ih h hload
        · rw [hl] at h hload
          cases h
          exact hload

namespace Store

variable {s : Store}

/-- A request to a store is answered with a fault, which leaves everything but log and waiting
faults, or with a reply that the result is read from. -/
theorem run_send {α : Type} (request : Request) (read : request.Reply → Except Error α) (s : Store) :
    (∃ f s', s.answer request = (.error f, s') ∧ Undisturbed s s' ∧
        (Call.send request read).run s = (.error (.ofFault f), s')) ∨
      ∃ reply s', s.answer request = (.ok reply, s') ∧
        (Call.send request read).run s = (read reply, s') := by
  rcases h : s.answer request with ⟨f | reply, s'⟩
  · refine .inl ⟨f, s', rfl, ?_, ?_⟩
    · have hs : Undisturbed s (s.answer request).2 :=
        undisturbed_answer (.inr ⟨f, congrArg Prod.fst h⟩)
      rw [h] at hs
      exact hs
    · simp only [Call.send, Call.run, Backend.exchange, h]
  · refine .inr ⟨reply, s', rfl, ?_⟩
    simp only [Call.send, Call.run, Backend.exchange, h]

/-- A call that sends a request behind a check fails and leaves everything but log and waiting
faults, or its result is read from a reply. -/
theorem run_after_send {α β : Type} (check : Except Error β) (request : β → Request)
    (read : (b : β) → (request b).Reply → Except Error α) (s : Store) :
    (∃ e s', (Call.after check fun b => .send (request b) (read b)).run s = (.error e, s') ∧
        Undisturbed s s') ∨
      ∃ b reply s', check = .ok b ∧ s.answer (request b) = (.ok reply, s') ∧
        (Call.after check fun b => .send (request b) (read b)).run s = (read b reply, s') := by
  rcases Call.run_after check (fun b => .send (request b) (read b)) s with
    ⟨e, -, hrun⟩ | ⟨b, hc, hrun⟩
  · exact .inl ⟨e, s, hrun, .refl s⟩
  · rcases run_send (request b) (read b) s with ⟨f, s', -, hs, h⟩ | ⟨reply, s', ha, h⟩
    · exact .inl ⟨.ofFault f, s', hrun.trans h, hs⟩
    · exact .inr ⟨b, reply, s', hc, ha, hrun.trans h⟩

/-! ## Operations that only look -/

end Store

namespace Mount

variable (m : Mount)

theorem isLook_read {path : String} {window : Window} {key : Option CustomerKey} :
    ∀ request ∈ (m.read path window key).request?, Store.isLook request = true := by
  intro request hr
  rw [read] at hr
  split at hr
  · cases hr
  · cases hw : window.range with
    | error e => rw [hw] at hr; cases hr
    | ok range => rw [hw] at hr; cases hr; rfl

theorem isLook_stat {path : String} {target : Target} {key : Option CustomerKey} :
    ∀ request ∈ (m.stat path target key).request?, Store.isLook request = true := by
  intro request hr
  cases target <;> cases hr <;> rfl

theorem isLook_objectPage (position : ListingPosition) :
    ∀ request ∈ (m.objectPage position).request?, Store.isLook request = true := by
  intro request hr
  cases position <;> cases hr <;> rfl

theorem isLook_partPage (position : PartPosition) :
    ∀ request ∈ (m.partPage position).request?, Store.isLook request = true := by
  intro request hr
  cases hr
  rfl

end Mount

namespace Store

variable {s : Store}

/-- A call whose request only looks leaves everything but log and waiting faults. -/
theorem undisturbed_run {α : Type} (c : Call α) (h : ∀ request ∈ c.request?, isLook request = true) :
    Undisturbed s (c.run s).2 := by
  cases c with
  | done a => exact .refl s
  | ask request read => exact undisturbed_answer (.inl (h request rfl))

/-- Taking the next item from pages whose requests only look leaves everything but log and waiting
faults. -/
theorem undisturbed_advance {κ ι : Type} {pages : κ → Call (Fetch κ ι)}
    (h : ∀ c, ∀ request ∈ (pages c).request?, isLook request = true) (feed : Feed κ ι) :
    Undisturbed s (Operation.advance pages feed s).2 := by
  rw [Operation.advance, Listing.next]
  cases hn : feed.next (Listing.source ⟨pages, feed⟩) (Backend.patience s) s with
  | none => exact .refl s
  | some r =>
    exact Feed.next_induct (P := Undisturbed s)
      (fun c t ht => ht.trans (undisturbed_run (pages c) (h c))) hn (.refl s)

theorem undisturbed_perform {m : Mount} {op : Operation} (h : op.isLook = true) :
    Undisturbed s (op.perform m s).2 := by
  cases op with
  | read path window key => exact undisturbed_run (m.read path window key) m.isLook_read
  | stat path target key => exact undisturbed_run (m.stat path target key) m.isLook_stat
  | list path kind => exact .refl s
  | listParts object => exact .refl s
  | nextObject feed => exact undisturbed_advance m.isLook_objectPage feed
  | nextPart feed => exact undisturbed_advance m.isLook_partPage feed
  | _ => cases h

end Store

end ObjectStore
