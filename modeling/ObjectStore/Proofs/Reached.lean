import ObjectStore.Proofs.Run

/-!
# What an error tells

An error that carries no fault is *local*: it was found before a backend was asked. That this is so
for every operation of a mount, with any backend, can be read off the calls (`Call.Candid`): such a
call is either refused with a local error, or it asks the mount's bucket one thing, reads no local
error from any reply, and hands a fault on as it is. Only to take something away forgives a fault, if
it says that the thing is missing.

`Overheard` keeps what was said to and by a backend, so that an operation's one request and its answer
can be compared with what the caller is told.
-/

namespace ObjectStore

/-! ## Listening in -/

/-- A request with its answer. -/
structure Exchange where
  request : Request
  answer : Except Fault request.Reply

/-- The fault that a request was answered with. -/
def Exchange.fault? (x : Exchange) : Option Fault :=
  match x.answer with
  | .error f => some f
  | .ok _ => none

/-- A backend's state with what it was asked and what it answered, in order. -/
structure Overheard (σ : Type) where
  state : σ
  exchanges : List Exchange := []

instance {σ : Type} [Backend σ] : Backend (Overheard σ) where
  exchange request s :=
    let answer := Backend.exchange request s.state
    (answer.1, ⟨answer.2, s.exchanges ++ [⟨request, answer.1⟩]⟩)
  patience s := Backend.patience s.state

/-- To listen in changes neither result nor state. -/
theorem Overheard.run_state {σ α : Type} [Backend σ] (c : Call α) (s : Overheard σ) :
    ((c.run s).1, (c.run s).2.state) = c.run s.state := by
  cases c <;> rfl

/-- The error that a result is. -/
def failure? {α : Type} : Except Error α → Option Error
  | .error e => some e
  | .ok _ => none

theorem failure?_eq_some {α : Type} {x : Except Error α} {e : Error} :
    failure? x = some e ↔ x = .error e := by
  cases x <;> simp [failure?]

/-- What is made of a success leaves an error as it is. -/
theorem failure?_map {α β : Type} (f : α → β) (x : Except Error α) :
    failure? (x.map f) = failure? x := by
  cases x <;> rfl

/-- What a backend was asked and answered in the course of an operation, and the error that the
operation ends with, if it is no success. -/
structure Report where
  exchanges : List Exchange
  error? : Option Error

/-- That a report of an operation on a bucket tells by the error whether the backend was reached.
Some operations have nothing to ask, and some forgive that a thing is missing. -/
structure Report.Tells (bucket : String) (idle forgiving : Bool) (r : Report) : Prop where
  /-- At most one request is sent. -/
  length_le : r.exchanges.length ≤ 1
  /-- It goes to the bucket. -/
  bucket : ∀ x ∈ r.exchanges, x.request.bucket? = some bucket
  /-- None is sent just when the error is local or there is nothing to ask. -/
  silent : r.exchanges = [] ↔ (∃ e, r.error? = some e ∧ e.isLocal = true) ∨ idle = true
  /-- A fault becomes the error of its kind, unless it is forgiven. -/
  fault : ∀ x ∈ r.exchanges, ∀ f, x.fault? = some f →
    r.error? =
      if forgiving = true ∧ f.code ∈ Fault.missingCodes then none else some (.ofFault f)
  /-- That error carries the fault. -/
  carried : ∀ x ∈ r.exchanges, ∀ f, x.fault? = some f → ∀ e, r.error? = some e → e.fault? = some f

namespace Report

variable {bucket : String} {forgiving : Bool}

/-- The report of an operation that is refused before anything is asked. -/
theorem tells_of_refused {e : Error} (he : e.isLocal = true) :
    Tells bucket false forgiving ⟨[], some e⟩ where
  length_le := Nat.zero_le 1
  bucket _ hx := nomatch hx
  silent := iff_of_true rfl (.inl ⟨e, rfl, he⟩)
  fault _ hx := nomatch hx
  carried _ hx := nomatch hx

/-- The report of an operation with nothing to ask. -/
theorem tells_of_idle : Tells bucket true forgiving ⟨[], none⟩ where
  length_le := Nat.zero_le 1
  bucket _ hx := nomatch hx
  silent := iff_of_true rfl (.inr rfl)
  fault _ hx := nomatch hx
  carried _ hx := nomatch hx

/-- The report of an operation that asked and met no local error by it. -/
theorem tells_of_asked {x : Exchange} {error? : Option Error}
    (hbucket : x.request.bucket? = some bucket)
    (hlocal : ∀ e, error? = some e → e.isLocal = false)
    (hfault : ∀ f, x.fault? = some f → error? =
      if forgiving = true ∧ f.code ∈ Fault.missingCodes then none else some (.ofFault f)) :
    Tells bucket false forgiving ⟨[x], error?⟩ := by
  refine ⟨Nat.le_refl 1, fun y hy => ?_, ⟨nofun, ?_⟩, fun y hy => ?_, fun y hy f hf e he => ?_⟩
  · rw [List.mem_singleton.mp hy]
    exact hbucket
  · rintro (⟨e, he, hlocal'⟩ | hidle)
    · rw [hlocal e he] at hlocal'
      cases hlocal'
    · cases hidle
  · rw [List.mem_singleton.mp hy]
    exact hfault
  · rw [List.mem_singleton.mp hy] at hf
    rw [hfault f hf] at he
    split at he
    · cases he
    · cases he
      exact Error.fault?_ofFault f

end Report

/-! ## Errors of one class -/

/-- That every error a result can be is such an error. -/
def OnlyErrors {ε α : Type} (P : ε → Prop) (x : Except ε α) : Prop := ∀ e, x = .error e → P e

/-- That a check finds only local errors. -/
abbrev OnlyLocal {α : Type} (x : Except Error α) : Prop :=
  OnlyErrors (fun e : Error => e.isLocal = true) x

/-- That what is read from an answer is no local error. -/
abbrev NeverLocal {α : Type} (x : Except Error α) : Prop :=
  OnlyErrors (fun e : Error => e.isLocal = false) x

namespace OnlyErrors

variable {ε α β : Type} {P : ε → Prop}

theorem ok (a : α) : OnlyErrors P (.ok a) := fun _ h => nomatch h

theorem error {e : ε} (h : P e) : OnlyErrors P (.error e : Except ε α) := by
  rintro _ ⟨⟩
  exact h

/-- Steps have only such errors if each of them has. -/
theorem bind {x : Except ε α} {next : α → Except ε β} (h : OnlyErrors P x)
    (hnext : ∀ a, OnlyErrors P (next a)) : OnlyErrors P (x >>= next) := by
  cases x with
  | error e => exact error (h e rfl)
  | ok a => exact hnext a

/-- What is made of a success adds no error. -/
theorem map {x : Except ε α} (h : OnlyErrors P x) (f : α → β) : OnlyErrors P (x.map f) := by
  cases x with
  | error e => exact error (h e rfl)
  | ok a => exact ok (f a)

end OnlyErrors

/-! ## Calls -/

namespace Call

variable {α β σ : Type} [Backend σ]

/-- The report of a call. -/
def report (c : Call (Except Error α)) (s : σ) : Report :=
  let r := c.run (⟨s, []⟩ : Overheard σ)
  ⟨r.2.exchanges, failure? r.1⟩

/-- That a call is refused with a local error, or asks a bucket, reads no local error from a reply, and
hands a fault on unless it is forgiven. -/
inductive Candid (bucket : String) (forgiving : Bool) : Call (Except Error α) → Prop
  | refused {e : Error} (he : e.isLocal = true) : Candid bucket forgiving (refuse e)
  | asked {request : Request} {read : Except Fault request.Reply → Except Error α}
    (hbucket : request.bucket? = some bucket)
    (hreply : ∀ reply, NeverLocal (read (.ok reply)))
    (hfault : ∀ f, failure? (read (.error f)) =
      if forgiving = true ∧ f.code ∈ Fault.missingCodes then none else some (.ofFault f)) :
    Candid bucket forgiving (ask request read)

namespace Candid

variable {bucket : String} {forgiving : Bool}

/-- **A candid call** tells by its error whether the backend was reached. -/
theorem tells {c : Call (Except Error α)} (h : c.Candid bucket forgiving) (s : σ) :
    (c.report s).Tells bucket false forgiving := by
  cases h with
  | refused he => exact Report.tells_of_refused he
  | @asked request read hbucket hreply hfault =>
    have hreport : (ask request read).report s =
        ⟨[⟨request, (Backend.exchange request s).1⟩],
          failure? (read (Backend.exchange request s).1)⟩ := rfl
    rw [hreport]
    rcases (Backend.exchange request s).1 with f | reply
    · refine Report.tells_of_asked hbucket (fun e he => ?_) fun g hg => ?_
      · rw [hfault f] at he
        split at he
        · cases he
        · cases he
          exact Error.isLocal_ofFault f
      · cases hg
        exact hfault f
    · exact Report.tells_of_asked hbucket
        (fun e he => hreply reply e (failure?_eq_some.mp he)) nofun

/-- A request that hands its fault on. -/
theorem send {request : Request} {read : request.Reply → Except Error α}
    (hbucket : request.bucket? = some bucket)
    (hreply : ∀ reply, NeverLocal (read reply)) :
    Candid bucket false (send request read) :=
  .asked hbucket hreply fun f => by simp [failure?]

/-- A request that forgives that a thing is missing. -/
theorem remove {request : Request} (hbucket : request.bucket? = some bucket) :
    Candid bucket true
      ((Call.send request fun _ => .ok ()).map ignoreMissing : Call (Except Error Unit)) := by
  refine .asked hbucket (fun _ => .ok ()) fun f => ?_
  by_cases hf : f.code ∈ Fault.missingCodes
  · simp [ignoreMissing, (Error.isMissing_ofFault f).mpr hf, hf, failure?]
  · simp [ignoreMissing, mt (Error.isMissing_ofFault f).mp hf, hf, failure?]

/-- A candid call behind a check whose errors are local. -/
theorem after {check : Except Error β} {next : β → Call (Except Error α)}
    (hcheck : OnlyLocal check)
    (hnext : ∀ b, (next b).Candid bucket forgiving) : (Call.after check next).Candid bucket forgiving := by
  cases check with
  | error e => exact .refused (hcheck e rfl)
  | ok b => exact hnext b

end Candid

end Call

/-! ## Checks -/

theorem Object.onlyLocal_getUploadId (o : Object) : OnlyLocal o.getUploadId := by
  unfold getUploadId
  split
  · exact .ok _
  · exact .error rfl

/-- An object that is no open upload is refused on the spot. -/
theorem Object.onlyLocal_openUpload (o : Object) : OnlyLocal o.openUpload := by
  unfold openUpload
  split
  · exact o.onlyLocal_getUploadId
  · exact .error rfl

/-- So is a window that reaches past the largest offset. -/
theorem Window.onlyLocal_range (w : Window) : OnlyLocal w.range := by
  unfold range
  split
  · exact .ok _
  · exact .ok _
  · dsimp only
    split
    · exact .error rfl
    · exact .ok _

namespace Mount

variable (m : Mount)

/-- A body has to be as long as announced, which can be seen without a backend. -/
theorem onlyLocal_checkSize (body : Bytes) (size : UInt64) : OnlyLocal (checkSize body size) := by
  unfold checkSize
  split
  · exact .ok _
  · exact .error rfl

/-- An encryption beside a customer key is a conflict in the arguments alone. -/
theorem onlyLocal_chooseEncryption (chosen : Option Encryption) (key : Option CustomerKey) :
    OnlyLocal (m.chooseEncryption chosen key) := by
  unfold chooseEncryption
  split
  · exact .error rfl
  all_goals exact .ok _

theorem onlyLocal_checkWrite (body : Bytes) (size : UInt64) (o : ObjectChoices) :
    OnlyLocal (m.checkWrite body size o) := by
  unfold checkWrite
  split
  · exact .error rfl
  · exact .bind (onlyLocal_checkSize body size) fun _ =>
      m.onlyLocal_chooseEncryption o.encryption o.customerKey

theorem onlyLocal_numberOfIndex (index : UInt32) : OnlyLocal (numberOfIndex index) := by
  unfold numberOfIndex
  split
  · exact .ok _
  · exact .error rfl

/-- All that can stand against a part is in the arguments, its size and number too. -/
theorem onlyLocal_checkPart (object : Object) (index : UInt32) (body : Bytes) (size : UInt64) :
    OnlyLocal (checkPart object index body size) := by
  refine .bind object.onlyLocal_openUpload fun id => ?_
  refine .bind (onlyLocal_numberOfIndex index) fun number => ?_
  split
  · exact .error rfl
  · exact .bind (onlyLocal_checkSize body size) fun _ => .ok _

theorem onlyLocal_chooseParts (parts : List Part) : OnlyLocal (chooseParts parts) := by
  induction parts with
  | nil => exact .ok _
  | cons p rest ih =>
    exact .bind (onlyLocal_numberOfIndex p.index) fun _ => .bind ih fun _ => .ok _

/-- A list of parts is checked as a whole before the upload is asked for. -/
theorem onlyLocal_checkCompletion (object : Object) (parts : List Part) :
    OnlyLocal (checkCompletion object parts) := by
  refine .bind object.onlyLocal_openUpload fun id => ?_
  -- The steps after each of the two exits are one term until this unfolds them.
  dsimp only
  split
  · exact .error (e := Error.noParts) rfl
  · split
    · exact .bind (onlyLocal_chooseParts parts) fun _ => .ok _
    · exact .error (e := Error.partOrder) rfl

/-! ## Operations -/

theorem candid_stat (path : String) (target : Target) (key : Option CustomerKey) :
    (m.stat path target key).Candid m.bucket false := by
  cases target <;> exact .send rfl fun _ => .ok _

/-- A read asks, unless there are no bytes in its window. -/
theorem candid_read {path : String} {window : Window} (key : Option CustomerKey)
    (h : window.isEmpty = false) : (m.read path window key).Candid m.bucket false := by
  rw [read, if_neg (by simp [h])]
  exact .after window.onlyLocal_range fun _ => .send rfl fun _ => .ok _

theorem candid_write (path : String) (body : Bytes) (size : UInt64) (o : ObjectChoices) :
    (m.write path body size o).Candid m.bucket false :=
  .after (m.onlyLocal_checkWrite body size o) fun _ => .send rfl fun _ => .ok _

/-- To drop an upload forgives that it is gone. -/
theorem candid_dropUpload (key id : String) : (m.dropUpload key id).Candid m.bucket true :=
  .remove rfl

/-- To delete something forgives that it is missing. -/
theorem candid_delete (path : String) (target : Target) :
    (m.delete path target).Candid m.bucket true := by
  cases target <;> exact .remove rfl

theorem candid_makeDir (path : String) : (m.makeDir path).Candid m.bucket false :=
  .send rfl fun _ => .ok _

theorem candid_makeLink (path target : String) : (m.makeLink path target).Candid m.bucket false :=
  .send rfl fun _ => .ok _

/-- A reply without an upload id is an error, but no local one: the backend was reached. -/
theorem candid_createUpload (path : String) (o : UploadChoices) :
    (m.createUpload path o).Candid m.bucket false := by
  refine .after (m.onlyLocal_chooseEncryption o.encryption o.customerKey) fun _ =>
    .send rfl fun reply => ?_
  split
  · exact .ok _
  · exact .error rfl

/-- And so is a reply without an entity tag. -/
theorem candid_writePart (object : Object) (index : UInt32) (body : Bytes) (size : UInt64)
    (contentMd5 : Option String) (key : Option CustomerKey) :
    (m.writePart object index body size contentMd5 key).Candid m.bucket false := by
  refine .after (onlyLocal_checkPart object index body size) fun _ => .send rfl fun reply => ?_
  split
  · exact .ok _
  · exact .error rfl

/-- What a completion asks for. What becomes of the caller's object is told by the answer. -/
theorem candid_askCompletion (object : Object) (parts : List Part) :
    (m.askCompletion object parts).Candid m.bucket false :=
  .after (onlyLocal_checkCompletion object parts) fun _ => .send rfl fun _ => .ok _

theorem candid_abortUpload (object : Object) :
    (m.abortUpload object).Candid m.bucket true :=
  .after object.onlyLocal_openUpload fun _ => m.candid_dropUpload object.id _

/-! ## Pages -/

variable {σ : Type} [Backend σ]

end Mount

namespace Operation

/-- The error that an operation ends with. -/
def error? : (op : Operation) → op.Answer → Option Error
  | read .., a => failure? a
  | stat .., a => failure? a
  | write .., a => failure? a
  | delete .., a => failure? a
  | makeDir .., a => failure? a
  | makeLink .., a => failure? a
  | createUpload .., a => failure? a
  | writePart .., a => failure? a
  | completeUpload .., a => failure? a.1
  | abortUpload .., a => failure? a
  | list .., a => failure? a
  | listParts .., a => failure? a
  | nextObject _, a => a.bind fun r => failure? r.1
  | nextPart _, a => a.bind fun r => failure? r.1

/-- Whether an operation is a call on its own: all are but those on listings. -/
def calls : Operation → Bool
  | list .. | listParts .. | nextObject _ | nextPart _ => false
  | _ => true

/-- Whether an operation opens a listing. -/
def opens : Operation → Bool
  | list .. | listParts .. => true
  | _ => false

/-- Whether an operation has nothing to ask, as it reads no bytes. -/
def readsNothing : Operation → Bool
  | read _ window _ => window.size == some 0
  | _ => false

/-- Whether an operation takes something away. -/
def removes : Operation → Bool
  | delete .. | abortUpload _ => true
  | _ => false

variable {σ : Type} [Backend σ]

/-- The report of an operation. -/
def report (m : Mount) (op : Operation) (s : σ) : Report :=
  let r := op.perform m (⟨s, []⟩ : Overheard σ)
  ⟨r.2.exchanges, op.error? r.1⟩

/-- A completion has the report of its request. -/
theorem report_completeUpload (m : Mount) (object : Object) (parts : List Part) (s : σ) :
    (completeUpload object parts).report m s = (m.askCompletion object parts).report s := by
  rw [report, perform, Call.report, Mount.completeUpload, Call.run_map]
  simp only [error?, Mount.fst_on_finish, failure?_map]

/-- **A call** tells by its error whether the backend was reached. -/
theorem tells (m : Mount) {op : Operation} (h : op.calls = true) (s : σ) :
    (op.report m s).Tells m.bucket op.readsNothing op.removes := by
  cases op with
  | read path window key =>
    -- An empty window is answered before its range is looked at, so not even that can fail.
    cases hempty : window.isEmpty with
    | true =>
      have hrun : m.read path window key = .done (.ok []) := if_pos hempty
      have hreport : report m (.read path window key) s =
          (m.read path window key).report s := rfl
      have hidle : readsNothing (.read path window key) = true := hempty
      rw [hreport, hrun, hidle]
      exact Report.tells_of_idle
    | false =>
      have hidle : readsNothing (.read path window key) = false := hempty
      rw [hidle]
      exact (m.candid_read key hempty).tells s
  | stat path target key => exact (m.candid_stat path target key).tells s
  | write path body size choices => exact (m.candid_write path body size choices).tells s
  | delete path target => exact (m.candid_delete path target).tells s
  | makeDir path => exact (m.candid_makeDir path).tells s
  | makeLink path target => exact (m.candid_makeLink path target).tells s
  | createUpload path choices => exact (m.candid_createUpload path choices).tells s
  | writePart object index body size contentMd5 key =>
    exact (m.candid_writePart object index body size contentMd5 key).tells s
  | completeUpload object parts =>
    rw [report_completeUpload]
    exact (m.candid_askCompletion object parts).tells s
  | abortUpload object => exact (m.candid_abortUpload object).tells s
  | list path kind => cases h
  | listParts object => cases h
  | nextObject feed => cases h
  | nextPart feed => cases h

/-- To open a listing is to ask nothing. -/
theorem exchanges_of_opens (m : Mount) {op : Operation} (h : op.opens = true) (s : σ) :
    (op.report m s).exchanges = [] := by
  cases op with
  | list path kind => rfl
  | listParts object => rfl
  | _ => cases h

end Operation

end ObjectStore
