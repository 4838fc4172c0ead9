import ObjectStore.Fault
import ObjectStore.Request

/-!
# Backends and calls

A backend answers one request at a time and may change its state by doing so. A *call* is a piece of
work that sends at most one request: it is either `done` at once, or it asks one thing and makes its
result from the answer. Every operation on a mounted bucket, and every fetch of a page, is a call:
"at most one request" holds by the shape of the type, and what an operation does can be read off
without a backend.

`Recorded` is a backend with a list of the requests it was sent; recording changes no answer.
-/

namespace ObjectStore

/-- Something that answers requests. -/
class Backend (σ : Type) where
  /-- Answers a request: a reply or a fault, and the state after it. -/
  exchange : (request : Request) → σ → Except Fault request.Reply × σ
  /-- How many fetches a listing may take before it shows something or ends. A listing that takes
  more is given up. -/
  patience : σ → Nat

/-- A piece of work that sends at most one request. -/
inductive Call (α : Type) where
  /-- There is nothing to ask. -/
  | done (result : α)
  /-- The result comes from the answer to one request. -/
  | ask (request : Request) (read : Except Fault request.Reply → α)

namespace Call

variable {α β : Type}

/-- Does the work with a backend. -/
def run {σ : Type} [Backend σ] : Call α → σ → α × σ
  | done a, s => (a, s)
  | ask request read, s =>
    let answer := Backend.exchange request s
    (read answer.1, answer.2)

/-- Makes another result from the result of a call. -/
def map (f : α → β) : Call α → Call β
  | done a => done (f a)
  | ask request read => ask request fun answer => f (read answer)

/-- The request that a call sends. -/
def request? : Call α → Option Request
  | done _ => none
  | ask request _ => some request

/-- A call whose result is an error that was found before asking. -/
def refuse (e : Error) : Call (Except Error α) := done (.error e)

/-- Asks, turns a fault into its error, and makes the result from a reply. -/
def send (request : Request) (read : request.Reply → Except Error α) : Call (Except Error α) :=
  ask request fun
    | .ok reply => read reply
    | .error fault => .error (.ofFault fault)

/-- Goes on with a call if a check before it succeeds. -/
def after (check : Except Error β) (next : β → Call (Except Error α)) : Call (Except Error α) :=
  match check with
  | .ok b => next b
  | .error e => refuse e

@[simp] theorem run_map {σ : Type} [Backend σ] (f : α → β) (c : Call α) (s : σ) :
    (c.map f).run s = (f (c.run s).1, (c.run s).2) := by
  cases c <;> rfl

end Call

/-- A backend's state with the requests it was sent, in order. -/
structure Recorded (σ : Type) where
  state : σ
  requests : List Request := []

instance {σ : Type} [Backend σ] : Backend (Recorded σ) where
  exchange request s :=
    let answer := Backend.exchange request s.state
    (answer.1, ⟨answer.2, s.requests ++ [request]⟩)
  patience s := Backend.patience s.state

namespace Recorded

variable {σ α : Type} [Backend σ]

/-- Recording adds just the request of a call. -/
theorem requests_run (c : Call α) (s : Recorded σ) :
    (c.run s).2.requests = s.requests ++ c.request?.toList := by
  cases c <;> simp [Call.run, Call.request?, Backend.exchange]

/-- Recording changes neither result nor state. -/
theorem run_state (c : Call α) (s : Recorded σ) :
    ((c.run s).1, (c.run s).2.state) = c.run s.state := by
  cases c <;> rfl

end Recorded

end ObjectStore
