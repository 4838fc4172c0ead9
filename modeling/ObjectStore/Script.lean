import ObjectStore.Backend

/-!
# Scripts

A script is a backend with a list of prepared answers. It gives them in turn, whatever it is asked:
a fault, or a reply for any request that may come. When no answer is left it faults.
-/

namespace ObjectStore

/-- A prepared answer. -/
abbrev ScriptedAnswer := Except Fault ((request : Request) → request.Reply)

/-- The answers that are left. -/
structure Script where
  answers : List ScriptedAnswer

/-- A script was asked for more answers than it has. -/
def Fault.scriptExhausted (message : String) : Fault := ⟨"ScriptExhausted", message, none⟩

/-- The next answer of a script. -/
def Script.answer (s : Script) (request : Request) : Except Fault request.Reply × Script :=
  match s.answers with
  | [] => (.error (.scriptExhausted "no response left"), s)
  | .error fault :: rest => (.error fault, ⟨rest⟩)
  | .ok reply :: rest => (.ok (reply request), ⟨rest⟩)

instance : Backend Script where
  exchange request s := s.answer request
  patience s := s.answers.length + 1

end ObjectStore
