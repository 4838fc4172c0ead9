import ObjectStore.Store.Serving

/-!
# Steps over a store

What a client does over a store one step after another: it stops at the first error, and may not come
to an end where a listing does not. `Steps.Brings` says what steps that only look bring; it is closed
under what steps are put together with.
-/

namespace ObjectStore

/-- What is done over a store and may fail, or not come to an end. -/
abbrev Steps := ExceptT Error (StateT Store Option)

namespace Steps

/-- The steps bring a result wherever a store is like this one, and leave all but the log as it is. -/
def Brings {α : Type} (x : Steps α) (s : Store) (a : α) : Prop :=
  ∀ log, ∃ requests, x.run.run { s with log } = some (.ok a, { s with log := log ++ requests })

variable {α β : Type} {s : Store}

theorem brings_pure (a : α) : (pure a : Steps α).Brings s a :=
  fun log => ⟨[], by rw [List.append_nil]; rfl⟩

/-- Steps one after another. -/
theorem Brings.bind {x : Steps α} {f : α → Steps β} {a : α} {b : β} (hx : x.Brings s a)
    (hf : (f a).Brings s b) : (x >>= f).Brings s b := by
  intro log
  obtain ⟨first, hfirst⟩ := hx log
  obtain ⟨second, hsecond⟩ := hf (log ++ first)
  refine ⟨first ++ second, ?_⟩
  rw [ExceptT.run_bind, StateT.run_bind, hfirst]
  rw [List.append_assoc] at hsecond
  exact hsecond

/-- After an error nothing more is done. -/
theorem bind_error {x : Steps α} {f : α → Steps β} {e : Error} {s' : Store}
    (h : x.run.run s = some (.error e, s')) : (x >>= f).run.run s = some (.error e, s') := by
  rw [ExceptT.run_bind, StateT.run_bind, h]
  rfl

/-- One call. -/
def call (c : Call (Except Error α)) : Steps α := ExceptT.mk fun s => some (c.run s)

/-- A step for each element of a list, one after another. -/
theorem brings_mapM {f : α → Steps β} {g : α → β} {xs : List α}
    (h : ∀ x ∈ xs, (f x).Brings s (g x)) : (xs.mapM f).Brings s (xs.map g) := by
  induction xs with
  | nil => exact brings_pure []
  | cons x rest ih =>
    rw [List.mapM_cons, List.map_cons]
    have hrest := ih fun y hy => h y (List.mem_cons_of_mem x hy)
    refine (h x List.mem_cons_self).bind (hrest.bind ?_)
    exact brings_pure _

end Steps

end ObjectStore
