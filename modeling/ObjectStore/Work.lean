/-!
# Work in place

Work changes a state as it goes. It may stop with an error, and then the state is what it was when the
work stopped: whatever was changed before that stays changed. That an error leaves everything as it was
is therefore not in the nature of work. It is a property of some of it (`Work.Atomic`), which is proved
of each piece.
-/

namespace ObjectStore

/-- Work on a state, which may stop with an error. -/
abbrev Work (σ ε α : Type) := ExceptT ε (StateM σ) α

namespace Work

variable {σ ε α β : Type}

/-- Does the work on a state: how it ends, and the state that it leaves in either case. -/
def on (w : Work σ ε α) (s : σ) : Except ε α × σ := w.run s

variable {w : Work σ ε α} {f : α → Work σ ε β} {s s' : σ}

theorem on_pure (a : α) (s : σ) : (pure a : Work σ ε α).on s = (.ok a, s) := rfl

theorem on_get (s : σ) : (get : Work σ ε σ).on s = (.ok s, s) := rfl

theorem on_modify (g : σ → σ) (s : σ) : (modify g : Work σ ε Unit).on s = (.ok (), g s) := rfl

/-- A check leaves the state, whatever comes of it. -/
theorem on_check (check : Except ε α) (s : σ) : (liftM check : Work σ ε α).on s = (check, s) := rfl

/-- Work in steps goes on from the state that its first step leaves, unless that stops. -/
theorem on_bind (w : Work σ ε α) (f : α → Work σ ε β) (s : σ) :
    (w >>= f).on s =
      match w.on s with
      | (.ok a, s') => (f a).on s'
      | (.error e, s') => (.error e, s') := by
  rcases h : w.on s with ⟨_ | a, s'⟩ <;>
    exact congrArg (fun r : Except ε α × σ => ExceptT.bindCont f r.1 r.2) h

theorem on_get_bind (f : σ → Work σ ε β) (s : σ) :
    ((get : Work σ ε σ) >>= f).on s = (f s).on s := rfl

theorem on_bind_of_ok {a : α} (h : w.on s = (.ok a, s')) (f : α → Work σ ε β) :
    (w >>= f).on s = (f a).on s' := by
  rw [on_bind, h]

theorem on_bind_of_error {e : ε} (h : w.on s = (.error e, s')) (f : α → Work σ ε β) :
    (w >>= f).on s = (.error e, s') := by
  rw [on_bind, h]

/-- Work in steps is done where its first step is and the rest is from there. -/
theorem on_bind_eq_ok {b : β} :
    (w >>= f).on s = (.ok b, s') ↔ ∃ a t, w.on s = (.ok a, t) ∧ (f a).on t = (.ok b, s') := by
  rcases h : w.on s with ⟨e | a, t⟩
  · rw [on_bind_of_error h]
    simp
  · rw [on_bind_of_ok h]
    exact ⟨fun hf => ⟨a, t, rfl, hf⟩, by rintro ⟨_, _, ⟨⟩, hf⟩; exact hf⟩

/-- Work after a check ends as the check does, or else as the work does. -/
theorem fst_on_check_bind (check : Except ε α) (f : α → Work σ ε β) (s : σ) :
    (((liftM check : Work σ ε α) >>= f).on s).1 = check.bind fun a => ((f a).on s).1 := by
  cases check <;> rfl

/-- Work ends as its first step does, if the rest cannot fail. -/
theorem fst_on_bind_of_ok {g : α → β} (h : ∀ a s, ((f a).on s).1 = .ok (g a)) :
    ((w >>= f).on s).1 = (w.on s).1.map g := by
  rcases hw : w.on s with ⟨e | a, t⟩
  · rw [on_bind_of_error hw]
    rfl
  · rw [on_bind_of_ok hw, h]
    rfl

/-- Work ends as its first step does, if the rest hands on what that gives. -/
theorem fst_on_bind_return {f : α → Work σ ε α} (h : ∀ a s, ((f a).on s).1 = .ok a) :
    ((w >>= f).on s).1 = (w.on s).1 :=
  (fst_on_bind_of_ok h).trans (congrFun Except.map_id _)

/-! ## Errors that leave the state -/

/-- An error leaves the state as it was before the work. -/
def Atomic (w : Work σ ε α) : Prop := ∀ s e s', w.on s = (.error e, s') → s' = s

/-- Work that always succeeds is atomic. -/
theorem Atomic.of_ok (h : ∀ s, ∃ a s', w.on s = (.ok a, s')) : w.Atomic := by
  intro s e s' hon
  obtain ⟨a, t, ha⟩ := h s
  rw [ha] at hon
  cases hon

/-- To look at the state before the work keeps it atomic. -/
theorem Atomic.get_bind {f : σ → Work σ ε β} (h : ∀ s, (f s).Atomic) :
    ((get : Work σ ε σ) >>= f).Atomic := fun s => h s s

/-- A check before the work keeps it atomic. -/
theorem Atomic.check_bind {check : Except ε α} (h : ∀ a, check = .ok a → (f a).Atomic) :
    ((liftM check : Work σ ε α) >>= f).Atomic := by
  intro s e s' hon
  cases check with
  | error e' =>
    rw [on_bind_of_error (on_check _ s)] at hon
    cases hon
    rfl
  | ok a =>
    rw [on_bind_of_ok (on_check _ s)] at hon
    exact h a rfl s e s' hon

/-- Atomic work stays so with work behind it that always succeeds. -/
theorem Atomic.bind_ok (hw : w.Atomic) (h : ∀ a s, ∃ b s', (f a).on s = (.ok b, s')) :
    (w >>= f).Atomic := by
  intro s e s' hon
  rcases hstep : w.on s with ⟨e' | a, t⟩
  · rw [on_bind_of_error hstep] at hon
    cases hon
    exact hw s e s' hstep
  · rw [on_bind_of_ok hstep] at hon
    obtain ⟨b, u, hb⟩ := h a t
    rw [hb] at hon
    cases hon

end Work

end ObjectStore
