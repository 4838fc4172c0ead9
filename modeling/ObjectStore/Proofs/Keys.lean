import ObjectStore.Store.Listing

/-!
# Keys in order, and how they are shown

Keys are ordered character by character. Where one key is below another and no stem of it, whatever is
put behind the two changes nothing of their order (`append_lt_append`): so all keys below one directory
stand together, and two directories stand as their names do.

With a delimiter, a key is shown by its first *step* after the stem. `get?_shownTable` says what a
listing can show: objects whose key has no delimiter after the stem, and one group for each step that
starts some key.
-/

namespace ObjectStore

/-! ## The order of keys -/

namespace Text

theorem lt_append_of_ne {a b : String} (h : b ≠ "") : a < a ++ b := by
  rw [String.lt_iff, String.toList_append]
  cases hb : b.toList with
  | nil => exact absurd (String.toList_inj.mp (by rw [hb]; rfl)) h
  | cons c rest =>
    have hlt : a.toList ++ [] < a.toList ++ c :: rest := List.append_left_lt (List.nil_lt_cons c rest)
    rwa [List.append_nil] at hlt

/-- Nothing is below the empty text. -/
theorem not_lt_empty (a : String) : ¬ a < "" := by
  rw [String.lt_iff]
  exact List.not_lt_nil _

theorem list_append_lt_append {a b : List Char} (h : a < b) (hstem : ¬ a <+: b) (x y : List Char) :
    a ++ x < b ++ y := by
  -- The first character in which the keys differ decides, and stays where it is.
  induction a generalizing b with
  | nil => exact absurd List.nil_prefix hstem
  | cons c a ih =>
    cases b with
    | nil => exact absurd h (List.not_lt_nil _)
    | cons d b =>
      rw [List.cons_append, List.cons_append, List.cons_lt_cons_iff]
      rcases List.cons_lt_cons_iff.mp h with hlt | ⟨rfl, hlt⟩
      · exact .inl hlt
      · refine .inr ⟨rfl, ih hlt fun hp => hstem ?_⟩
        exact (List.cons_prefix_cons).mpr ⟨rfl, hp⟩

/-- Of two keys of which the lower is no stem of the other, all that starts with the lower is below
all that starts with the other. -/
theorem append_lt_append {a b : String} (h : a < b) (hstem : ¬ ∃ z, b = a ++ z) (x y : String) :
    a ++ x < b ++ y := by
  rw [String.lt_iff, String.toList_append, String.toList_append]
  refine list_append_lt_append (String.lt_iff.mp h) ?_ x.toList y.toList
  rintro ⟨z, hz⟩
  refine hstem ⟨String.ofList z, String.toList_inj.mp ?_⟩
  rw [String.toList_append, String.toList_ofList, hz]

/-- Sorting by a text puts what is sorted in the order of that text. -/
theorem pairwise_mergeSort {α : Type} (f : α → String) (xs : List α) :
    (xs.mergeSort fun a b => decide (f a ≤ f b)).Pairwise fun a b => f a ≤ f b := by
  have hsorted := List.pairwise_mergeSort (fun a b c (hab : decide (f a ≤ f b) = true)
      (hbc : decide (f b ≤ f c) = true) =>
    decide_eq_true (Std.le_trans (of_decide_eq_true hab) (of_decide_eq_true hbc)))
    (fun a b => by simpa using Std.le_total (a := f a) (b := f b)) xs
  exact hsorted.imp of_decide_eq_true

/-! ## Steps -/

/-- A text without a slash. -/
def IsStep (text : String) : Prop := '/' ∉ text.toList

instance (text : String) : Decidable (IsStep text) := inferInstanceAs (Decidable (_ ∉ _))

/-- A text without the mark has no first mark. -/
theorem throughMark?_eq_none {c : Char} {text : List Char} :
    throughMark? [c] text = none ↔ c ∉ text := by
  induction text with
  | nil => simp [throughMark?]
  | cons d text ih =>
    by_cases h : c = d
    · simp [throughMark?, dropStem?, h]
    · simp [throughMark?, dropStem?, h, ih]

theorem throughMark?_eq_some {c : Char} {text group : List Char} :
    throughMark? [c] text = some group ↔
      ∃ step rest, c ∉ step ∧ text = step ++ c :: rest ∧ group = step ++ [c] := by
  induction text generalizing group with
  | nil => simp [throughMark?]
  | cons d text ih =>
    by_cases h : c = d
    · subst h
      simp only [throughMark?, dropStem?, if_true, Option.some.injEq]
      constructor
      · rintro rfl
        exact ⟨[], text, List.not_mem_nil, rfl, rfl⟩
      · rintro ⟨step, rest, hstep, heq, rfl⟩
        cases step with
        | nil => rfl
        | cons x step =>
          rw [List.cons_append, List.cons.injEq] at heq
          exact absurd (heq.1 ▸ List.mem_cons_self) hstep
    · simp only [throughMark?, dropStem?, h, if_false, Option.map_eq_some_iff, ih]
      constructor
      · rintro ⟨_, ⟨step, rest, hstep, rfl, rfl⟩, rfl⟩
        exact ⟨d :: step, rest, by simp [h, hstep], rfl, rfl⟩
      · rintro ⟨step, rest, hstep, heq, rfl⟩
        cases step with
        | nil =>
          rw [List.nil_append, List.cons.injEq] at heq
          exact absurd heq.1.symm h
        | cons x step =>
          rw [List.cons_append, List.cons.injEq] at heq
          obtain ⟨rfl, rfl⟩ := heq
          exact ⟨step ++ [c], ⟨step, rest, fun hc => hstep (List.mem_cons_of_mem _ hc), rfl, rfl⟩,
            rfl⟩

/-- Two texts that go on after a slash are alike just if their first steps are, and what follows. -/
theorem step_inj {step step' rest rest' : String} (hs : IsStep step) (hs' : IsStep step')
    (h : step ++ "/" ++ rest = step' ++ "/" ++ rest') : step = step' ∧ rest = rest' := by
  -- The part up to the first slash is a function of the text, so it is one for both.
  have hthrough : ∀ {s r : String}, IsStep s →
      throughMark? ['/'] (s ++ "/" ++ r).toList = some (s ++ "/").toList := fun {s r} hs =>
    throughMark?_eq_some.mpr ⟨s.toList, r.toList, hs, by simp, by simp⟩
  have hstep : step ++ "/" = step' ++ "/" :=
    String.toList_inj.mp (Option.some.inj ((hthrough hs).symm.trans (h ▸ hthrough hs')))
  refine ⟨?_, (String.append_right_inj _).mp (hstep ▸ h)⟩
  have hlist := congrArg String.toList hstep
  rw [String.toList_append, String.toList_append] at hlist
  exact String.toList_inj.mp (List.append_cancel_right hlist)

/-- A text is one step, or goes on after its first step. -/
theorem step_cases (text : String) :
    IsStep text ∨ ∃ step rest, IsStep step ∧ text = step ++ "/" ++ rest := by
  cases h : throughMark? ['/'] text.toList with
  | none => exact .inl (throughMark?_eq_none.mp h)
  | some group =>
    obtain ⟨step, rest, hstep, htext, -⟩ := throughMark?_eq_some.mp h
    refine .inr ⟨String.ofList step, String.ofList rest, by simpa [IsStep] using hstep, ?_⟩
    exact String.toList_inj.mp (by simp [htext])

/-- A text that goes on after a step is no step. -/
theorem not_isStep (step rest : String) : ¬ IsStep (step ++ "/" ++ rest) :=
  fun h => h (by simp)

theorem endsWith_slash (text : String) : endsWith '/' (text ++ "/") = true := by
  simp [endsWith]

/-- A text that ends with a step does not end with a slash. -/
theorem endsWith_step (text : String) {step : String} (hs : IsStep step) (hne : step ≠ "") :
    endsWith '/' (text ++ step) = false := by
  have hlist : step.toList ≠ [] := fun hnil => hne (String.toList_inj.mp (by rw [hnil]; rfl))
  rw [endsWith, String.toList_append, List.getLast?_append, List.getLast?_eq_some_getLast hlist,
    Option.some_or, beq_eq_false_iff_ne]
  intro heq
  exact hs (Option.some.inj heq ▸ List.getLast_mem hlist)

end Text

/-! ## How a key is shown -/

namespace Store

open Text

/-- A key that does not start with the stem is not shown. -/
theorem shown?_none {stem key : String} {delimiter : Option String}
    (h : ∀ rest, key ≠ stem ++ rest) : shown? stem delimiter key = none := by
  rw [shown?]
  cases hafter : after? stem key with
  | none => rfl
  | some rest => exact absurd (after?_eq_some_iff.mp hafter) (h rest)

/-- Without a delimiter, each key below the stem is shown as it is. -/
theorem shown?_flat {stem key : String} {x : Shown} :
    shown? stem none key = some x ↔ x = .object key ∧ ∃ rest, key = stem ++ rest := by
  by_cases h : ∃ rest, key = stem ++ rest
  · obtain ⟨rest, rfl⟩ := h
    rw [shown?]
    simp only [after?_eq_some_iff.mpr rfl, Option.filter_none, Option.some.injEq,
      String.append_right_inj, exists_eq', and_true]
    exact eq_comm
  · rw [shown?_none (not_exists.mp h)]
    simp [h]

/-- Below a stem, a key is shown by what there is of it up to the first slash. -/
theorem shown?_below (stem rest : String) :
    shown? stem (some "/") (stem ++ rest) =
      some ((throughMark? ['/'] rest.toList).elim (.object (stem ++ rest)) fun group =>
        .group (stem ++ String.ofList group)) := by
  have hslash : (some "/").filter (· ≠ "") = some "/" := by decide
  rw [shown?]
  simp only [after?_eq_some_iff.mpr rfl, hslash]
  have hmark : "/".toList = ['/'] := rfl
  rw [hmark]
  cases throughMark? ['/'] rest.toList <;> rfl

/-- With a delimiter, a key is shown as it is where it ends with its first step after the stem. -/
theorem shown?_object {stem key k : String} :
    shown? stem (some "/") key = some (.object k) ↔
      k = key ∧ ∃ rest, IsStep rest ∧ key = stem ++ rest := by
  by_cases h : ∃ rest, key = stem ++ rest
  · obtain ⟨rest, rfl⟩ := h
    rw [shown?_below]
    cases hthrough : throughMark? ['/'] rest.toList with
    | none =>
      have hstep : IsStep rest := throughMark?_eq_none.mp hthrough
      simp only [Option.elim_none, Option.some.injEq, Shown.object.injEq]
      exact ⟨fun heq => ⟨heq.symm, rest, hstep, rfl⟩, fun heq => heq.1.symm⟩
    | some group =>
      simp only [Option.elim_some, Option.some.injEq, reduceCtorEq, false_iff]
      rintro ⟨-, rest', hstep, heq⟩
      rw [(String.append_right_inj _).mp heq, throughMark?_eq_none.mpr hstep] at hthrough
      cases hthrough
  · rw [shown?_none (not_exists.mp h)]
    simp only [reduceCtorEq, false_iff]
    rintro ⟨-, rest, -, heq⟩
    exact h ⟨rest, heq⟩

/-- With a delimiter, a key that goes on after its first step is shown as a group. -/
theorem shown?_group {stem key name : String} :
    shown? stem (some "/") key = some (.group name) ↔
      ∃ step rest, IsStep step ∧ key = stem ++ (step ++ "/" ++ rest) ∧
        name = stem ++ (step ++ "/") := by
  by_cases h : ∃ rest, key = stem ++ rest
  · obtain ⟨rest, rfl⟩ := h
    rw [shown?_below]
    cases hthrough : throughMark? ['/'] rest.toList with
    | none =>
      simp only [Option.elim_none, Option.some.injEq, reduceCtorEq, false_iff]
      rintro ⟨step, rest', -, heq, -⟩
      have hstep : IsStep rest := throughMark?_eq_none.mp hthrough
      rw [(String.append_right_inj _).mp heq] at hstep
      exact not_isStep step rest' hstep
    | some group =>
      obtain ⟨step, rest', hstep, hrest, rfl⟩ := throughMark?_eq_some.mp hthrough
      have hkey : rest = String.ofList step ++ "/" ++ String.ofList rest' :=
        String.toList_inj.mp (by simp [hrest])
      have hgroup : String.ofList (step ++ ['/']) = String.ofList step ++ "/" :=
        String.toList_inj.mp (by simp)
      have hfirst : IsStep (String.ofList step) := by simpa [IsStep] using hstep
      simp only [Option.elim_some, Option.some.injEq, Shown.group.injEq, hgroup]
      constructor
      · rintro rfl
        exact ⟨_, _, hfirst, by rw [hkey], rfl⟩
      · rintro ⟨step', rest'', hstep', heq, rfl⟩
        rw [hkey] at heq
        rw [(step_inj hfirst hstep' ((String.append_right_inj _).mp heq)).1]
  · rw [shown?_none (not_exists.mp h)]
    simp only [reduceCtorEq, false_iff]
    rintro ⟨step, rest, -, heq, -⟩
    exact h ⟨_, heq⟩

/-- No object is shown under the name of a group. -/
theorem object_ne_group {stem key name : String} {delimiter : Option String}
    (hd : delimiter = none ∨ delimiter = some "/")
    (h : shown? stem delimiter key = some (.group name)) :
    shown? stem delimiter name ≠ some (.object name) := by
  rcases hd with rfl | rfl
  · cases (shown?_flat.mp h).1
  · intro hobject
    obtain ⟨step, rest, -, -, rfl⟩ := shown?_group.mp h
    obtain ⟨-, rest', hstep, heq⟩ := shown?_object.mp hobject
    rw [← (String.append_right_inj _).mp heq, ← String.append_empty (s := step ++ "/")] at hstep
    exact not_isStep step "" hstep

/-- An object is shown under its own key. -/
theorem shown?_object_key {stem key k : String} {delimiter : Option String}
    (hd : delimiter = none ∨ delimiter = some "/")
    (h : shown? stem delimiter key = some (.object k)) : k = key := by
  rcases hd with rfl | rfl
  · exact Shown.object.inj (shown?_flat.mp h).1
  · exact (shown?_object.mp h).1

/-! ## What a listing can show -/

section

variable {stem : String} {delimiter : Option String} {e : String × KeptObject}
  {entries : List (String × KeptObject)} {h : (e :: entries).Pairwise fun a b => a.1 < b.1}

theorem shownTable_cons_none (hs : shown? stem delimiter e.1 = none) :
    shownTable stem delimiter ⟨e :: entries, h⟩ = shownTable stem delimiter ⟨entries, h.of_cons⟩ := by
  simp only [shownTable, List.foldr_cons, hs]

theorem shownTable_cons_object {key : String} (hs : shown? stem delimiter e.1 = some (.object key)) :
    shownTable stem delimiter ⟨e :: entries, h⟩ =
      (shownTable stem delimiter ⟨entries, h.of_cons⟩).insert key (some e.2) := by
  simp only [shownTable, List.foldr_cons, hs]

theorem shownTable_cons_group {name : String} (hs : shown? stem delimiter e.1 = some (.group name)) :
    shownTable stem delimiter ⟨e :: entries, h⟩ =
      (shownTable stem delimiter ⟨entries, h.of_cons⟩).insert name none := by
  simp only [shownTable, List.foldr_cons, hs]

end

/-- What a listing can show: an object under each key that is shown as it is, and a group under each
name that some key is shown as. -/
theorem get?_shownTable (stem : String) {delimiter : Option String}
    (hd : delimiter = none ∨ delimiter = some "/") (t : Table String KeptObject) (name : String) :
    (∀ o, (shownTable stem delimiter t).get? name = some (some o) ↔
        (name, o) ∈ t.entries ∧ shown? stem delimiter name = some (.object name)) ∧
      ((shownTable stem delimiter t).get? name = some none ↔
        ∃ e ∈ t.entries, shown? stem delimiter e.1 = some (.group name)) := by
  obtain ⟨entries, hasc⟩ := t
  -- The table is made from the highest key down; a group is set again by each of its keys.
  induction entries with
  | nil => simp [shownTable, Table.get?, Table.lookup, EmptyCollection.emptyCollection, Table.empty]
  | cons e entries ih =>
    obtain ⟨hobject, hgroup⟩ := ih hasc.of_cons
    have hfirst := (List.pairwise_cons.mp hasc).1
    cases hs : shown? stem delimiter e.1 with
    | none =>
      rw [shownTable_cons_none hs]
      refine ⟨fun o => (hobject o).trans ?_, hgroup.trans ?_⟩
      · refine and_congr_left fun hname => ⟨List.mem_cons_of_mem e, fun hmem => ?_⟩
        rcases List.mem_cons.mp hmem with rfl | hmem
        · rw [hs] at hname
          cases hname
        · exact hmem
      · simp [hs]
    | some x =>
      cases x with
      | object key =>
        obtain rfl := shown?_object_key hd hs
        rw [shownTable_cons_object hs, Table.get?_insert]
        by_cases hname : e.1 = name
        · subst hname
          rw [if_pos rfl]
          refine ⟨fun o => ?_, ?_⟩
          · -- Keys ascend, so this one does not come again.
            have hout : (e.1, o) ∉ entries := fun hmem => Std.lt_irrefl (hfirst (e.1, o) hmem)
            simp [hs, hout, Prod.ext_iff, eq_comm]
          · simp only [Option.some.injEq, reduceCtorEq, false_iff]
            rintro ⟨e', -, hgroup'⟩
            exact object_ne_group hd hgroup' hs
        · rw [if_neg hname]
          refine ⟨fun o => (hobject o).trans ?_, hgroup.trans ?_⟩
          · have hne : (name, o) ≠ e := fun heq => hname (heq ▸ rfl)
            simp [hne]
          · simp [hs]
      | group g =>
        rw [shownTable_cons_group hs, Table.get?_insert]
        by_cases hname : g = name
        · subst hname
          rw [if_pos rfl]
          refine ⟨fun o => ?_, ?_⟩
          · have hno := object_ne_group hd hs
            simp [hno]
          · simp [hs]
        · rw [if_neg hname]
          refine ⟨fun o => (hobject o).trans ?_, hgroup.trans ?_⟩
          · refine and_congr_left fun hshown => ⟨List.mem_cons_of_mem e, fun hmem => ?_⟩
            rcases List.mem_cons.mp hmem with rfl | hmem
            · rw [hs] at hshown
              cases hshown
            · exact hmem
          · simp [hs, hname]

end Store

end ObjectStore
