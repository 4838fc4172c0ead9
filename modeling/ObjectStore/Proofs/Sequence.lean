import Mathlib.Data.List.TakeDrop
import ObjectStore.Proofs.Paging

/-!
# What a feed hands out

A feed and its source are compared with a list of the pages that the source's fetches yield. The list
alone tells what there is to hand out (`Page.sequence`): the items of its pages, up to the first page
that is the last one or the first fetch that fails, and then the error of that fetch. What a fetch put on
its page before it failed is on the list, but not in the sequence; that a feed does not hand it out is
what the feed does with the page. The list also tells the number of fetches that it takes to come to each
item.

`Feed.nexts` asks for any number of items in a row. Its answers are those of the sequence, whatever
the source does besides (`Feed.nexts_of_plays`), and each of them leaves the source where it is after
just as many fetches as the sequence tells (`Feed.course`): nothing is fetched ahead of time. In
`Feed.nexts_sequence` the fetches are counted beside the source's state.
-/

namespace ObjectStore

/-- A member of a list that is filled up is one of the list or the filling. -/
theorem mem_takeD {α : Type} {a filling : α} {n : Nat} {xs : List α}
    (h : a ∈ xs.takeD n filling) : a ∈ xs ∨ a = filling := by
  induction n generalizing xs with
  | zero => cases h
  | succ n ih =>
    cases xs with
    | nil =>
      rw [List.takeD_nil] at h
      exact .inr (List.eq_of_mem_replicate h)
    | cons x xs =>
      rcases List.mem_cons.mp h with rfl | hrest
      · exact .inl List.mem_cons_self
      · exact (ih hrest).imp_left (List.mem_cons_of_mem x)

/-- What is left of a list from an element on. -/
theorem drop_of_getElem? {α : Type} {xs : List α} {k : Nat} {x : α} (h : xs[k]? = some x) :
    xs.drop k = x :: xs.drop (k + 1) := by
  rw [List.drop_eq_getElem?_toList_append, h]
  rfl

namespace Page

variable {ι : Type}

/-- The items of each page that counts: the pages up to the first that is the last one, or up to a
failure. What is on the page of a failure does not count. -/
def kept : List (Page ι) → List (List ι)
  | [] => []
  | page :: rest =>
    match page.outcome with
    | .error _ => []
    | .ok true => [page.items]
    | .ok false => page.items :: kept rest

/-- The failure that comes after these pages, unless one of them is the last. A fetch past the end of
the list fails. -/
def failure? (overrun : Error) : List (Page ι) → Option Error
  | [] => some overrun
  | page :: rest =>
    match page.outcome with
    | .error e => some e
    | .ok true => none
    | .ok false => failure? overrun rest

/-- The number of fetches that are made to come to the end. -/
def fetches (overrun : Error) (script : List (Page ι)) : Nat :=
  (kept script).length + (failure? overrun script).toList.length

/-- What there is to hand out after `k` fetches, each with the number of fetches made by then: the
items, page by page, and the failure. -/
def sequence (overrun : Error) (k : Nat) (script : List (Page ι)) :
    List (Except Error (Option ι) × Nat) :=
  ((kept script).zipIdx (k + 1)).flatMap (fun page => page.1.map fun i => (.ok (some i), page.2)) ++
    (failure? overrun script).toList.map fun e => (.error e, k + fetches overrun script)

variable {overrun : Error} {k : Nat} {page : Page ι} {rest : List (Page ι)}

theorem sequence_nil : sequence overrun k ([] : List (Page ι)) = [(.error overrun, k + 1)] := rfl

/-- Nothing that a failing fetch put on its page is handed out. -/
theorem sequence_of_error {e : Error} (h : page.outcome = .error e) :
    sequence overrun k (page :: rest) = [(.error e, k + 1)] := by
  simp only [sequence, fetches, kept, failure?, h]
  rfl

theorem fetches_of_error {e : Error} (h : page.outcome = .error e) :
    fetches overrun (page :: rest) = 1 := by
  simp [fetches, kept, failure?, h]

theorem sequence_of_last (h : page.outcome = .ok true) :
    sequence overrun k (page :: rest) = page.items.map fun i => (.ok (some i), k + 1) := by
  simp [sequence, kept, failure?, h]

theorem fetches_of_last (h : page.outcome = .ok true) : fetches overrun (page :: rest) = 1 := by
  simp [fetches, kept, failure?, h]

theorem fetches_of_more (h : page.outcome = .ok false) :
    fetches overrun (page :: rest) = fetches overrun rest + 1 := by
  simp only [fetches, kept, failure?, h, List.length_cons]
  omega

theorem sequence_of_more (h : page.outcome = .ok false) :
    sequence overrun k (page :: rest) =
      page.items.map (fun i => (.ok (some i), k + 1)) ++ sequence overrun (k + 1) rest := by
  simp only [sequence, fetches_of_more h]
  simp only [kept, failure?, h, List.zipIdx_cons, List.flatMap_cons, List.append_assoc,
    show k + (fetches overrun rest + 1) = k + 1 + fetches overrun rest by omega]

/-- A page that counts is one of the list, and its fetch did not fail. -/
theorem getElem?_of_kept {script : List (Page ι)} {j : Nat} {items : List ι}
    (h : (kept script)[j]? = some items) :
    ∃ page, script[j]? = some page ∧ page.outcome.isOk = true ∧ page.items = items := by
  induction script generalizing j with
  | nil => cases h
  | cons page rest ih =>
    -- Behind the page only those count that come after one which is not the last.
    cases ho : page.outcome with
    | error e =>
      simp only [kept, ho] at h
      cases h
    | ok isLast =>
      cases j with
      | zero =>
        refine ⟨page, rfl, by rw [ho]; rfl, ?_⟩
        cases isLast <;> (simp only [kept, ho] at h; exact Option.some.inj h)
      | succ j =>
        cases isLast with
        | true =>
          simp only [kept, ho] at h
          cases h
        | false =>
          simp only [kept, ho, List.getElem?_cons_succ] at h
          exact ih h

/-- An item of the sequence was put on a page by a fetch that did not fail, the last one by then. -/
theorem page_of_item {script : List (Page ι)} {i : ι} {k : Nat}
    (h : (.ok (some i), k) ∈ sequence overrun 0 script) :
    ∃ j page, k = j + 1 ∧ script[j]? = some page ∧ page.outcome.isOk = true ∧ i ∈ page.items := by
  rcases List.mem_append.mp h with hitem | hfailure
  · obtain ⟨⟨items, m⟩, hpage, hitem⟩ := List.mem_flatMap.mp hitem
    obtain ⟨i', hi, heq⟩ := List.mem_map.mp hitem
    cases heq
    obtain ⟨hle, hkept⟩ := List.mem_zipIdx_iff_le_and_getElem?_sub.mp hpage
    obtain ⟨page, hj, hok, rfl⟩ := getElem?_of_kept hkept
    exact ⟨_, page, (Nat.sub_add_cancel hle).symm, hj, hok, hi⟩
  · obtain ⟨e, -, heq⟩ := List.mem_map.mp hfailure
    cases heq

/-- No more fetches are made for anything in the sequence than up to the end. -/
theorem le_fetches {script : List (Page ι)} {n : Nat} {a : Except Error (Option ι) × Nat}
    (h : a ∈ (sequence overrun 0 script).takeD n (.ok none, fetches overrun script)) :
    a.2 ≤ fetches overrun script := by
  rcases mem_takeD h with hmem | rfl
  · rcases List.mem_append.mp hmem with hitem | hfailure
    · obtain ⟨page, hpage, hitem⟩ := List.mem_flatMap.mp hitem
      obtain ⟨i, -, rfl⟩ := List.mem_map.mp hitem
      have hlt := List.snd_lt_add_of_mem_zipIdx hpage
      simp only [fetches]
      omega
    · obtain ⟨e, -, rfl⟩ := List.mem_map.mp hfailure
      exact Nat.le_of_eq (Nat.zero_add _)
  · exact Nat.le_refl _

end Page

namespace Feed

variable {σ κ ι : Type}

/-! ## Sources that yield a list -/

/-- From this position and state on, a source yields these pages, and past them it fails. -/
def Plays (source : PageSource σ κ ι) (overrun : Error) : κ → σ → List (Page ι) → Prop
  | c, s, [] => (source c s).1.page.outcome = .error overrun
  | c, s, page :: rest =>
    (source c s).1.page = page ∧
      (page.outcome = .ok false → Plays source overrun (source c s).1.position (source c s).2 rest)

/-- A source that has more to its state, but fetches alike, yields the same. -/
theorem plays_through {τ : Type} {source : PageSource σ κ ι} {source' : PageSource τ κ ι} {f : τ → σ}
    (hsource : ∀ c t, source c (f t) = ((source' c t).1, f (source' c t).2)) {overrun : Error} {c : κ}
    {t : τ} {script : List (Page ι)} (h : Plays source overrun c (f t) script) :
    Plays source' overrun c t script := by
  induction script generalizing c t with
  | nil =>
    rw [Plays, hsource] at h
    exact h
  | cons page rest ih =>
    rw [Plays, hsource] at h
    exact ⟨h.1, fun ho => ih (h.2 ho)⟩

/-- Scripted pages yield what they say, and there is none past the last one. -/
theorem plays_scriptedPages (pages : List (ScriptedPage ι)) (k fetches : Nat) :
    Plays (scriptedPages pages) (.ofFault ⟨"ScriptExhausted", "no page left", none⟩) k fetches
      ((pages.drop k).map ScriptedPage.page) := by
  generalize hdrop : pages.drop k = rest
  induction rest generalizing k fetches with
  | nil =>
    have hk : pages[k]? = none := List.getElem?_eq_none (List.drop_eq_nil_iff.mp hdrop)
    simp only [List.map_nil, Plays, scriptedPages, hk]
    rfl
  | cons page rest ih =>
    have hk : pages[k]? = some page := by
      rw [← List.head?_drop, hdrop]
      rfl
    have hrest : pages.drop (k + 1) = rest := by
      rw [← List.tail_drop, hdrop]
      rfl
    refine ⟨by simp only [scriptedPages, hk], fun hmore => ?_⟩
    -- A page that more come after is no fault, so the fetch goes on to the next number.
    have hok : page.outcome.isOk = true := by
      rw [ScriptedPage.page] at hmore
      cases ho : page.outcome with
      | error fault =>
        rw [ho] at hmore
        cases hmore
      | ok isLast => rfl
    simp only [scriptedPages, hk, hok, if_true]
    exact ih (k + 1) _ hrest

/-- Where a source stands after some number of fetches in a row, and its state then. -/
def course (source : PageSource σ κ ι) (c : κ) (s : σ) : Nat → κ × σ
  | 0 => (c, s)
  | k + 1 =>
    let r := course source c s k
    ((source r.1 r.2).1.position, (source r.1 r.2).2)

/-- The fetches in a row that come after the first. -/
theorem course_step (source : PageSource σ κ ι) (c : κ) (s : σ) (k : Nat) :
    course source c s (k + 1) = course source (source c s).1.position (source c s).2 k := by
  induction k with
  | zero => rfl
  | succ k ih => rw [course, ih, course]

/-- The answers to `n` requests for the next item in a row, each with the state that it leaves, and
the feed and the state after all of them. Each may take as many fetches as the state before it has
patience for. -/
def nexts (source : PageSource σ κ ι) (patience : σ → Nat) :
    (n : Nat) → Feed κ ι → σ → Option (List (Except Error (Option ι) × σ) × Feed κ ι × σ)
  | 0, p, s => some ([], p, s)
  | n + 1, p, s =>
    (p.next source (patience s) s).bind fun r =>
      (nexts source patience n r.2.1 r.2.2).map fun rest => ((r.1, r.2.2) :: rest.1, rest.2)

theorem nexts_of_next {source : PageSource σ κ ι} {patience : σ → Nat} {n : Nat} {p p' q : Feed κ ι}
    {s s' t : σ} {a : Except Error (Option ι)} {answers : List (Except Error (Option ι) × σ)}
    (h : p.next source (patience s) s = some (a, p', s'))
    (hn : nexts source patience n p' s' = some (answers, q, t)) :
    nexts source patience (n + 1) p s = some ((a, s') :: answers, q, t) := by
  rw [nexts, h, Option.bind_some, hn]
  rfl

/-- Answers in a row from a source that has more to its state, but fetches alike. -/
theorem nexts_through {τ : Type} {source : PageSource σ κ ι} {source' : PageSource τ κ ι} {f : τ → σ}
    (hsource : ∀ c t, source c (f t) = ((source' c t).1, f (source' c t).2)) (patience : σ → Nat)
    (n : Nat) (p : Feed κ ι) (t : τ) :
    nexts source patience n p (f t) =
      (nexts source' (fun u => patience (f u)) n p t).map
        fun r => (r.1.map fun a => (a.1, f a.2), r.2.1, f r.2.2) := by
  induction n generalizing p t with
  | zero => rfl
  | succ n ih =>
    rw [nexts, nexts, next_through hsource]
    cases p.next source' (patience (f t)) t with
    | none => rfl
    | some r =>
      simp only [Option.map_some, Option.bind_some, ih]
      cases nexts source' (fun u => patience (f u)) n r.2.1 r.2.2 <;> rfl

/-- An item has to be fetched where the buffer is empty and there may be more. -/
theorem isDry_iff {p : Feed κ ι} : p.isDry = true ↔ p.buffer = [] ∧ p.exhausted = false := by
  simp [isDry]

/-- An answer that finds an item in the buffer, or the sequence ended, takes no fetch. -/
theorem next_of_not_dry {source : PageSource σ κ ι} {p : Feed κ ι} (h : p.isDry = false) (fuel : Nat)
    (s : σ) : ∃ a p', p.next source fuel s = some (a, p', s) := by
  cases hb : p.buffer with
  | cons i rest => exact ⟨_, _, next_of_cons hb⟩
  | nil => exact ⟨_, _, next_of_exhausted hb (by simpa [isDry, hb] using h)⟩

section Stands

variable {source : PageSource σ κ ι} {overrun : Error} {c : κ} {s : σ} {script : List (Page ι)}
  {k fuel : Nat} {p : Feed κ ι} {t : σ}

variable (source overrun c s script) in
/-- What holds of a feed and its source after `k` fetches from the start. -/
structure Stands (k : Nat) (p : Feed κ ι) (t : σ) : Prop where
  place : course source c s k = (p.position, t)
  plays : p.exhausted = false → Plays source overrun p.position t (script.drop k)
  inside : p.exhausted = false → k ≤ script.length
  pages : p.pages = (script.take k).countP (·.outcome.isOk)
  exhausted : p.exhausted = true ↔ 0 < k ∧ ∀ t ∈ script[k - 1]?, t.outcome ≠ .ok false

theorem stands_start (h : Plays source overrun c s script) :
    Stands source overrun c s script 0 { position := c } s :=
  ⟨rfl, fun _ => h, fun _ => Nat.zero_le _, rfl, ⟨nofun, fun h => absurd h.1 (Nat.lt_irrefl 0)⟩⟩

/-- Handing out an item changes nothing of it. -/
theorem Stands.pop (h : Stands source overrun c s script k p t) (rest : List ι) :
    Stands source overrun c s script k { p with buffer := rest } t :=
  ⟨h.place, h.plays, h.inside, h.pages, h.exhausted⟩

theorem Stands.course_succ (h : Stands source overrun c s script k p t) :
    course source c s (k + 1) = ((source p.position t).1.position, (source p.position t).2) := by
  rw [course, h.place]

/-- The fetch past the end. -/
theorem Stands.load_overrun (h : Stands source overrun c s script k p t) (hx : p.exhausted = false)
    (hk : script.length ≤ k) :
    ∃ p' t', p.load source t = (some overrun, p', t') ∧ p'.exhausted = true ∧ p'.buffer = p.buffer ∧
      Stands source overrun c s script (k + 1) p' t' := by
  have hplays := h.plays hx
  rw [List.drop_eq_nil_of_le hk] at hplays
  refine ⟨_, _, load_of_error hplays, rfl, rfl, h.course_succ, nofun, nofun, ?_, ?_⟩
  · rw [h.pages, List.take_of_length_le hk, List.take_of_length_le (Nat.le_succ_of_le hk)]
  · refine ⟨fun _ => ⟨Nat.succ_pos k, fun t ht => ?_⟩, fun _ => rfl⟩
    rw [Nat.add_sub_cancel, List.getElem?_eq_none hk] at ht
    cases ht

/-- A fetch that fails. -/
theorem Stands.load_error (h : Stands source overrun c s script k p t) (hx : p.exhausted = false)
    {page : Page ι} (hk : script[k]? = some page) {e : Error} (he : page.outcome = .error e) :
    ∃ p' t', p.load source t = (some e, p', t') ∧ p'.exhausted = true ∧ p'.buffer = p.buffer ∧
      Stands source overrun c s script (k + 1) p' t' := by
  have hplays := h.plays hx
  rw [drop_of_getElem? hk] at hplays
  have hpage : (source p.position t).1.page.outcome = .error e := by rw [hplays.1, he]
  refine ⟨_, _, load_of_error hpage, rfl, rfl, h.course_succ, nofun, nofun, ?_, ?_⟩
  · rw [h.pages, List.take_add_one, hk, List.countP_append]
    simp [he, Except.isOk, Except.toBool]
  · refine ⟨fun _ => ⟨Nat.succ_pos k, fun t ht => ?_⟩, fun _ => rfl⟩
    rw [Nat.add_sub_cancel, hk] at ht
    cases ht
    rw [he]
    exact nofun

/-- A fetch that yields a page. -/
theorem Stands.load_page (h : Stands source overrun c s script k p t) (hx : p.exhausted = false)
    {page : Page ι} (hk : script[k]? = some page) {isLast : Bool} (ho : page.outcome = .ok isLast) :
    ∃ p' t', p.load source t = (none, p', t') ∧ p'.exhausted = isLast ∧
      p'.buffer = p.buffer ++ page.items ∧ Stands source overrun c s script (k + 1) p' t' := by
  have hplays := h.plays hx
  rw [drop_of_getElem? hk] at hplays
  have hpage : (source p.position t).1.page.outcome = .ok isLast := by rw [hplays.1, ho]
  refine ⟨_, _, load_of_ok hpage, rfl, by rw [hplays.1], h.course_succ, ?_, ?_, ?_, ?_⟩
  · rintro rfl
    exact hplays.2 ho
  · intro _
    exact (List.getElem?_eq_some_iff.mp hk).1
  · rw [h.pages, List.take_add_one, hk, List.countP_append]
    simp [ho, Except.isOk, Except.toBool]
  · rw [Nat.add_sub_cancel, hk]
    simp [ho]

/-! ## Answers -/

variable (overrun script) in
/-- What is still to be handed out by a feed after `k` fetches. -/
def prospect (p : Feed κ ι) (k : Nat) : List (Except Error (Option ι) × Nat) :=
  p.buffer.map (fun i => (.ok (some i), k)) ++
    if p.exhausted then [] else Page.sequence overrun k (script.drop k)

variable (overrun script) in
/-- The number of fetches that a feed comes to in the end. -/
def lastFetch (p : Feed κ ι) (k : Nat) : Nat :=
  if p.exhausted then k else k + Page.fetches overrun (script.drop k)

variable (overrun script) in
/-- The next `n` answers of a feed after `k` fetches, each with the number of fetches by then. -/
def upcoming (p : Feed κ ι) (k n : Nat) : List (Except Error (Option ι) × Nat) :=
  (prospect overrun script p k).takeD n (.ok none, lastFetch overrun script p k)

theorem upcoming_of_cons {i : ι} {rest : List ι} (hb : p.buffer = i :: rest) (k n : Nat) :
    upcoming overrun script p k (n + 1) =
      (.ok (some i), k) :: upcoming overrun script { p with buffer := rest } k n := by
  simp only [upcoming, prospect, hb]
  rfl

theorem upcoming_of_exhausted (hb : p.buffer = []) (hx : p.exhausted = true) (k n : Nat) :
    upcoming overrun script p k (n + 1) = (.ok none, k) :: upcoming overrun script p k n := by
  simp only [upcoming, prospect, lastFetch, hb, hx]
  rfl

/-- A failure is the next answer, and nothing comes after it. -/
theorem upcoming_of_failure {p' : Feed κ ι} {e : Error} (hb : p.buffer = [])
    (hx : p.exhausted = false) (hs : Page.sequence overrun k (script.drop k) = [(.error e, k + 1)])
    (hf : Page.fetches overrun (script.drop k) = 1) (hb' : p'.buffer = []) (hx' : p'.exhausted = true)
    (n : Nat) :
    upcoming overrun script p k (n + 1) = (.error e, k + 1) :: upcoming overrun script p' (k + 1) n := by
  simp only [upcoming, prospect, lastFetch, hb, hx, hs, hf, hb', hx']
  rfl

/-- A page changes nothing of what is to come. -/
theorem upcoming_of_page {p' : Feed κ ι} {page : Page ι} {isLast : Bool} (hb : p.buffer = [])
    (hx : p.exhausted = false) (hk : script[k]? = some page) (ho : page.outcome = .ok isLast)
    (hb' : p'.buffer = page.items) (hx' : p'.exhausted = isLast) (n : Nat) :
    upcoming overrun script p k n = upcoming overrun script p' (k + 1) n := by
  have hdrop : script.drop k = page :: script.drop (k + 1) := drop_of_getElem? hk
  cases isLast with
  | true =>
    simp only [upcoming, prospect, lastFetch, hb, hx, hb', hx', hdrop, Page.sequence_of_last ho,
      Page.fetches_of_last ho]
    simp
  | false =>
    simp only [upcoming, prospect, lastFetch, hb, hx, hb', hx', hdrop, Page.sequence_of_more ho,
      Page.fetches_of_more ho]
    simp [Nat.add_assoc, Nat.add_comm 1]

/-- An answer that takes no fetch. -/
theorem Stands.next_of_not_dry (h : Stands source overrun c s script k p t) (hd : p.isDry = false) :
    ∃ a p', p.next source fuel t = some (a, p', t) ∧ Stands source overrun c s script k p' t ∧
      ∀ n, upcoming overrun script p k (n + 1) = (a, k) :: upcoming overrun script p' k n := by
  cases hb : p.buffer with
  | cons i rest => exact ⟨_, _, next_of_cons hb, h.pop rest, upcoming_of_cons hb k⟩
  | nil =>
    have hx : p.exhausted = true := by simpa [isDry, hb] using hd
    exact ⟨_, _, next_of_exhausted hb hx, h, upcoming_of_exhausted hb hx k⟩

/-- **The next answer.** It is the first of those to come, and leaves the others to come. -/
theorem Stands.next (h : Stands source overrun c s script k p t) (hfuel : script.length < k + fuel) :
    ∃ a p' t' k', p.next source fuel t = some (a, p', t') ∧
      Stands source overrun c s script k' p' t' ∧
      ∀ n, upcoming overrun script p k (n + 1) = (a, k') :: upcoming overrun script p' k' n := by
  induction fuel generalizing k p t with
  | zero =>
    cases hd : p.isDry with
    | false =>
      obtain ⟨a, p', hnext⟩ := h.next_of_not_dry hd
      exact ⟨a, p', t, k, hnext⟩
    | true =>
      have hx : p.exhausted = false := (isDry_iff.mp hd).2
      exact absurd hfuel (Nat.not_lt.mpr (h.inside hx))
  | succ fuel ih =>
    cases hd : p.isDry with
    | false =>
      obtain ⟨a, p', hnext⟩ := h.next_of_not_dry hd
      exact ⟨a, p', t, k, hnext⟩
    | true =>
      obtain ⟨hb, hx⟩ := isDry_iff.mp hd
      -- Only here a page is fetched: there is none, it fails, or the feed goes on with it.
      cases hk : script[k]? with
      | none =>
        have hle := List.getElem?_eq_none_iff.mp hk
        obtain ⟨p', t', hload, hx', hb', h'⟩ := h.load_overrun hx hle
        refine ⟨_, _, _, k + 1, next_of_load_error hb hx hload, h', ?_⟩
        refine upcoming_of_failure hb hx ?_ ?_ (hb'.trans hb) hx'
        · rw [List.drop_eq_nil_of_le hle, Page.sequence_nil]
        · rw [List.drop_eq_nil_of_le hle]
          rfl
      | some page =>
        have hdrop : script.drop k = page :: script.drop (k + 1) := drop_of_getElem? hk
        cases ho : page.outcome with
        | error e =>
          obtain ⟨p', t', hload, hx', hb', h'⟩ := h.load_error hx hk ho
          refine ⟨_, _, _, k + 1, next_of_load_error hb hx hload, h', ?_⟩
          refine upcoming_of_failure hb hx ?_ ?_ (hb'.trans hb) hx'
          · rw [hdrop, Page.sequence_of_error ho]
          · rw [hdrop, Page.fetches_of_error ho]
        | ok isLast =>
          obtain ⟨p', t', hload, hx', hb', h'⟩ := h.load_page hx hk ho
          rw [hb, List.nil_append] at hb'
          obtain ⟨a, q, u, j, hnext, hstands, hall⟩ := ih h' (by omega)
          refine ⟨a, q, u, j, (next_of_load hb hx hload).trans hnext, hstands, fun n => ?_⟩
          rw [upcoming_of_page hb hx hk ho hb' hx', hall n]

/-- The next `n` answers are those to come, and each leaves the source where it is after the fetches
made by then. -/
theorem Stands.nexts (h : Stands source overrun c s script k p t) (patience : σ → Nat)
    (hpatience : ∀ k, script.length < k + patience (course source c s k).2) (n : Nat) :
    ∃ p' t' k', Feed.nexts source patience n p t =
        some ((upcoming overrun script p k n).map fun a => (a.1, (course source c s a.2).2), p', t') ∧
      Stands source overrun c s script k' p' t' ∧
      k' = ((upcoming overrun script p k n).getLast?.map (·.2)).getD k := by
  induction n generalizing k p t with
  | zero => exact ⟨p, t, k, rfl, h, rfl⟩
  | succ n ih =>
    have hmore := hpatience k
    rw [h.place] at hmore
    obtain ⟨a, q, u, j, hnext, hstands, hall⟩ := h.next hmore
    obtain ⟨p', t', k', hnexts, h', hk'⟩ := ih hstands
    refine ⟨p', t', k', ?_, h', ?_⟩
    · rw [nexts_of_next hnext hnexts, hall, List.map_cons, hstands.place]
    · rw [hk', hall, List.getLast?_cons]
      cases (upcoming overrun script q j n).getLast? <;> rfl

end Stands

theorem upcoming_start (overrun : Error) (script : List (Page ι)) (c : κ) (n : Nat) :
    upcoming overrun script ({ position := c } : Feed κ ι) 0 n =
      (Page.sequence overrun 0 script).takeD n (.ok none, Page.fetches overrun script) := by
  simp [upcoming, prospect, lastFetch]

/-- **What a feed hands out.** Any number of items asked for in a row are the sequence of the source's
pages, and then nothing for ever; every answer leaves the state after the fetches of the sequence. -/
theorem nexts_of_plays {source : PageSource σ κ ι} {overrun : Error} {c : κ} {s : σ}
    {script : List (Page ι)} (h : Plays source overrun c s script) {patience : σ → Nat}
    (hpatience : ∀ k, script.length < k + patience (course source c s k).2) (n : Nat) :
    ∃ p t, nexts source patience n { position := c } s =
      some (((Page.sequence overrun 0 script).takeD n (.ok none, Page.fetches overrun script)).map
        fun a => (a.1, (course source c s a.2).2), p, t) := by
  obtain ⟨p, t, k, hnexts, -, -⟩ := (stands_start h).nexts patience hpatience n
  rw [upcoming_start] at hnexts
  exact ⟨p, t, hnexts⟩

/-! ## Counting fetches -/

/-- A state with the number of fetches so far. -/
structure Counted (σ : Type) where
  state : σ
  fetches : Nat := 0

/-- Counts the fetches of a source. -/
def counted (source : PageSource σ κ ι) : PageSource (Counted σ) κ ι := fun c s =>
  let r := source c s.state
  (r.1, ⟨r.2, s.fetches + 1⟩)

section Counted

variable {source : PageSource σ κ ι} {overrun : Error} {c : κ} {s : σ} {script : List (Page ι)}

theorem plays_counted {t : Counted σ} (h : Plays source overrun c t.state script) :
    Plays (counted source) overrun c t script :=
  plays_through (fun _ _ => rfl) h

/-- The count is the number of fetches made in a row. -/
theorem course_counted (k : Nat) :
    course (counted source) c ⟨s, 0⟩ k =
      ((course source c s k).1, ⟨(course source c s k).2, k⟩) := by
  induction k with
  | zero => rfl
  | succ k ih => simp only [course, ih, counted]

/-- Answers in a row are the same with fetches counted. -/
theorem nexts_counted (patience : σ → Nat) (n : Nat) (p : Feed κ ι) (t : Counted σ) :
    (nexts (counted source) (fun u => patience u.state) n p t).map
        (fun r => (r.1.map fun a => (a.1, a.2.state), r.2.1, r.2.2.state)) =
      nexts source patience n p t.state :=
  (nexts_through (fun _ _ => rfl) patience n p t).symm

variable (source overrun c s script) in
/-- That `n` answers in a row, with the feed and the state they leave, are those of the sequence of
`script`, and that nothing was fetched before it was needed. -/
structure Follows (fuel n : Nat) (given : List (Except Error (Option ι) × Counted σ))
    (p : Feed κ ι) (t : Counted σ) : Prop where
  /-- The answers, each with the number of fetches by then. -/
  answers : given.map (fun a => (a.1, a.2.fetches)) =
    (Page.sequence overrun 0 script).takeD n (.ok none, Page.fetches overrun script)
  /-- An item given is one that the last fetch by then put on its page, and that fetch did not fail. -/
  origin : ∀ a ∈ given, ∀ i, a.1 = .ok (some i) →
    ∃ j page, a.2.fetches = j + 1 ∧ script[j]? = some page ∧ page.outcome.isOk = true ∧
      i ∈ page.items
  /-- Each answer leaves the source where it is after that number of fetches. -/
  states : ∀ a ∈ given, a.2.state = (course source c s a.2.fetches).2
  latest : t = (given.getLast?.map (·.2)).getD ⟨s, 0⟩
  pages : p.pages = (script.take t.fetches).countP (·.outcome.isOk)
  exhausted : p.exhausted = true ↔
    0 < t.fetches ∧ ∀ last ∈ script[t.fetches - 1]?, last.outcome ≠ .ok false
  lazy : p.isDry = false → ∃ a p', p.next (counted source) fuel t = some (a, p', t)
  /-- Counting changes nothing. -/
  uncounted : nexts source (fun _ => fuel) n { position := c } s =
    some (given.map fun a => (a.1, a.2.state), p, t.state)

/-- **A feed hands out the sequence of its source, and fetches no page before it is needed.** -/
theorem nexts_sequence (h : Plays source overrun c s script) {fuel : Nat}
    (hfuel : script.length < fuel) (n : Nat) :
    ∃ given p t,
      nexts (counted source) (fun _ => fuel) n { position := c } ⟨s, 0⟩ = some (given, p, t) ∧
      Follows source overrun c s script fuel n given p t := by
  have hcounted : Plays (counted source) overrun c ⟨s, 0⟩ script := plays_counted h
  have hpatience (k : Nat) : script.length < k + fuel := Nat.lt_add_left k hfuel
  obtain ⟨p, t, k, hnexts, hstands, hk⟩ := (stands_start hcounted).nexts (fun _ => fuel) hpatience n
  rw [upcoming_start] at hnexts hk
  have ht : t = ⟨(course source c s k).2, k⟩ := by
    have hplace := hstands.place
    rw [course_counted] at hplace
    exact (congrArg Prod.snd hplace).symm
  refine ⟨_, p, t, hnexts, ?_, ?_, ?_, ?_, ?_, ?_, ?_, ?_⟩
  · simp only [List.map_map, Function.comp_def, course_counted]
    exact List.map_id' _
  · intro a ha i hi
    obtain ⟨⟨answer, m⟩, hb, rfl⟩ := List.mem_map.mp ha
    cases hi
    simp only [course_counted]
    rcases mem_takeD hb with hmem | hfilling
    · exact Page.page_of_item hmem
    · cases hfilling
  · intro a ha
    obtain ⟨b, -, rfl⟩ := List.mem_map.mp ha
    simp only [course_counted]
  · rw [ht, hk, List.getLast?_map]
    cases ((Page.sequence overrun 0 script).takeD n (.ok none, Page.fetches overrun script)).getLast?
      <;> simp [course, course_counted]
  · rw [ht]
    exact hstands.pages
  · rw [ht]
    exact hstands.exhausted
  · exact fun hd => next_of_not_dry hd fuel t
  · refine (nexts_counted (fun _ => fuel) n { position := c } ⟨s, 0⟩).symm.trans ?_
    rw [hnexts]
    rfl

/-- Two items, an empty page, a third item, and a failing fetch that has gathered a fourth. -/
theorem nexts_sequence_failing :
    let pages : List (ScriptedPage Nat) :=
      [⟨[10, 20], .ok false⟩, ⟨[], .ok false⟩, ⟨[30], .ok false⟩,
        ⟨[40], .error ⟨"SlowDown", "later", none⟩⟩]
    pages.length < 5 ∧
      ∃ given p t,
        nexts (counted (scriptedPages pages)) (fun _ => 5) 6 { position := 0 } ⟨0, 0⟩ =
          some (given, p, t) ∧
        given.map (fun a => (a.1, a.2.fetches)) =
          [(.ok (some 10), 1), (.ok (some 20), 1), (.ok (some 30), 3),
            (.error (.ofFault ⟨"SlowDown", "later", none⟩), 4), (.ok none, 4), (.ok none, 4)] := by
  intro pages
  obtain ⟨given, p, t, hnexts, hfollows⟩ :=
    nexts_sequence (plays_scriptedPages pages 0 0) (show _ < 5 by decide) 6
  exact ⟨by decide, given, p, t, hnexts, hfollows.answers⟩

end Counted

end Feed

end ObjectStore
