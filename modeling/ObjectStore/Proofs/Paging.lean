import ObjectStore.Feed
import ObjectStore.Table

/-!
# Pages cut from ascending entries

A listing that is shown page by page keeps no list of what it has shown: all it has is a mark, and the
next page is cut from the entries past that mark. An entry may show an item or nothing; an entry that
shows nothing still takes up room on its page and may be the mark of the next one.

`Paging` says this of a source whose entries may change between two fetches. `next_ok` tells what the
next item is, when it comes from a fetch: the first item of a stretch of the entries past the mark,
with the rest of the stretch in the buffer and the mark at its end. `drain_cut` is about a source whose
entries stay: all of them are shown, in as many fetches as there are pages.
-/

namespace ObjectStore

section Shown

variable {μ α ι : Type}

/-- The items that entries show. -/
def items (entries : List (μ × Option ι)) : List ι := entries.filterMap (·.2)

theorem mem_items {entries : List (μ × Option ι)} {i : ι} :
    i ∈ items entries ↔ ∃ k, (k, some i) ∈ entries := by
  simp [items, List.mem_filterMap]

theorem items_append (xs ys : List (μ × Option ι)) : items (xs ++ ys) = items xs ++ items ys :=
  List.filterMap_append

/-- Entries with what they show. -/
def showing (item? : μ × α → Option ι) (entries : List (μ × α)) : List (μ × Option ι) :=
  entries.map fun e => (e.1, item? e)

theorem items_showing (item? : μ × α → Option ι) (entries : List (μ × α)) :
    items (showing item? entries) = entries.filterMap item? := by
  rw [items, showing, List.filterMap_map]
  rfl

theorem mem_showing {item? : μ × α → Option ι} {entries : List (μ × α)} {k : μ} {i : Option ι} :
    (k, i) ∈ showing item? entries ↔ ∃ a, (k, a) ∈ entries ∧ item? (k, a) = i := by
  rw [showing, List.mem_map]
  constructor
  · rintro ⟨⟨k', a⟩, he, ⟨⟩⟩
    exact ⟨a, he, rfl⟩
  · rintro ⟨a, he, rfl⟩
    exact ⟨(k, a), he, rfl⟩

theorem length_showing (item? : μ × α → Option ι) (entries : List (μ × α)) :
    (showing item? entries).length = entries.length := List.length_map _

theorem take_showing (item? : μ × α → Option ι) (n : Nat) (entries : List (μ × α)) :
    (showing item? entries).take n = showing item? (entries.take n) := List.map_take.symm

theorem getLast?_showing (item? : μ × α → Option ι) {entries : List (μ × α)} {last : μ × α}
    (h : entries.getLast? = some last) :
    (showing item? entries).getLast? = some (last.1, item? last) := by
  rw [showing, List.getLast?_map, h]
  rfl

/-- What is shown of entries that may not be there at all. -/
theorem mem_elim_showing {β : Type} {b? : Option β} {item? : μ × α → Option ι}
    {entries : β → List (μ × α)} {k : μ} {i : Option ι} :
    (k, i) ∈ b?.elim [] (fun b => showing item? (entries b)) ↔
      ∃ b, b? = some b ∧ ∃ a, (k, a) ∈ entries b ∧ item? (k, a) = i := by
  cases b? with
  | none => exact ⟨nofun, nofun⟩
  | some b =>
    rw [Option.elim_some, mem_showing]
    exact ⟨fun h => ⟨b, rfl, h⟩, fun ⟨_, hb, h⟩ => Option.some.inj hb ▸ h⟩

end Shown

section Past

variable {μ α ι : Type} [LT μ] [DecidableLT μ]

/-- The entries past a mark; all of them where there is no mark. -/
def past (mark : Option μ) (entries : List (μ × α)) : List (μ × α) :=
  entries.filter fun e => mark.all fun k => decide (k < e.1)

theorem mem_past {mark : Option μ} {entries : List (μ × α)} {e : μ × α} :
    e ∈ past mark entries ↔ e ∈ entries ∧ ∀ k ∈ mark, k < e.1 := by
  rw [past, List.mem_filter]
  cases mark <;> simp

theorem past_none (entries : List (μ × α)) : past none entries = entries :=
  List.filter_eq_self.mpr fun _ _ => rfl

theorem ascending_past {mark : Option μ} {entries : List (μ × α)}
    (h : entries.Pairwise fun a b => a.1 < b.1) :
    (past mark entries).Pairwise fun a b => a.1 < b.1 :=
  h.filter _

theorem past_showing (item? : μ × α → Option ι) (mark : Option μ) (entries : List (μ × α)) :
    past mark (showing item? entries) = showing item? (past mark entries) :=
  List.filter_map

omit [DecidableLT μ] in
theorem ascending_showing (item? : μ × α → Option ι) {entries : List (μ × α)}
    (h : entries.Pairwise fun a b => a.1 < b.1) :
    (showing item? entries).Pairwise fun a b => a.1 < b.1 :=
  List.pairwise_map.mpr h

omit [DecidableLT μ] in
theorem ascending_elim_showing {β : Type} (b? : Option β) (item? : μ × α → Option ι)
    {entries : β → List (μ × α)} (h : ∀ b, (entries b).Pairwise fun x y => x.1 < y.1) :
    (b?.elim [] fun b => showing item? (entries b)).Pairwise fun x y => x.1 < y.1 := by
  cases b? with
  | none => exact .nil
  | some b => exact ascending_showing item? (h b)

variable [LE μ] [Std.IsLinearOrder μ] [Std.LawfulOrderLT μ]

omit [DecidableLT μ] in
/-- Two lists that ascend in one way and have the same members are one list. -/
theorem eq_of_ascending {β : Type} {f : β → μ} {xs ys : List β}
    (hx : xs.Pairwise fun a b => f a < f b) (hy : ys.Pairwise fun a b => f a < f b)
    (h : ∀ b, b ∈ xs ↔ b ∈ ys) : xs = ys := by
  have hpairs : xs.map (fun b => (f b, b)) = ys.map (fun b => (f b, b)) := by
    refine Table.eq_of_mem_iff (List.pairwise_map.mpr hx) (List.pairwise_map.mpr hy) fun e => ?_
    simp [List.mem_map, h]
  have hlists := congrArg (List.map Prod.snd) hpairs
  simpa [List.map_map, Function.comp_def] using hlists

omit [DecidableLT μ] [Std.IsLinearOrder μ] in
/-- In an ascending list no entry is above the last one. -/
theorem le_getLast {page : List (μ × α)} (h : page.Pairwise fun a b => a.1 < b.1)
    {last e : μ × α} (hlast : page.getLast? = some last) (he : e ∈ page) : ¬ last.1 < e.1 := by
  obtain ⟨front, rfl⟩ := List.getLast?_eq_some_iff.mp hlast
  rcases List.mem_append.mp he with hf | hl
  · exact Std.not_gt_of_lt ((List.pairwise_append.mp h).2.2 e hf last (List.mem_singleton.mpr rfl))
  · rw [List.mem_singleton.mp hl]
    exact Std.lt_irrefl

/-- Past the last entry of a stretch, what is left is what came after the stretch. -/
theorem past_getLast {mark : Option μ} {entries page rest : List (μ × α)} {last : μ × α}
    (h : entries.Pairwise fun a b => a.1 < b.1) (hpage : past mark entries = page ++ rest)
    (hlast : page.getLast? = some last) : past (some last.1) entries = rest := by
  have hboth : (page ++ rest).Pairwise fun a b => a.1 < b.1 := hpage ▸ ascending_past h
  obtain ⟨hasc, hrest, hacross⟩ := List.pairwise_append.mp hboth
  have hmem : last ∈ page := List.mem_of_getLast? hlast
  have hmark : ∀ k ∈ mark, k < last.1 :=
    (mem_past.mp (hpage ▸ List.mem_append_left rest hmem)).2
  refine Table.eq_of_mem_iff (ascending_past h) hrest fun e => ?_
  constructor
  · -- What is past the last entry of the stretch is not in the stretch.
    intro he
    obtain ⟨hentry, hlt⟩ := mem_past.mp he
    have hle : last.1 < e.1 := hlt last.1 rfl
    have hleft : e ∈ page ++ rest :=
      hpage ▸ mem_past.mpr ⟨hentry, fun k hk => Std.lt_trans (hmark k hk) hle⟩
    rcases List.mem_append.mp hleft with hp | hr
    · exact absurd hle (le_getLast hasc hlast hp)
    · exact hr
  · intro he
    refine mem_past.mpr ⟨(mem_past.mp (hpage ▸ List.mem_append_right page he)).1, fun k hk => ?_⟩
    cases hk
    exact hacross last hmem e he

end Past

/-! ## Steps of a feed -/

namespace Feed

variable {σ κ ι : Type} {source : PageSource σ κ ι} {p p' : Feed κ ι} {s s' : σ} {fuel : Nat}

/-- Whether the next item has to be fetched. -/
def isDry (p : Feed κ ι) : Bool := p.buffer.isEmpty && !p.exhausted

/-- An item in the buffer is the next one, with no fetch. -/
theorem next_of_cons {i : ι} {rest : List ι} (h : p.buffer = i :: rest) :
    p.next source fuel s = some (.ok (some i), { p with buffer := rest }, s) := by
  unfold next
  simp only [h]

/-- A feed that is done stays so. -/
theorem next_of_exhausted (hb : p.buffer = []) (hx : p.exhausted = true) :
    p.next source fuel s = some (.ok none, p, s) := by
  unfold next
  simp only [hb, hx, if_true]

/-- An empty feed that may not fetch has no answer. -/
theorem next_zero (hb : p.buffer = []) (hx : p.exhausted = false) : p.next source 0 s = none := by
  rw [next]
  simp only [hb, hx, Bool.false_eq_true, if_false]

/-- An empty feed goes on with what it loads. -/
theorem next_of_load (hb : p.buffer = []) (hx : p.exhausted = false)
    (hl : p.load source s = (none, p', s')) :
    p.next source (fuel + 1) s = p'.next source fuel s' := by
  rw [next]
  simp only [hb, hx, Bool.false_eq_true, if_false, hl]

/-- An empty feed ends with the failure to load. -/
theorem next_of_load_error {e : Error} (hb : p.buffer = []) (hx : p.exhausted = false)
    (hl : p.load source s = (some e, p', s')) :
    p.next source (fuel + 1) s = some (.error e, p', s') := by
  rw [next]
  simp only [hb, hx, Bool.false_eq_true, if_false, hl]

/-- Loading a page puts its items behind those that are there. -/
theorem load_of_ok {isLast : Bool} (h : (source p.position s).1.page.outcome = .ok isLast) :
    p.load source s =
      (none, ⟨(source p.position s).1.position, p.buffer ++ (source p.position s).1.page.items, isLast,
        p.pages + 1⟩, (source p.position s).2) := by
  simp only [load, h]

/-- A failure to load ends the sequence. The buffer is as it was, whatever is on the page. -/
theorem load_of_error {e : Error} (h : (source p.position s).1.page.outcome = .error e) :
    p.load source s =
      (some e, { p with position := (source p.position s).1.position, exhausted := true },
        (source p.position s).2) := by
  simp only [load, h]

/-- There is nothing left to fetch for a feed that is done. -/
theorem drain_of_exhausted (hx : p.exhausted = true) :
    p.drain source fuel s = some (none, p, s) := by
  unfold drain
  simp only [hx, if_true]

/-- Fetching all that is left goes on after a page. -/
theorem drain_of_load (hx : p.exhausted = false) (hl : p.load source s = (none, p', s')) :
    p.drain source (fuel + 1) s = p'.drain source fuel s' := by
  rw [drain]
  simp only [hx, Bool.false_eq_true, if_false, hl]

/-- Fetching all that is left ends with a failure to load. -/
theorem drain_of_load_error {e : Error} (hx : p.exhausted = false)
    (hl : p.load source s = (some e, p', s')) :
    p.drain source (fuel + 1) s = some (some e, p', s') := by
  rw [drain]
  simp only [hx, Bool.false_eq_true, if_false, hl]

section Through

variable {τ : Type} {source' : PageSource τ κ ι} {f : τ → σ}

/-- A source that has more to its state, but fetches alike, loads alike. -/
theorem load_through (hsource : ∀ c t, source c (f t) = ((source' c t).1, f (source' c t).2))
    (p : Feed κ ι) (t : τ) :
    p.load source (f t) = ((p.load source' t).1, (p.load source' t).2.1, f (p.load source' t).2.2) := by
  simp only [load, hsource]
  split <;> rfl

/-- It gives the same next item. -/
theorem next_through (hsource : ∀ c t, source c (f t) = ((source' c t).1, f (source' c t).2))
    (fuel : Nat) (p : Feed κ ι) (t : τ) :
    p.next source fuel (f t) = (p.next source' fuel t).map fun r => (r.1, r.2.1, f r.2.2) := by
  have hload := load_through hsource
  fun_induction Feed.next source' fuel p t with
  | case1 fuel p t i rest hb => exact next_of_cons hb
  | case2 fuel p t hb hx => exact next_of_exhausted hb hx
  | case3 p t hb hx => exact next_zero hb (by simpa using hx)
  | case4 p t hb hx fuel e q u hl =>
    exact next_of_load_error hb (by simpa using hx) ((hload p t).trans (by rw [hl]))
  | case5 p t hb hx fuel q u hl ih =>
    rw [next_of_load hb (by simpa using hx) ((hload p t).trans (by rw [hl]))]
    exact ih

/-- It comes to the same when all that is left is fetched. -/
theorem drain_through (hsource : ∀ c t, source c (f t) = ((source' c t).1, f (source' c t).2))
    (fuel : Nat) (p : Feed κ ι) (t : τ) :
    p.drain source fuel (f t) = (p.drain source' fuel t).map fun r => (r.1, r.2.1, f r.2.2) := by
  have hload := load_through hsource
  fun_induction Feed.drain source' fuel p t with
  | case1 fuel p t hx => exact drain_of_exhausted hx
  | case2 p t hx =>
    rw [drain]
    simp only [hx, Bool.false_eq_true, if_false, Option.map_none]
  | case3 p t hx fuel e q u hl =>
    exact drain_of_load_error (by simpa using hx) ((hload p t).trans (by rw [hl]))
  | case4 p t hx fuel q u hl ih =>
    rw [drain_of_load (by simpa using hx) ((hload p t).trans (by rw [hl]))]
    exact ih

end Through

/-- More fetches do not change what fetching all that is left comes to. -/
theorem drain_mono {m n : Nat} {r : Option Error × Feed κ ι × σ} (h : p.drain source m s = some r)
    (hmn : m ≤ n) : p.drain source n s = some r := by
  induction m generalizing n p s with
  | zero =>
    cases hx : p.exhausted with
    | true =>
      rw [drain_of_exhausted hx] at h ⊢
      exact h
    | false =>
      rw [drain] at h
      simp [hx] at h
  | succ m ih =>
    obtain ⟨n, rfl⟩ : ∃ k, n = k + 1 := ⟨n - 1, by omega⟩
    cases hx : p.exhausted with
    | true =>
      rw [drain_of_exhausted hx] at h ⊢
      exact h
    | false =>
      rcases hl : p.load source s with ⟨_ | e, p', s'⟩
      · rw [drain_of_load hx hl] at h ⊢
        exact ih h (by omega)
      · rw [drain_of_load_error hx hl] at h ⊢
        exact h

end Feed

/-! ## Filled pages -/

namespace Page

variable {α ι : Type} {make : α → Except Error ι}

/-- Items that can be made come on the page before what comes of the other entries. -/
theorem on_put_append {before : List α} {items : List ι} (h : before.map make = items.map .ok)
    (page : List ι) (rest : List α) :
    (put make (before ++ rest)).on page = (put make rest).on (page ++ items) := by
  induction before generalizing page items with
  | nil =>
    cases items with
    | nil => rw [List.nil_append, List.append_nil]
    | cons i items => cases h
  | cons entry before ih =>
    cases items with
    | nil => cases h
    | cons i items =>
      obtain ⟨hi, hmore⟩ := List.cons.inj h
      rw [List.cons_append, put, hi, Work.on_bind_of_ok (Work.on_check _ _),
        Work.on_bind_of_ok (Work.on_modify _ _), ih hmore, List.append_assoc, List.singleton_append]

/-- A page has all items where each can be made. -/
theorem filled_ok {entries : List α} {items : List ι} (h : entries.map make = items.map .ok)
    (isLast : Bool) : filled make entries isLast = ⟨items, .ok isLast⟩ := by
  have hput := on_put_append h [] []
  rw [List.append_nil, List.nil_append] at hput
  rw [filled, hput]
  rfl

/-- The first item that cannot be made stops the fetch, with those before it on the page. -/
theorem filled_error {before after : List α} {entry : α} {items : List ι} {e : Error}
    (h : before.map make = items.map .ok) (he : make entry = .error e) (isLast : Bool) :
    filled make (before ++ entry :: after) isLast = ⟨items, .error e⟩ := by
  have hput := on_put_append h [] (entry :: after)
  rw [List.nil_append, put, he, Work.on_bind_of_error (Work.on_check _ _)] at hput
  rw [filled, hput]
  rfl

/-- Either all items can be made, or there is a first one that cannot. -/
theorem made_or_stopped (make : α → Except Error ι) (entries : List α) :
    (∃ items : List ι, entries.map make = items.map .ok) ∨
      ∃ before entry after, ∃ items : List ι, ∃ e, entries = before ++ entry :: after ∧
        before.map make = items.map .ok ∧ make entry = .error e := by
  induction entries with
  | nil => exact .inl ⟨[], rfl⟩
  | cons entry entries ih =>
    cases hentry : make entry with
    | error e => exact .inr ⟨[], entry, entries, [], e, rfl, rfl, hentry⟩
    | ok i =>
      rcases ih with ⟨items, h⟩ | ⟨before, entry', after, items, e, rfl, h, he⟩
      · exact .inl ⟨i :: items, by rw [List.map_cons, hentry, h, List.map_cons]⟩
      · exact .inr ⟨entry :: before, entry', after, i :: items, e, rfl,
          by rw [List.map_cons, hentry, h, List.map_cons], he⟩

/-- A page that is filled to the end has an item for each entry. -/
theorem filled_of_outcome_ok {entries : List α} {isLast b : Bool}
    (h : (filled make entries isLast).outcome = .ok b) :
    b = isLast ∧ entries.map make = (filled make entries isLast).items.map .ok := by
  rcases made_or_stopped make entries with
    ⟨items, hmade⟩ | ⟨before, entry, after, items, e, rfl, hmade, he⟩
  · rw [filled_ok hmade] at h ⊢
    cases h
    exact ⟨rfl, hmade⟩
  · rw [filled_error hmade he] at h
    cases h

end Page

/-! ## Sources of pages -/

/-- A page of what is left of some entries: all of it, or its first entries and the mark of the last
of them, if that is a mark the listing accepts. -/
def IsPageOf {κ ι μ : Type} (place : Option μ → κ) (accepts : μ → Bool) (limit : Nat)
    (left : List (μ × Option ι)) (position : κ) (shown : List ι) (isLast : Bool) : Prop :=
  (isLast = true ∧ shown = items left) ∨
    (isLast = false ∧ ∃ last, (left.take limit).getLast? = some last ∧
      accepts last.1 = true ∧ position = place (some last.1) ∧ shown = items (left.take limit))

/-- The fetch that cuts a page from what is left of some entries, and is refused where more is left
but the last mark of the page is not accepted. -/
def cut {κ ι μ : Type} (place : Option μ → κ) (accepts : μ → Bool) (refusal : Error) (limit : Nat)
    (t : Option μ) (left : List (μ × Option ι)) : Fetch κ ι :=
  if limit < left.length then
    match ((left.take limit).getLast?.map (·.1)).filter accepts with
    | some k => ⟨place (some k), ⟨items (left.take limit), .ok false⟩⟩
    | none => ⟨place t, .failed refusal⟩
  else ⟨place t, ⟨items left, .ok true⟩⟩

section Cut

variable {κ ι μ : Type} {place : Option μ → κ} {accepts : μ → Bool} {refusal : Error} {limit : Nat}
  {t : Option μ} {left : List (μ × Option ι)}

/-- A page of a list that is longer has a last entry. -/
theorem exists_last {α : Type} {left : List α} (hlimit : 0 < limit) (h : limit < left.length) :
    ∃ last, (left.take limit).getLast? = some last := by
  refine Option.isSome_iff_exists.mp (List.getLast?_isSome.mpr fun hnil => ?_)
  have hlength := congrArg List.length hnil
  rw [List.length_take, List.length_nil] at hlength
  omega

theorem cut_last (h : ¬ limit < left.length) :
    cut place accepts refusal limit t left = ⟨place t, ⟨items left, .ok true⟩⟩ := if_neg h

theorem cut_more {last : μ × Option ι} (h : limit < left.length)
    (hlast : (left.take limit).getLast? = some last) (haccepts : accepts last.1 = true) :
    cut place accepts refusal limit t left =
      ⟨place (some last.1), ⟨items (left.take limit), .ok false⟩⟩ := by
  rw [cut, if_pos h, hlast, Option.map_some, Option.filter_some, if_pos haccepts]

theorem cut_refused {last : μ × Option ι} (h : limit < left.length)
    (hlast : (left.take limit).getLast? = some last) (haccepts : accepts last.1 = false) :
    cut place accepts refusal limit t left = ⟨place t, .failed refusal⟩ := by
  rw [cut, if_pos h, hlast, Option.map_some, Option.filter_some,
    if_neg (Bool.eq_false_iff.mp haccepts)]

/-- A page that is cut is a page of what is left. -/
theorem isPageOf_cut {isLast : Bool} (hlimit : 0 < limit)
    (h : (cut place accepts refusal limit t left).page.outcome = .ok isLast) :
    IsPageOf place accepts limit left (cut place accepts refusal limit t left).position
      (cut place accepts refusal limit t left).page.items isLast := by
  by_cases hmore : limit < left.length
  · obtain ⟨last, hlast⟩ := exists_last hlimit hmore
    cases haccepts : accepts last.1 with
    | true =>
      rw [cut_more hmore hlast haccepts] at h ⊢
      cases h
      exact .inr ⟨rfl, last, hlast, haccepts, rfl, rfl⟩
    | false =>
      rw [cut_refused hmore hlast haccepts] at h
      cases h
  · rw [cut_last hmore] at h ⊢
    cases h
    exact .inl ⟨rfl, rfl⟩

/-- How many pages it takes to show some number of entries; there is always one. -/
def pageCount (limit n : Nat) : Nat := max 1 ((n + limit - 1) / limit)

theorem pageCount_last {n : Nat} (h : n ≤ limit) (hlimit : 0 < limit) : pageCount limit n = 1 := by
  have hle : (n + limit - 1) / limit ≤ 1 := by
    rw [Nat.div_le_iff_le_mul_add_pred hlimit]
    omega
  rw [pageCount]
  omega

theorem pageCount_more {n : Nat} (h : limit < n) (hlimit : 0 < limit) :
    pageCount limit n = pageCount limit (n - limit) + 1 := by
  have hstep : (n + limit - 1) / limit = (n - limit + limit - 1) / limit + 1 := by
    rw [show n + limit - 1 = (n - limit + limit - 1) + limit by omega, Nat.add_div_right _ hlimit]
  have hone : 1 ≤ (n - limit + limit - 1) / limit := by
    rw [Nat.le_div_iff_mul_le hlimit]
    omega
  unfold pageCount
  omega

/-- A page ends at its last entry, and goes on from there. -/
theorem split_page {α : Type} {left : List α} {last : α}
    (hlast : (left.take limit).getLast? = some last) (h : limit < left.length) :
    ∃ front, left = front ++ last :: left.drop limit ∧ front.length + 1 = limit := by
  obtain ⟨front, hfront⟩ := List.getLast?_eq_some_iff.mp hlast
  have hlength := congrArg List.length hfront
  rw [List.length_take, List.length_append, List.length_singleton] at hlength
  refine ⟨front, ?_, by omega⟩
  conv => lhs; rw [← List.take_append_drop limit left, hfront]
  rw [List.append_assoc]
  rfl

section

variable {σ : Type} [LT μ] [DecidableLT μ] [LE μ] [Std.IsLinearOrder μ] [Std.LawfulOrderLT μ]
  {source : PageSource σ κ ι} {entries : List (μ × Option ι)} {ready : σ → Prop}
  {visit : Option μ → σ → σ}

/-- **Fetching all that is left** of entries that stay takes as many fetches as there are pages, and
brings all items, if the listing goes on from each entry at which a page may end. -/
theorem drain_cut (hlimit : 0 < limit) (hasc : entries.Pairwise fun a b => a.1 < b.1)
    (hsource : ∀ t s, (∀ k ∈ t, accepts k = true) → ready s → source (place t) s =
      (cut place accepts refusal limit t (past t entries), visit t s))
    (hvisit : ∀ t s, ready s → ready (visit t s)) {fuel : Nat} {p : Feed κ ι} {s : σ}
    (ht : ∀ k ∈ t, accepts k = true) (hready : ready s) (hx : p.exhausted = false)
    (hposition : p.position = place t) (hfuel : (past t entries).length < fuel)
    (haccepts : ∀ front e rest, past t entries = front ++ e :: rest → limit ≤ front.length + 1 →
      rest ≠ [] → accepts e.1 = true) :
    ∃ (p' : Feed κ ι) (ts : List (Option μ)),
      p.drain source fuel s = some (none, p', ts.foldl (fun s t => visit t s) s) ∧
      p'.buffer = p.buffer ++ items (past t entries) ∧
      ts.length = pageCount limit (past t entries).length := by
  -- One fetch for each page; the mark moves from page to page, so it is general in the induction.
  induction fuel generalizing t p s with
  | zero => omega
  | succ fuel ih =>
    have hfetch := hsource t s ht hready
    by_cases hmore : limit < (past t entries).length
    · -- More is left: the rest is drained from the mark of the last entry of the page.
      obtain ⟨last, hlast⟩ := exists_last hlimit hmore
      obtain ⟨front, hsplit, hfront⟩ := split_page hlast hmore
      have hrest : (past t entries).drop limit ≠ [] := by
        intro hnil
        have hlength := congrArg List.length hnil
        rw [List.length_drop, List.length_nil] at hlength
        omega
      have hgo := haccepts front last _ hsplit (by omega) hrest
      have hpast : past (some last.1) entries = (past t entries).drop limit :=
        past_getLast hasc (List.take_append_drop limit _).symm hlast
      rw [cut_more hmore hlast hgo, ← hposition] at hfetch
      have hpage := congrArg (fun r => r.1.page.outcome) hfetch
      rw [Feed.drain_of_load hx (Feed.load_of_ok hpage)]
      simp only [hfetch]
      have hlength : (past (some last.1) entries).length = (past t entries).length - limit := by
        rw [hpast, List.length_drop]
      obtain ⟨p', ts, hdrain, hbuffer, hts⟩ := ih (t := some last.1)
        (p := ⟨place (some last.1), p.buffer ++ items ((past t entries).take limit), false,
          p.pages + 1⟩)
        (fun k hk => Option.some.inj hk ▸ hgo) (hvisit t s hready) rfl rfl (by omega)
        fun front' e rest heq hle hne => by
          rw [hpast] at heq
          refine haccepts ((past t entries).take limit ++ front') e rest ?_ ?_ hne
          · rw [List.append_assoc, ← heq, List.take_append_drop]
          · rw [List.length_append]
            omega
      refine ⟨p', t :: ts, hdrain, ?_, ?_⟩
      · rw [hbuffer, hpast, List.append_assoc, ← items_append, List.take_append_drop]
      · rw [List.length_cons, hts, hlength, pageCount_more hmore hlimit]
    · -- The last page ends the listing.
      rw [cut_last hmore, ← hposition] at hfetch
      have hpage := congrArg (fun r => r.1.page.outcome) hfetch
      rw [Feed.drain_of_load hx (Feed.load_of_ok hpage), Feed.drain_of_exhausted rfl]
      simp only [hfetch]
      exact ⟨⟨p.position, p.buffer ++ items (past t entries), true, p.pages + 1⟩, [t], rfl, rfl,
        (pageCount_last (Nat.le_of_not_lt hmore) hlimit).symm⟩

end

/-! ## Breaking off -/

/-- A listing breaks off if its first page, with more behind it, ends at a mark that is not accepted. -/
def BreaksOff (accepts : μ → Bool) (limit : Nat) (marks : List μ) : Prop :=
  limit < marks.length ∧ ∃ k ∈ marks[limit - 1]?, accepts k = false

/-- The last mark of a page with more behind it stands at the end of the page. -/
theorem getElem?_last {last : μ × Option ι} (hlast : (left.take limit).getLast? = some last)
    (h : limit < left.length) : (left.map (·.1))[limit - 1]? = some last.1 := by
  obtain ⟨front, hsplit, hfront⟩ := split_page hlast h
  have hposition : limit - 1 = front.length := Nat.sub_eq_of_eq_add hfront.symm
  rw [hposition, hsplit]
  simp

/-- A cut fails just where the listing would break off. -/
theorem cut_eq_error (hlimit : 0 < limit) {e : Error} :
    (cut place accepts refusal limit t left).page.outcome = .error e ↔
      e = refusal ∧ BreaksOff accepts limit (left.map (·.1)) := by
  rw [BreaksOff, List.length_map]
  by_cases hmore : limit < left.length
  · obtain ⟨last, hlast⟩ := exists_last hlimit hmore
    have hmark := getElem?_last hlast hmore
    cases haccepts : accepts last.1 with
    | true =>
      rw [cut_more hmore hlast haccepts, hmark]
      simp [haccepts]
    | false =>
      rw [cut_refused hmore hlast haccepts, hmark]
      constructor
      · rintro ⟨⟩
        exact ⟨rfl, hmore, last.1, rfl, haccepts⟩
      · rintro ⟨rfl, -⟩
        rfl
  · rw [cut_last hmore]
    simp [hmore]

section

variable [LT μ] {entries : List (μ × Option ι)}

/-- Where a listing does not break off, and marks above an accepted one are accepted, it goes on from
each entry at which a page may end. -/
theorem accepts_of_not_breaksOff (hasc : entries.Pairwise fun a b => a.1 < b.1)
    (hup : ∀ j k, j < k → accepts j = true → accepts k = true)
    (h : ¬ BreaksOff accepts limit (entries.map (·.1))) :
    ∀ front e rest, entries = front ++ e :: rest → limit ≤ front.length + 1 → rest ≠ [] →
      accepts e.1 = true := by
  intro front e rest heq hle hne
  have hrest := List.length_pos_iff.mpr hne
  have hlength := congrArg List.length heq
  simp only [List.length_append, List.length_cons] at hlength
  -- The entry at the end of the first page is this one, or one before it.
  obtain ⟨first, hfirst⟩ : ∃ first, entries[limit - 1]? = some first :=
    ⟨entries[limit - 1], List.getElem?_eq_getElem (by omega)⟩
  have haccepts : accepts first.1 = true := by
    refine Bool.of_not_eq_false fun hfalse => h ⟨?_, first.1, ?_, hfalse⟩
    · rw [List.length_map]
      omega
    · rw [List.getElem?_map, hfirst]
      rfl
  rcases Nat.lt_or_eq_of_le (Nat.sub_le_of_le_add hle) with hlt | hlast
  · rw [heq, List.getElem?_append_left hlt] at hfirst
    rw [heq] at hasc
    have hbefore := (List.pairwise_append.mp hasc).2.2 first (List.mem_of_getElem? hfirst) e
      List.mem_cons_self
    exact hup _ _ hbefore haccepts
  · rw [heq, hlast, List.getElem?_append_right (Nat.le_refl _), Nat.sub_self] at hfirst
    cases hfirst
    exact haccepts

end

end Cut

/-- A source of pages over ascending entries, which may be others at the next fetch. -/
structure Paging (σ κ ι μ : Type) [LT μ] [DecidableLT μ] where
  source : PageSource σ κ ι
  /-- The position past a mark. -/
  place : Option μ → κ
  /-- The number of entries that a page may have. -/
  limit : Nat
  /-- Whether a listing goes on from a mark. -/
  accepts : μ → Bool
  /-- All entries, each with the item that it shows, if any. -/
  entries : σ → List (μ × Option ι)
  /-- The mark of the entry that shows an item. -/
  mark : ι → μ
  limit_pos : 0 < limit
  ascending : ∀ s, (entries s).Pairwise fun a b => a.1 < b.1
  mark_eq : ∀ {s k i}, (k, some i) ∈ entries s → mark i = k
  /-- A fetch leaves the entries. -/
  steady : ∀ t s, entries (source (place t) s).2 = entries s
  page_ok : ∀ {t s isLast}, (∀ k ∈ t, accepts k = true) →
    (source (place t) s).1.page.outcome = .ok isLast →
      IsPageOf place accepts limit (past t (entries s)) (source (place t) s).1.position
        (source (place t) s).1.page.items isLast

namespace Paging

variable {σ κ ι μ : Type} [LT μ] [DecidableLT μ] (P : Paging σ κ ι μ)

/-- The entries of a state make a listing of them break off. -/
def BrokenOff (s : σ) : Prop := BreaksOff P.accepts P.limit ((P.entries s).map (·.1))

/-- Marks above one that a listing goes on from are such marks too. -/
def Upward : Prop := ∀ j k, j < k → P.accepts j = true → P.accepts k = true

/-- A feed that has nothing in its buffer, is not done, and stands past a mark. -/
structure At (t : Option μ) (p : Feed κ ι) : Prop where
  buffer : p.buffer = []
  exhausted : p.exhausted = false
  position : p.position = P.place t
  accepted : ∀ k ∈ t, P.accepts k = true

/-- Loading at a mark fails, or puts a page of what is left into the buffer. -/
theorem load_at {t : Option μ} {p : Feed κ ι} (hp : P.At t p) (s : σ) :
    (∃ e p', p.load P.source s = (some e, p', (P.source (P.place t) s).2)) ∨
      ∃ p', p.load P.source s = (none, p', (P.source (P.place t) s).2) ∧
        IsPageOf P.place P.accepts P.limit (past t (P.entries s)) p'.position p'.buffer
          p'.exhausted := by
  rw [← hp.position]
  cases hpage : (P.source p.position s).1.page.outcome with
  | error e => exact .inl ⟨e, _, Feed.load_of_error hpage⟩
  | ok isLast =>
    refine .inr ⟨_, Feed.load_of_ok hpage, ?_⟩
    rw [hp.buffer, List.nil_append]
    rw [hp.position] at hpage ⊢
    exact P.page_ok hp.accepted hpage

section

variable [LE μ] [Std.IsLinearOrder μ] [Std.LawfulOrderLT μ]

/-- A page that is not the last one takes entries away from what is left, and what is left then is
what comes past its mark. -/
theorem past_page {t : Option μ} {s : σ} {last : μ × Option ι}
    (hlast : ((past t (P.entries s)).take P.limit).getLast? = some last) :
    past t (P.entries s) = (past t (P.entries s)).take P.limit ++ past (some last.1) (P.entries s) ∧
      (past (some last.1) (P.entries s)).length < (past t (P.entries s)).length := by
  have hrest := past_getLast (P.ascending s)
    (List.take_append_drop P.limit (past t (P.entries s))).symm hlast
  have hne : past t (P.entries s) ≠ [] := by
    intro hnil
    rw [hnil] at hlast
    simp at hlast
  have hpos := List.length_pos_iff.mpr hne
  have hlimit := P.limit_pos
  rw [hrest, List.take_append_drop, List.length_drop]
  exact ⟨rfl, by omega⟩

/-- With more fetches than there are entries left, the next item does not run out of fetches. -/
theorem next_isSome {t : Option μ} {p : Feed κ ι} {s : σ} {fuel : Nat} (hp : P.At t p)
    (hfuel : (past t (P.entries s)).length < fuel) : (p.next P.source fuel s).isSome = true := by
  induction fuel generalizing t p s with
  | zero => omega
  | succ fuel ih =>
    rcases P.load_at hp s with ⟨e, q, hl⟩ | ⟨q, hl, hpage⟩
    · rw [Feed.next_of_load_error hp.buffer hp.exhausted hl]
      rfl
    rw [Feed.next_of_load hp.buffer hp.exhausted hl]
    cases hq : q.buffer with
    | cons i rest =>
      rw [Feed.next_of_cons hq]
      rfl
    | nil =>
      rcases hpage with ⟨hend, -⟩ | ⟨hgoes, last, hlast, haccepts, hposition, -⟩
      · rw [Feed.next_of_exhausted hq hend]
        rfl
      · -- A page that shows nothing: fewer entries are left past its mark.
        have hq' : P.At (some last.1) q :=
          ⟨hq, hgoes, hposition, fun k hk => by cases hk; exact haccepts⟩
        have hless := (P.past_page hlast).2
        refine ih hq' ?_
        rw [P.steady]
        omega

/-- With more fetches than there are entries left, all that is left can be fetched. -/
theorem drain_isSome {t : Option μ} {p : Feed κ ι} {s : σ} {fuel : Nat} (hx : p.exhausted = false)
    (hposition : p.position = P.place t) (haccepted : ∀ k ∈ t, P.accepts k = true)
    (hfuel : (past t (P.entries s)).length < fuel) : (p.drain P.source fuel s).isSome = true := by
  induction fuel generalizing t p s with
  | zero => omega
  | succ fuel ih =>
    cases hpage : (P.source (P.place t) s).1.page.outcome with
    | error e =>
      rw [← hposition] at hpage
      rw [Feed.drain_of_load_error hx (Feed.load_of_error hpage)]
      rfl
    | ok isLast =>
      have hcut := P.page_ok haccepted hpage
      have hsteady := P.steady t s
      rw [← hposition] at hpage hcut hsteady
      rw [Feed.drain_of_load hx (Feed.load_of_ok hpage)]
      rcases hcut with ⟨hend, -⟩ | ⟨hgoes, last, hlast, haccepts, hnext, -⟩
      · rw [Feed.drain_of_exhausted hend]
        rfl
      · have hless := (P.past_page hlast).2
        refine ih (t := some last.1) hgoes hnext ?_ ?_
        · rintro k ⟨⟩
          exact haccepts
        · rw [hsteady]
          omega

/-- What the next item of an empty feed is, if no fetch fails: the first item of a stretch of the
entries past the mark. The rest of the stretch is in the buffer then, and the feed stands at its end;
a stretch that shows nothing is the last one. -/
theorem next_ok {t : Option μ} {p p' : Feed κ ι} {s s' : σ} {fuel : Nat} {item : Option ι}
    (hp : P.At t p) (h : p.next P.source fuel s = some (.ok item, p', s')) :
    ∃ stretch rest, past t (P.entries s) = stretch ++ rest ∧
      items stretch = item.toList ++ p'.buffer ∧
      ((p'.exhausted = true ∧ rest = [] ∧ (item = none → p'.buffer = [])) ∨
        (p'.exhausted = false ∧ item ≠ none ∧ ∃ last, stretch.getLast? = some last ∧
          P.accepts last.1 = true ∧ p'.position = P.place (some last.1))) := by
  induction fuel generalizing t p s with
  | zero =>
    rw [Feed.next_zero hp.buffer hp.exhausted] at h
    cases h
  | succ fuel ih =>
    rcases P.load_at hp s with ⟨e, q, hl⟩ | ⟨q, hl, hpage⟩
    · rw [Feed.next_of_load_error hp.buffer hp.exhausted hl] at h
      cases h
    rw [Feed.next_of_load hp.buffer hp.exhausted hl] at h
    rcases hpage with ⟨hend, hitems⟩ | ⟨hgoes, last, hlast, haccepts, hposition, hitems⟩
    · -- The last page: its first item is the next one, or there is none.
      refine ⟨past t (P.entries s), [], (List.append_nil _).symm, ?_⟩
      rw [← hitems]
      cases hq : q.buffer with
      | nil =>
        rw [Feed.next_of_exhausted hq hend] at h
        cases h
        exact ⟨hq.symm, .inl ⟨hend, rfl, fun _ => hq⟩⟩
      | cons i rest =>
        rw [Feed.next_of_cons hq] at h
        cases h
        exact ⟨rfl, .inl ⟨hend, rfl, fun h => by cases h⟩⟩
    · obtain ⟨hsplit, -⟩ := P.past_page hlast
      cases hq : q.buffer with
      | cons i rest =>
        rw [Feed.next_of_cons hq] at h
        cases h
        refine ⟨_, _, hsplit, ?_, .inr ⟨hgoes, Option.some_ne_none i, last, hlast,
          haccepts, hposition⟩⟩
        rw [← hitems, hq]
        rfl
      | nil =>
        -- A page that shows nothing: the stretch goes on with the next page.
        have hq' : P.At (some last.1) q :=
          ⟨hq, hgoes, hposition, fun k hk => by cases hk; exact haccepts⟩
        obtain ⟨stretch, rest, hleft, hshown, hstands⟩ := ih hq' h
        rw [P.steady] at hleft
        refine ⟨(past t (P.entries s)).take P.limit ++ stretch, rest, ?_, ?_, ?_⟩
        · rw [List.append_assoc, ← hleft]
          exact hsplit
        · rw [items_append, ← hitems, hq, List.nil_append, hshown]
        · rcases hstands with hdone | ⟨hx', hitem, last', hlast', haccepts', hposition'⟩
          · exact .inl hdone
          · refine .inr ⟨hx', hitem, last', ?_, haccepts', hposition'⟩
            rw [List.getLast?_append, hlast']
            rfl

end

/-! ## Feeds under way -/

/-- A feed over entries that change: what is in its buffer was there at the latest fetch, in order,
and unless the feed is done, it stands past a mark that no item of the buffer is above. -/
structure Ready (v : σ) (t : Option μ) (p : Feed κ ι) : Prop where
  shown : ∀ i ∈ p.buffer, (P.mark i, some i) ∈ P.entries v
  ascending : p.buffer.Pairwise fun a b => P.mark a < P.mark b
  position : p.exhausted = false → p.position = P.place t ∧ ∀ k ∈ t, P.accepts k = true
  reached : p.exhausted = false → ∀ i ∈ p.buffer, ∃ k ∈ t, ¬ k < P.mark i

/-- A mark that a feed has passed: whatever the feed shows from here on comes after it. -/
def Behind (k : μ) (t : Option μ) (p : Feed κ ι) : Prop :=
  (∀ i ∈ p.buffer, k < P.mark i) ∧ (p.exhausted = false → ∃ k' ∈ t, ¬ k' < k)

/-- A mark that a feed has not passed: its item is in the buffer, or may still be fetched. -/
def Ahead (k : μ) (t : Option μ) (p : Feed κ ι) : Prop :=
  (∃ i ∈ p.buffer, P.mark i = k) ∨ (p.exhausted = false ∧ ∀ k' ∈ t, k' < k)

/-- What the next item does to a feed under way, where `v` is the state at the latest fetch: the item
was there, the feed has passed it, and a mark that was ahead and is shown there is still ahead or is
the mark of the item. -/
structure Advanced (v : σ) (t : Option μ) (p : Feed κ ι) (item : Option ι) (t' : Option μ)
    (p' : Feed κ ι) : Prop where
  ready : P.Ready v t' p'
  shown : ∀ i ∈ item, (P.mark i, some i) ∈ P.entries v
  passed : ∀ i ∈ item, P.Behind (P.mark i) t' p'
  behind : ∀ k, P.Behind k t p → P.Behind k t' p' ∧ ∀ i ∈ item, k < P.mark i
  ahead : ∀ k, P.Ahead k t p → (∃ i, (k, some i) ∈ P.entries v) →
    P.Ahead k t' p' ∨ ∃ i ∈ item, P.mark i = k
  ended : item = none → ∀ k, ¬ P.Ahead k t' p'

/-- The next item comes from the buffer. -/
theorem advanced_pop {v : σ} {t : Option μ} {p : Feed κ ι} {i : ι} {rest : List ι}
    (hp : P.Ready v t p) (hb : p.buffer = i :: rest) :
    P.Advanced v t p (some i) t { p with buffer := rest } := by
  obtain ⟨hshown, hasc, hposition, hreached⟩ := hp
  rw [hb] at hshown hasc hreached
  obtain ⟨hfirst, hasc⟩ := List.pairwise_cons.mp hasc
  refine ⟨⟨fun j hj => hshown j (List.mem_cons_of_mem i hj), hasc, hposition,
      fun hx j hj => hreached hx j (List.mem_cons_of_mem i hj)⟩, ?_, ?_, ?_, ?_, ?_⟩
  · rintro j ⟨⟩
    exact hshown i List.mem_cons_self
  · rintro j ⟨⟩
    exact ⟨hfirst, fun hx => hreached hx i List.mem_cons_self⟩
  · rintro k ⟨hbuffer, hplace⟩
    rw [hb] at hbuffer
    refine ⟨⟨fun j hj => hbuffer j (List.mem_cons_of_mem i hj), hplace⟩, ?_⟩
    rintro j ⟨⟩
    exact hbuffer i List.mem_cons_self
  · rintro k (⟨j, hj, rfl⟩ | hplace) -
    · rw [hb] at hj
      rcases List.mem_cons.mp hj with rfl | hj
      · exact .inr ⟨j, rfl, rfl⟩
      · exact .inl (.inl ⟨j, hj, rfl⟩)
    · exact .inl (.inr hplace)
  · rintro ⟨⟩

/-- A feed that is done has no next item. -/
theorem advanced_ended {v : σ} {t : Option μ} {p : Feed κ ι} (hp : P.Ready v t p)
    (hb : p.buffer = []) (hx : p.exhausted = true) : P.Advanced v t p none t p := by
  refine ⟨hp, fun i hi => (by cases hi), fun i hi => (by cases hi),
    fun k hk => ⟨hk, fun i hi => (by cases hi)⟩, fun k hk _ => .inl hk, fun _ k hk => ?_⟩
  rcases hk with ⟨i, hi, -⟩ | ⟨hx', -⟩
  · rw [hb] at hi
    cases hi
  · rw [hx] at hx'
    cases hx'

/-- Every item of a stretch stands there under its own mark. -/
theorem mem_stretch {s : σ} {stretch : List (μ × Option ι)} (h : ∀ e ∈ stretch, e ∈ P.entries s)
    {i : ι} (hi : i ∈ items stretch) : (P.mark i, some i) ∈ stretch := by
  obtain ⟨k, hk⟩ := mem_items.mp hi
  rw [P.mark_eq (h _ hk)]
  exact hk

/-- The items of a stretch are in the order of their marks. -/
theorem ascending_items {s : σ} {stretch : List (μ × Option ι)} (h : ∀ e ∈ stretch, e ∈ P.entries s)
    (hasc : stretch.Pairwise fun a b => a.1 < b.1) :
    (items stretch).Pairwise fun i j => P.mark i < P.mark j := by
  refine List.pairwise_filterMap.mpr (hasc.imp_of_mem ?_)
  rintro ⟨k, _⟩ ⟨k', _⟩ ha hb hlt i rfl j rfl
  rw [P.mark_eq (h _ ha), P.mark_eq (h _ hb)]
  exact hlt

/-- What was fetched from what is left past a mark: a stretch of the entries, which shows the next item
and what is in the buffer then. `rest` is left after it. -/
structure Fetched (s : σ) (t : Option μ) (item : Option ι) (buffer : List ι)
    (stretch rest : List (μ × Option ι)) : Prop where
  left : past t (P.entries s) = stretch ++ rest
  shows : items stretch = item.toList ++ buffer

namespace Fetched

variable {P} {s : σ} {t : Option μ} {item : Option ι} {buffer : List ι}
  {stretch rest : List (μ × Option ι)}

theorem ascending (h : P.Fetched s t item buffer stretch rest) :
    (stretch ++ rest).Pairwise fun a b => a.1 < b.1 :=
  h.left ▸ ascending_past (P.ascending s)

/-- The entries of the stretch are past the mark. -/
theorem mem_left (h : P.Fetched s t item buffer stretch rest) {e : μ × Option ι} (he : e ∈ stretch) :
    e ∈ P.entries s ∧ ∀ k ∈ t, k < e.1 :=
  mem_past.mp (h.left ▸ List.mem_append_left rest he)

/-- Each item stands in the stretch under its mark. -/
theorem mem_stretch (h : P.Fetched s t item buffer stretch rest) {i : ι}
    (hi : i ∈ item.toList ++ buffer) : (P.mark i, some i) ∈ stretch :=
  P.mem_stretch (fun _ he => (h.mem_left he).1) (h.shows ▸ hi)

theorem marks (h : P.Fetched s t item buffer stretch rest) :
    (item.toList ++ buffer).Pairwise fun i j => P.mark i < P.mark j :=
  h.shows ▸ P.ascending_items (fun _ he => (h.mem_left he).1) (List.pairwise_append.mp h.ascending).1

/-- What is in the buffer comes after the next item. -/
theorem mark_lt (h : P.Fetched s t item buffer stretch rest) {i j : ι} (hi : i ∈ item)
    (hj : j ∈ buffer) : P.mark i < P.mark j :=
  (List.pairwise_append.mp h.marks).2.2 i (Option.mem_toList.mpr hi) j hj

/-- What is ahead of an empty feed and is shown there is in the stretch or in what is left after it. -/
theorem cases_ahead (h : P.Fetched s t item buffer stretch rest) {k : μ} {p : Feed κ ι}
    (hk : P.Ahead k t p) (hb : p.buffer = []) (hi : ∃ i, (k, some i) ∈ P.entries s) :
    (∃ i ∈ item, P.mark i = k) ∨ (∃ i ∈ buffer, P.mark i = k) ∨ ∃ i, (k, some i) ∈ rest := by
  obtain ⟨i, hi⟩ := hi
  rcases hk with ⟨j, hj, -⟩ | ⟨-, hplace⟩
  · rw [hb] at hj
    cases hj
  have hpast := mem_past.mpr ⟨hi, hplace⟩
  rw [h.left] at hpast
  rcases List.mem_append.mp hpast with hs | hr
  · have hshows : i ∈ item.toList ++ buffer := h.shows ▸ mem_items.mpr ⟨k, hs⟩
    rcases List.mem_append.mp hshows with hitem | hbuffer
    · exact .inl ⟨i, Option.mem_toList.mp hitem, P.mark_eq hi⟩
    · exact .inr (.inl ⟨i, hbuffer, P.mark_eq hi⟩)
  · exact .inr (.inr ⟨i, hr⟩)

theorem shown_item (h : P.Fetched s t item buffer stretch rest) :
    ∀ i ∈ item, (P.mark i, some i) ∈ P.entries s := fun _ hi =>
  (h.mem_left (h.mem_stretch (List.mem_append_left _ (Option.mem_toList.mpr hi)))).1

theorem shown_buffer (h : P.Fetched s t item buffer stretch rest) :
    ∀ i ∈ buffer, (P.mark i, some i) ∈ P.entries s := fun _ hi =>
  (h.mem_left (h.mem_stretch (List.mem_append_right _ hi))).1

end Fetched

variable [LE μ] [Std.IsLinearOrder μ] [Std.LawfulOrderLT μ]

/-- Every entry past a mark comes after all marks that a feed there has passed. -/
theorem Behind.lt {k : μ} {t : Option μ} {p : Feed κ ι} (h : P.Behind k t p)
    (hx : p.exhausted = false) {k' : μ} (hk : ∀ k₀ ∈ t, k₀ < k') : k < k' := by
  obtain ⟨k₀, hk₀, hle⟩ := h.2 hx
  exact Std.lt_of_le_of_lt (Std.not_lt.mp hle) (hk k₀ hk₀)

/-- What a feed has passed, it has passed before all of the stretch. -/
theorem Fetched.lt_of_behind {s : σ} {t : Option μ} {item : Option ι} {buffer : List ι}
    {stretch rest : List (μ × Option ι)} (h : P.Fetched s t item buffer stretch rest) {k : μ}
    {p : Feed κ ι} (hk : P.Behind k t p) (hx : p.exhausted = false) {i : ι}
    (hi : i ∈ item.toList ++ buffer) : k < P.mark i :=
  hk.lt P hx (h.mem_left (h.mem_stretch hi)).2

/-- The stretch was the last: where the feed stands does not matter any more. -/
theorem advanced_last {t : Option μ} {p p' : Feed κ ι} {s : σ} {item : Option ι}
    {stretch : List (μ × Option ι)} (hp : P.At t p)
    (h : P.Fetched s t item p'.buffer stretch []) (hx : p'.exhausted = true)
    (hnone : item = none → p'.buffer = []) : P.Advanced s t p item t p' := by
  have hgone : p'.exhausted ≠ false := by simp [hx]
  have hmarks := (List.pairwise_append.mp h.marks).2.1
  refine ⟨⟨h.shown_buffer, hmarks, fun hx' => absurd hx' hgone, fun hx' => absurd hx' hgone⟩,
    h.shown_item, fun i hi => ⟨fun j hj => h.mark_lt hi hj, fun hx' => absurd hx' hgone⟩, ?_, ?_, ?_⟩
  · intro k hk
    refine ⟨⟨fun i hi => ?_, fun hx' => absurd hx' hgone⟩, fun i hi => ?_⟩
    · exact h.lt_of_behind P hk hp.exhausted (List.mem_append_right _ hi)
    · exact h.lt_of_behind P hk hp.exhausted (List.mem_append_left _ (Option.mem_toList.mpr hi))
  · intro k hk hi
    rcases h.cases_ahead hk hp.buffer hi with hitem | hbuffer | ⟨i, ⟨⟩⟩
    · exact .inr hitem
    · exact .inl (.inl hbuffer)
  · rintro hitem k (⟨i, hi, -⟩ | ⟨hx', -⟩)
    · rw [hnone hitem] at hi
      cases hi
    · exact hgone hx'

/-- More is left after the stretch: the feed stands at its last entry, and none of its items is above
that one. -/
theorem advanced_more {t : Option μ} {p p' : Feed κ ι} {s : σ} {item : Option ι}
    {stretch rest : List (μ × Option ι)} {last : μ × Option ι} (hp : P.At t p)
    (h : P.Fetched s t item p'.buffer stretch rest) (hx : p'.exhausted = false) (hsome : item ≠ none)
    (hlast : stretch.getLast? = some last) (haccepts : P.accepts last.1 = true)
    (hposition : p'.position = P.place (some last.1)) :
    P.Advanced s t p item (some last.1) p' := by
  have hmarks := (List.pairwise_append.mp h.marks).2.1
  obtain ⟨hstretch, -, hacross⟩ := List.pairwise_append.mp h.ascending
  have hmem : last ∈ stretch := List.mem_of_getLast? hlast
  have hle : ∀ i ∈ item.toList ++ p'.buffer, ∃ k ∈ some last.1, ¬ k < P.mark i :=
    fun i hi => ⟨last.1, rfl, le_getLast hstretch hlast (h.mem_stretch hi)⟩
  have haccepted : ∀ k ∈ some last.1, P.accepts k = true := by
    rintro k ⟨⟩
    exact haccepts
  refine ⟨⟨h.shown_buffer, hmarks, fun _ => ⟨hposition, haccepted⟩,
      fun _ i hi => hle i (List.mem_append_right _ hi)⟩, h.shown_item, fun i hi => ⟨fun j hj =>
      h.mark_lt hi hj, fun _ => hle i (List.mem_append_left _ (Option.mem_toList.mpr hi))⟩,
    ?_, ?_, fun hnone => absurd hnone hsome⟩
  · intro k hk
    refine ⟨⟨fun i hi => ?_, fun _ => ⟨last.1, rfl, ?_⟩⟩, fun i hi => ?_⟩
    · exact h.lt_of_behind P hk hp.exhausted (List.mem_append_right _ hi)
    · exact Std.not_gt_of_lt (hk.lt P hp.exhausted (h.mem_left hmem).2)
    · exact h.lt_of_behind P hk hp.exhausted (List.mem_append_left _ (Option.mem_toList.mpr hi))
  · intro k hk hi
    rcases h.cases_ahead hk hp.buffer hi with hitem | hbuffer | ⟨i, hrest⟩
    · exact .inr hitem
    · exact .inl (.inl hbuffer)
    · -- What is left after the stretch is past its last entry.
      refine .inl (.inr ⟨hx, ?_⟩)
      rintro k' ⟨⟩
      exact hacross last hmem _ hrest

/-- The next item has to be fetched: it is the first of a stretch of what is left. -/
theorem advanced_fetch {t : Option μ} {p p' : Feed κ ι} {s s' : σ} {fuel : Nat} {item : Option ι}
    (hp : P.At t p) (h : p.next P.source fuel s = some (.ok item, p', s')) :
    ∃ t', P.Advanced s t p item t' p' := by
  obtain ⟨stretch, rest, hleft, hitems, hstands⟩ := P.next_ok hp h
  rcases hstands with ⟨hx, rfl, hnone⟩ | ⟨hx, hsome, last, hlast, haccepts, hposition⟩
  · exact ⟨t, P.advanced_last hp ⟨hleft, hitems⟩ hx hnone⟩
  · exact ⟨some last.1, P.advanced_more hp ⟨hleft, hitems⟩ hx hsome hlast haccepts hposition⟩

/-- **What the next item does.** If no fetch fails, a feed under way goes on under way. -/
theorem advance {v : σ} {t : Option μ} {p p' : Feed κ ι} {s s' : σ} {fuel : Nat} {item : Option ι}
    (hp : P.Ready v t p) (h : p.next P.source fuel s = some (.ok item, p', s')) :
    ∃ t', P.Advanced (if p.isDry then s else v) t p item t' p' := by
  cases hb : p.buffer with
  | cons i rest =>
    rw [Feed.next_of_cons hb] at h
    cases h
    have hdry : p.isDry = false := by simp [Feed.isDry, hb]
    rw [hdry]
    exact ⟨t, P.advanced_pop hp hb⟩
  | nil =>
    cases hx : p.exhausted with
    | true =>
      rw [Feed.next_of_exhausted hb hx] at h
      cases h
      have hdry : p.isDry = false := by simp [Feed.isDry, hx]
      rw [hdry]
      exact ⟨t, P.advanced_ended hp hb hx⟩
    | false =>
      -- Only here the source is asked, so this is the latest fetch from now on.
      have hdry : p.isDry = true := by simp [Feed.isDry, hb, hx]
      obtain ⟨hposition, haccepted⟩ := hp.position hx
      rw [hdry]
      exact P.advanced_fetch ⟨hb, hx, hposition, haccepted⟩ h

end Paging

end ObjectStore
