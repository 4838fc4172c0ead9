import ObjectStore.Proofs.Sequence

/-!
# Ways to consume a feed

A feed can be asked for one item after another, it can be collected, and it can be streamed. The last
two fetch all that is left at once, so it has to be shown that they come to the same as asking. What is
left of a feed (`Feed.Left`) is its items and at most one error after them; to ask takes the first of
these away (`Feed.Asked`, `Left.next`).

Both ways are then loops that ask for the next item. They stop at different answers: a collection at an
error, a stream only where there is nothing more (`Left.collect_next`, `Left.stream_next`). A stream has
nothing after an error because a failed fetch ends the feed.

`Feed.consumers_agree` compares all three from wherever any number of answers has brought a feed whose
source yields a list. `Feed.traced` notes the fetches, so that these can be compared as well.
-/

namespace ObjectStore.Feed

variable {σ κ ι : Type}

/-! ## What is left -/

/-- That all that is left of a feed is these items, and after them this error, if there is one, and that
to fetch it all leaves this state. -/
def Left (source : PageSource σ κ ι) (fuel : Nat) (p : Feed κ ι) (s : σ) (items : List ι)
    (error? : Option Error) (final : σ) : Prop :=
  ∃ q, p.drain source fuel s = some (error?, q, final) ∧ q.buffer = items

/-- The answers to come, before there is nothing more. -/
def answers (items : List ι) (error? : Option Error) : List (Except Error (Option ι)) :=
  (items.map fun i => .ok (some i)) ++ error?.toList.map .error

section Left

variable {source : PageSource σ κ ι} {fuel : Nat} {p : Feed κ ι} {s final : σ} {items : List ι}
  {error? : Option Error}

/-- A feed with more items to hand out before those that it has. -/
def behind (xs : List ι) (p : Feed κ ι) : Feed κ ι := { p with buffer := xs ++ p.buffer }

@[simp] theorem exhausted_behind (xs : List ι) (p : Feed κ ι) :
    (p.behind xs).exhausted = p.exhausted := rfl

theorem load_behind (xs : List ι) (p : Feed κ ι) (s : σ) :
    (p.behind xs).load source s =
      ((p.load source s).1, (p.load source s).2.1.behind xs, (p.load source s).2.2) := by
  simp only [load, behind]
  split
  · simp only [List.append_assoc]
  · rfl

/-- What is fetched comes after the items that are there. -/
theorem drain_behind (xs : List ι) (fuel : Nat) (p : Feed κ ι) (s : σ) :
    (p.behind xs).drain source fuel s =
      (p.drain source fuel s).map fun r => (r.1, r.2.1.behind xs, r.2.2) := by
  fun_induction Feed.drain source fuel p s with
  | case1 fuel p s hx => exact drain_of_exhausted hx
  | case2 p s hx =>
    rw [drain]
    simp only [exhausted_behind, hx, Bool.false_eq_true, if_false, Option.map_none]
  | case3 p s hx fuel e q u hl =>
    exact drain_of_load_error (by simpa using hx) ((load_behind xs p s).trans (by rw [hl]))
  | case4 p s hx fuel q u hl ih =>
    rw [drain_of_load (by simpa using hx) ((load_behind xs p s).trans (by rw [hl]))]
    exact ih

/-- A feed that failed to load is done, and has the items that it had. -/
theorem load_failed {e : Error} {p' : Feed κ ι} {s' : σ} (h : p.load source s = (some e, p', s')) :
    p'.buffer = p.buffer ∧ p'.exhausted = true := by
  cases hpage : (source p.position s).1.page.outcome with
  | ok isLast =>
    rw [load_of_ok hpage] at h
    cases h
  | error e' =>
    rw [load_of_error hpage] at h
    cases h
    exact ⟨rfl, rfl⟩

/-- All that is left of a feed that is done is what is in its buffer. -/
theorem left_of_exhausted (hx : p.exhausted = true) : p.Left source fuel s p.buffer none s :=
  ⟨p, drain_of_exhausted hx, rfl⟩

/-- Handing out an item of the buffer leaves the others. -/
theorem Left.pop {i : ι} {rest : List ι} (h : p.Left source fuel s items error? final)
    (hb : p.buffer = i :: rest) :
    ∃ items', items = i :: items' ∧
      Feed.Left source fuel { p with buffer := rest } s items' error? final := by
  obtain ⟨q, hdrain, hitems⟩ := h
  have hp : p = Feed.behind [i] { p with buffer := rest } := by
    rw [behind, List.singleton_append, ← hb]
  rw [hp, drain_behind] at hdrain
  obtain ⟨⟨e, q', t⟩, hrest, hsame⟩ := Option.map_eq_some_iff.mp hdrain
  cases hsame
  exact ⟨q'.buffer, hitems.symm, q', hrest, rfl⟩

/-- What asking for the next item comes to where these items are left: it takes the first of them away,
or there is none, and all fetches are made. -/
inductive Asked (source : PageSource σ κ ι) (fuel : Nat) (p : Feed κ ι) (s : σ)
    (error? : Option Error) (final : σ) : (items : List ι) → Prop
  | item {i : ι} {rest : List ι} {p' : Feed κ ι} {s' : σ}
    (hnext : p.next source fuel s = some (.ok (some i), p', s'))
    (hleft : p'.Left source fuel s' rest error? final) :
    Asked source fuel p s error? final (i :: rest)
  | ended {p' : Feed κ ι}
    (hnext : p.next source fuel s = some (error?.elim (.ok none) .error, p', final))
    (hb : p'.buffer = []) (hx : p'.exhausted = true) : Asked source fuel p s error? final []

/-- An answer that takes no fetch. -/
theorem Left.next_of_not_dry (h : p.Left source fuel s items error? final) (hd : p.isDry = false) :
    Asked source fuel p s error? final items := by
  cases hb : p.buffer with
  | cons i rest =>
    obtain ⟨items', rfl, hrest⟩ := h.pop hb
    exact .item (next_of_cons hb) hrest
  | nil =>
    have hx : p.exhausted = true := by simpa [isDry, hb] using hd
    obtain ⟨q, hdrain, rfl⟩ := h
    cases (drain_of_exhausted hx).symm.trans hdrain
    rw [hb]
    exact .ended (next_of_exhausted hb hx) hb hx

/-- **The next answer** is the first item that is left, and leaves the others. If there is none, it is
the error or that there is nothing, and the feed is done. -/
theorem Left.next (h : p.Left source fuel s items error? final) :
    Asked source fuel p s error? final items := by
  induction fuel generalizing p s with
  | zero =>
    refine h.next_of_not_dry (Bool.eq_false_iff.mpr fun hd => ?_)
    obtain ⟨q, hdrain, -⟩ := h
    rw [drain] at hdrain
    simp [(isDry_iff.mp hd).2] at hdrain
  | succ fuel ih =>
    cases hd : p.isDry with
    | false => exact h.next_of_not_dry hd
    | true =>
      obtain ⟨hb, hx⟩ := isDry_iff.mp hd
      obtain ⟨q, hdrain, hitems⟩ := h
      -- A page is fetched: that fails, or the feed goes on with what it loads.
      rcases hl : p.load source s with ⟨_ | e, p', s'⟩
      · rw [drain_of_load hx hl] at hdrain
        have hnext : p.next source (fuel + 1) s = p'.next source fuel s' := next_of_load hb hx hl
        cases ih ⟨q, hdrain, hitems⟩ with
        | item hrest hleft =>
          obtain ⟨q', hrest', hq'⟩ := hleft
          exact .item (hnext.trans hrest) ⟨q', drain_mono hrest' (Nat.le_succ fuel), hq'⟩
        | ended hrest hb' hx' => exact .ended (hnext.trans hrest) hb' hx'
      · rw [drain_of_load_error hx hl] at hdrain
        cases hdrain
        obtain ⟨hbuffer, hx'⟩ := load_failed hl
        have hb' : q.buffer = [] := hbuffer.trans hb
        rw [← hitems, hb']
        exact .ended (next_of_load_error hb hx hl) hb' hx'

/-! ## The two loops -/

theorem Left.collect (h : p.Left source fuel s items error? final) :
    p.collect source fuel s = some (error?.elim (.ok items) .error, final) := by
  obtain ⟨q, hdrain, rfl⟩ := h
  rw [Feed.collect, hdrain]
  cases error? <;> rfl

theorem Left.stream (h : p.Left source fuel s items error? final) :
    p.stream source fuel s = some (items.map .ok ++ error?.toList.map .error, final) := by
  obtain ⟨q, hdrain, rfl⟩ := h
  rw [Feed.stream, hdrain]
  rfl

variable (source fuel) in
/-- What a collection does with an answer: it keeps an item and goes on, and ends at anything else. -/
def collectFrom : Except Error (Option ι) × Feed κ ι × σ → Option (Except Error (List ι) × σ)
  | (.ok (some i), p, s) => (p.collect source fuel s).map fun r => (r.1.map (i :: ·), r.2)
  | (.ok none, _, s) => some (.ok [], s)
  | (.error e, _, s) => some (.error e, s)

variable (source fuel) in
/-- What a stream does with an answer: it puts out an item, or an error, and goes on; it ends where
there is nothing. -/
def streamFrom : Except Error (Option ι) × Feed κ ι × σ → Option (List (Except Error ι) × σ)
  | (.ok (some i), p, s) => (p.stream source fuel s).map fun r => (.ok i :: r.1, r.2)
  | (.ok none, _, s) => some ([], s)
  | (.error e, p, s) => (p.stream source fuel s).map fun r => (.error e :: r.1, r.2)

/-- **A collection is a loop** over the next answer. -/
theorem Left.collect_next (h : p.Left source fuel s items error? final) :
    p.collect source fuel s = (p.next source fuel s).bind (collectFrom source fuel) := by
  rw [h.collect]
  cases h.next with
  | item hnext hrest =>
    rw [hnext, Option.bind_some, collectFrom, hrest.collect]
    cases error? <;> rfl
  | ended hnext =>
    rw [hnext]
    cases error? <;> rfl

/-- **A stream is a loop** over the next answer. After an error it finds the feed done. -/
theorem Left.stream_next (h : p.Left source fuel s items error? final) :
    p.stream source fuel s = (p.next source fuel s).bind (streamFrom source fuel) := by
  rw [h.stream]
  cases h.next with
  | item hnext hrest =>
    rw [hnext, Option.bind_some, streamFrom, hrest.stream]
    rfl
  | ended hnext hb hx =>
    rw [hnext]
    cases error? with
    | none => rfl
    | some e =>
      rw [Option.elim_some, Option.bind_some, streamFrom, (left_of_exhausted hx).stream, hb]
      rfl

/-! ## Asking on -/

/-- A feed that is done hands out its buffer, and then nothing for ever; nothing is fetched. -/
theorem nexts_of_exhausted (patience : σ → Nat) (hx : p.exhausted = true) (n : Nat) :
    ∃ given p', nexts source patience n p s = some (given, p', s) ∧ p'.exhausted = true ∧
      given.map (·.1) = (answers p.buffer none).takeD n (.ok none) := by
  induction n generalizing p with
  | zero => exact ⟨[], p, rfl, hx, rfl⟩
  | succ n ih =>
    cases hb : p.buffer with
    | cons i rest =>
      obtain ⟨given, p', hnexts, hx', hgiven⟩ := @ih { p with buffer := rest } hx
      refine ⟨_, p', nexts_of_next (next_of_cons hb) hnexts, hx', ?_⟩
      rw [List.map_cons, hgiven]
      rfl
    | nil =>
      obtain ⟨given, p', hnexts, hx', hgiven⟩ := ih hx
      refine ⟨_, p', nexts_of_next (next_of_exhausted hb hx) hnexts, hx', ?_⟩
      rw [List.map_cons, hgiven, hb]
      rfl

/-- **The answers in a row** are those to come, and then that there is nothing, for ever. By the first
answer that there is nothing, all fetches are made. -/
theorem Left.nexts (h : p.Left source fuel s items error? final) (n : Nat) :
    ∃ given p' t, Feed.nexts source (fun _ => fuel) n p s = some (given, p', t) ∧
      given.map (·.1) = (answers items error?).takeD n (.ok none) ∧
      ((answers items error?).length < n → t = final) ∧
      ∃ items' error?', p'.Left source fuel t items' error?' final := by
  induction n generalizing p s items with
  | zero => exact ⟨[], p, s, rfl, rfl, fun hlt => absurd hlt (Nat.not_lt_zero _), items, error?, h⟩
  | succ n ih =>
    cases h.next with
    | item hnext hrest =>
      obtain ⟨given, q, t, hnexts, hgiven, hall, hleft⟩ := ih hrest
      refine ⟨_, q, t, nexts_of_next hnext hnexts, ?_, fun hlt => hall ?_, hleft⟩
      · rw [List.map_cons, hgiven]
        rfl
      · exact Nat.lt_of_succ_lt_succ hlt
    | ended hnext hb hx =>
      obtain ⟨given, q, hnexts, hx', hgiven⟩ :=
        nexts_of_exhausted (s := final) (fun _ => fuel) hx n
      refine ⟨_, q, final, nexts_of_next hnext hnexts, ?_, fun _ => rfl, _, none,
        left_of_exhausted hx'⟩
      rw [List.map_cons, hgiven, hb]
      cases error? <;> rfl

end Left

/-! ## Sources that yield a list -/

/-- A source that yields a list comes to its end. -/
theorem exists_left {source : PageSource σ κ ι} {overrun : Error} {script : List (Page ι)} {fuel : Nat}
    {p : Feed κ ι} {s : σ} (h : Plays source overrun p.position s script)
    (hfuel : script.length < fuel) :
    ∃ items error? final, p.Left source fuel s items error? final := by
  obtain ⟨fuel, rfl⟩ : ∃ k, fuel = k + 1 := ⟨fuel - 1, by omega⟩
  cases hx : p.exhausted with
  | true => exact ⟨p.buffer, none, s, left_of_exhausted hx⟩
  | false =>
    induction script generalizing p s fuel with
    | nil => exact ⟨_, _, _, _, drain_of_load_error hx (load_of_error h), rfl⟩
    | cons page rest ih =>
      cases ho : page.outcome with
      | error e =>
        have hpage : (source p.position s).1.page.outcome = .error e := by rw [h.1, ho]
        exact ⟨_, _, _, _, drain_of_load_error hx (load_of_error hpage), rfl⟩
      | ok isLast =>
        have hpage : (source p.position s).1.page.outcome = .ok isLast := by rw [h.1, ho]
        have hload := load_of_ok hpage
        cases isLast with
        | true => exact ⟨_, _, _, _, (drain_of_load hx hload).trans (drain_of_exhausted rfl), rfl⟩
        | false =>
          obtain ⟨fuel, rfl⟩ : ∃ k, fuel = k + 1 := ⟨fuel - 1, by rw [List.length_cons] at hfuel; omega⟩
          let p' : Feed κ ι :=
            ⟨(source p.position s).1.position, p.buffer ++ (source p.position s).1.page.items, false,
              p.pages + 1⟩
          have hplays : Plays source overrun p'.position (source p.position s).2 rest := h.2 ho
          obtain ⟨items, error?, final, q, hdrain, hq⟩ :=
            ih hplays fuel (Nat.lt_of_succ_lt_succ hfuel) rfl
          exact ⟨items, error?, final, q, (drain_of_load hx hload).trans hdrain, hq⟩

/-! ## All ways together -/

/-- That all ways to consume a feed come to these items and this error, and leave this state when they
have come to the end. -/
structure Consumed (source : PageSource σ κ ι) (fuel : Nat) (p : Feed κ ι) (s : σ) (items : List ι)
    (error? : Option Error) (final : σ) : Prop where
  /-- To ask for the next item, any number of times. -/
  nexts : ∀ n, ∃ given p' t, Feed.nexts source (fun _ => fuel) n p s = some (given, p', t) ∧
    given.map (·.1) = (answers items error?).takeD n (.ok none) ∧
    ((answers items error?).length < n → t = final)
  stream : p.stream source fuel s = some (items.map .ok ++ error?.toList.map .error, final)
  collect : p.collect source fuel s = some (error?.elim (.ok items) .error, final)
  /-- The last two are loops that ask for the next item. -/
  stream_loop : p.stream source fuel s = (p.next source fuel s).bind (streamFrom source fuel)
  collect_loop : p.collect source fuel s = (p.next source fuel s).bind (collectFrom source fuel)

theorem Left.consumed {source : PageSource σ κ ι} {fuel : Nat} {p : Feed κ ι} {s final : σ}
    {items : List ι} {error? : Option Error} (h : p.Left source fuel s items error? final) :
    Consumed source fuel p s items error? final := by
  refine ⟨fun n => ?_, h.stream, h.collect, h.stream_next, h.collect_next⟩
  obtain ⟨given, p', t, hnexts, hgiven, hall, -⟩ := h.nexts n
  exact ⟨given, p', t, hnexts, hgiven, hall⟩

/-- A state with the positions at which pages were fetched, in their order. -/
structure Traced (σ κ : Type) where
  state : σ
  asked : List κ := []

/-- Notes the fetches of a source. -/
def traced (source : PageSource σ κ ι) : PageSource (Traced σ κ) κ ι := fun c t =>
  let r := source c t.state
  (r.1, ⟨r.2, t.asked ++ [c]⟩)

theorem traced_state (source : PageSource σ κ ι) (c : κ) (t : Traced σ κ) :
    source c t.state = ((traced source c t).1, (traced source c t).2.state) := rfl

/-- What is left is the same with fetches noted. -/
theorem Left.untraced {source : PageSource σ κ ι} {fuel : Nat} {p : Feed κ ι} {t final : Traced σ κ}
    {items : List ι} {error? : Option Error}
    (h : p.Left (traced source) fuel t items error? final) :
    p.Left source fuel t.state items error? final.state := by
  obtain ⟨q, hdrain, hitems⟩ := h
  have hthrough := drain_through (traced_state source) fuel p t
  rw [hdrain] at hthrough
  exact ⟨q, hthrough, hitems⟩

/-- **All ways to consume a feed agree.** Let a source yield a list, and take a feed to wherever any
number of answers bring it. There are items and at most one error, such that asking on gives these, and
then nothing for ever; streaming gives these and ends; and collecting gives the items, if there is no
error, and otherwise just the error. All three leave the same state and have made the same fetches in
the same order. -/
theorem consumers_agree {source : PageSource σ κ ι} {overrun : Error} {c : κ} {s : σ}
    {script : List (Page ι)} (h : Plays source overrun c s script) {fuel : Nat}
    (hfuel : script.length < fuel) (n : Nat) :
    ∃ given p t,
      nexts (traced source) (fun _ => fuel) n { position := c } ⟨s, []⟩ = some (given, p, t) ∧
      nexts source (fun _ => fuel) n { position := c } s =
        some (given.map fun a => (a.1, a.2.state), p, t.state) ∧
      ∃ items error? final, Consumed (traced source) fuel p t items error? final ∧
        Consumed source fuel p t.state items error? final.state := by
  let start : Feed κ ι := { position := c }
  have hplays : Plays (traced source) overrun start.position ⟨s, []⟩ script :=
    plays_through (traced_state source) h
  obtain ⟨_, _, _, hleft⟩ := exists_left hplays hfuel
  obtain ⟨given, p, t, hnexts, -, -, items, error?, hrest⟩ := hleft.nexts n
  have hthrough := nexts_through (traced_state source) (fun _ => fuel) n start ⟨s, []⟩
  rw [hnexts] at hthrough
  exact ⟨given, p, t, hnexts, hthrough, items, error?, _, hrest.consumed, hrest.untraced.consumed⟩

/-- Two items, an empty page, a third item, and a failing fetch that has gathered a fourth; the first
item is taken, and then the rest is consumed in each way. -/
theorem consumers_agree_failing :
    let pages : List (ScriptedPage Nat) := [⟨[10, 20], .ok false⟩, ⟨[], .ok false⟩, ⟨[30], .ok false⟩,
      ⟨[40], .error ⟨"SlowDown", "later", none⟩⟩]
    let source := traced (scriptedPages pages)
    let p : Feed Nat Nat := { position := 1, buffer := [20], pages := 1 }
    let t : Traced Nat Nat := ⟨1, [0]⟩
    let e : Error := .ofFault ⟨"SlowDown", "later", none⟩
    pages.length < 5 ∧
      nexts source (fun _ => 5) 1 { position := 0 } ⟨0, []⟩ = some ([(.ok (some 10), t)], p, t) ∧
      Consumed source 5 p t [20, 30] (some e) ⟨4, [0, 1, 2, 3]⟩ := by
  intro pages source p t e
  have hone : nexts source (fun _ => 5) 1 { position := 0 } ⟨0, []⟩ =
      some ([(.ok (some 10), t)], p, t) := rfl
  obtain ⟨given, p', t', hnexts, -, items, error?, final, hconsumed, -⟩ :=
    consumers_agree (plays_scriptedPages pages 0 0) (show _ < 5 by decide) 1
  cases hone.symm.trans hnexts
  -- What the stream puts out tells the items and the error.
  have hstream : p.stream source 5 t = some ([.ok 20, .ok 30, .error e], ⟨4, [0, 1, 2, 3]⟩) := rfl
  have hcollect : p.collect source 5 t = some (.error e, ⟨4, [0, 1, 2, 3]⟩) := rfl
  rw [hconsumed.collect] at hcollect
  rw [hconsumed.stream] at hstream
  cases error? with
  | none => cases hcollect
  | some e' =>
    cases hcollect
    have hmap : items.map Except.ok = [20, 30].map Except.ok :=
      List.append_inj_left' (Prod.mk.inj (Option.some.inj hstream)).1 rfl
    obtain rfl := (List.map_inj_right fun _ _ h => Except.ok.inj h).mp hmap
    exact ⟨by decide, hone, hconsumed⟩

end ObjectStore.Feed
