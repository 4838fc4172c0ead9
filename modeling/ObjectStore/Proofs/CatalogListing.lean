import ObjectStore.Catalog
import ObjectStore.Proofs.Consuming
import ObjectStore.Proofs.Listing.Responses

/-!
# The listing of a catalog

All buckets come in one page, so a catalog's listing is settled by its first answer: it loads the feed
with everything there is to come, and ends it (`Feed.Settled`). What is put on that page is what opening
the buckets by name gives, in their order, up to the first that cannot be opened. Where there is one, the
fetch fails with the mounts before it on its page (`Catalog.page_of_stop`). They are not delivered because
the feed takes nothing from the page of a failing fetch.

`Catalog.list_agrees_with_get` puts this together for any backend, whatever it says its buckets are.
-/

namespace ObjectStore

/-! ## Feeds of one page -/

namespace Feed

variable {σ κ ι : Type} {source : PageSource σ κ ι} {p : Feed κ ι} {s t : σ} {items : List ι}
  {error? : Option Error}

/-- That a fetch from an empty feed settles all that comes: it leaves the feed done, with these items,
or it fails with this error. -/
def Settled (source : PageSource σ κ ι) (p : Feed κ ι) (s : σ) (items : List ι)
    (error? : Option Error) (t : σ) : Prop :=
  p.buffer = [] ∧ p.exhausted = false ∧
    ∃ q, p.load source s = (error?, q, t) ∧ q.buffer = items ∧ q.exhausted = true

theorem settled_of_page (hb : p.buffer = []) (hx : p.exhausted = false)
    (h : (source p.position s).1.page = ⟨items, .ok true⟩) :
    Settled source p s items none (source p.position s).2 := by
  have hlast : (source p.position s).1.page.outcome = .ok true := by rw [h]
  exact ⟨hb, hx, _, load_of_ok hlast, by rw [hb, h, List.nil_append], rfl⟩

/-- A fetch that fails settles that nothing comes, whatever is on its page. -/
theorem settled_of_error {e : Error} (hb : p.buffer = []) (hx : p.exhausted = false)
    (h : (source p.position s).1.page.outcome = .error e) :
    Settled source p s [] (some e) (source p.position s).2 :=
  ⟨hb, hx, _, load_of_error h, hb, rfl⟩

/-- What is left is what the fetch settles. -/
theorem Settled.left (h : Settled source p s items error? t) {fuel : Nat} (hfuel : 0 < fuel) :
    p.Left source fuel s items error? t := by
  obtain ⟨-, hx, q, hload, hitems, hx'⟩ := h
  obtain ⟨fuel, rfl⟩ : ∃ k, fuel = k + 1 := ⟨fuel - 1, by omega⟩
  cases error? with
  | none => exact ⟨q, (drain_of_load hx hload).trans (drain_of_exhausted hx'), hitems⟩
  | some e => exact ⟨q, drain_of_load_error hx hload, hitems⟩

/-- A feed that is done needs no fetch. -/
theorem next_of_done (hx : p.exhausted = true) (fuel fuel' : Nat) :
    p.next source fuel s = p.next source fuel' s := by
  cases hb : p.buffer with
  | cons i rest => rw [next_of_cons hb, next_of_cons hb]
  | nil => rw [next_of_exhausted hb hx, next_of_exhausted hb hx]

/-- **All answers** are those that the fetch settles; it is made for the first one, and then the feed is
done. -/
theorem Settled.nexts {patience : σ → Nat} (h : Settled source p s items error? t)
    (hpatience : 0 < patience s) (n : Nat) :
    ∃ given q, Feed.nexts source patience (n + 1) p s = some (given, q, t) ∧ q.exhausted = true ∧
      given.map (·.1) = (answers items error?).takeD (n + 1) (.ok none) := by
  obtain ⟨hb, hx, q, hload, rfl, hx'⟩ := h
  obtain ⟨fuel, hfuel⟩ : ∃ k, patience s = k + 1 := ⟨patience s - 1, by omega⟩
  cases error? with
  | none =>
    have hnext : p.next source (patience s) s = q.next source (patience t) t := by
      rw [hfuel, next_of_load hb hx hload]
      exact next_of_done hx' fuel (patience t)
    have hsame : Feed.nexts source patience (n + 1) p s = Feed.nexts source patience (n + 1) q t := by
      rw [Feed.nexts, Feed.nexts, hnext]
    rw [hsame]
    exact nexts_of_exhausted patience hx' (n + 1)
  | some e =>
    have hnext : p.next source (patience s) s = some (.error e, q, t) := by
      rw [hfuel]
      exact next_of_load_error hb hx hload
    have hempty : q.buffer = [] := (load_failed hload).1.trans hb
    obtain ⟨given, q', hnexts, hdone, hgiven⟩ := nexts_of_exhausted patience hx' n
    refine ⟨_, q', nexts_of_next hnext hnexts, hdone, ?_⟩
    rw [List.map_cons, hgiven, hempty]
    rfl

end Feed

/-! ## Pages of mounts -/

/-- The reply to a request for the buckets. -/
def Reply.Buckets.reply (r : Reply.Buckets) : (request : Request) → request.Reply
  | .listBuckets => r
  | request => request.blank

namespace Catalog

variable {c : Catalog} {σ : Type} [Backend σ] {s : σ}

section Page

variable {fault : Fault} {reply : Reply.Buckets} {mounts : List Mount}

theorem page_of_fault (h : (Backend.exchange .listBuckets s).1 = .error fault) :
    ((c.bucketPage ⟨⟩).run s).1.page = .failed (.ofFault fault) := by
  simp only [bucketPage, Call.run]
  rw [h]

theorem page_of_reply (h : (Backend.exchange .listBuckets s).1 = .ok reply) :
    ((c.bucketPage ⟨⟩).run s).1.page = .filled c.mountOf reply.buckets true := by
  simp only [bucketPage, Call.run]
  rw [h]

/-- Buckets that can all be opened by name are on the page as opening them gives them. -/
theorem page_of_opened (h : (Backend.exchange .listBuckets s).1 = .ok reply)
    (hmounts : reply.buckets.map (fun b => c.get b.name) = mounts.map .ok) :
    ((c.bucketPage ⟨⟩).run s).1.page = ⟨mounts, .ok true⟩ := by
  have hmade : reply.buckets.map c.mountOf = mounts.map .ok := hmounts
  rw [page_of_reply h, Page.filled_ok hmade]

/-- The first bucket that cannot be opened stops the fetch. The mounts of those before it are on the page
by then. -/
theorem page_of_stop {before after : List Reply.ListedBucket} {b : Reply.ListedBucket} {e : Error}
    (h : (Backend.exchange .listBuckets s).1 = .ok reply)
    (hbuckets : reply.buckets = before ++ b :: after)
    (hmounts : before.map (fun b => c.get b.name) = mounts.map .ok) (he : c.get b.name = .error e) :
    ((c.bucketPage ⟨⟩).run s).1.page = ⟨mounts, .error e⟩ := by
  have hmade : before.map c.mountOf = mounts.map .ok := hmounts
  have hstop : c.mountOf b = .error e := he
  rw [page_of_reply h, hbuckets, Page.filled_error hmade hstop]

end Page

/-! ## The listing -/

variable (c s) in
/-- That all that comes of a catalog's listing are these mounts and this error, and that it sends one
request in its whole life: none before the first answer, and none after it. -/
structure Lists (mounts : List Mount) (error? : Option Error) : Prop where
  /-- The answers in a row, how many there may be; and whatever is done with the listing after them. -/
  nexts : ∀ n, ∃ given l t, c.list.nexts n (⟨s, []⟩ : Recorded σ) = some (given, l, t) ∧
    given.map (·.1) = (Feed.answers mounts error?).takeD n (.ok none) ∧
    t.requests = (if n = 0 then [] else [.listBuckets]) ∧
    (∃ collected u, l.collect t = some (collected, u) ∧ u.requests = [.listBuckets]) ∧
    ∃ streamed u, l.stream t = some (streamed, u) ∧ u.requests = [.listBuckets]
  collect : ∃ t, c.list.collect (⟨s, []⟩ : Recorded σ) = some (error?.elim (.ok mounts) .error, t)
  stream : ∃ t, c.list.stream (⟨s, []⟩ : Recorded σ) =
    some (mounts.map .ok ++ error?.toList.map .error, t)

/-- The listing is settled by its first page. -/
theorem lists_of_settled {mounts : List Mount} {error? : Option Error} {t : Recorded σ}
    (hpatience : 0 < Backend.patience s)
    (h : Feed.Settled c.list.source c.list.feed (⟨s, []⟩ : Recorded σ) mounts error? t)
    (hrequests : t.requests = [.listBuckets]) : c.Lists s mounts error? := by
  have hfirst : 0 < Backend.patience (⟨s, []⟩ : Recorded σ) := hpatience
  have hleft := h.left hfirst
  refine ⟨fun n => ?_, ⟨t, hleft.collect⟩, ⟨t, hleft.stream⟩⟩
  cases n with
  | zero =>
    exact ⟨[], c.list, _, rfl, rfl, rfl, ⟨_, t, hleft.collect, hrequests⟩,
      ⟨_, t, hleft.stream, hrequests⟩⟩
  | succ n =>
    obtain ⟨given, q, hnexts, hx, hgiven⟩ := h.nexts hfirst n
    have hlisting := Listing.nexts_eq (n + 1) c.list (⟨s, []⟩ : Recorded σ)
    rw [hnexts, Option.map_some] at hlisting
    have hdone (fuel : Nat) : q.Left c.list.source fuel t q.buffer none t := Feed.left_of_exhausted hx
    exact ⟨given, _, t, hlisting, hgiven, hrequests, ⟨_, t, (hdone _).collect, hrequests⟩,
      ⟨_, t, (hdone _).stream, hrequests⟩⟩

/-- **The listing of a catalog agrees with opening its buckets by name**, whatever the backend answers to
the one request. Where all buckets can be opened, the listing is of what opening them gives, in their
order. Where one cannot, the first answer is the error that opening the first such bucket gives, and no
mount comes, not even of a bucket before it, though these are on the page of the fetch. A fault is the
first answer, too. -/
theorem list_agrees_with_get (c : Catalog) (hpatience : 0 < Backend.patience s) :
    (∀ fault, (Backend.exchange .listBuckets s).1 = .error fault →
      c.Lists s [] (some (.ofFault fault))) ∧
    ∀ reply : Reply.Buckets, (Backend.exchange .listBuckets s).1 = .ok reply →
      (∀ mounts, reply.buckets.map (fun b => c.get b.name) = mounts.map .ok →
        c.Lists s mounts none) ∧
      ∀ before b after (opened : List Mount) e, reply.buckets = before ++ b :: after →
        before.map (fun b => c.get b.name) = opened.map .ok → c.get b.name = .error e →
        ((c.bucketPage ⟨⟩).run s).1.page = ⟨opened, .error e⟩ ∧ c.Lists s [] (some e) := by
  refine ⟨fun fault hfault => ?_, fun reply hreply => ⟨fun mounts hmounts => ?_, ?_⟩⟩
  · have hpage := page_of_fault (c := c) (s := (⟨s, []⟩ : Recorded σ)) hfault
    exact lists_of_settled hpatience (Feed.settled_of_error rfl rfl (congrArg Page.outcome hpage)) rfl
  · have hpage := page_of_opened (s := (⟨s, []⟩ : Recorded σ)) hreply hmounts
    exact lists_of_settled hpatience (Feed.settled_of_page rfl rfl hpage) rfl
  · intro before b after opened e hbuckets hopened he
    have hpage := page_of_stop (s := (⟨s, []⟩ : Recorded σ)) hreply hbuckets hopened he
    exact ⟨page_of_stop hreply hbuckets hopened he, lists_of_settled hpatience
      (Feed.settled_of_error rfl rfl (congrArg Page.outcome hpage)) rfl⟩

/-- Two buckets that can be opened, and the same with one between them that cannot. -/
theorem list_agrees_with_get_blank_name :
    let c : Catalog := ⟨{ bucket := "any", workDir := "/data", pageSize := 7 }⟩
    let mount (name : String) : Mount :=
      ⟨name, ⟨"data/", .inr (by decide)⟩, 7, none, none, by decide⟩
    let script (names : List String) : Script :=
      ⟨[.ok (Reply.Buckets.reply ⟨names.map fun name => { name }⟩)]⟩
    c.get "a" = .ok (mount "a") ∧ c.get " " = .error .bucketBlank ∧ c.get "b" = .ok (mount "b") ∧
      c.Lists (script ["a", "b"]) [mount "a", mount "b"] none ∧
      ((c.bucketPage ⟨⟩).run (script ["a", " ", "b"])).1.page = ⟨[mount "a"], .error .bucketBlank⟩ ∧
      c.Lists (script ["a", " ", "b"]) [] (some .bucketBlank) := by
  intro c mount script
  have ha : c.get "a" = .ok (mount "a") := by cbv
  have hblank : c.get " " = .error .bucketBlank := by cbv
  have hb : c.get "b" = .ok (mount "b") := by cbv
  have hgood := (list_agrees_with_get c (s := script ["a", "b"]) (by decide)).2
    ⟨[{ name := "a" }, { name := "b" }]⟩ rfl
  have hbad := (list_agrees_with_get c (s := script ["a", " ", "b"]) (by decide)).2
    ⟨[{ name := "a" }, { name := " " }, { name := "b" }]⟩ rfl
  refine ⟨ha, hblank, hb, hgood.1 _ ?_, hbad.2 [{ name := "a" }] { name := " " } [{ name := "b" }]
    [mount "a"] _ rfl ?_ hblank⟩
  · simp only [List.map_cons, List.map_nil, ha, hb]
  · simp only [List.map_cons, List.map_nil, ha]

end Catalog

end ObjectStore
