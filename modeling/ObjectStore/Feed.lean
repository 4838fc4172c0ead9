import ObjectStore.Backend
import ObjectStore.Text.Inspect
import ObjectStore.Work

/-!
# Feeds

A feed hands out the items of a sequence one by one and fetches a page only when it has no item
left. A fetch puts items on a page and says whether that is the last one. It may also fail, with some
items on its page already: this ends the sequence, and the feed drops them.

`Feed.next` gives the next item. `Feed.drain` fetches all that is left at once, which is how a
sequence is collected or streamed. Fetching can go on for ever where pages are empty, so both take
the number of fetches they may make; `none` means that this number was too small and nothing else.
-/

namespace ObjectStore

/-! ## Pages -/

/-- A page as a fetch leaves it: the items that were put on it, and whether the sequence ends with it,
or the error that stopped the fetch. -/
structure Page (ι : Type) where
  items : List ι
  outcome : Except Error Bool

namespace Page

variable {α ι : Type}

/-- The page of a fetch that fails before there is anything to put on it. -/
def failed (e : Error) : Page ι := ⟨[], .error e⟩

/-- Puts an item for each entry on a page. The first entry that there is no item for stops this, and
what is on the page by then stays there. -/
def put (make : α → Except Error ι) : List α → Work (List ι) Error Unit
  | [] => pure ()
  | entry :: rest => do
    let item ← make entry
    modify (· ++ [item])
    put make rest

/-- The page of these entries, which is the last one or not. -/
def filled (make : α → Except Error ι) (entries : List α) (isLast : Bool) : Page ι :=
  let r := (put make entries).on []
  ⟨r.2, r.1.map fun _ => isLast⟩

end Page

/-- What a fetch results in: where the next page starts, and the page. -/
structure Fetch (κ ι : Type) where
  position : κ
  page : Page ι

/-- A place that pages come from: a fetch at a position, in a state that it may change. -/
abbrev PageSource (σ κ ι : Type) := κ → σ → Fetch κ ι × σ

/-- A sequence under way. -/
structure Feed (κ ι : Type) where
  /-- Where the next page starts. -/
  position : κ
  /-- Items that were fetched and not yet handed out. -/
  buffer : List ι := []
  /-- Whether there will be no further fetch. -/
  exhausted : Bool := false
  /-- The number of pages fetched. -/
  pages : Nat := 0

namespace Feed

variable {σ κ ι : Type}

/-- Fetches a page into the buffer. A failure ends the sequence and is returned; nothing that is on the
page comes into the buffer then. -/
def load (source : PageSource σ κ ι) (p : Feed κ ι) (s : σ) : Option Error × Feed κ ι × σ :=
  let (fetch, s) := source p.position s
  match fetch.page.outcome with
  | .ok isLast =>
    (none,
      { position := fetch.position
        buffer := p.buffer ++ fetch.page.items
        exhausted := isLast
        pages := p.pages + 1 }, s)
  | .error e => (some e, { p with position := fetch.position, exhausted := true }, s)

/-- The next item, or nothing at the end of the sequence, with at most `fuel` fetches. -/
def next (source : PageSource σ κ ι) :
    (fuel : Nat) → Feed κ ι → σ → Option (Except Error (Option ι) × Feed κ ι × σ)
  | fuel, p, s =>
    match p.buffer with
    | item :: rest => some (.ok (some item), { p with buffer := rest }, s)
    | [] =>
      if p.exhausted then some (.ok none, p, s)
      else
        match fuel with
        | 0 => none
        | fuel + 1 =>
          match p.load source s with
          | (some e, p, s) => some (.error e, p, s)
          | (none, p, s) => next source fuel p s

/-- Fetches all pages that are left, at most `fuel` of them. The items of all pages are then in the
buffer; a failure ends the fetching and is returned with it. -/
def drain (source : PageSource σ κ ι) :
    (fuel : Nat) → Feed κ ι → σ → Option (Option Error × Feed κ ι × σ)
  | fuel, p, s =>
    if p.exhausted then some (none, p, s)
    else
      match fuel with
      | 0 => none
      | fuel + 1 =>
        match p.load source s with
        | (some e, p, s) => some (some e, p, s)
        | (none, p, s) => drain source fuel p s

/-- All items that are left, or the first error that fetching them meets. -/
def collect (source : PageSource σ κ ι) (fuel : Nat) (p : Feed κ ι) (s : σ) :
    Option (Except Error (List ι) × σ) :=
  (p.drain source fuel s).map fun r =>
    (match r.1 with
      | none => .ok r.2.1.buffer
      | some e => .error e, r.2.2)

/-- All items that are left, and after them the error that fetching more meets, if it does. -/
def stream (source : PageSource σ κ ι) (fuel : Nat) (p : Feed κ ι) (s : σ) :
    Option (List (Except Error ι) × σ) :=
  (p.drain source fuel s).map fun r =>
    (r.2.1.buffer.map .ok ++ r.1.toList.map .error, r.2.2)

/-- The inspection text, given that of the position. -/
def inspect (inspectPosition : κ → String) (p : Feed κ ι) : String :=
  Text.record "Pager"
    [("cursor", inspectPosition p.position), ("buffered", toString p.buffer.length),
      ("exhausted", toString p.exhausted), ("pages", toString p.pages)]

end Feed

/-! ## Scripted pages -/

/-- A page prepared in advance: its items, and either whether it is the last one or a fault, which
comes when the items are on the page. -/
structure ScriptedPage (ι : Type) where
  items : List ι
  outcome : Except Fault Bool

/-- The page that a fetch makes of it. -/
def ScriptedPage.page {ι : Type} (p : ScriptedPage ι) : Page ι :=
  ⟨p.items, p.outcome.mapError .ofFault⟩

/-- Pages prepared in advance, by number; the state counts the fetches. A fetch goes on to the next
number unless it fails. There is no page past the last one. -/
def scriptedPages {ι : Type} (pages : List (ScriptedPage ι)) : PageSource Nat Nat ι :=
  fun position fetches =>
    let fetch : Fetch Nat ι :=
      match pages[position]? with
      | none => ⟨position, .failed (.ofFault ⟨"ScriptExhausted", "no page left", none⟩)⟩
      | some p => ⟨if p.outcome.isOk then position + 1 else position, p.page⟩
    (fetch, fetches + 1)

/-! ## Listings of a backend -/

/-- A sequence whose pages are fetched from a backend, each by one call. -/
structure Listing (κ ι : Type) where
  /-- The call that fetches the page at a position. -/
  pages : κ → Call (Fetch κ ι)
  feed : Feed κ ι

namespace Listing

variable {κ ι : Type}

/-- The sequence that starts at a position. -/
def start (pages : κ → Call (Fetch κ ι)) (position : κ) : Listing κ ι := ⟨pages, { position }⟩

variable {σ : Type} [Backend σ]

/-- The pages of a listing, with the backend's state. -/
def source (l : Listing κ ι) : PageSource σ κ ι := fun position s => (l.pages position).run s

/-- The next item of a listing. -/
def next (l : Listing κ ι) (s : σ) : Option (Except Error (Option ι) × Listing κ ι × σ) :=
  (l.feed.next l.source (Backend.patience s) s).map fun r => (r.1, { l with feed := r.2.1 }, r.2.2)

/-- All items that are left, or an error. -/
def collect (l : Listing κ ι) (s : σ) : Option (Except Error (List ι) × σ) :=
  l.feed.collect l.source (Backend.patience s) s

/-- All items that are left, and the error after them, if there is one. -/
def stream (l : Listing κ ι) (s : σ) : Option (List (Except Error ι) × σ) :=
  l.feed.stream l.source (Backend.patience s) s

end Listing

end ObjectStore
