import ObjectStore.Store.Rules

/-!
# The store: its listings

A listing is made in three steps. First come the entries it can show, in order: keys that start with
the stem, or the groups they fall into; open uploads; parts. Then the entries up to the marker are
passed over. Last, a page is cut from what is left. Because groups are made before the marker is
looked at, a group is never shown again on a later page.
-/

namespace ObjectStore.Store

/-- The number of entries that a page may have: the number asked for, if it is positive. -/
def pageLimit (asked : Int32) : Nat := if 0 < asked then asked.toInt.toNat else 1000

/-- Whether entries are left over when a page is cut. -/
def exceeds {α : Type} (asked : Int32) (entries : List α) : Bool :=
  decide (pageLimit asked < entries.length)

/-- The first page of entries. -/
def firstPage {α : Type} (asked : Int32) (entries : List α) : List α :=
  entries.take (pageLimit asked)

/-! ## Objects -/

/-- What a listing shows for a key that starts with `stem`: the key up to the end of the first
delimiter after the stem as a group, or the key itself. An empty delimiter is none. -/
inductive Shown where
  | object (key : String)
  | group (name : String)
  deriving DecidableEq

/-- How a key is shown; not at all if it does not start with the stem. -/
def shown? (stem : String) (delimiter : Option String) (key : String) : Option Shown :=
  match Text.after? stem key with
  | none => none
  | some rest =>
    match delimiter.filter (· ≠ "") with
    | none => some (.object key)
    | some d =>
      match Text.throughMark? d.toList rest.toList with
      | some group => some (.group (stem ++ String.ofList group))
      | none => some (.object key)

/-- All that a listing can show, by the marker of each entry: an object, or nothing for a group. -/
def shownTable (stem : String) (delimiter : Option String) (objects : Table String KeptObject) :
    Table String (Option KeptObject) :=
  objects.entries.foldr
    (fun e t =>
      match shown? stem delimiter e.1 with
      | none => t
      | some (.object key) => t.insert key (some e.2)
      | some (.group name) => t.insert name none)
    ∅

/-- The storage class shown for an object that was stored without one. -/
def standardClass : String := "STANDARD"

/-- An object as a listing shows it. -/
def listedObject (key : String) (o : KeptObject) : Reply.ListedObject where
  key := key
  size := UInt64.ofNat o.body.length
  etag := some o.etag
  lastModified := some o.lastModified
  storageClass := some (o.storageClass.getD standardClass)

/-- A page of objects and groups. -/
def listObjects (b : Bucket) (r : Request.ListObjects) : Reply.Objects :=
  let shown := (shownTable r.stem r.delimiter b.objects).entries
  let left := shown.filter fun e => r.token.all fun token => decide (token < e.1)
  let page := firstPage r.limit left
  { entries := page.filterMap fun e => e.2.map (listedObject e.1)
    groups := page.filterMap fun e => if e.2.isNone then some e.1 else none
    nextToken := if exceeds r.limit left then page.getLast?.map (·.1) else none
    truncated := exceeds r.limit left }

/-! ## Uploads and parts -/

/-- Whether an upload comes after the markers. Without an id, all uploads of the marked key are
passed over; without a key, none is. -/
def pastMarkers (keyMarker idMarker : Option String) (name : UploadName) : Bool :=
  match keyMarker, idMarker with
  | none, _ => true
  | some key, none => decide (key < name.key)
  | some key, some id => decide ((⟨key, id⟩ : UploadName) < name)

/-- A page of open uploads. -/
def listUploads (b : Bucket) (r : Request.ListUploads) : Reply.Uploads :=
  let left := b.uploads.entries.filter fun e =>
    Text.startsWith r.stem e.1.key && pastMarkers r.keyMarker r.idMarker e.1
  let page := firstPage r.limit left
  let last := if exceeds r.limit left then page.getLast?.map (·.1) else none
  { uploads := page.map fun e => ⟨e.1.key, e.1.id, some e.2.initiated, e.2.storageClass⟩
    nextKey := last.map (·.key)
    nextId := last.map (·.id)
    truncated := exceeds r.limit left }

/-- A page of parts. -/
def listParts (u : Upload) (r : Request.ListParts) : Reply.Parts :=
  let left := u.parts.entries.filter fun e => decide (r.marker.getD 0 < e.1)
  let page := firstPage r.limit left
  { parts := page.map fun e =>
      ⟨e.1, UInt64.ofNat e.2.body.length, e.2.etag, some e.2.lastModified⟩
    nextMarker := if exceeds r.limit left then page.getLast?.map (·.1) else none
    truncated := exceeds r.limit left }

end ObjectStore.Store
