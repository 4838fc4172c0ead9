import ObjectStore.Text.Inspect

/-!
# Positions

Where a listing stands: what it lists, how large its pages are, and the markers of the next page.
Each position has a *token*, one text for its markers, and an inspection text.
-/

namespace ObjectStore

/-- A position in the objects below a stem. -/
structure StemPosition where
  stem : String
  limit : Int32
  token? : Option String := none
  deriving DecidableEq

/-- A position in the open uploads below a stem. Several uploads may have one key, so it takes two
markers to say where a page starts. -/
structure UploadPosition where
  stem : String
  limit : Int32
  keyMarker : Option String := none
  idMarker : Option String := none
  deriving DecidableEq

/-- A position in the parts of an upload. -/
structure PartPosition where
  key : String
  uploadId : String
  limit : Int32
  marker : Option Int32 := none
  deriving DecidableEq

/-- A position in a listing of a path. -/
inductive ListingPosition where
  /-- All objects below a stem. -/
  | flat (position : StemPosition)
  /-- Objects and groups below a stem. -/
  | grouped (position : StemPosition) (delimiter : String)
  /-- Open uploads below a stem. -/
  | uploads (position : UploadPosition)
  deriving DecidableEq

/-- The position in a listing of all buckets, which has one page. -/
structure CatalogPosition where
  deriving DecidableEq

/-! ## Tokens -/

/-- The token is the marker. -/
def StemPosition.token (c : StemPosition) : String := c.token?.getD ""

/-- The key, and the id after a slash if there is one. -/
def UploadPosition.token (c : UploadPosition) : String :=
  let key := c.keyMarker.getD ""
  match c.idMarker with
  | none => key
  | some id => if id = "" then key else key ++ "/" ++ id

/-- The number of the last part that was shown, or zero. -/
def PartPosition.token (c : PartPosition) : String := toString (c.marker.getD 0)

/-- The token of the position inside. -/
def ListingPosition.token : ListingPosition → String
  | .flat c => c.token
  | .grouped c _ => c.token
  | .uploads c => c.token

/-! ## Inspection -/

/-- The inspection text. -/
def StemPosition.inspect (c : StemPosition) : String :=
  Text.record "PrefixCursor"
    [("prefix", Text.quote c.stem), ("max_keys", toString c.limit),
      ("continuation_token", Text.optional Text.quote c.token?)]

/-- The inspection text. -/
def UploadPosition.inspect (c : UploadPosition) : String :=
  Text.record "UploadCursor"
    [("prefix", Text.quote c.stem), ("max_uploads", toString c.limit),
      ("key_marker", Text.optional Text.quote c.keyMarker),
      ("upload_id_marker", Text.optional Text.quote c.idMarker)]

/-- The inspection text. -/
def PartPosition.inspect (c : PartPosition) : String :=
  Text.record "PartCursor"
    [("key", Text.quote c.key), ("upload_id", Text.quote c.uploadId),
      ("max_parts", toString c.limit), ("part_number_marker", Text.optional toString c.marker)]

/-- The inspection text. -/
def ListingPosition.inspect : ListingPosition → String
  | .flat c => Text.variant "Prefix" c.inspect
  | .grouped c delimiter =>
    Text.variant "Dir"
      (Text.record "DirCursor" [("inner", c.inspect), ("delimiter", Text.quote delimiter)])
  | .uploads c => Text.variant "Uploads" c.inspect

/-- The inspection text. -/
def CatalogPosition.inspect (_ : CatalogPosition) : String := Text.record "BucketCursor" []

end ObjectStore
