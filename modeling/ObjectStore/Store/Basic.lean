import ObjectStore.Backend

/-!
# The store: its contents

A store is a backend that keeps everything in tables. Objects are found by key, open uploads by key
and upload id, parts by number; the order of each table is the order in which it is listed. Beside
its buckets a store has the ids it will give to new uploads, the readings its clock will show, the
faults that are waiting to be answered in place of a result, and a log of the requests it was sent.
-/

namespace ObjectStore

/-- The name of an open upload: the key it will be stored under, and its id. Uploads are ordered by
key and then by id. -/
structure UploadName where
  key : String
  id : String
  deriving DecidableEq

namespace UploadName

instance : LT UploadName := ⟨fun a b => a.key < b.key ∨ (a.key = b.key ∧ a.id < b.id)⟩

instance : LE UploadName := ⟨fun a b => a.key < b.key ∨ (a.key = b.key ∧ a.id ≤ b.id)⟩

instance : DecidableLT UploadName := fun a b =>
  inferInstanceAs (Decidable (a.key < b.key ∨ (a.key = b.key ∧ a.id < b.id)))

theorem lt_def {a b : UploadName} :
    a < b ↔ a.key < b.key ∨ (a.key = b.key ∧ a.id < b.id) := Iff.rfl

theorem le_def {a b : UploadName} :
    a ≤ b ↔ a.key < b.key ∨ (a.key = b.key ∧ a.id ≤ b.id) := Iff.rfl

instance : Std.IsLinearOrder UploadName where
  le_refl a := by grind [le_def]
  le_trans a b c := by grind [le_def]
  le_antisymm a b := by
    obtain ⟨k, i⟩ := a
    obtain ⟨k', i'⟩ := b
    grind [le_def]
  le_total a b := by grind [le_def]

instance : Std.LawfulOrderLT UploadName where
  lt_iff a b := by grind [le_def, lt_def]

end UploadName

/-- An object as it is kept. -/
structure KeptObject where
  body : Bytes
  etag : String
  contentType : Option String
  lastModified : Instant
  storageClass : Option String
  encryption : Option Encryption
  /-- The stamp of the customer key that guards the object. -/
  lock : Option KeyStamp
  metadata : Table String String

/-- A part as it is kept. -/
structure KeptPart where
  body : Bytes
  etag : String
  lastModified : Instant
  deriving DecidableEq

/-- An open upload: the attributes of the object to come, and the parts so far, by number. -/
structure Upload where
  initiated : Instant
  contentType : Option String
  storageClass : Option String
  encryption : Option Encryption
  lock : Option KeyStamp
  parts : Table Int32 KeptPart

/-- A bucket. -/
structure Bucket where
  created : Instant
  objects : Table String KeptObject := ∅
  uploads : Table UploadName Upload := ∅

/-- The number of entries that listings of a bucket can show: objects, open uploads and parts. -/
def Bucket.entryCount (b : Bucket) : Nat :=
  b.objects.size + b.uploads.size + b.uploads.entries.foldr (fun u n => u.2.parts.size + n) 0

/-- The buckets of a backend that keeps everything in tables, and what it needs to go on. -/
structure Store where
  buckets : Table String Bucket := ∅
  /-- The least size of a part that is not the last one of its object. -/
  minPartSize : UInt64 := 0
  /-- Whether taking away an object that is not there is a fault. -/
  strictDelete : Bool := false
  /-- The ids that new uploads are given, in turn. -/
  ids : Nat → String
  /-- How many ids are given away. -/
  drawn : Nat := 0
  /-- The readings of the clock, in turn. -/
  clock : Nat → Instant := fun _ => .epoch
  /-- How often the clock was read. -/
  readings : Nat := 0
  /-- Faults that are answered in place of a result: each by the next request of its kind. -/
  faults : List (Request.Kind × Fault) := []
  /-- The requests, in the order in which they came. -/
  log : List Request := []

namespace Store

/-- The reading that the clock shows next. -/
def now (s : Store) : Instant := s.clock s.readings

/-- The store after its clock was read. -/
def tick (s : Store) : Store := { s with readings := s.readings + 1 }

/-- The id that the next upload is given. -/
def nextId (s : Store) : String := s.ids s.drawn

/-- The store after an id was given away. -/
def draw (s : Store) : Store := { s with drawn := s.drawn + 1 }

/-- The store with another bucket under a name. -/
def setBucket (s : Store) (name : String) (b : Bucket) : Store :=
  { s with buckets := s.buckets.insert name b }

/-- The store with a new bucket under a name. -/
def addBucket (s : Store) (name : String) : Store :=
  (s.setBucket name { created := s.now }).tick

/-- A store with new buckets and these settings. -/
def withBuckets (names : List String) (ids : Nat → String) (minPartSize : UInt64)
    (strictDelete : Bool) : Store :=
  names.foldl addBucket { ids, minPartSize, strictDelete }

/-- Lets the next request of a kind be answered with a fault, after those that wait already. -/
def arrangeFault (s : Store) (kind : Request.Kind) (fault : Fault) : Store :=
  { s with faults := s.faults ++ [(kind, fault)] }

/-- Forgets the requests so far. -/
def clearLog (s : Store) : Store := { s with log := [] }

/-- The keys of a bucket in order; none if there is no such bucket. -/
def keysIn (s : Store) (bucket : String) : List String :=
  (s.buckets.get? bucket).elim [] fun b => b.objects.keys

/-- The body of an object. -/
def bodyAt? (s : Store) (bucket key : String) : Option Bytes := do
  let b ← s.buckets.get? bucket
  let o ← b.objects.get? key
  return o.body

/-- The number of open uploads of a bucket. -/
def openUploadsIn (s : Store) (bucket : String) : Nat :=
  (s.buckets.get? bucket).elim 0 fun b => b.uploads.size

/-- The number of entries that listings can show, in all buckets. -/
def entryCount (s : Store) : Nat :=
  s.buckets.entries.foldr (fun e n => e.2.entryCount + n) 0

end Store

end ObjectStore
