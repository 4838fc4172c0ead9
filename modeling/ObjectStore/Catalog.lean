import ObjectStore.Position
import ObjectStore.Mount.Basic
import ObjectStore.Feed

/-!
# Catalogs

A catalog mounts the buckets of a backend, each with the settings of one template. All buckets are
listed in one page; a bucket that cannot be mounted makes the whole listing fail.
-/

namespace ObjectStore

/-- The settings that every bucket is mounted with; the template's own bucket does not matter. -/
structure Catalog where
  template : Settings

namespace Catalog

/-- The mount of a bucket. -/
def get (s : Catalog) (name : String) : Except Error Mount :=
  Mount.ofSettings { s.template with bucket := name }

/-- The mount of a listed bucket, made from the template anew. -/
def mountOf (s : Catalog) (bucket : Reply.ListedBucket) : Except Error Mount :=
  Mount.ofSettings { s.template with bucket := bucket.name }

/-- Fetches the page of all buckets. The first one that cannot be mounted stops it, with the mounts of
those before on the page. -/
def bucketPage (s : Catalog) (position : CatalogPosition) : Call (Fetch CatalogPosition Mount) :=
  .ask .listBuckets fun
    | .error fault => ⟨position, .failed (.ofFault fault)⟩
    | .ok reply => ⟨position, .filled s.mountOf reply.buckets true⟩

/-- Lists the mounts of all buckets. Nothing is asked before the first one. -/
def list (s : Catalog) : Listing CatalogPosition Mount := .start s.bucketPage ⟨⟩

end Catalog

end ObjectStore
