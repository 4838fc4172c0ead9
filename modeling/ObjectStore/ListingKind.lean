import ObjectStore.Fault
import ObjectStore.Text.Blank

/-!
# Kinds of listing

What a listing of a path shows: the entries of a directory, all objects below, or the open uploads
below. Listing by blocks is known by name, but no bucket supports it.
-/

namespace ObjectStore

/-- What is listed of that which lies below a path. -/
inductive ListingKind where
  /-- One level, with directories as one entry each. -/
  | dir
  /-- Everything whose key starts alike. -/
  | flat
  /-- Open uploads. -/
  | part
  /-- Blocks of an object. -/
  | block
  deriving DecidableEq

namespace ListingKind

instance : Inhabited ListingKind := ⟨dir⟩

/-- The name of a kind. -/
def text : ListingKind → String
  | dir => "dir"
  | flat => "prefix"
  | part => "part"
  | block => "block"

/-- The kind with a name. Blanks around it and capitals do not matter. -/
def ofText (text : String) : Except Error ListingKind :=
  let name := Text.lowerAscii (Text.trim text)
  match [dir, flat, part, block].find? fun kind => kind.text = name with
  | some kind => .ok kind
  | none => .error (.listingKind name)

/-- A kind is found again from its name. -/
theorem ofText_text (kind : ListingKind) : ofText kind.text = .ok kind := by
  cases kind <;> rfl

end ListingKind

end ObjectStore
